/-
  Embedded entries against the constraint texts that they stand for.

  A name and a value that are run together are cut where they were joined, so the two notations of
  constraints agree. An entry without a value leaves out a word, and the words behind it are taken
  for names and values the other way round. Such a text is always refused: the first name without a
  value is followed by a name, which is no value, or it is the last word of an odd number.

  * `splitEntry_entry`, `entries_compact`: constraints run together are cut where they were joined.
  * `findSome?_entryWords`: the words of cut entries taken two by two, by induction on the entries.
  * `applyText_expand`: an embedded text has the meaning of its entries, or is refused.
  * `Registry.read_single`, `expand_compact`: constraints run together, alone and in a sketch.
-/
import GridSketch.Proofs.Constraint.Apply
import GridSketch.Proofs.Constraint.Spelling
import GridSketch.Proofs.Sketch.Identifier
import GridSketch.Proofs.Sketch.Scan
import GridSketch.Proofs.Sketch.Step

namespace GridSketch

-- What holds of all characters of a text is decided on its characters.
attribute [local instance (2000)] List.decidableBAll

namespace Embedded

/-! ## The two notations -/

/-- A name in front of its value. -/
def entry (pair : Text × Text) : Text := pair.1 ++ pair.2

/-- Names and values run together, with separators between the entries. -/
def compact (pairs : List (Text × Text)) : Text := [entrySeparator].intercalate (pairs.map entry)

/-- Names and values as words. -/
def spelledOut (pairs : List (Text × Text)) : Text :=
  Text.unwords (pairs.flatMap fun pair => [pair.1, pair.2])

/-- A name of the table in any case of its letters, with a value that it can take. -/
def IsConstraint (pair : Text × Text) : Prop :=
  (∃ m ∈ Mnemonic.table, m.Spells pair.1) ∧ ∃ a, Assignment.read pair.1 pair.2 = .ok a

/-! ## Cutting -/

/-- The entries of an embedded text; the empty text has none. -/
def entries (spec : Text) : List Text :=
  if spec.isEmpty then [] else Text.pieces entrySeparator spec

theorem expand_eq (spec : Text) :
    expand spec = (splitEntries (entries spec)).map fun pairs => Text.unwords (entryWords pairs) := by
  rw [expand, entries]
  split <;> rfl

theorem splitEntries_eq_ok_iff {es : List Text} {pairs : List (Text × Text)} :
    splitEntries es = .ok pairs ↔ es.map splitEntry = pairs.map Except.ok := by
  induction es generalizing pairs with
  | nil => cases pairs <;> simp [splitEntries]
  | cons e es ih =>
    rw [splitEntries, List.map_cons]
    cases he : splitEntry e with
    | error fault => cases pairs <;> simp [bind, Except.bind]
    | ok pair =>
      cases hes : splitEntries es with
      | error fault =>
        cases pairs with
        | nil => simp [bind, Except.bind]
        | cons first rest => simp [bind, Except.bind, ← ih, hes]
      | ok others =>
        cases pairs with
        | nil => simp [bind, Except.bind, pure, Except.pure]
        | cons first rest => simp [bind, Except.bind, pure, Except.pure, ← ih, hes]

/-- What an entry is cut into: a name of the table and the rest of the entry. -/
theorem splitEntry_eq_ok {e : Text} {pair : Text × Text} (h : splitEntry e = .ok pair) :
    e = entry pair ∧ ∃ m ∈ Mnemonic.table, m.Spells pair.1 := by
  rw [splitEntry] at h
  split at h
  next m hm =>
    obtain rfl := Except.ok.inj h
    exact ⟨(List.take_append_drop m.spelling.length e).symm, m, Mnemonic.spells_of_leading? hm⟩
  next => cases h

/-- An entry is cut behind its name. -/
theorem splitEntry_entry {pair : Text × Text} (h : IsConstraint pair) :
    splitEntry (entry pair) = .ok pair := by
  obtain ⟨⟨m, hm, hname⟩, a, hread⟩ := h
  have hlength := Mnemonic.length_of_spells hname
  rw [splitEntry, entry, Mnemonic.leading?_append hm hname hread]
  simp only [← hlength, List.take_left, List.drop_left]

/-- The characters of entries: they are no separators, and part of an identifier in a sketch. -/
def IsEntryCharacter (c : Char) : Prop :=
  Token.isPlain c = true ∧ c ≠ entrySeparator ∧ c ≠ Region.specSeparator

instance (c : Char) : Decidable (IsEntryCharacter c) := inferInstanceAs (Decidable (_ ∧ _))

theorem isEntryCharacter_of_spells {m : Mnemonic} (hm : m ∈ Mnemonic.table) {name : Text}
    (h : m.Spells name) : ∀ c ∈ name, IsEntryCharacter c := by
  have htable : ∀ m ∈ Mnemonic.table, ∀ c ∈ m.spelling, IsEntryCharacter c := by decide +kernel
  intro c hc
  have hlower : IsEntryCharacter c.toLower := htable m hm _ (h ▸ List.mem_map_of_mem hc)
  exact Text.of_toNat_lt (Mnemonic.isAscii_of_spells hm h c hc)
    (fun c => IsEntryCharacter c.toLower → IsEntryCharacter c) (by decide +kernel) hlower

theorem isEntryCharacter_of_value {c : Char} (h : Value.IsCharacter c) (hplus : c ≠ '+')
    (hminus : c ≠ '-') : IsEntryCharacter c :=
  Text.of_toNat_lt h.1 (fun c => Value.IsCharacter c → c ≠ '+' → c ≠ '-' → IsEntryCharacter c)
    (by decide +kernel) h hplus hminus

theorem separator_not_mem_entry {pair : Text × Text} (h : IsConstraint pair) :
    entrySeparator ∉ entry pair := by
  obtain ⟨⟨m, hm, hname⟩, a, hread⟩ := h
  intro hmem
  rcases List.mem_append.mp hmem with hmem | hmem
  · exact (isEntryCharacter_of_spells hm hname _ hmem).2.1 rfl
  · exact absurd (Assignment.isCharacter_of_read hread _ hmem) (by decide)

/-- Constraints that are run together are cut where they were joined. -/
theorem entries_compact {pairs : List (Text × Text)} (h : ∀ pair ∈ pairs, IsConstraint pair) :
    entries (compact pairs) = pairs.map entry := by
  cases pairs with
  | nil => rfl
  | cons first rest =>
    have hne : (first :: rest).map entry ≠ [] := List.cons_ne_nil _ _
    have hpieces : Text.pieces entrySeparator (compact (first :: rest)) = (first :: rest).map entry :=
      List.splitOn_intercalate entrySeparator (fun e he => by
        obtain ⟨pair, hpair, rfl⟩ := List.mem_map.mp he
        exact separator_not_mem_entry (h pair hpair)) hne
    have hcompact : compact (first :: rest) ≠ [] := by
      intro hnil
      rw [hnil] at hpieces
      obtain ⟨⟨m, hm, hname⟩, -⟩ := h first List.mem_cons_self
      have hempty : [] = entry first := (List.cons.inj hpieces).1
      exact Mnemonic.ne_nil_of_spells hm hname (List.append_eq_nil_iff.mp hempty.symm).1
    rw [entries, if_neg (by rwa [List.isEmpty_iff]), hpieces]

theorem splitEntries_map_entry {pairs : List (Text × Text)}
    (h : ∀ pair ∈ pairs, IsConstraint pair) : splitEntries (pairs.map entry) = .ok pairs := by
  rw [splitEntries_eq_ok_iff, List.map_map]
  exact List.map_congr_left fun pair hpair => splitEntry_entry (h pair hpair)

/-! ## Words -/

theorem entryWords_cons {pair : Text × Text} (hname : pair.1 ≠ []) (rest : List (Text × Text)) :
    entryWords (pair :: rest) =
      if pair.2 = [] then pair.1 :: entryWords rest else pair.1 :: pair.2 :: entryWords rest := by
  split
  next hvalue => simp [entryWords, hname, hvalue]
  next hvalue => simp [entryWords, hname, hvalue]

/-- Where every name has a value, all names and values are words. -/
theorem entryWords_eq {pairs : List (Text × Text)}
    (h : ∀ pair ∈ pairs, pair.1 ≠ [] ∧ pair.2 ≠ []) :
    entryWords pairs = pairs.flatMap fun pair => [pair.1, pair.2] := by
  rw [entryWords, List.filter_eq_self]
  intro w hw
  obtain ⟨pair, hpair, hw⟩ := List.mem_flatMap.mp hw
  rcases List.mem_cons.mp hw with rfl | hw
  · simpa using (h pair hpair).1
  · rw [List.mem_singleton.mp hw]
    simpa using (h pair hpair).2

/-! ## Names without a value -/

theorem code_of_faultOf {m : Mnemonic} (hm : m ∈ Mnemonic.table) {name value : Text}
    (hname : m.Spells name) {fault : Fault} (h : faultOf (name, value) = some fault) :
    fault.code ≠ .constraintNameUnknown := by
  rw [faultOf] at h
  split at h
  next => cases h
  next hread =>
    obtain rfl := Option.some.inj h
    exact Assignment.code_ne_nameUnknown (Mnemonic.target?_of_spells hm hname) hread

/-- The words of cut entries, taken two by two, can all be read only if every name has a value.
    Otherwise the first pair that cannot be read has a name of the table. -/
theorem findSome?_entryWords {pairs : List (Text × Text)}
    (hnames : ∀ pair ∈ pairs, ∃ m ∈ Mnemonic.table, m.Spells pair.1)
    (heven : (entryWords pairs).length % 2 = 0) :
    ((pairsOf (entryWords pairs)).findSome? faultOf = none ∧ ∀ pair ∈ pairs, pair.2 ≠ []) ∨
      ∃ fault, (pairsOf (entryWords pairs)).findSome? faultOf = some fault ∧
        fault.code ≠ .constraintNameUnknown := by
  induction pairs with
  | nil => exact .inl ⟨rfl, by simp⟩
  | cons pair rest ih =>
    obtain ⟨m, hm, hname⟩ := hnames pair List.mem_cons_self
    have hne := Mnemonic.ne_nil_of_spells hm hname
    have hrest := fun p hp => hnames p (List.mem_cons_of_mem pair hp)
    by_cases hvalue : pair.2 = []
    · rw [entryWords_cons hne, if_pos hvalue] at heven ⊢
      cases rest with
      | nil =>
        have hone : 1 % 2 = 0 := heven
        omega
      | cons next others =>
        -- The next name stands where the value is missing.
        obtain ⟨m', hm', hname'⟩ := hrest next List.mem_cons_self
        have htail : ∃ tail, entryWords (next :: others) = next.1 :: tail := by
          rw [entryWords_cons (Mnemonic.ne_nil_of_spells hm' hname')]
          split <;> exact ⟨_, rfl⟩
        obtain ⟨tail, htail⟩ := htail
        obtain ⟨fault, hfault⟩ :=
          Assignment.read_of_spells hm' hname' (Mnemonic.target?_of_spells hm hname)
        have hfirst : faultOf (pair.1, next.1) = some fault := by rw [faultOf, hfault]
        rw [htail, pairsOf, List.findSome?_cons, hfirst]
        exact .inr ⟨fault, rfl, code_of_faultOf hm hname hfirst⟩
    · rw [entryWords_cons hne, if_neg hvalue] at heven ⊢
      rw [pairsOf, List.findSome?_cons]
      cases hfirst : faultOf (pair.1, pair.2) with
      | some fault => exact .inr ⟨fault, rfl, code_of_faultOf hm hname hfirst⟩
      | none =>
        rw [List.length_cons, List.length_cons] at heven
        refine (ih hrest (by omega)).imp_left fun hreadable => ⟨hreadable.1, fun p hp => ?_⟩
        rcases List.mem_cons.mp hp with rfl | hp
        · exact hvalue
        · exact hreadable.2 p hp

/-! ## Embedded texts -/

theorem subset_intercalate {separator : Text} {es : List Text} {e : Text} (h : e ∈ es) :
    e ⊆ separator.intercalate es := by
  induction es with
  | nil => cases h
  | cons first rest ih =>
    cases rest with
    | nil =>
      rw [List.mem_singleton.mp h, List.intercalate_singleton]
      exact List.Subset.refl first
    | cons second others =>
      rw [List.intercalate_cons_cons]
      rcases List.mem_cons.mp h with rfl | h
      · exact fun c hc => List.mem_append_left _ (List.mem_append_left _ hc)
      · exact fun c hc => List.mem_append_right _ (ih h hc)

theorem mem_intercalate {separator : Text} {es : List Text} {c : Char}
    (h : c ∈ separator.intercalate es) : c ∈ separator ∨ ∃ e ∈ es, c ∈ e := by
  induction es with
  | nil => cases h
  | cons first rest ih =>
    cases rest with
    | nil =>
      rw [List.intercalate_singleton] at h
      exact .inr ⟨first, List.mem_singleton_self first, h⟩
    | cons second others =>
      rw [List.intercalate_cons_cons] at h
      rcases List.mem_append.mp h with h | h
      · rcases List.mem_append.mp h with h | h
        · exact .inr ⟨first, List.mem_cons_self, h⟩
        · exact .inl h
      · exact (ih h).imp_right fun ⟨e, he, hc⟩ => ⟨e, List.mem_cons_of_mem first he, hc⟩

/-- An entry has no other characters than the embedded text. -/
theorem subset_of_mem_entries {spec e : Text} (h : e ∈ entries spec) : e ⊆ spec := by
  rw [entries] at h
  split at h
  next => cases h
  next =>
    have hjoined : [entrySeparator].intercalate (Text.pieces entrySeparator spec) = spec :=
      List.intercalate_splitOn entrySeparator
    have hsubset : e ⊆ [entrySeparator].intercalate (Text.pieces entrySeparator spec) :=
      subset_intercalate h
    rwa [hjoined] at hsubset

/-- What a text is cut into: names of the table, each with the rest of its entry. -/
theorem exists_pairs_of_expand {spec text : Text} (h : expand spec = .ok text) :
    ∃ pairs, (entries spec).map splitEntry = pairs.map Except.ok ∧
      text = Text.unwords (entryWords pairs) ∧
      ∀ pair ∈ pairs, (∃ m ∈ Mnemonic.table, m.Spells pair.1) ∧ entry pair ⊆ spec := by
  rw [expand_eq] at h
  cases hsplit : splitEntries (entries spec) with
  | error fault => rw [hsplit] at h; cases h
  | ok pairs =>
    rw [hsplit] at h
    rw [splitEntries_eq_ok_iff] at hsplit
    refine ⟨pairs, hsplit, (Except.ok.inj h).symm, fun pair hpair => ?_⟩
    obtain ⟨e, he, hcut⟩ := List.mem_map.mp (hsplit ▸ List.mem_map_of_mem hpair)
    obtain ⟨rfl, hname⟩ := splitEntry_eq_ok hcut
    exact ⟨hname, subset_of_mem_entries he⟩

/-- Every name has a value, and one that it can take. -/
def Complete (pairs : List (Text × Text)) : Prop :=
  ∀ pair ∈ pairs, pair.2 ≠ [] ∧ ∃ a, Assignment.read pair.1 pair.2 = .ok a

theorem complete_iff {pairs : List (Text × Text)} :
    Complete pairs ↔ pairs.findSome? faultOf = none ∧ ∀ pair ∈ pairs, pair.2 ≠ [] := by
  rw [List.findSome?_eq_none_iff]
  have hfault : ∀ pair, faultOf pair = none ↔ ∃ a, Assignment.read pair.1 pair.2 = .ok a := by
    intro pair
    rw [faultOf]
    cases Assignment.read pair.1 pair.2 <;> simp
  constructor
  · exact fun h => ⟨fun pair hpair => (hfault pair).mpr (h pair hpair).2,
      fun pair hpair => (h pair hpair).1⟩
  · exact fun h pair hpair => ⟨h.2 pair hpair, (hfault pair).mp (h.1 pair hpair)⟩

/-- A text of cut entries is carried out as its entries are, or it is refused, and not for a
    name. -/
theorem applyText_of_words {pairs : List (Text × Text)}
    (hnames : ∀ pair ∈ pairs, ∃ m ∈ Mnemonic.table, m.Spells pair.1) {text : Text}
    (hwords : Text.words text = entryWords pairs) (r : Record) :
    (Complete pairs ∧ r.applyText text = r.applyPairs pairs ∧ (r.applyText text).fault = none) ∨
      ¬ Complete pairs ∧
        ∃ fault, (r.applyText text).fault = some fault ∧ fault.code ≠ .constraintNameUnknown := by
  have hvalued : (∀ pair ∈ pairs, pair.2 ≠ []) →
      entryWords pairs = pairs.flatMap fun pair => [pair.1, pair.2] := fun h =>
    entryWords_eq fun pair hpair =>
      have ⟨m, hm, hname⟩ := hnames pair hpair
      ⟨Mnemonic.ne_nil_of_spells hm hname, h pair hpair⟩
  by_cases hcomplete : Complete pairs
  · obtain ⟨hread, hvalues⟩ := complete_iff.mp hcomplete
    rw [hvalued hvalues] at hwords
    have happly : r.applyText text = r.applyPairs pairs := by
      rw [Record.applyText_of_even (by rw [hwords, length_flatMap]), hwords, pairsOf_flatMap]
    exact .inl ⟨hcomplete, happly, by rw [happly, Record.fault_applyPairs, hread]⟩
  · refine .inr ⟨hcomplete, ?_⟩
    rcases Nat.mod_two_eq_zero_or_one (entryWords pairs).length with heven | hodd
    · rw [Record.applyText_of_even (by rwa [hwords]), hwords, Record.fault_applyPairs]
      refine (findSome?_entryWords hnames heven).resolve_left fun ⟨hread, hvalues⟩ => ?_
      rw [hvalued hvalues, pairsOf_flatMap] at hread
      exact hcomplete (complete_iff.mpr ⟨hread, hvalues⟩)
    · obtain ⟨last, -, hlast⟩ := Record.applyText_of_odd (by rwa [hwords])
      exact ⟨.valueMissing text last, by rw [hlast], nofun⟩

/-- A text of embedded entries is carried out exactly if every entry has a value that its name can
    take, and then it has the effect of the entries, one after the other. A text that is refused is
    never refused for a name. -/
theorem applyText_expand {spec text : Text} (hspec : ∀ c ∈ spec, Text.isBlank c = false)
    (htext : expand spec = .ok text) :
    ∃ pairs, (entries spec).map splitEntry = pairs.map Except.ok ∧ ∀ r : Record,
      ((r.applyText text).fault = none ↔ Complete pairs) ∧
      ((r.applyText text).fault = none → r.applyText text = r.applyPairs pairs) ∧
      ∀ fault, (r.applyText text).fault = some fault → fault.code ≠ .constraintNameUnknown := by
  obtain ⟨pairs, hcut, rfl, hpairs⟩ := exists_pairs_of_expand htext
  have hwords : Text.words (Text.unwords (entryWords pairs)) = entryWords pairs := by
    refine Text.words_unwords fun w hw => ?_
    obtain ⟨hmem, hne⟩ := List.mem_filter.mp hw
    obtain ⟨pair, hpair, hmem⟩ := List.mem_flatMap.mp hmem
    have hsubset : w ⊆ entry pair := by
      rcases List.mem_cons.mp hmem with rfl | hmem
      · exact List.subset_append_left _ _
      · rw [List.mem_singleton.mp hmem]
        exact List.subset_append_right _ _
    exact ⟨by simpa using hne, fun c hc => hspec c ((hpairs pair hpair).2 (hsubset hc))⟩
  refine ⟨pairs, hcut, fun r => ?_⟩
  rcases applyText_of_words (fun pair hpair => (hpairs pair hpair).1) hwords r with
    ⟨hcomplete, happly, hnone⟩ | ⟨hincomplete, fault, hfault, hcode⟩
  · rw [hnone]
    exact ⟨⟨fun _ => hcomplete, fun _ => rfl⟩, fun _ => happly, nofun⟩
  · rw [hfault]
    refine ⟨⟨nofun, fun hcomplete => absurd hcomplete hincomplete⟩, nofun, ?_⟩
    rintro _ ⟨⟩
    exact hcode

/-- Two entries without a value leave an even number of words, and the text is refused for the value
    that the next name would be. -/
theorem applyText_expand_two_gaps :
    expand "wx1,Fill,a,i*5".toList = .ok "wx 1 Fill a i* 5".toList ∧
      ∃ pairs, (entries "wx1,Fill,a,i*5".toList).map splitEntry = pairs.map Except.ok ∧
        ¬ Complete pairs ∧
        (Record.standard.applyText "wx 1 Fill a i* 5".toList).fault =
          some (.fillUnknown "a".toList) ∧
        (Fault.fillUnknown "a".toList).code ≠ .constraintNameUnknown := by
  have htext : expand "wx1,Fill,a,i*5".toList = .ok "wx 1 Fill a i* 5".toList := rfl
  have hfault : (Record.standard.applyText "wx 1 Fill a i* 5".toList).fault =
      some (.fillUnknown "a".toList) := by decide +kernel
  obtain ⟨pairs, hcut, hmeaning⟩ := applyText_expand (by decide) htext
  obtain ⟨hiff, -, hcode⟩ := hmeaning Record.standard
  refine ⟨htext, pairs, hcut, fun hcomplete => ?_, hfault, hcode _ hfault⟩
  cases hfault.symm.trans (hiff.mpr hcomplete)

/-! ## Constraints run together -/

section

variable {pairs : List (Text × Text)} (h : ∀ pair ∈ pairs, IsConstraint pair)
include h

theorem entryWords_of_isConstraint :
    entryWords pairs = pairs.flatMap fun pair => [pair.1, pair.2] :=
  entryWords_eq fun pair hpair =>
    have ⟨⟨_, hm, hname⟩, _, hread⟩ := h pair hpair
    ⟨Mnemonic.ne_nil_of_spells hm hname, Assignment.ne_nil_of_read hread⟩

/-- Names and values that are spelled out are the words of the text. -/
theorem words_spelledOut : Text.words (spelledOut pairs) = entryWords pairs := by
  rw [entryWords_of_isConstraint h]
  refine Text.words_unwords fun w hw => ?_
  obtain ⟨pair, hpair, hw⟩ := List.mem_flatMap.mp hw
  obtain ⟨⟨m, hm, hname⟩, a, hread⟩ := h pair hpair
  rcases List.mem_cons.mp hw with rfl | hw
  · refine ⟨Mnemonic.ne_nil_of_spells hm hname, fun c hc => ?_⟩
    have hplain := (isEntryCharacter_of_spells hm hname c hc).1
    simp only [Token.isPlain, Bool.and_eq_true, Bool.not_eq_true'] at hplain
    exact hplain.1
  · rw [List.mem_singleton.mp hw]
    exact Assignment.isWord_of_read hread

/-- Constraints without a sign that are run together may stand in a sketch, behind a name. -/
theorem isPlain_of_mem_compact (hvalues : ∀ pair ∈ pairs, '+' ∉ pair.2 ∧ '-' ∉ pair.2) :
    ∀ c ∈ compact pairs, Token.isPlain c = true ∧ c ≠ Region.specSeparator := by
  intro c hc
  rcases mem_intercalate hc with hc | ⟨e, he, hc⟩
  · rw [List.mem_singleton.mp hc]
    decide
  · obtain ⟨pair, hpair, rfl⟩ := List.mem_map.mp he
    obtain ⟨⟨m, hm, hspells⟩, a, hread⟩ := h pair hpair
    obtain ⟨hplus, hminus⟩ := hvalues pair hpair
    have hcharacter : IsEntryCharacter c := by
      rcases List.mem_append.mp hc with hc | hc
      · exact isEntryCharacter_of_spells hm hspells c hc
      · refine isEntryCharacter_of_value (Assignment.isCharacter_of_read hread c hc) ?_ ?_
        · exact fun heq => hplus (heq ▸ hc)
        · exact fun heq => hminus (heq ▸ hc)
    exact ⟨hcharacter.1, hcharacter.2.2⟩

end

end Embedded

/-- The tokens of a row with a single identifier. -/
theorem Token.scan_single {identifier : Text} (hne : identifier ≠ [])
    (hplain : ∀ c ∈ identifier, isPlain c = true) :
    scan ('\x7b' :: (identifier ++ ['\x7d'])) =
      [.mark .rowStart 0, .identifier identifier 1,
        .mark .rowEnd (1 + Text.size16 identifier)] := by
  have hend : StartsApart ['\x7d'] := by
    intro c hc
    obtain rfl := Option.some.inj hc
    decide
  rw [scan, scanFrom_mark (by decide : Mark.ofChar? '\x7b' = some .rowStart),
    scanFrom_word hne hplain hend, scanFrom_mark (by decide : Mark.ofChar? '\x7d' = some .rowEnd)]
  rfl

/-- A sketch of a single identifier with embedded entries has a single region. -/
theorem Registry.read_single {name spec constraints : Text}
    (hname : ∀ c ∈ name, Token.isPlain c = true ∧ c ≠ Region.specSeparator)
    (hspec : ∀ c ∈ spec, Token.isPlain c = true ∧ c ≠ Region.specSeparator)
    (hexpand : Embedded.expand spec = .ok constraints) :
    (read ('\x7b' :: (name ++ Region.specSeparator :: spec ++ ['\x7d']))).outcome =
      .ok (ofList [⟨name, 0, 0, 1, 1, constraints⟩]) := by
  have hplain : ∀ c ∈ name ++ Region.specSeparator :: spec, Token.isPlain c = true := by
    intro c hc
    rcases List.mem_append.mp hc with hc | hc
    · exact (hname c hc).1
    · rcases List.mem_cons.mp hc with rfl | hc
      · decide
      · exact (hspec c hc).1
  have hcut : Region.splitIdentifier (name ++ Region.specSeparator :: spec) = (name, spec) :=
    Region.splitIdentifier_name_spec (fun hc => (hname _ hc).2 rfl) fun hc => (hspec _ hc).2 rfl
  have hregion : ∀ offset, Region.ofIdentifier (name ++ Region.specSeparator :: spec) offset 0 0 =
      .ok ⟨name, 0, 0, 1, 1, constraints⟩ := by
    intro offset
    rw [Region.ofIdentifier, hcut]
    simp only [hexpand]
  rw [read, Traced.outcome_bind, Token.scan_single (by simp) hplain, Draft.run_outcome_cons,
    Draft.step_outcome_rowStart]
  simp only [Except.bind, Draft.run_outcome_cons, Draft.step_outcome_identifier, Draft.start,
    hregion, Except.map, Draft.step_outcome_rowEnd, Draft.run_outcome_nil]
  rfl

namespace Embedded

/-- Constraints that are run together are spelled out in the same words, with the effect of the
    constraints. If no value has a sign they may also stand behind a name in a sketch. -/
theorem expand_compact (pairs : List (Text × Text)) (h : ∀ pair ∈ pairs, IsConstraint pair) :
    expand (compact pairs) = .ok (spelledOut pairs) ∧
      (∀ r : Record, (r.applyText (spelledOut pairs)).fault = none ∧
        r.applyText (spelledOut pairs) = r.applyPairs pairs) ∧
      ((∀ pair ∈ pairs, '+' ∉ pair.2 ∧ '-' ∉ pair.2) → ∀ name : Text,
        (∀ c ∈ name, Token.isPlain c = true ∧ c ≠ Region.specSeparator) →
        (Registry.read
          ('\x7b' :: (name ++ Region.specSeparator :: compact pairs ++ ['\x7d']))).outcome =
            .ok (Registry.ofList [⟨name, 0, 0, 1, 1, spelledOut pairs⟩])) := by
  have hexpand : expand (compact pairs) = .ok (spelledOut pairs) := by
    rw [expand_eq, entries_compact h, splitEntries_map_entry h, spelledOut,
      ← entryWords_of_isConstraint h]
    rfl
  refine ⟨hexpand, fun r => ?_, fun hvalues name hname => ?_⟩
  · have hcomplete : Complete pairs := fun pair hpair =>
      have ⟨_, a, hread⟩ := h pair hpair
      ⟨Assignment.ne_nil_of_read hread, a, hread⟩
    rcases applyText_of_words (fun pair hpair => (h pair hpair).1) (words_spelledOut h) r with
      ⟨-, happly, hnone⟩ | ⟨hincomplete, -⟩
    · exact ⟨hnone, happly⟩
    · exact absurd hcomplete hincomplete
  · exact Registry.read_single hname (isPlain_of_mem_compact h hvalues) hexpand

/-- Names in any case, and a value that goes on like a longer name of the same constraint. -/
theorem expand_compact_mixed_case :
    let pairs := [("WX".toList, "1.5".toList), ("a".toList, "nW".toList), ("I*".toList, "5".toList)]
    expand "WX1.5,anW,I*5".toList = .ok "WX 1.5 a nW I* 5".toList ∧
      (Record.standard.applyText "WX 1.5 a nW I* 5".toList).fault = none ∧
      Record.standard.applyText "WX 1.5 a nW I* 5".toList = Record.standard.applyPairs pairs ∧
      (Registry.read "\x7bok:WX1.5,anW,I*5\x7d".toList).outcome =
        .ok (Registry.ofList [⟨"ok".toList, 0, 0, 1, 1, "WX 1.5 a nW I* 5".toList⟩]) := by
  intro pairs
  have hpairs : ∀ pair ∈ pairs, IsConstraint pair := by
    have hnames : ∀ pair ∈ pairs, ∃ m ∈ Mnemonic.table, m.Spells pair.1 := by decide
    have hvalues : ∀ pair ∈ pairs, (Assignment.read pair.1 pair.2).toOption.isSome = true := by
      decide +kernel
    intro pair hpair
    refine ⟨hnames pair hpair, ?_⟩
    have hread := hvalues pair hpair
    cases h : Assignment.read pair.1 pair.2 with
    | ok a => exact ⟨a, rfl⟩
    | error fault => rw [h] at hread; cases hread
  obtain ⟨hexpand, happly, hsketch⟩ := expand_compact pairs hpairs
  exact ⟨hexpand, (happly _).1, (happly _).2, hsketch (by decide) "ok".toList (by decide)⟩

end Embedded

end GridSketch
