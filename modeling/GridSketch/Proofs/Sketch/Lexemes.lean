/-
  The tokens of a sketch seen as a string of 16-bit code units, well formed or not.

  The units are read from the front: blanks are passed over, a mark is one lexeme, and any other unit
  starts an identifier that goes on as long as neither a blank nor a mark is met. What is read that
  way is told without reading (`IsLexeme`): a mark at each of its units, and an identifier for each
  run of plain units that neither side extends. The tokens of a text are the lexemes of its units.

  * `scanFrom_eq`: the lexemes in closed form, each found by looking at its position alone.
  * `scan_writing`: lexemes that are written down, with any blanks around them, are read back.
  * `scanFrom_encode16`: the tokens of a text are the lexemes of its code units.
  * `scan_exact`: all of it together.
-/
import GridSketch.Proofs.Sketch.Scan
import GridSketch.Proofs.Text.CodeUnits
import Mathlib.Data.List.Basic
import Mathlib.Data.List.TakeWhile

namespace GridSketch

/-- A token of a string of code units, with its position. -/
inductive Lexeme where
  | mark (m : Mark) (offset : Nat)
  | identifier (text : Units) (offset : Nat)
  deriving DecidableEq, Repr

/-- The position of a lexeme. -/
def Lexeme.offset : Lexeme → Nat
  | mark _ o => o
  | identifier _ o => o

/-- The lexeme that a token of a text is. -/
def Token.lexeme : Token → Lexeme
  | mark m o => .mark m o
  | identifier text o => .identifier (Text.encode16 text) o

namespace Units

/-! ## Kinds of units -/

/-- Whether a unit is a blank. -/
def isBlank (x : UInt16) : Bool :=
  Text.blankRanges.any fun range => decide (range.1 ≤ x.toNat ∧ x.toNat ≤ range.2)

/-- The mark that a unit is. -/
def mark? (x : UInt16) : Option Mark :=
  (Mark.table.find? fun row => row.1.toNat == x.toNat).map Prod.snd

/-- A unit that is neither a blank nor a mark. -/
def isPlain (x : UInt16) : Bool := !isBlank x && (mark? x).isNone

/-- A string at whose start no run of plain units goes on. -/
def StartsApart (u : Units) : Prop := ∀ x ∈ u.head?, isPlain x = false

/-- A string behind which no run of plain units goes on. -/
def EndsApart (u : Units) : Prop := ∀ x ∈ u.getLast?, isPlain x = false

instance (u : Units) : Decidable (EndsApart u) :=
  inferInstanceAs (Decidable (∀ x ∈ u.getLast?, _))

/-! ## Reading -/

/-- A unit that is no blank and no mark is passed over by the run that it starts. -/
theorem length_dropWhile_isPlain_lt {x : UInt16} {rest : Units} (hblank : ¬ isBlank x = true)
    (hmark : mark? x = none) :
    ((x :: rest).dropWhile isPlain).length < (x :: rest).length := by
  have hx : isPlain x = true := by simp [isPlain, hblank, hmark]
  rw [List.dropWhile_cons, if_pos hx, List.length_cons]
  exact Nat.lt_succ_of_le (List.dropWhile_sublist isPlain).length_le

/-- The lexemes of a string that starts at a given position. -/
def scanFrom (offset : Nat) : Units → List Lexeme
  | [] => []
  | x :: rest =>
    if hblank : isBlank x then scanFrom (offset + 1) rest
    else match hmark : mark? x with
      | some m => .mark m offset :: scanFrom (offset + 1) rest
      | none =>
        let run := (x :: rest).takeWhile isPlain
        .identifier run offset ::
          scanFrom (offset + run.length) ((x :: rest).dropWhile isPlain)
termination_by u => u.length
decreasing_by
  · simp
  · simp
  · exact length_dropWhile_isPlain_lt hblank hmark

/-- The lexemes of a string. -/
def scan (u : Units) : List Lexeme := scanFrom 0 u

theorem isBlank_of_mark? {x : UInt16} {m : Mark} (h : mark? x = some m) : isBlank x = false := by
  obtain ⟨row, hrow, -⟩ := Option.map_eq_some_iff.mp h
  have hcode := List.find?_some hrow
  rw [beq_iff_eq] at hcode
  have hall : ∀ row ∈ Mark.table, Text.isBlank row.1 = false := by decide
  rw [isBlank, ← hcode]
  exact hall row (List.mem_of_find?_eq_some hrow)

theorem isPlain_of_isBlank {x : UInt16} (h : isBlank x = true) : isPlain x = false := by
  simp [isPlain, h]

theorem isPlain_of_mark? {x : UInt16} {m : Mark} (h : mark? x = some m) : isPlain x = false := by
  simp [isPlain, h]

theorem mark?_of_isPlain {x : UInt16} (h : isPlain x = true) : mark? x = none := by
  simp_all [isPlain]

theorem isBlank_of_isPlain {x : UInt16} (h : isPlain x = true) : isBlank x = false := by
  simp_all [isPlain]

@[simp] theorem scanFrom_nil (o : Nat) : scanFrom o [] = [] := by rw [scanFrom]

theorem scanFrom_blank {x : UInt16} (h : isBlank x = true) (o : Nat) (u : Units) :
    scanFrom o (x :: u) = scanFrom (o + 1) u := by
  rw [scanFrom, dif_pos h]

theorem scanFrom_blanks {g : Units} (hg : ∀ x ∈ g, isBlank x = true) (o : Nat) (u : Units) :
    scanFrom o (g ++ u) = scanFrom (o + g.length) u := by
  induction g generalizing o with
  | nil => rfl
  | cons x rest ih =>
    rw [List.cons_append, scanFrom_blank (hg x List.mem_cons_self),
      ih fun y hy => hg y (List.mem_cons_of_mem x hy), List.length_cons]
    congr 1
    omega

theorem scanFrom_mark {x : UInt16} {m : Mark} (h : mark? x = some m) (o : Nat) (u : Units) :
    scanFrom o (x :: u) = .mark m o :: scanFrom (o + 1) u := by
  rw [scanFrom, dif_neg (by simp [isBlank_of_mark? h])]
  split
  next found hfound => rw [Option.some.inj (hfound.symm.trans h)]
  next hnone => cases hnone.symm.trans h

theorem takeWhile_run {w u : Units} (hw : ∀ x ∈ w, isPlain x = true) (hu : StartsApart u) :
    (w ++ u).takeWhile isPlain = w := by
  rw [List.takeWhile_append_of_pos hw]
  cases u with
  | nil => simp
  | cons y rest => simp [hu y rfl]

theorem dropWhile_run {w u : Units} (hw : ∀ x ∈ w, isPlain x = true) (hu : StartsApart u) :
    (w ++ u).dropWhile isPlain = u := by
  rw [List.dropWhile_append_of_pos hw]
  cases u with
  | nil => rfl
  | cons y rest => simp [hu y rfl]

theorem startsApart_dropWhile (u : Units) : StartsApart (u.dropWhile isPlain) := by
  intro y hy
  have hnot := List.head?_dropWhile_not isPlain u
  rwa [hy] at hnot

/-- A run of plain units that ends there is one identifier. -/
theorem scanFrom_run {w u : Units} (hne : w ≠ []) (hw : ∀ x ∈ w, isPlain x = true)
    (hu : StartsApart u) (o : Nat) :
    scanFrom o (w ++ u) = .identifier w o :: scanFrom (o + w.length) u := by
  have htake := takeWhile_run hw hu
  have hdrop := dropWhile_run hw hu
  obtain ⟨x, rest, rfl⟩ := List.exists_cons_of_ne_nil hne
  have hx := hw x List.mem_cons_self
  rw [List.cons_append] at htake hdrop ⊢
  rw [scanFrom, dif_neg (by simp [isBlank_of_isPlain hx])]
  split
  next found hfound => cases hfound.symm.trans (mark?_of_isPlain hx)
  next => simp only [htake, hdrop]

/-! ## Lexemes told without reading -/

/-- Whether a lexeme is one of a string: a mark at its unit, an identifier where its units stand and
    neither side extends them. -/
def IsLexeme (u : Units) : Lexeme → Prop
  | .mark m p => ∃ x, u[p]? = some x ∧ mark? x = some m
  | .identifier w p => ∃ before after, u = before ++ (w ++ after) ∧ before.length = p ∧
      (w ≠ [] ∧ ∀ x ∈ w, isPlain x = true) ∧ EndsApart before ∧ StartsApart after

/-- The lexeme at a position. -/
def lexemeAt? (u : Units) (p : Nat) : Option Lexeme :=
  match u[p]? with
  | none => none
  | some x =>
    match mark? x with
    | some m => some (.mark m p)
    | none =>
      if isPlain x = true ∧ EndsApart (u.take p) then
        some (.identifier ((u.drop p).takeWhile isPlain) p)
      else none

section

variable (before : Units) {x : UInt16} (rest : Units)

theorem lexemeAt?_blank (h : isBlank x = true) :
    lexemeAt? (before ++ x :: rest) before.length = none := by
  have hmark : mark? x = none := by
    cases hm : mark? x with
    | none => rfl
    | some m => cases h.symm.trans (isBlank_of_mark? hm)
  simp [lexemeAt?, hmark, isPlain_of_isBlank h]

theorem lexemeAt?_mark {m : Mark} (h : mark? x = some m) :
    lexemeAt? (before ++ x :: rest) before.length = some (.mark m before.length) := by
  simp [lexemeAt?, h]

end

/-- Where a run of plain units starts there is an identifier, and none starts within the run. -/
theorem lexemeAt?_run {before w after : Units} (hne : w ≠ []) (hw : ∀ x ∈ w, isPlain x = true)
    (hbefore : EndsApart before) (hafter : StartsApart after) :
    lexemeAt? (before ++ (w ++ after)) before.length = some (.identifier w before.length) ∧
      ∀ p, before.length < p → p < before.length + w.length →
        lexemeAt? (before ++ (w ++ after)) p = none := by
  constructor
  · obtain ⟨x, rest, rfl⟩ := List.exists_cons_of_ne_nil hne
    have hx := hw x List.mem_cons_self
    have htake := takeWhile_run hw hafter
    rw [List.cons_append] at htake ⊢
    simp [lexemeAt?, mark?_of_isPlain hx, hx, hbefore, htake]
  · intro p hp hlt
    obtain ⟨k, rfl⟩ : ∃ k, p = before.length + (k + 1) := ⟨p - before.length - 1, by omega⟩
    have hk : k + 1 < w.length := by omega
    -- the unit before the position belongs to the run
    have hends : ¬ EndsApart ((before ++ (w ++ after)).take (before.length + (k + 1))) := by
      intro hends
      have hlast := hends w[k] (by
        rw [List.take_length_add_append, List.take_append_of_le_length (by omega),
          List.take_succ_eq_append_getElem (by omega), ← List.append_assoc,
          List.getLast?_concat]
        rfl)
      rw [hw _ (List.getElem_mem _)] at hlast
      cases hlast
    have hx : (before ++ (w ++ after))[before.length + (k + 1)]? = some w[k + 1] := by
      rw [List.getElem?_append_right (by omega), Nat.add_sub_cancel_left,
        List.getElem?_append_left hk, List.getElem?_eq_getElem hk]
    simp only [lexemeAt?, hx, mark?_of_isPlain (hw _ (List.getElem_mem hk)), hends, and_false,
      if_false]

/-- The lexemes that are read are those that are found at the positions of the string. -/
theorem scanFrom_eq (before u : Units) (h : EndsApart before ∨ StartsApart u) :
    scanFrom before.length u =
      (List.range' before.length u.length).filterMap (lexemeAt? (before ++ u)) := by
  generalize ho : before.length = o
  fun_induction scanFrom o u generalizing before with
  | case1 o => rfl
  | case2 o x rest hblank ih =>
    have hends : EndsApart (before ++ [x]) := by
      simpa [EndsApart] using isPlain_of_isBlank hblank
    have hrest := ih (before ++ [x]) (.inl hends) (by simp [ho])
    rw [List.append_assoc, List.singleton_append] at hrest
    rw [hrest, List.length_cons, List.range'_succ, List.filterMap_cons, ← ho,
      lexemeAt?_blank before rest hblank]
  | case3 o x rest hblank m hmark ih =>
    have hends : EndsApart (before ++ [x]) := by
      simpa [EndsApart] using isPlain_of_mark? hmark
    have hrest := ih (before ++ [x]) (.inl hends) (by simp [ho])
    rw [List.append_assoc, List.singleton_append] at hrest
    rw [hrest, List.length_cons, List.range'_succ, List.filterMap_cons, ← ho,
      lexemeAt?_mark before rest hmark]
  | case4 o x rest hblank hmark run ih =>
    have hx : isPlain x = true := by simp [isPlain, hblank, hmark]
    have hrun : ∀ y ∈ run, isPlain y = true := fun y hy => List.mem_takeWhile_imp hy
    have hne : run ≠ [] := by simp [run, hx]
    have hbefore : EndsApart before := h.resolve_right fun hstarts => by
      cases hx.symm.trans (hstarts x rfl)
    have hafter := startsApart_dropWhile (x :: rest)
    have happend : run ++ (x :: rest).dropWhile isPlain = x :: rest :=
      List.takeWhile_append_dropWhile
    obtain ⟨hhead, hwithin⟩ := lexemeAt?_run hne hrun hbefore hafter
    have hrest := ih (before ++ run) (.inr hafter) (by simp [ho])
    have hlength : (x :: rest).length =
        run.length + ((x :: rest).dropWhile isPlain).length := by
      rw [← List.length_append, happend]
    rw [List.append_assoc, happend] at hrest
    rw [happend] at hhead hwithin
    rw [hrest, hlength, ← List.range'_append_1, List.filterMap_append]
    obtain ⟨k, hk⟩ : ∃ k, run.length = k + 1 :=
      ⟨run.length - 1, by have := List.length_pos_of_ne_nil hne; omega⟩
    have hnone : (List.range' (o + 1) k).filterMap (lexemeAt? (before ++ x :: rest)) = [] := by
      refine List.filterMap_eq_nil_iff.mpr fun p hp => hwithin p ?_ ?_
      · have := List.mem_range'_1.mp hp
        omega
      · have := List.mem_range'_1.mp hp
        omega
    rw [hk, List.range'_succ, List.filterMap_cons, ← ho, hhead, ho, hnone]
    rfl

/-- What is found at a position: a mark, or a run that starts there. -/
theorem lexemeAt?_cases {u : Units} {p : Nat} {l : Lexeme} (h : lexemeAt? u p = some l) :
    ∃ x, u[p]? = some x ∧ ((∃ m, mark? x = some m ∧ l = .mark m p) ∨
      (isPlain x = true ∧ EndsApart (u.take p) ∧
        l = .identifier ((u.drop p).takeWhile isPlain) p)) := by
  unfold lexemeAt? at h
  split at h
  · cases h
  next x hx =>
    refine ⟨x, hx, ?_⟩
    split at h
    next m hmark => exact .inl ⟨m, hmark, (Option.some.inj h).symm⟩
    next =>
      by_cases hstart : isPlain x = true ∧ EndsApart (u.take p)
      · rw [if_pos hstart] at h
        exact .inr ⟨hstart.1, hstart.2, (Option.some.inj h).symm⟩
      · rw [if_neg hstart] at h
        cases h

theorem offset_of_lexemeAt? {u : Units} {p : Nat} {l : Lexeme} (h : lexemeAt? u p = some l) :
    l.offset = p ∧ p < u.length := by
  obtain ⟨x, hx, ⟨m, -, rfl⟩ | ⟨-, -, rfl⟩⟩ := lexemeAt?_cases h
  · exact ⟨rfl, (List.getElem?_eq_some_iff.mp hx).1⟩
  · exact ⟨rfl, (List.getElem?_eq_some_iff.mp hx).1⟩

/-- A lexeme of a string is what is found at its position. -/
theorem isLexeme_iff {u : Units} {l : Lexeme} : IsLexeme u l ↔ lexemeAt? u l.offset = some l := by
  constructor
  · intro h
    cases l with
    | mark m p =>
      obtain ⟨x, hx, hmark⟩ := h
      simp [lexemeAt?, Lexeme.offset, hx, hmark]
    | identifier w p =>
      obtain ⟨before, after, rfl, rfl, ⟨hne, hw⟩, hbefore, hafter⟩ := h
      exact (lexemeAt?_run hne hw hbefore hafter).1
  · intro h
    generalize l.offset = p at h
    obtain ⟨x, hx, ⟨m, hmark, rfl⟩ | ⟨hplain, hstart, rfl⟩⟩ := lexemeAt?_cases h
    · exact ⟨x, hx, hmark⟩
    · obtain ⟨hlt, rfl⟩ := List.getElem?_eq_some_iff.mp hx
      refine ⟨u.take p, (u.drop p).dropWhile isPlain, ?_, List.length_take_of_le (Nat.le_of_lt hlt),
        ⟨?_, fun y hy => List.mem_takeWhile_imp hy⟩, hstart, startsApart_dropWhile _⟩
      · rw [List.takeWhile_append_dropWhile, List.take_append_drop]
      · rw [List.drop_eq_getElem_cons hlt, List.takeWhile_cons, if_pos hplain]
        exact List.cons_ne_nil _ _

theorem scan_eq (u : Units) : scan u = (List.range' 0 u.length).filterMap (lexemeAt? u) :=
  scanFrom_eq [] u (.inl nofun)

/-- The lexemes that are read are those of the string. -/
theorem mem_scan {u : Units} {l : Lexeme} : l ∈ scan u ↔ IsLexeme u l := by
  rw [scan_eq, isLexeme_iff, List.mem_filterMap]
  constructor
  · rintro ⟨p, -, h⟩
    rwa [(offset_of_lexemeAt? h).1]
  · intro h
    exact ⟨l.offset, List.mem_range'_1.mpr ⟨Nat.zero_le _, by
      rw [Nat.zero_add]; exact (offset_of_lexemeAt? h).2⟩, h⟩

/-- They are read in the order of their positions. -/
theorem pairwise_scan (u : Units) : (scan u).Pairwise fun a b => a.offset < b.offset := by
  rw [scan_eq]
  refine (List.pairwise_lt_range' 1).filterMap _ fun p q hlt a ha b hb => ?_
  rw [(offset_of_lexemeAt? ha).1, (offset_of_lexemeAt? hb).1]
  exact hlt

/-! ## Pairs of surrogates -/

theorem isPlain_of_surrogate {x : UInt16} (h : IsHigh x ∨ IsLow x) : isPlain x = true := by
  have hrange : 0xD800 ≤ x.toNat ∧ x.toNat < 0xE000 := by
    unfold IsHigh IsLow at h
    omega
  have hblanks : ∀ range ∈ Text.blankRanges, range.2 < 0xD800 ∨ 0xE000 ≤ range.1 := by decide
  have hmarks : ∀ row ∈ Mark.table, row.1.toNat < 0x80 := by decide
  have hblank : isBlank x = false := by
    refine List.any_eq_false.mpr fun range hmem => ?_
    have := hblanks range hmem
    rw [decide_eq_true_eq]
    omega
  have hmark : mark? x = none := by
    rw [mark?, Option.map_eq_none_iff, List.find?_eq_none]
    intro row hmem
    have := hmarks row hmem
    rw [beq_iff_eq]
    omega
  simp [isPlain, hblank, hmark]

/-- Between the units of a pair neither a run that ends apart ends, nor one that starts apart starts. -/
theorem not_splitsPair_append {before after : Units} (h : EndsApart before ∨ StartsApart after) :
    ¬ SplitsPair (before ++ after) before.length := by
  rintro ⟨start, rest, high, low, hpair, hlength, hhigh, hlow⟩
  rw [List.append_cons] at hpair
  obtain ⟨rfl, rfl⟩ := List.append_inj hpair (by simp [hlength])
  rcases h with hends | hstarts
  · cases (isPlain_of_surrogate (.inl hhigh)).symm.trans (hends high (by simp))
  · cases (isPlain_of_surrogate (.inr hlow)).symm.trans (hstarts low rfl)

/-- An identifier neither starts nor ends between the surrogates of a pair. -/
theorem not_splitsPair {u w : Units} {p : Nat} (h : IsLexeme u (.identifier w p)) :
    ¬ SplitsPair u p ∧ ¬ SplitsPair u (p + w.length) := by
  obtain ⟨before, after, rfl, rfl, -, hbefore, hafter⟩ := h
  have hend := @not_splitsPair_append (before ++ w) after (.inr hafter)
  rw [List.length_append, List.append_assoc] at hend
  exact ⟨not_splitsPair_append (.inl hbefore), hend⟩

/-! ## Lexemes written down -/

/-- How a lexeme is written: a mark by one of its units, an identifier by its own. -/
inductive Spelling where
  | mark (x : UInt16) (m : Mark) (marks : mark? x = some m)
  | identifier (w : Units) (ne_nil : w ≠ []) (plain : ∀ x ∈ w, isPlain x = true)

namespace Spelling

/-- The units of a spelling. -/
def units : Spelling → Units
  | mark x _ _ => [x]
  | identifier w _ _ => w

/-- Whether an identifier is spelled. -/
def isIdentifier : Spelling → Bool
  | mark .. => false
  | identifier .. => true

/-- What is spelled, at a given position. -/
def lexeme (offset : Nat) : Spelling → Lexeme
  | mark _ m _ => .mark m offset
  | identifier w _ _ => .identifier w offset

end Spelling

/-- A string of blanks only. -/
abbrev Gap : Type := { g : Units // ∀ x ∈ g, isBlank x = true }

/-- Spellings written one after the other, each behind a gap; between two identifiers the gap is not
    empty. -/
structure Writing where
  spelled : List (Gap × Spelling)
  /-- The gap behind the last spelling. -/
  atEnd : Gap
  apart : spelled.IsChain fun a b => a.2.isIdentifier = true → b.2.isIdentifier = true → b.1.val ≠ []

namespace Writing

/-- The string that is written. -/
def units (w : Writing) : Units := (w.spelled.flatMap fun s => s.1.val ++ s.2.units) ++ w.atEnd.val

/-- What is spelled, each at the position where it is written. -/
def lexemesFrom (offset : Nat) : List (Gap × Spelling) → List Lexeme
  | [] => []
  | (gap, s) :: rest =>
    let start := offset + gap.val.length
    s.lexeme start :: lexemesFrom (start + s.units.length) rest

/-- The lexemes of a writing. -/
def lexemes (w : Writing) : List Lexeme := lexemesFrom 0 w.spelled

end Writing

theorem startsApart_nil : StartsApart [] := by
  intro x hx
  cases hx

theorem startsApart_blanks {g : Units} (hg : ∀ x ∈ g, isBlank x = true) {u : Units}
    (hu : StartsApart u) : StartsApart (g ++ u) := by
  cases g with
  | nil => exact hu
  | cons x rest =>
    intro y hy
    cases hy
    exact isPlain_of_isBlank (hg x List.mem_cons_self)

/-- Behind an identifier no run of plain units goes on. -/
theorem startsApart_spelled {gap : Gap} {s : Spelling} {u : Units}
    (h : s.isIdentifier = true → gap.val ≠ []) : StartsApart (gap.val ++ s.units ++ u) := by
  obtain ⟨g, hg⟩ := gap
  rw [List.append_assoc]
  cases s with
  | mark x m hmark =>
    refine startsApart_blanks hg fun y hy => ?_
    cases hy
    exact isPlain_of_mark? hmark
  | identifier w hne hw =>
    obtain ⟨x, rest, rfl⟩ := List.exists_cons_of_ne_nil (h rfl)
    intro y hy
    cases hy
    exact isPlain_of_isBlank (hg x List.mem_cons_self)

theorem scanFrom_spelled {spelled : List (Gap × Spelling)} (atEnd : Gap)
    (h : spelled.IsChain fun a b =>
      a.2.isIdentifier = true → b.2.isIdentifier = true → b.1.val ≠ []) (o : Nat) :
    scanFrom o ((spelled.flatMap fun s => s.1.val ++ s.2.units) ++ atEnd.val) =
      Writing.lexemesFrom o spelled := by
  induction spelled generalizing o with
  | nil =>
    have hblank := scanFrom_blanks atEnd.2 o []
    rw [List.append_nil, scanFrom_nil] at hblank
    exact hblank
  | cons first rest ih =>
    obtain ⟨gap, s⟩ := first
    have hrest := ih h.of_cons
    rw [List.flatMap_cons, List.append_assoc, List.append_assoc, scanFrom_blanks gap.2,
      Writing.lexemesFrom]
    cases s with
    | mark x m hmark =>
      rw [Spelling.units, List.singleton_append, scanFrom_mark hmark, hrest]
      rfl
    | identifier w hne hw =>
      have hafter : StartsApart ((rest.flatMap fun s => s.1.val ++ s.2.units) ++ atEnd.val) := by
        cases rest with
        | nil =>
          have hend := startsApart_blanks atEnd.2 startsApart_nil
          rwa [List.append_nil] at hend
        | cons next others =>
          rw [List.flatMap_cons, List.append_assoc]
          exact startsApart_spelled ((List.isChain_cons_cons.mp h).1 rfl)
      rw [Spelling.units, scanFrom_run hne hw hafter, hrest]
      rfl

/-- What is written down is read back, at the positions where it is written. -/
theorem scan_writing (w : Writing) : scan w.units = w.lexemes :=
  scanFrom_spelled w.atEnd w.apart 0

/-! ## Texts -/

section

variable {x : UInt16} {c : Char} (h : x.toNat = c.toNat)
include h

theorem isBlank_of_toNat : isBlank x = Text.isBlank c := by
  rw [isBlank, h]
  rfl

theorem mark?_of_toNat : mark? x = Mark.ofChar? c := by
  rw [mark?, Mark.ofChar?]
  induction Mark.table with
  | nil => rfl
  | cons row rest ih =>
    obtain ⟨d, m⟩ := row
    by_cases hd : c = d
    · subst hd
      simp [h]
    · have hne : (d.toNat == x.toNat) = false := by
        rw [beq_eq_false_iff_ne, h]
        exact fun heq => hd (Char.toNat_inj.mp heq).symm
      rw [List.find?_cons, hne, List.lookup_cons, beq_eq_false_iff_ne.mpr hd]
      exact ih

theorem isPlain_of_toNat : isPlain x = Token.isPlain c := by
  rw [isPlain, Token.isPlain, isBlank_of_toNat h, mark?_of_toNat h]

end

/-- Characters beyond U+FFFF are plain. -/
theorem toNat_lt_of_isPlain_eq_false {c : Char} (h : Token.isPlain c = false) :
    c.toNat < 0x10000 := by
  refine Nat.lt_of_not_le fun hle => ?_
  have hblanks : ∀ range ∈ Text.blankRanges, range.2 < 0x10000 := by decide
  have hmarks : ∀ row ∈ Mark.table, row.1.toNat < 0x10000 := by decide
  have hblank : Text.isBlank c = false := by
    refine List.any_eq_false.mpr fun range hmem => ?_
    have := hblanks range hmem
    rw [decide_eq_true_eq]
    omega
  have hmark : Mark.ofChar? c = none := by
    refine Option.eq_none_iff_forall_ne_some.mpr fun m hm => ?_
    obtain ⟨before, after, htable, -⟩ := List.lookup_eq_some_iff.mp hm
    have hlt : c.toNat < 0x10000 := hmarks (c, m) (by rw [htable]; simp)
    omega
  simp [Token.isPlain, hblank, hmark] at h

/-- A character that is not plain is one unit. -/
theorem unitsOf_of_isPlain_eq_false {c : Char} (h : Token.isPlain c = false) :
    ∃ x, Text.unitsOf c = [x] ∧ x.toNat = c.toNat :=
  unitsOf_of_lt (toNat_lt_of_isPlain_eq_false h)

/-- A character that is plain has plain units. -/
theorem isPlain_of_mem_unitsOf {c : Char} (h : Token.isPlain c = true) :
    ∀ x ∈ Text.unitsOf c, isPlain x = true := by
  intro x hx
  rcases Nat.lt_or_ge c.toNat 0x10000 with hlt | hle
  · obtain ⟨y, hunits, hy⟩ := unitsOf_of_lt hlt
    rw [hunits, List.mem_singleton] at hx
    rw [hx, isPlain_of_toNat hy, h]
  · obtain ⟨high, low, hunits, hhigh, hlow⟩ := unitsOf_of_le hle
    rw [hunits] at hx
    rcases List.mem_cons.mp hx with rfl | hx
    · exact isPlain_of_surrogate (.inl hhigh)
    · rw [List.mem_singleton.mp hx]
      exact isPlain_of_surrogate (.inr hlow)

theorem startsApart_encode16 {t : Text} (h : Token.StartsApart t) :
    StartsApart (Text.encode16 t) := by
  cases t with
  | nil => exact startsApart_nil
  | cons c rest =>
    have hc : Token.isPlain c = false := h c rfl
    obtain ⟨x, hunits, hx⟩ := unitsOf_of_isPlain_eq_false hc
    rw [Text.encode16_cons, hunits]
    intro y hy
    cases hy
    rw [isPlain_of_toNat hx, hc]

/-- A text that starts with a plain character starts with a word that nothing plain follows. -/
theorem exists_word {c : Char} (h : Token.isPlain c = true) (rest : Text) :
    ∃ w after, c :: rest = w ++ after ∧ w ≠ [] ∧ (∀ d ∈ w, Token.isPlain d = true) ∧
      Token.StartsApart after := by
  refine ⟨(c :: rest).takeWhile Token.isPlain, (c :: rest).dropWhile Token.isPlain,
    List.takeWhile_append_dropWhile.symm, by simp [h], fun d hd => List.mem_takeWhile_imp hd,
    fun d hd => ?_⟩
  have hnot := List.head?_dropWhile_not Token.isPlain (c :: rest)
  rwa [hd] at hnot

/-- The tokens of a text are the lexemes of its code units. -/
theorem scanFrom_encode16 (t : Text) (o : Nat) :
    (Token.scanFrom o t).map Token.lexeme = scanFrom o (Text.encode16 t) := by
  induction hn : t.length using Nat.strong_induction_on generalizing t o with
  | _ n ih =>
    subst hn
    cases t with
    | nil => exact (scanFrom_nil o).symm
    | cons c rest =>
      cases hplain : Token.isPlain c with
      | false =>
        obtain ⟨x, hunits, hx⟩ := unitsOf_of_isPlain_eq_false hplain
        have hlength : Text.units c = 1 := by rw [← Text.length_unitsOf, hunits]; rfl
        have hrest := ih _ (Nat.lt_succ_self _) rest (o + 1) rfl
        rw [Text.encode16_cons, hunits, List.singleton_append]
        cases hmark : Mark.ofChar? c with
        | some m =>
          rw [Token.scanFrom_mark hmark, hlength, List.map_cons, hrest,
            scanFrom_mark ((mark?_of_toNat hx).trans hmark)]
          rfl
        | none =>
          have hblank : Text.isBlank c = true := by simpa [Token.isPlain, hmark] using hplain
          rw [Token.scanFrom, if_pos hblank, hlength, hrest,
            scanFrom_blank ((isBlank_of_toNat hx).trans hblank)]
      | true =>
        obtain ⟨w, after, happend, hne, hw, hafter⟩ := exists_word hplain rest
        rw [happend] at ih ⊢
        have hrest := ih after.length (by
          have := List.length_pos_of_ne_nil hne
          rw [List.length_append]
          omega) after (o + Text.size16 w) rfl
        rw [Token.scanFrom_word hne hw hafter, Text.encode16_append,
          scanFrom_run (Text.encode16_ne_nil hne) (fun x hx => ?_) (startsApart_encode16 hafter), List.map_cons, hrest,
          Text.length_encode16]
        · rfl
        · obtain ⟨d, hd, hx⟩ := List.mem_flatMap.mp hx
          exact isPlain_of_mem_unitsOf (hw d hd) x hx

end Units

namespace Token

open GridSketch.Units (IsLexeme SplitsPair Writing)

/-- In any string of code units the lexemes that are read are those of the string, in order, and no
    identifier among them starts or ends between the surrogates of a pair; what is written down is
    read back at the positions where it is written; and the tokens of a text are the lexemes of its
    code units. -/
theorem scan_exact :
    (∀ u : Units, (Units.scan u).Pairwise (fun a b => a.offset < b.offset) ∧
      (∀ l, l ∈ Units.scan u ↔ IsLexeme u l) ∧
      ∀ w p, .identifier w p ∈ Units.scan u →
        ¬ SplitsPair u p ∧ ¬ SplitsPair u (p + w.length)) ∧
      (∀ w : Writing, Units.scan w.units = w.lexemes) ∧
      ∀ t : Text, (scan t).map lexeme = Units.scan (Text.encode16 t) :=
  ⟨fun u => ⟨Units.pairwise_scan u, fun _ => Units.mem_scan,
      fun _ _ h => Units.not_splitsPair (Units.mem_scan.mp h)⟩,
    Units.scan_writing, fun t => Units.scanFrom_encode16 t 0⟩

/-- A pair of surrogates at the start of an identifier, which ends at a blank; the offsets behind it
    count both. -/
theorem scan_exact_astral :
    let t := "\x7b😀a ^\x7d".toList
    scan t = [.mark .rowStart 0, .identifier "😀a".toList 1, .mark .lengthen 5,
        .mark .rowEnd 6] ∧
      Units.scan (Text.encode16 t) = [.mark .rowStart 0, .identifier [0xD83D, 0xDE00, 0x61] 1,
        .mark .lengthen 5, .mark .rowEnd 6] ∧
      ¬ SplitsPair (Text.encode16 t) 1 ∧ ¬ SplitsPair (Text.encode16 t) 4 := by
  intro t
  obtain ⟨hunits, -, htexts⟩ := scan_exact
  have hscan : Units.scan (Text.encode16 t) = [.mark .rowStart 0,
      .identifier [0xD83D, 0xDE00, 0x61] 1, .mark .lengthen 5, .mark .rowEnd 6] :=
    (htexts t).symm.trans (by decide)
  refine ⟨by decide, hscan, (hunits _).2.2 [0xD83D, 0xDE00, 0x61] 1 ?_⟩
  rw [hscan]
  decide

end Token

end GridSketch
