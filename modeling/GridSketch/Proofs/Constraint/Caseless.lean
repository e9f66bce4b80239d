/-
  Which differences in letter case do not matter.

  Names and keywords are compared in lower case, with all of Unicode's letters. Yet only the case of
  ASCII letters is free: no character beyond ASCII has an image that is part of a name or a keyword and
  of nothing else. A constraint text may be written in any case of its ASCII letters; its words stay the
  same up to case, so that the same pairs are carried out and the same one fails, if any.

  * `Mnemonic.isSome_target?_iff`: names.
  * `Vocabulary.find?_eq_some_iff`: the keywords of a lawful vocabulary.
  * `Choice.read?_eq_raw_iff`, `Choice.read?_eq_keyword_iff`: codes and keywords.
  * `Record.applyPairs_fold`: pairs in another case, by induction on the pairs.
  * `Record.reads_up_to_ascii_case`: all of it.
-/
import GridSketch.Proofs.Constraint.Sequence
import GridSketch.Proofs.Text.CaseChange

namespace GridSketch

/-! ## Names -/

/-- The names that are known are the spellings of those in the table. -/
theorem Mnemonic.isSome_target?_iff {name : Text} :
    (target? (Text.lower name)).isSome = true ↔ ∃ m ∈ table, m.Spells name := by
  constructor
  · intro hsome
    rw [target?, Option.isSome_map] at hsome
    obtain ⟨m, hfound⟩ := Option.isSome_iff_exists.mp hsome
    have hm : m ∈ table := List.mem_of_find?_eq_some hfound
    have hspelling : m.spelling = Text.lower name := by simpa using List.find?_some hfound
    have hplain := (isPlainImage_spelling m hm).2.1
    rw [hspelling] at hplain
    refine ⟨m, hm, ?_⟩
    rw [Spells, hspelling, Text.lower_of_isAscii (Text.isAscii_of_lower hplain)]
  · rintro ⟨m, hm, hspells⟩
    rw [target?_of_spells hm hspells]
    rfl

/-- A pair fails for its name exactly if the name is not known. -/
theorem code_faultOf_eq_nameUnknown_iff {name value : Text} :
    (faultOf (name, value)).map Fault.code = some .constraintNameUnknown ↔
      Mnemonic.target? (Text.lower name) = none := by
  rw [faultOf]
  cases htarget : Mnemonic.target? (Text.lower name) with
  | none =>
    rw [Assignment.read, htarget]
    exact ⟨fun _ => rfl, fun _ => rfl⟩
  | some target =>
    refine ⟨fun hcode => ?_, fun hnone => absurd hnone (Option.some_ne_none _)⟩
    cases hread : Assignment.read name value with
    | ok a => rw [hread] at hcode; cases hcode
    | error fault =>
      rw [hread] at hcode
      exact absurd (Option.some.inj hcode) (Assignment.code_ne_nameUnknown htarget hread)

/-! ## Keywords -/

namespace Vocabulary

variable {κ : Type} [Vocabulary κ]

/-- Whether a text spells a keyword, in any case of the ASCII letters. -/
def Spells (k : κ) (t : Text) : Prop := Text.fold t ∈ spellings k

instance (k : κ) (t : Text) : Decidable (Spells k t) := inferInstanceAs (Decidable (_ ∈ _))

variable [LawfulVocabulary κ] {t : Text} {k : κ}

theorem isAscii_of_spells (h : Spells k t) : Text.IsAscii t :=
  Text.isAscii_of_fold fun c hc => (isCharacter_of_mem_spellings h c hc).1.1

theorem lower_of_spells (h : Spells k t) : Text.lower t = Text.fold t :=
  Text.lower_of_isAscii (isAscii_of_spells h)

/-- The keyword that is found for a text is the one that the text spells. -/
theorem find?_eq_some_iff : find? t = some k ↔ Spells k t := by
  constructor
  · intro hfound
    obtain ⟨-, hspelling⟩ := Choice.mem_spellings_of_find? hfound
    have hascii := Text.isAscii_of_lower fun c hc =>
      Value.isPlainImage_of_isCharacter (isCharacter_of_mem_spellings hspelling c hc).1
    rwa [Spells, ← Text.lower_of_isAscii hascii]
  · intro hspells
    have hsome : (find? t : Option κ).isSome = true := by
      rw [find?, List.find?_isSome]
      refine ⟨k, LawfulVocabulary.mem_all k, List.contains_iff_mem.mpr ?_⟩
      rw [lower_of_spells hspells]
      exact hspells
    obtain ⟨k', hfound⟩ := Option.isSome_iff_exists.mp hsome
    obtain ⟨hk', hspelling⟩ := Choice.mem_spellings_of_find? hfound
    rw [lower_of_spells hspells] at hspelling
    rw [hfound, LawfulVocabulary.eq_of_spellings k (LawfulVocabulary.mem_all k) k' hk' _ hspells hspelling]

/-- What spells a keyword is not the notation of an integer, in range or out of range. -/
theorem parse?_of_spells (h : Spells k t) : Integer.parse? t = none := by
  cases hparse : Integer.parse? t with
  | none => rfl
  | some n =>
    have hnumeral := Integer.isNumeral_of_denotes (Integer.parse?_eq_some_iff.mp hparse)
    have hsame : Text.fold t = t :=
      (lower_of_spells h).symm.trans (Text.lower_of_isNumeral hnumeral)
    rw [Spells, hsame] at h
    rw [← hparse, LawfulVocabulary.parse?_eq_none k (LawfulVocabulary.mem_all k) t h]

theorem read?_of_spells (h : Spells k t) : Integer.read? t = none := by
  rw [Integer.read?, parse?_of_spells h, Option.filter_none]

theorem fold_name (k : κ) : Text.fold (name k) = name k := by
  have hname : name k ∈ spellings k := List.mem_cons_self
  have hlower : ∀ c ∈ name k, c.toLower = id c := fun c hc => (isCharacter_of_mem_spellings hname c hc).2
  exact (List.map_congr_left hlower).trans (List.map_id _)

theorem spells_name (k : κ) : Spells k (name k) := by
  rw [Spells, fold_name]
  exact List.mem_cons_self

theorem lower_name (k : κ) : Text.lower (name k) = name k :=
  (lower_of_spells (spells_name k)).trans (fold_name k)

end Vocabulary

namespace Choice

variable {κ : Type} [Vocabulary κ] {t : Text}

/-- A text is read as a code exactly if it is read as the integer. -/
theorem read?_eq_raw_iff {n : Int} :
    (read? t : Option (Choice κ)) = some (raw n) ↔ Integer.read? t = some n := by
  rw [read?]
  cases Integer.read? t with
  | some code => simp
  | none => cases (Vocabulary.find? t : Option κ) <;> simp

variable [LawfulVocabulary κ]

/-- A text is read as a keyword exactly if it spells the keyword. -/
theorem read?_eq_keyword_iff {k : κ} : read? t = some (keyword k) ↔ Vocabulary.Spells k t := by
  rw [read?]
  constructor
  · intro hread
    split at hread
    next => cases hread
    next =>
      obtain ⟨k', hfound, ⟨⟩⟩ := Option.map_eq_some_iff.mp hread
      exact Vocabulary.find?_eq_some_iff.mp hfound
  · intro hspells
    rw [Vocabulary.read?_of_spells hspells, Vocabulary.find?_eq_some_iff.mpr hspells]
    rfl

/-- Nothing beyond ASCII is read as a choice. -/
theorem read?_of_not_isAscii (h : ¬ Text.IsAscii t) : (read? t : Option (Choice κ)) = none := by
  cases hread : (read? t : Option (Choice κ)) with
  | none => rfl
  | some choice => exact absurd (fun c hc => (isCharacter_of_read? hread c hc).1) h

end Choice

/-! ## Pairs in another case -/

/-- A pair with all its ASCII letters in lower case. -/
def foldPair (pair : Text × Text) : Text × Text := (Text.fold pair.1, Text.fold pair.2)

theorem pairsOf_map_fold (ws : List Text) :
    pairsOf (ws.map Text.fold) = (pairsOf ws).map foldPair := by
  induction ws using pairsOf.induct with
  | case1 name value rest ih =>
    rw [List.map_cons, List.map_cons, pairsOf, pairsOf, List.map_cons, ih]
    rfl
  | case2 ws hws =>
    rcases ws with _ | ⟨name, _ | ⟨value, rest⟩⟩
    · rfl
    · rfl
    · exact absurd rfl (hws name value rest)

/-- A constraint is read alike in any case. Only the report of an unknown name has the value as it was
    written. -/
theorem Assignment.read_fold (name value : Text) :
    (read (Text.fold name) (Text.fold value)).mapError Fault.code =
      (read name value).mapError Fault.code := by
  rw [read, read, Text.lower_fold, Text.lower_fold]
  cases Mnemonic.target? (Text.lower name) <;> rfl

namespace Record

theorem applyPairs_fold (r : Record) (pairs : List (Text × Text)) :
    (r.applyPairs (pairs.map foldPair)).record = (r.applyPairs pairs).record ∧
      (r.applyPairs (pairs.map foldPair)).fault.map Fault.code =
        (r.applyPairs pairs).fault.map Fault.code := by
  induction pairs generalizing r with
  | nil => exact ⟨rfl, rfl⟩
  | cons pair rest ih =>
    obtain ⟨name, value⟩ := pair
    have hread := Assignment.read_fold name value
    rw [List.map_cons, foldPair, applyPairs, applyPairs]
    cases hfolded : Assignment.read (Text.fold name) (Text.fold value) with
    | error fault =>
      cases hwritten : Assignment.read name value with
      | error fault' =>
        rw [hfolded, hwritten] at hread
        exact ⟨rfl, congrArg some (Except.error.inj hread)⟩
      | ok a => rw [hfolded, hwritten] at hread; cases hread
    | ok a =>
      cases hwritten : Assignment.read name value with
      | error fault => rw [hfolded, hwritten] at hread; cases hread
      | ok a' =>
        rw [hfolded, hwritten] at hread
        cases hread
        exact ih (a.apply r)

/-- A text has the same effect with all its ASCII letters in lower case, and fails with the same code
    if it fails. -/
theorem applyText_fold (r : Record) (t : Text) :
    (r.applyText (Text.fold t)).record = (r.applyText t).record ∧
      (r.applyText (Text.fold t)).fault.map Fault.code = (r.applyText t).fault.map Fault.code := by
  have hwords := Text.words_fold t
  have hlength : (Text.words (Text.fold t)).length = (Text.words t).length := by
    rw [hwords, List.length_map]
  rcases Nat.mod_two_eq_zero_or_one (Text.words t).length with heven | hodd
  · rw [applyText_of_even heven, applyText_of_even (hlength ▸ heven), hwords, pairsOf_map_fold]
    exact r.applyPairs_fold _
  · obtain ⟨last, -, hlast⟩ := applyText_of_odd hodd
    obtain ⟨last', -, hlast'⟩ := applyText_of_odd (t := Text.fold t) (hlength ▸ hodd)
    rw [hlast, hlast']
    exact ⟨rfl, rfl⟩

/-- A name is known exactly if it spells one of the table in some case of the ASCII letters, and a value
    is an anchor or a fill keyword exactly if it spells the keyword so. No name and no keyword has a
    character beyond ASCII. Texts that differ in the case of ASCII letters only have the same effect on
    every record; if one fails so does the other, with the same code. -/
theorem reads_up_to_ascii_case (r : Record) :
    (∀ name value, (r.interpret (name, value)).fault.map Fault.code ≠ some .constraintNameUnknown ↔
        ∃ m ∈ Mnemonic.table, m.Spells name) ∧
      (∀ value (d : Direction), Value.anchor value = .ok (.keyword d) ↔ Vocabulary.Spells d value) ∧
      (∀ value (f : FillMode), Value.fill value = .ok (.keyword f) ↔ Vocabulary.Spells f value) ∧
      (∀ t, ¬ Text.IsAscii t →
        (∀ value, (r.interpret (t, value)).fault.map Fault.code = some .constraintNameUnknown) ∧
          Value.anchor t = .error (.anchorUnknown t) ∧ Value.fill t = .error (.fillUnknown t)) ∧
      ∀ t u, Text.fold t = Text.fold u →
        (r.applyText t).record = (r.applyText u).record ∧
          (r.applyText t).fault.map Fault.code = (r.applyText u).fault.map Fault.code := by
  have hknown : ∀ name value,
      (r.interpret (name, value)).fault.map Fault.code ≠ some .constraintNameUnknown ↔
        ∃ m ∈ Mnemonic.table, m.Spells name := fun name value => by
    rw [fault_interpret, Ne, code_faultOf_eq_nameUnknown_iff, ← Ne, Option.ne_none_iff_isSome,
      Mnemonic.isSome_target?_iff]
  refine ⟨hknown, fun value d => ?_, fun value f => ?_, fun t ht => ⟨fun value => ?_, ?_, ?_⟩,
    fun t u hsame => ?_⟩
  · exact Value.require_eq_ok_iff.trans Choice.read?_eq_keyword_iff
  · exact Value.require_eq_ok_iff.trans Choice.read?_eq_keyword_iff
  · refine Classical.byContradiction fun hcode => ?_
    obtain ⟨m, hm, hspells⟩ := (hknown t value).mp hcode
    exact ht (Mnemonic.isAscii_of_spells hm hspells)
  · exact Value.require_eq_error_iff.mpr ⟨Choice.read?_of_not_isAscii ht, rfl⟩
  · exact Value.require_eq_error_iff.mpr ⟨Choice.read?_of_not_isAscii ht, rfl⟩
  · obtain ⟨hrecord, hcode⟩ := r.applyText_fold t
    obtain ⟨hrecord', hcode'⟩ := r.applyText_fold u
    rw [hsame] at hrecord hcode
    exact ⟨hrecord.symm.trans hrecord', hcode.symm.trans hcode'⟩

/-- The image of the capital I with dot starts with an `i`, and that of the Kelvin sign is a `k`; neither
    is part of a name or keyword. Two cases of one text, which fails at its last pair. -/
theorem reads_up_to_ascii_case_beyond :
    let t := "ANCHOR Nw wX .5E1 \u0130t 3".toList
    let u := "anchor nW Wx .5e1 \u0130T 3".toList
    ¬ Text.IsAscii "\u0130t".toList ∧ ¬ Text.IsAscii "\u212a".toList ∧ Text.fold t = Text.fold u ∧
      (∀ r : Record, ∀ value,
        (r.interpret ("\u0130t".toList, value)).fault.map Fault.code = some .constraintNameUnknown) ∧
      Value.fill "\u212a".toList = .error (.fillUnknown "\u212a".toList) ∧
      ∀ r : Record, (r.applyText t).record = (r.applyText u).record ∧
        (r.applyText t).fault.map Fault.code = (r.applyText u).fault.map Fault.code := by
  intro t u
  have hdotted : ¬ Text.IsAscii "\u0130t".toList := by decide
  have hkelvin : ¬ Text.IsAscii "\u212a".toList := by decide
  have hsame : Text.fold t = Text.fold u := by decide
  refine ⟨hdotted, hkelvin, hsame, fun r => ?_, ?_, fun r => ?_⟩
  · exact ((reads_up_to_ascii_case r).2.2.2.1 _ hdotted).1
  · exact ((reads_up_to_ascii_case standard).2.2.2.1 _ hkelvin).2.2
  · exact (reads_up_to_ascii_case r).2.2.2.2 t u hsame

end Record

end GridSketch
