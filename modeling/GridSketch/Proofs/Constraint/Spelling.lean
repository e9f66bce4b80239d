/-
  What the names and the values of constraints are made of.

  A name may be spelled in any case of its letters, and nothing else spells it. A value that can be
  read consists of letters, digits, points and signs; no separator, blank or character beyond ASCII is
  part of one. No name is a value of any constraint. Therefore a name and a value that are run
  together can be told apart: of the names that start the text, the first of the table is the one that
  was written.

  * `LawfulVocabulary`: what holds of the spellings of anchors and of fills.
  * `Mnemonic.spells_of_leading?`, `Mnemonic.leading?_append`: the name at the start of a text.
  * `Assignment.isCharacter_of_read`: the characters of values.
  * `Assignment.read_of_spells`: no name is a value.
-/
import GridSketch.Constraint.Assignment
import GridSketch.Proofs.Number.Literals
import GridSketch.Proofs.Text.LetterCase
import Mathlib.Data.List.TakeWhile

namespace GridSketch

-- What holds of all characters of a text, or of all rows of a table, is decided on them.
attribute [local instance (2000)] List.decidableBAll

/-! ## Names -/

namespace Mnemonic

/-- Whether a text spells a name, in any case of its letters. -/
def Spells (m : Mnemonic) (name : Text) : Prop := Text.fold name = m.spelling

instance (m : Mnemonic) (name : Text) : Decidable (m.Spells name) :=
  inferInstanceAs (Decidable (_ = _))

/-- The names are in lower case and in ASCII. -/
theorem isPlainImage_spelling : ∀ m ∈ table,
    m.spelling ≠ [] ∧ (∀ c ∈ m.spelling, Text.IsPlainImage c) ∧ m.spelling.getLast? ≠ some 'i' := by
  decide +kernel

theorem target?_spelling : ∀ m ∈ table, target? m.spelling = some m.target := by
  decide +kernel

section

variable {m : Mnemonic} {name : Text}

theorem length_of_spells (h : m.Spells name) : name.length = m.spelling.length := by
  rw [← h, Text.fold, List.length_map]

theorem ne_nil_of_spells (hm : m ∈ table) (h : m.Spells name) : name ≠ [] := by
  rintro rfl
  exact (isPlainImage_spelling m hm).1 h.symm

theorem isAscii_of_spells (hm : m ∈ table) (h : m.Spells name) : Text.IsAscii name := by
  apply Text.isAscii_of_fold
  rw [h]
  exact fun c hc => ((isPlainImage_spelling m hm).2.1 c hc).1

theorem lower_of_spells (hm : m ∈ table) (h : m.Spells name) : Text.lower name = m.spelling :=
  (Text.lower_of_isAscii (isAscii_of_spells hm h)).trans h

theorem target?_of_spells (hm : m ∈ table) (h : m.Spells name) :
    target? (Text.lower name) = some m.target := by
  rw [lower_of_spells hm h, target?_spelling m hm]

/-- The name that a text is found to start with is spelled by the start of the text. -/
theorem spells_of_leading? {t : Text} (h : leading? t = some m) :
    m ∈ table ∧ m.Spells (t.take m.spelling.length) := by
  rw [leading?] at h
  have hm : m ∈ table := List.mem_of_find?_eq_some h
  have hstart := List.find?_some h
  rw [List.isPrefixOf_iff_prefix] at hstart
  obtain ⟨-, hplain, hlast⟩ := isPlainImage_spelling m hm
  exact ⟨hm, Text.map_toLower_take_of_prefix hplain hlast hstart⟩

end

end Mnemonic

/-! ## The characters of values -/

/-- Whether a character may be part of a value: a digit, a point, a sign, or a letter. There is no `k`
    in any keyword. -/
def Value.IsCharacter (c : Char) : Prop :=
  c.toNat < 0x80 ∧ (c.isAlphanum = true ∧ c.toLower ≠ 'k' ∨ c ∈ ['.', '+', '-'])

instance (c : Char) : Decidable (Value.IsCharacter c) := inferInstanceAs (Decidable (_ ∧ _))

namespace Value

theorem isPlainImage_of_isCharacter {c : Char} (h : IsCharacter c) : Text.IsPlainImage c := by
  refine ⟨h.1, ?_⟩
  rintro rfl
  exact absurd h (by decide)

theorem isCharacter_of_toLower {c : Char} (hc : c.toNat < 0x80) (h : IsCharacter c.toLower) :
    IsCharacter c :=
  Text.of_toNat_lt hc (fun c => IsCharacter c.toLower → IsCharacter c) (by decide +kernel) h

theorem isBlank_of_isCharacter {c : Char} (h : IsCharacter c) : Text.isBlank c = false :=
  Text.of_toNat_lt h.1 (fun c => IsCharacter c → Text.isBlank c = false) (by decide +kernel) h

end Value

open Value (IsCharacter)

theorem Text.isCharacter_of_mem_numerals : ∀ c ∈ numerals, IsCharacter c := by decide

theorem Integer.isNumeral_of_read? {t : Text} {n : Int} (h : read? t = some n) :
    Text.IsNumeral t :=
  isNumeral_of_denotes (read?_eq_some_iff.mp h).1

theorem Decimal.isCharacter_of_read? {t : Text} {w : Binary64} (h : read? t = some w) :
    ∀ c ∈ t, IsCharacter c := by
  obtain ⟨l, rfl, -⟩ := read?_eq_some_iff.mp h
  intro c hc
  rcases l.mem_text hc with hnumeral | rfl
  · exact Text.isCharacter_of_mem_numerals c hnumeral
  · decide

/-- A vocabulary that lists all its keywords, with spellings that are in lower case and in characters of
    values, and stand for one keyword each and for no integer. -/
class LawfulVocabulary (κ : Type) [Vocabulary κ] : Prop where
  mem_all : ∀ k : κ, k ∈ (Vocabulary.all : List κ)
  isCharacter : ∀ k ∈ (Vocabulary.all : List κ), ∀ s ∈ Vocabulary.spellings k, ∀ c ∈ s,
    IsCharacter c ∧ c.toLower = c
  eq_of_spellings : ∀ k ∈ (Vocabulary.all : List κ), ∀ k' ∈ (Vocabulary.all : List κ),
    ∀ s ∈ Vocabulary.spellings k, s ∈ Vocabulary.spellings k' → k = k'
  parse?_eq_none : ∀ k ∈ (Vocabulary.all : List κ), ∀ s ∈ Vocabulary.spellings k,
    Integer.parse? s = none

instance : LawfulVocabulary Direction where
  mem_all k := by cases k <;> decide
  isCharacter := by decide +kernel
  eq_of_spellings := by decide +kernel
  parse?_eq_none := by decide +kernel

instance : LawfulVocabulary FillMode where
  mem_all k := by cases k <;> decide
  isCharacter := by decide +kernel
  eq_of_spellings := by decide +kernel
  parse?_eq_none := by decide +kernel

theorem Vocabulary.isCharacter_of_mem_spellings {κ : Type} [Vocabulary κ] [LawfulVocabulary κ] {k : κ}
    {s : Text} (h : s ∈ spellings k) : ∀ c ∈ s, IsCharacter c ∧ c.toLower = c :=
  LawfulVocabulary.isCharacter k (LawfulVocabulary.mem_all k) s h

namespace Choice

variable {κ : Type} [Vocabulary κ]

theorem mem_spellings_of_find? {t : Text} {k : κ} (h : Vocabulary.find? t = some k) :
    k ∈ (Vocabulary.all : List κ) ∧ Text.lower t ∈ Vocabulary.spellings k := by
  rw [Vocabulary.find?] at h
  have hspelling := List.find?_some h
  exact ⟨List.mem_of_find?_eq_some h, List.contains_iff_mem.mp hspelling⟩

theorem isCharacter_of_read? [LawfulVocabulary κ] {t : Text} {a : Choice κ}
    (h : read? t = some a) : ∀ c ∈ t, IsCharacter c := by
  rw [read?] at h
  split at h
  next code hcode =>
    exact fun c hc => Text.isCharacter_of_mem_numerals c (Integer.isNumeral_of_read? hcode c hc)
  next =>
    obtain ⟨k, hk, -⟩ := Option.map_eq_some_iff.mp h
    obtain ⟨-, hspelling⟩ := mem_spellings_of_find? hk
    have hchars : ∀ c ∈ Text.lower t, IsCharacter c := fun c hc =>
      (Vocabulary.isCharacter_of_mem_spellings hspelling c hc).1
    have hascii : Text.IsAscii t := Text.isAscii_of_lower fun c hc =>
      Value.isPlainImage_of_isCharacter (hchars c hc)
    rw [Text.lower_of_isAscii hascii] at hchars
    exact fun c hc => Value.isCharacter_of_toLower (hascii c hc) (hchars _ (List.mem_map_of_mem hc))

end Choice

/-! ## Values that can be read -/

namespace Target

variable {target : Target} {name value : Text} {a : Assignment}

theorem read_nil (target : Target) (name : Text) : ∃ fault, target.read name [] = .error fault := by
  cases target <;> exact ⟨_, rfl⟩

/-- What a value that can be read was read as. -/
theorem read_cases (h : target.read name value = .ok a) :
    (∃ ms n, target = measures ms ∧ Integer.read? value = some n ∧ a = .measures ms n) ∨
      (∃ axes w, target = weights axes ∧ Decimal.read? value = some w ∧ a = .weights axes w) ∨
      (∃ choice, target = anchor ∧ Choice.read? value = some choice ∧ a = .anchor choice) ∨
      ∃ choice, target = fill ∧ Choice.read? value = some choice ∧ a = .fill choice := by
  cases target with
  | measures ms =>
    obtain ⟨n, hn, rfl⟩ := Value.map_require_eq_ok_iff.mp h
    exact .inl ⟨ms, n, rfl, hn, rfl⟩
  | weights axes =>
    obtain ⟨w, hw, rfl⟩ := Value.map_require_eq_ok_iff.mp h
    exact .inr (.inl ⟨axes, w, rfl, hw, rfl⟩)
  | anchor =>
    obtain ⟨choice, hchoice, rfl⟩ := Value.map_require_eq_ok_iff.mp h
    exact .inr (.inr (.inl ⟨choice, rfl, hchoice, rfl⟩))
  | fill =>
    obtain ⟨choice, hchoice, rfl⟩ := Value.map_require_eq_ok_iff.mp h
    exact .inr (.inr (.inr ⟨choice, rfl, hchoice, rfl⟩))

theorem isCharacter_of_read (h : target.read name value = .ok a) : ∀ c ∈ value, IsCharacter c := by
  rcases read_cases h with
    ⟨_, _, -, hread, -⟩ | ⟨_, _, -, hread, -⟩ | ⟨_, -, hread, -⟩ | ⟨_, -, hread, -⟩
  · exact fun c hc => Text.isCharacter_of_mem_numerals c (Integer.isNumeral_of_read? hread c hc)
  · exact Decimal.isCharacter_of_read? hread
  · exact Choice.isCharacter_of_read? hread
  · exact Choice.isCharacter_of_read? hread

/-- The failures of values tell the name and the value, or the kind of keyword and the value. -/
theorem fault_cases {fault : Fault} (h : target.read name value = .error fault) :
    fault = .integerExpected name value ∨ fault = .numberExpected name value ∨
      fault = .anchorUnknown value ∨ fault = .fillUnknown value := by
  cases target with
  | measures ms =>
    obtain ⟨-, hfault⟩ := Value.map_require_eq_error_iff.mp h
    exact .inl hfault.symm
  | weights axes =>
    obtain ⟨-, hfault⟩ := Value.map_require_eq_error_iff.mp h
    exact .inr (.inl hfault.symm)
  | anchor =>
    obtain ⟨-, hfault⟩ := Value.map_require_eq_error_iff.mp h
    exact .inr (.inr (.inl hfault.symm))
  | fill =>
    obtain ⟨-, hfault⟩ := Value.map_require_eq_error_iff.mp h
    exact .inr (.inr (.inr hfault.symm))

end Target

/-! ## Names are no values -/

namespace Mnemonic

theorem read?_spelling : ∀ m ∈ table,
    Integer.read? m.spelling = none ∧ Decimal.read? m.spelling = none ∧
      (Choice.read? m.spelling : Option Anchor) = none ∧
      (Choice.read? m.spelling : Option Fill) = none := by decide +kernel

/-- No name is a value of any constraint. -/
theorem read_spelling {m : Mnemonic} (hm : m ∈ table) (target : Target) (name : Text) :
    ∃ fault, target.read name m.spelling = .error fault := by
  obtain ⟨hinteger, hdecimal, hanchor, hfill⟩ := read?_spelling m hm
  cases hread : target.read name m.spelling with
  | error fault => exact ⟨fault, rfl⟩
  | ok a =>
    rcases Target.read_cases hread with
      ⟨_, _, -, h, -⟩ | ⟨_, _, -, h, -⟩ | ⟨_, -, h, -⟩ | ⟨_, -, h, -⟩
    · cases hinteger.symm.trans h
    · cases hdecimal.symm.trans h
    · cases hanchor.symm.trans h
    · cases hfill.symm.trans h

/-! ## Names in front of values -/

/-- Of two names one of which starts with the other, the longer stands first. What it has more than
    the other stands at the start of no keyword of the other. -/
theorem pairwise_table : table.Pairwise fun m m' =>
    ¬ m.spelling <+: m'.spelling ∧ (m'.spelling <+: m.spelling →
      (m'.target = .anchor ∧ m.spelling = m'.spelling ++ "nchor".toList) ∨
      m'.target = .fill ∧ m.spelling = m'.spelling ++ "ill".toList) := by decide +kernel

end Mnemonic

namespace Choice

/-- No choice starts with a text in ASCII that is no start of a keyword and of no number. -/
theorem not_prefix_of_read? {κ : Type} [Vocabulary κ] {start t : Text} {a : Choice κ}
    (h : read? t = some a) (hlower : Text.IsAscii start ∧ Text.fold start = start)
    (c : Char) (hnumber : c ∈ start ∧ c ∉ Text.numerals)
    (hkeyword : ∀ k ∈ (Vocabulary.all : List κ), ∀ s ∈ Vocabulary.spellings k, ¬ start <+: s) :
    ¬ start <+: t := by
  rintro ⟨rest, rfl⟩
  rw [read?] at h
  split at h
  next code hcode =>
    have hc : c ∈ start ++ rest := List.mem_append_left rest hnumber.1
    exact hnumber.2 (Integer.isNumeral_of_read? hcode c hc)
  next =>
    obtain ⟨k, hk, -⟩ := Option.map_eq_some_iff.mp h
    obtain ⟨hall, hspelling⟩ := mem_spellings_of_find? hk
    obtain ⟨next, happend⟩ := Text.lowerAfter_append hlower.1 false rest
    rw [hlower.2] at happend
    exact hkeyword k hall _ hspelling ⟨_, happend.symm⟩

end Choice

/-! ## Constraints that can be read -/

namespace Assignment

variable {name value : Text} {a : Assignment}

/-- A constraint that can be read has a known name, and a value that its target can read. -/
theorem target_of_read (h : read name value = .ok a) :
    ∃ target, Mnemonic.target? (Text.lower name) = some target ∧
      target.read (Text.lower name) (Text.lower value) = .ok a := by
  rw [read] at h
  split at h
  next target htarget => exact ⟨target, htarget, h⟩
  next => cases h

/-- A known name is not what fails. -/
theorem code_ne_nameUnknown {target : Target}
    (htarget : Mnemonic.target? (Text.lower name) = some target) {fault : Fault}
    (h : read name value = .error fault) : fault.code ≠ .constraintNameUnknown := by
  rw [read, htarget] at h
  rcases Target.fault_cases h with rfl | rfl | rfl | rfl <;> exact nofun

theorem ne_nil_of_read (h : read name value = .ok a) : value ≠ [] := by
  rintro rfl
  obtain ⟨target, -, hread⟩ := target_of_read h
  obtain ⟨fault, hfault⟩ := target.read_nil (Text.lower name)
  cases hfault.symm.trans hread

/-- Values are in characters of values. -/
theorem isCharacter_of_read (h : read name value = .ok a) : ∀ c ∈ value, IsCharacter c := by
  obtain ⟨target, -, hread⟩ := target_of_read h
  have hlower := Target.isCharacter_of_read hread
  have hascii : Text.IsAscii value := Text.isAscii_of_lower fun c hc =>
    Value.isPlainImage_of_isCharacter (hlower c hc)
  rw [Text.lower_of_isAscii hascii] at hlower
  exact fun c hc =>
    Value.isCharacter_of_toLower (hascii c hc) (hlower _ (List.mem_map_of_mem hc))

theorem isAscii_of_read (h : read name value = .ok a) : Text.IsAscii value := fun c hc =>
  (isCharacter_of_read h c hc).1

/-- Values are words. -/
theorem isWord_of_read (h : read name value = .ok a) : Text.IsWord value :=
  ⟨ne_nil_of_read h, fun c hc => Value.isBlank_of_isCharacter (isCharacter_of_read h c hc)⟩

/-- No name is a value. -/
theorem read_of_spells {m : Mnemonic} (hm : m ∈ Mnemonic.table) (hvalue : m.Spells value)
    {target : Target} (htarget : Mnemonic.target? (Text.lower name) = some target) :
    ∃ fault, read name value = .error fault := by
  rw [read, htarget, Mnemonic.lower_of_spells hm hvalue]
  exact Mnemonic.read_spelling hm target (Text.lower name)

end Assignment

/-- A name in front of a value of its own is the first of the table with which the two start. -/
theorem Mnemonic.leading?_append {m : Mnemonic} (hm : m ∈ table) {name value : Text}
    (hname : m.Spells name) {a : Assignment} (h : Assignment.read name value = .ok a) :
    leading? (name ++ value) = some m := by
  have hlower : Text.lower (name ++ value) = m.spelling ++ Text.lower value := by
    obtain ⟨next, happend⟩ := Text.lowerAfter_append (isAscii_of_spells hm hname) false value
    have hvalue := Assignment.isAscii_of_read h
    rw [Text.lower, happend, Text.lowerAfter_of_isAscii hvalue, Text.lower_of_isAscii hvalue, hname]
  obtain ⟨target, htarget, hread⟩ := Assignment.target_of_read h
  rw [target?_of_spells hm hname, Option.some.injEq] at htarget
  subst htarget
  obtain ⟨before, after, htable⟩ := List.append_of_mem hm
  rw [leading?, hlower, List.find?_eq_some_iff_append]
  refine ⟨List.isPrefixOf_iff_prefix.mpr (List.prefix_append _ _), before, after, htable, ?_⟩
  intro m' hm'
  have hpairwise := pairwise_table
  rw [htable, List.pairwise_append] at hpairwise
  obtain ⟨hshorter, hlonger⟩ := hpairwise.2.2 m' hm' m List.mem_cons_self
  rw [Bool.not_eq_true', ← Bool.not_eq_true, List.isPrefixOf_iff_prefix]
  intro hprefix
  -- The earlier name would start the written name, or go on into the value.
  rcases List.prefix_or_prefix_of_prefix hprefix (List.prefix_append _ _) with hle | hle
  · exact hshorter hle
  · rcases hlonger hle with ⟨htarget, hspelling⟩ | ⟨htarget, hspelling⟩
    · rw [hspelling, List.prefix_append_right_inj] at hprefix
      rw [htarget] at hread
      rcases Target.read_cases hread with
        ⟨_, _, ⟨⟩, -⟩ | ⟨_, _, ⟨⟩, -⟩ | ⟨_, -, hanchor, -⟩ | ⟨_, ⟨⟩, -⟩
      exact Choice.not_prefix_of_read? hanchor (by decide) 'n' (by decide) (by decide) hprefix
    · rw [hspelling, List.prefix_append_right_inj] at hprefix
      rw [htarget] at hread
      rcases Target.read_cases hread with
        ⟨_, _, ⟨⟩, -⟩ | ⟨_, _, ⟨⟩, -⟩ | ⟨_, ⟨⟩, -⟩ | ⟨_, -, hfill, -⟩
      exact Choice.not_prefix_of_read? hfill (by decide) 'i' (by decide) (by decide) hprefix

end GridSketch
