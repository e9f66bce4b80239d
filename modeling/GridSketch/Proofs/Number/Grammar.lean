/-
  The language of decimal literals.

  A pattern that matches literals may let a point stand apart from the digits on both of its sides, so
  that digits can be split between its parts in many ways. As languages the pattern and the grammar of
  literals are equal, by the laws of union, concatenation and repetition alone; and a text is in the
  language exactly if it is a literal in its parts.

  The number that a text starts with is that of the longest beginning that is a literal or a spelled out
  infinity; blanks in front do not count. What is scanned is the longest literal.

  * `Grammar.pattern_eq_literal`: pattern and grammar.
  * `Grammar.mem_literal_iff`: texts of the language and literals in their parts.
  * `Decimal.scan?_eq_some_iff`: the longest literal at the start of a text.
  * `Decimal.leads_literal_iff`: the number that a literal starts with.
-/
import GridSketch.Proofs.Number.Literals
import Mathlib.Computability.Language

open scoped Computability

namespace GridSketch

-- What holds of all characters of a text is decided on its characters.
attribute [local instance (2000)] List.decidableBAll

namespace Grammar

/-! ## The language -/

/-- A part that may be missing. -/
def optional (l : Language Char) : Language Char := 1 + l

/-- One ASCII digit. -/
def digit : Language Char := {t | ∃ c : Char, c.isDigit = true ∧ t = [c]}

/-- One digit or more. -/
def digits : Language Char := digit * digit∗

/-- A decimal point. -/
def point : Language Char := {['.']}

/-- A sign, or none. -/
def sign : Language Char := optional ({['+']} + {['-']})

/-- A mark, a sign perhaps, and digits. -/
def exponent : Language Char := ({['e']} + {['E']}) * (sign * digits)

/-- Digits, perhaps with a point and more digits; or a point and digits. -/
def mantissa : Language Char := digits * optional (point * digit∗) + point * digits

/-- The grammar of decimal literals. -/
def literal : Language Char := sign * (mantissa * optional exponent)

/-- A pattern of decimal literals, in which point and digits behind it are apart. -/
def pattern : Language Char :=
  sign * ((digits * (optional point * digit∗) + point * digits) * optional exponent)

/-- A literal, or the name of infinity with a sign. -/
def numeral : Language Char := literal + sign * {"Infinity".toList}

/-- Digits behind digits are digits. -/
theorem digits_mul_kstar : digits * digit∗ = digits := by
  rw [digits, mul_assoc, kstar_mul_kstar]

/-- Whether the digits behind a point belong to the point or stand on their own makes no difference. -/
theorem pattern_eq_literal : pattern = literal := by
  have hsplit : digits * (optional point * digit∗) = digits * optional (point * digit∗) := by
    calc digits * (optional point * digit∗) = digits * digit∗ + digits * (point * digit∗) := by
          rw [optional, add_mul, one_mul, mul_add]
      _ = digits * optional (point * digit∗) := by
          rw [digits_mul_kstar, optional, mul_add, mul_one]
  rw [pattern, literal, mantissa, hsplit]

/-! ## Texts of the language -/

variable {t : Text}

theorem mem_optional {l : Language Char} : t ∈ optional l ↔ t = [] ∨ t ∈ l := Iff.rfl

theorem mem_kstar_digit : t ∈ digit∗ ↔ ∀ c ∈ t, c.isDigit = true := by
  rw [Language.mem_kstar]
  constructor
  · rintro ⟨parts, rfl, hparts⟩ c hc
    obtain ⟨part, hpart, hc⟩ := List.mem_flatten.mp hc
    obtain ⟨c', hdigit, rfl⟩ := hparts part hpart
    rwa [List.mem_singleton.mp hc]
  · intro h
    refine ⟨t.map fun c => [c], by rw [← List.flatMap_def, List.flatMap_singleton'], fun part hpart => ?_⟩
    obtain ⟨c, hc, rfl⟩ := List.mem_map.mp hpart
    exact ⟨c, h c hc, rfl⟩

theorem mem_digits : t ∈ digits ↔ t.IsDigits := by
  rw [digits, Language.mem_mul]
  constructor
  · rintro ⟨_, ⟨c, hc, rfl⟩, rest, hrest, rfl⟩
    rw [mem_kstar_digit] at hrest
    exact ⟨List.cons_ne_nil _ _, List.forall_mem_cons.mpr ⟨hc, hrest⟩⟩
  · rintro ⟨hne, hdigits⟩
    obtain ⟨c, rest, rfl⟩ := List.exists_cons_of_ne_nil hne
    obtain ⟨hc, hrest⟩ := List.forall_mem_cons.mp hdigits
    exact ⟨[c], ⟨c, hc, rfl⟩, rest, mem_kstar_digit.mpr hrest, rfl⟩

theorem mem_exponent : t ∈ exponent ↔ ∃ e : Decimal.Exponent, e.text = t := by
  constructor
  · rintro ⟨_, hmark, _, ⟨s, hs, ds, hds, rfl⟩, rfl⟩
    rcases hmark with rfl | rfl
    · exact ⟨⟨'e', s, ds, .inl rfl, hs, mem_digits.mp hds⟩, rfl⟩
    · exact ⟨⟨'E', s, ds, .inr rfl, hs, mem_digits.mp hds⟩, rfl⟩
  · rintro ⟨e, rfl⟩
    refine ⟨[e.mark], ?_, _, ⟨e.sign, e.isSign, e.digits, mem_digits.mpr e.isDigits, rfl⟩, rfl⟩
    exact e.isMark.imp (congrArg fun c => [c]) (congrArg fun c => [c])

/-- What is in front of an exponent: whole digits and digits behind a point, some of them at least. -/
theorem mem_mantissa :
    t ∈ mantissa ↔ ∃ (whole : Text) (fraction : Option Text), t = whole ++ Decimal.pointed fraction ∧
      (∀ c ∈ whole, c.isDigit = true) ∧ (∀ c ∈ fraction.getD [], c.isDigit = true) ∧
      (whole ≠ [] ∨ fraction.getD [] ≠ []) := by
  constructor
  · rintro (⟨whole, hwhole, _, rfl | ⟨_, rfl, fraction, hfraction, rfl⟩, rfl⟩ |
      ⟨_, rfl, fraction, hfraction, rfl⟩)
    · obtain ⟨hne, hdigits⟩ := mem_digits.mp hwhole
      exact ⟨whole, none, rfl, hdigits, List.forall_mem_nil _, .inl hne⟩
    · obtain ⟨hne, hdigits⟩ := mem_digits.mp hwhole
      exact ⟨whole, some fraction, rfl, hdigits, mem_kstar_digit.mp hfraction, .inl hne⟩
    · obtain ⟨hne, hdigits⟩ := mem_digits.mp hfraction
      exact ⟨[], some fraction, rfl, List.forall_mem_nil _, hdigits, .inr hne⟩
  · rintro ⟨whole, fraction, rfl, hwhole, hfraction, hne⟩
    by_cases hempty : whole = []
    · have hdigits := hne.resolve_left (absurd hempty)
      cases fraction with
      | none => exact absurd rfl hdigits
      | some ds =>
        rw [hempty]
        exact .inr ⟨['.'], rfl, ds, mem_digits.mpr ⟨hdigits, hfraction⟩, rfl⟩
    · refine .inl ⟨whole, mem_digits.mpr ⟨hempty, hwhole⟩, _, ?_, rfl⟩
      cases fraction with
      | none => exact .inl rfl
      | some ds => exact .inr ⟨['.'], rfl, ds, mem_kstar_digit.mpr hfraction, rfl⟩

/-- The texts of the language are the literals. -/
theorem mem_literal_iff : t ∈ literal ↔ ∃ l : Decimal.Literal, l.text = t := by
  constructor
  · rintro ⟨s, hs, _, ⟨_, hmantissa, scale, hscale, rfl⟩, rfl⟩
    obtain ⟨whole, fraction, rfl, hwhole, hfraction, hne⟩ := mem_mantissa.mp hmantissa
    obtain ⟨e?, rfl⟩ : ∃ e? : Option Decimal.Exponent, e?.elim [] Decimal.Exponent.text = scale := by
      rcases mem_optional.mp hscale with rfl | hexponent
      · exact ⟨none, rfl⟩
      · obtain ⟨e, rfl⟩ := mem_exponent.mp hexponent
        exact ⟨some e, rfl⟩
    refine ⟨⟨s, whole, fraction, e?, hs, hwhole, hfraction, hne⟩, ?_⟩
    exact congrArg (s ++ ·) (List.append_assoc ..).symm
  · rintro ⟨l, rfl⟩
    have hmantissa : l.whole ++ Decimal.pointed l.fraction ∈ mantissa :=
      mem_mantissa.mpr ⟨_, _, rfl, l.isDigit_whole, l.isDigit_fraction, l.ne_nil⟩
    have hscale : l.scaled ∈ optional exponent := by
      rw [Decimal.Literal.scaled]
      cases l.exponent with
      | none => exact .inl rfl
      | some e => exact .inr (mem_exponent.mpr ⟨e, rfl⟩)
    exact ⟨l.sign, l.isSign, _, ⟨_, hmantissa, _, hscale, rfl⟩,
      congrArg (l.sign ++ ·) (List.append_assoc ..)⟩

/-! ## The longest beginning -/

/-- A text is the longest beginning of another that is in a language. -/
def IsLongestStart (l : Language Char) (s t : Text) : Prop :=
  s ∈ l ∧ s <+: t ∧ ∀ s' ∈ l, s' <+: t → s'.length ≤ s.length

/-- A text in the language is the longest beginning of itself, and the only one. -/
theorem isLongestStart_self_iff {l : Language Char} {s : Text} (ht : t ∈ l) :
    IsLongestStart l s t ↔ s = t := by
  constructor
  · rintro ⟨-, hstart, hlongest⟩
    exact hstart.eq_of_length_le (hlongest t ht (List.prefix_refl t))
  · rintro rfl
    exact ⟨ht, List.prefix_refl s, fun _ _ hstart => hstart.length_le⟩

end Grammar

namespace Decimal

variable {t rest : Text} {d : Decimal}

/-- The notation of a literal determines its number. -/
theorem Literal.decimal_eq_of_text_eq {l l' : Literal} (h : l.text = l'.text) :
    l.decimal = l'.decimal := by
  have hscan := scan?_text l
  rw [h, scan?_text] at hscan
  exact (Prod.mk.inj (Option.some.inj hscan)).1.symm

/-- What is scanned is the longest literal at the start of the text. -/
theorem scan?_eq_some_iff :
    scan? t = some (d, rest) ↔ ∃ l : Literal, l.decimal = d ∧ l.text ++ rest = t ∧
      Grammar.IsLongestStart Grammar.literal l.text t := by
  have hlongest : ∀ {d : Decimal} {l : Literal} {rest : Text}, scan? t = some (d, rest) →
      l.text ++ rest = t → Grammar.IsLongestStart Grammar.literal l.text t := by
    intro d l rest hscan ht
    refine ⟨Grammar.mem_literal_iff.mpr ⟨l, rfl⟩, ⟨rest, ht⟩, fun s hs hstart => ?_⟩
    obtain ⟨l', rfl⟩ := Grammar.mem_literal_iff.mp hs
    obtain ⟨rest', ht'⟩ := hstart
    obtain ⟨_, _, hscan', hsuffix⟩ := exists_scan?_suffix l' rest'
    rw [ht', hscan] at hscan'
    obtain ⟨rfl, rfl⟩ := Prod.mk.inj (Option.some.inj hscan')
    have hlength := congrArg List.length (ht.trans ht'.symm)
    rw [List.length_append, List.length_append] at hlength
    have := hsuffix.length_le
    omega
  constructor
  · intro hscan
    obtain ⟨l, ht, hd⟩ := exists_literal_of_scan? hscan
    exact ⟨l, hd, ht.symm, hlongest hscan ht.symm⟩
  · rintro ⟨l, rfl, rfl, -, -, hmax⟩
    obtain ⟨d, rest', hscan, -⟩ := exists_scan?_suffix l rest
    obtain ⟨l', ht, hd⟩ := exists_literal_of_scan? hscan
    obtain ⟨hmem, hstart, hmax'⟩ := hlongest hscan ht.symm
    -- Two longest beginnings of one text are equal.
    have hlength : l.text.length = l'.text.length :=
      le_antisymm (hmax' _ (Grammar.mem_literal_iff.mpr ⟨l, rfl⟩) ⟨rest, rfl⟩) (hmax _ hmem hstart)
    obtain ⟨htext, rfl⟩ := List.append_inj ht hlength
    rw [hscan, ← hd, Literal.decimal_eq_of_text_eq htext]

/-- Nothing is scanned if no literal stands at the start. -/
theorem scan?_eq_none_iff : scan? t = none ↔ ∀ s ∈ Grammar.literal, ¬ s <+: t := by
  constructor
  · rintro hscan s hs ⟨rest, rfl⟩
    obtain ⟨l, rfl⟩ := Grammar.mem_literal_iff.mp hs
    obtain ⟨_, _, hsome, -⟩ := exists_scan?_suffix l rest
    rw [hscan] at hsome
    cases hsome
  · intro h
    refine Option.eq_none_iff_forall_ne_some.mpr fun ⟨d, rest⟩ hscan => ?_
    obtain ⟨l, ht, -⟩ := exists_literal_of_scan? hscan
    exact h _ (Grammar.mem_literal_iff.mpr ⟨l, rfl⟩) ⟨rest, ht.symm⟩

/-! ## The number at the start of a text -/

/-- The number that a text starts with, behind blanks: that of the longest beginning that is a literal
    or the name of infinity with a sign. Without such a beginning there is none. -/
inductive Leads : Text → Binary64 → Prop
  | literal {t : Text} (l : Literal)
      (h : Grammar.IsLongestStart Grammar.numeral l.text (t.dropWhile Text.isBlank)) :
      Leads t l.decimal.value
  | infinity {t sign : Text} (hsign : sign.IsSign)
      (h : Grammar.IsLongestStart Grammar.numeral (sign ++ "Infinity".toList)
        (t.dropWhile Text.isBlank)) :
      Leads t (.infinity (decide (sign = ['-'])))
  | nothing {t : Text} (h : ∀ s ∈ Grammar.numeral, ¬ s <+: t.dropWhile Text.isBlank) : Leads t .nan

theorem Literal.mem_numeral (l : Literal) : l.text ∈ Grammar.numeral :=
  .inl (Grammar.mem_literal_iff.mpr ⟨l, rfl⟩)

/-- A literal starts with no blank. -/
theorem Literal.dropWhile_isBlank (l : Literal) : l.text.dropWhile Text.isBlank = l.text := by
  have hblank : ∀ c ∈ Text.numerals, Text.isBlank c = false := by decide
  rw [List.dropWhile_eq_self_iff]
  intro hlength
  have hmem := l.mem_text (List.getElem_mem hlength)
  rcases hmem with h | h
  · simpa using hblank _ h
  · simpa [h] using (by decide : Text.isBlank 'E' = false)

/-- A literal starts with its own number and no other. -/
theorem leads_literal_iff {l : Literal} {w : Binary64} : Leads l.text w ↔ w = l.decimal.value := by
  have hself := fun s => Grammar.isLongestStart_self_iff (s := s) l.mem_numeral
  constructor
  · intro h
    cases h with
    | literal l' h =>
      rw [l.dropWhile_isBlank, hself] at h
      rw [Literal.decimal_eq_of_text_eq h]
    | @infinity sign hsign h =>
      rw [l.dropWhile_isBlank, hself] at h
      have hletter : 'I' ∈ l.text := h ▸ List.mem_append_right sign (by decide)
      exact absurd (l.mem_text hletter) (by decide)
    | nothing h =>
      rw [l.dropWhile_isBlank] at h
      exact absurd (List.prefix_refl _) (h _ l.mem_numeral)
  · rintro rfl
    refine .literal l ?_
    rw [l.dropWhile_isBlank, hself]

end Decimal

end GridSketch
