/-
  Decimal literals by their parts, and how a text is scanned for one.

  A literal is a sign, if any, whole digits and perhaps a point with more digits, and perhaps an
  exponent. Scanning a text takes each part as far as it goes. So a literal is scanned whole if nothing
  behind it goes on with one of its parts, and what is left of a text after scanning is never longer than
  what any literal at the start of the text leaves.

  * `Decimal.Literal`: the parts, with `text` and `decimal`.
  * `Decimal.exists_literal_of_scan?`: what is scanned is a literal.
  * `Decimal.scan?_literal`: a literal is scanned whole.
  * `Decimal.read?_eq_some_iff`: the texts that are read are the literals.
  * `Decimal.exists_scan?_suffix`: no literal at the start of a text reaches farther than what is scanned.
-/
import GridSketch.Number.Decimal
import GridSketch.Proofs.Number.Integers
import Mathlib.Data.List.TakeWhile

namespace GridSketch

namespace Decimal

/-! ## Literals -/

/-- The parts of an exponent. -/
structure Exponent where
  mark : Char
  sign : Text
  digits : Text
  isMark : mark = 'e' ∨ mark = 'E'
  isSign : sign.IsSign
  isDigits : digits.IsDigits

namespace Exponent

/-- The notation of an exponent. -/
def text (e : Exponent) : Text := e.mark :: (e.sign ++ e.digits)

/-- The number of an exponent. -/
def value (e : Exponent) : Int :=
  Integer.ofSign (decide (e.sign = ['-'])) (Integer.ofDigits e.digits)

end Exponent

/-- The parts of a decimal literal. There is a digit before the point or behind it. -/
structure Literal where
  sign : Text
  whole : Text
  /-- The digits behind the point, if there is a point. -/
  fraction : Option Text
  exponent : Option Exponent
  isSign : sign.IsSign
  isDigit_whole : ∀ c ∈ whole, c.isDigit = true
  isDigit_fraction : ∀ c ∈ fraction.getD [], c.isDigit = true
  ne_nil : whole ≠ [] ∨ fraction.getD [] ≠ []

/-- A point with the digits behind it, or nothing. -/
def pointed : Option Text → Text
  | none => []
  | some digits => '.' :: digits

namespace Literal

/-- The notation of an exponent, or nothing. -/
def scaled (l : Literal) : Text := l.exponent.elim [] Exponent.text

/-- The notation of a literal. -/
def text (l : Literal) : Text := l.sign ++ (l.whole ++ (pointed l.fraction ++ l.scaled))

/-- The number of a literal. -/
def decimal (l : Literal) : Decimal where
  negative := decide (l.sign = ['-'])
  digits := Integer.ofDigits (l.whole ++ l.fraction.getD [])
  exponent := l.exponent.elim 0 Exponent.value - (l.fraction.getD []).length

end Literal

/-! ## Scanning the parts -/

/-- A text that does not go on with a digit. -/
def EndsDigits (t : Text) : Prop := ∀ c ∈ t.head?, c.isDigit = false

/-- A text that goes on with neither a digit nor a point. -/
def EndsMantissa (t : Text) : Prop := EndsDigits t ∧ ∀ c ∈ t.head?, c ≠ '.'

/-- A text that goes on with none of the parts of a literal. -/
def EndsLiteral (t : Text) : Prop := EndsMantissa t ∧ ∀ c ∈ t.head?, c ≠ 'e' ∧ c ≠ 'E'

variable {t rest digits : Text}

theorem splitDigits_append (h : ∀ c ∈ digits, c.isDigit = true) (rest : Text) :
    splitDigits (digits ++ rest) = (digits ++ (splitDigits rest).1, (splitDigits rest).2) := by
  rw [splitDigits, List.takeWhile_append_of_pos h, List.dropWhile_append_of_pos h]
  rfl

theorem splitDigits_of_ends (h : EndsDigits t) : splitDigits t = ([], t) := by
  cases t with
  | nil => rfl
  | cons c t =>
    have hc : c.isDigit = false := h c rfl
    rw [splitDigits, List.takeWhile_cons_of_neg (by simp [hc]), List.dropWhile_cons_of_neg (by simp [hc])]

theorem append_splitDigits (t : Text) : (splitDigits t).1 ++ (splitDigits t).2 = t :=
  List.takeWhile_append_dropWhile

theorem isDigit_splitDigits (t : Text) : ∀ c ∈ (splitDigits t).1, c.isDigit = true :=
  fun _ hc => List.mem_takeWhile_imp hc

theorem splitFraction_of_ends (h : ∀ c ∈ t.head?, c ≠ '.') : splitFraction t = (none, t) := by
  rw [splitFraction]
  rintro _ rfl
  exact h '.' rfl rfl

theorem append_splitFraction (t : Text) :
    pointed (splitFraction t).1 ++ (splitFraction t).2 = t := by
  unfold splitFraction
  split
  · exact congrArg ('.' :: ·) (append_splitDigits _)
  · rfl

theorem isDigit_splitFraction (t : Text) :
    ∀ c ∈ (splitFraction t).1.getD [], c.isDigit = true := by
  unfold splitFraction
  split
  · exact isDigit_splitDigits _
  · nofun

theorem splitExponent_of_ends (h : ∀ c ∈ t.head?, c ≠ 'e' ∧ c ≠ 'E') :
    splitExponent t = (0, t) := by
  cases t with
  | nil => rfl
  | cons mark t =>
    have hmark := h mark rfl
    rw [splitExponent]
    dsimp only
    rw [if_neg fun hexponent => hexponent.1.elim hmark.1 hmark.2]

theorem Exponent.endsMantissa (e : Exponent) (rest : Text) : EndsMantissa (e.text ++ rest) := by
  constructor <;>
  · rintro _ ⟨⟩
    rcases e.isMark with hmark | hmark <;> rw [hmark] <;> decide

/-- An exponent is split off together with the digits that follow it. -/
theorem splitExponent_append (e : Exponent) (rest : Text) :
    splitExponent (e.text ++ rest) =
      (Integer.ofSign (decide (e.sign = ['-']))
        (Integer.ofDigits (e.digits ++ (splitDigits rest).1)), (splitDigits rest).2) := by
  have hsign : Text.splitSign (e.sign ++ (e.digits ++ rest)) =
      (decide (e.sign = ['-']), e.digits ++ rest) :=
    Text.splitSign_append e.isSign (e.isDigits.unsigned rest)
  have hne : (e.digits ++ (splitDigits rest).1).isEmpty = false := by
    simp [e.isDigits.1]
  rw [Exponent.text, List.cons_append, List.append_assoc, splitExponent, hsign]
  dsimp only
  rw [splitDigits_append e.isDigits.2]
  dsimp only
  rw [if_pos ⟨e.isMark, by rw [hne]; rfl⟩]
  rfl

/-- An exponent is split off whole, or nothing is. -/
theorem exists_exponent_of_splitExponent (t : Text) :
    ∃ e? : Option Exponent, t = e?.elim [] Exponent.text ++ (splitExponent t).2 ∧
      (splitExponent t).1 = e?.elim 0 Exponent.value := by
  cases t with
  | nil => exact ⟨none, rfl, rfl⟩
  | cons mark tail =>
    rw [splitExponent]
    dsimp only
    split
    next h =>
      obtain ⟨sign, hsign, htail, hnegative⟩ := Text.exists_isSign_of_splitSign tail
      have hne : (splitDigits (Text.splitSign tail).2).1 ≠ [] := by simpa using h.2
      let e : Exponent :=
        { mark, sign, digits := (splitDigits (Text.splitSign tail).2).1, isMark := h.1, isSign := hsign,
          isDigits := ⟨hne, isDigit_splitDigits _⟩ }
      refine ⟨some e, ?_, ?_⟩
      · rw [Option.elim_some, Exponent.text, List.cons_append, List.append_assoc, append_splitDigits,
          ← htail]
      · rw [Option.elim_some, Exponent.value, hnegative]
        rfl
    next => exact ⟨none, rfl, rfl⟩

/-! ## Scanning a literal -/

/-- The parts are scanned one after the other. -/
theorem scan?_eq (t : Text) :
    scan? t = (splitMantissa? (Text.splitSign t).2).map fun found =>
      (⟨(Text.splitSign t).1, Integer.ofDigits (found.1.1 ++ found.1.2),
        (splitExponent found.2).1 - found.1.2.length⟩, (splitExponent found.2).2) := rfl

/-- What is split off as a mantissa are whole digits, and digits behind a point if there is one. -/
theorem exists_fraction_of_splitMantissa? {whole fraction : Text}
    (h : splitMantissa? t = some ((whole, fraction), rest)) :
    ∃ fraction? : Option Text, t = whole ++ (pointed fraction? ++ rest) ∧
      fraction = fraction?.getD [] ∧ (∀ c ∈ whole, c.isDigit = true) ∧
      (∀ c ∈ fraction?.getD [], c.isDigit = true) ∧ (whole ≠ [] ∨ fraction?.getD [] ≠ []) := by
  rw [splitMantissa?] at h
  dsimp only at h
  split at h
  next => cases h
  next hdigit =>
    cases h
    refine ⟨(splitFraction (splitDigits t).2).1, ?_, rfl, isDigit_splitDigits t,
      isDigit_splitFraction _, by simpa [Classical.or_iff_not_imp_left] using hdigit⟩
    rw [append_splitFraction, append_splitDigits]

/-- What is scanned is a literal at the start of the text. -/
theorem exists_literal_of_scan? {d : Decimal} (h : scan? t = some (d, rest)) :
    ∃ l : Literal, t = l.text ++ rest ∧ l.decimal = d := by
  obtain ⟨sign, hsign, ht, hnegative⟩ := Text.exists_isSign_of_splitSign t
  rw [scan?_eq] at h
  obtain ⟨⟨⟨whole, fraction⟩, afterMantissa⟩, hmantissa, hscan⟩ := Option.map_eq_some_iff.mp h
  obtain ⟨fraction?, hunsigned, rfl, hwhole, hfraction, hne⟩ :=
    exists_fraction_of_splitMantissa? hmantissa
  obtain ⟨e?, hexponent, hvalue⟩ := exists_exponent_of_splitExponent afterMantissa
  obtain ⟨rfl, rfl⟩ := Prod.mk.inj hscan
  let l : Literal :=
    { sign, whole, fraction := fraction?, exponent := e?, isSign := hsign, isDigit_whole := hwhole,
      isDigit_fraction := hfraction, ne_nil := hne }
  refine ⟨l, ?_, ?_⟩
  · have htext : l.text ++ (splitExponent afterMantissa).2 =
        sign ++ (whole ++ (pointed fraction? ++
          (e?.elim [] Exponent.text ++ (splitExponent afterMantissa).2))) := by
      simp only [Literal.text, Literal.scaled, l, List.append_assoc]
    rw [htext, ← hexponent, ← hunsigned, ← ht]
  · rw [Literal.decimal, ← hnegative, ← hvalue]

namespace Literal

variable (l : Literal)

theorem unsigned_mantissa (rest : Text) :
    Text.Unsigned (l.whole ++ (pointed l.fraction ++ rest)) := by
  by_cases hwhole : l.whole = []
  · have hfraction := l.ne_nil.resolve_left (absurd hwhole)
    rw [hwhole]
    cases hpoint : l.fraction with
    | none => rw [hpoint] at hfraction; exact absurd rfl hfraction
    | some digits => rintro _ ⟨⟩; decide
  · exact Text.IsDigits.unsigned ⟨hwhole, l.isDigit_whole⟩ _

end Literal

/-- Whole digits are split off together with all that goes on with them. -/
theorem splitMantissa?_whole {whole : Text} (hwhole : ∀ c ∈ whole, c.isDigit = true)
    (hne : whole ≠ []) (rest : Text) :
    splitMantissa? (whole ++ rest) =
      some ((whole ++ (splitDigits rest).1, (splitFraction (splitDigits rest).2).1.getD []),
        (splitFraction (splitDigits rest).2).2) := by
  rw [splitMantissa?, splitDigits_append hwhole]
  dsimp only
  rw [if_neg (by simp [hne])]

/-- Digits behind a point are split off together with the digits that go on with them. -/
theorem splitMantissa?_pointed {whole fraction : Text} (hwhole : ∀ c ∈ whole, c.isDigit = true)
    (hfraction : ∀ c ∈ fraction, c.isDigit = true) (hne : whole ≠ [] ∨ fraction ≠ [])
    (rest : Text) :
    splitMantissa? (whole ++ '.' :: (fraction ++ rest)) =
      some ((whole, fraction ++ (splitDigits rest).1), (splitDigits rest).2) := by
  have hstop : EndsDigits ('.' :: (fraction ++ rest)) := by rintro _ ⟨⟩; decide
  have hsplit : splitFraction ('.' :: (fraction ++ rest)) =
      (some (fraction ++ (splitDigits rest).1), (splitDigits rest).2) := by
    rw [splitFraction, splitDigits_append hfraction]
  have hempty : (whole.isEmpty && (fraction ++ (splitDigits rest).1).isEmpty) = false := by
    rcases hne with h | h <;> simp [h]
  rw [splitMantissa?, splitDigits_append hwhole, splitDigits_of_ends hstop, List.append_nil]
  dsimp only
  rw [hsplit]
  dsimp only
  rw [Option.getD_some, hempty, if_neg Bool.false_ne_true]

namespace Literal

variable (l : Literal)

/-- The digits of a mantissa are split off whole if the text behind it does not go on with them. -/
theorem splitMantissa?_append (h : EndsMantissa rest) :
    splitMantissa? (l.whole ++ (pointed l.fraction ++ rest)) =
      some ((l.whole, l.fraction.getD []), rest) := by
  have hfraction := l.isDigit_fraction
  have hne := l.ne_nil
  cases hpoint : l.fraction with
  | none =>
    rw [hpoint] at hne
    rw [pointed, List.nil_append, splitMantissa?_whole l.isDigit_whole (hne.resolve_right (absurd rfl)),
      splitDigits_of_ends h.1, splitFraction_of_ends h.2, List.append_nil]
  | some digits =>
    rw [hpoint, Option.getD_some] at hfraction hne
    rw [pointed, List.cons_append, splitMantissa?_pointed l.isDigit_whole hfraction hne,
      splitDigits_of_ends h.1, List.append_nil]
    rfl

/-- What is left after a mantissa is a suffix of the text behind any mantissa at the start. -/
theorem exists_splitMantissa?_suffix (rest : Text) :
    ∃ parts r, splitMantissa? (l.whole ++ (pointed l.fraction ++ rest)) = some (parts, r) ∧
      r <:+ rest := by
  have hfraction := l.isDigit_fraction
  have hne := l.ne_nil
  cases hpoint : l.fraction with
  | none =>
    rw [hpoint] at hne
    refine ⟨_, _, splitMantissa?_whole l.isDigit_whole (hne.resolve_right (absurd rfl)) rest, ?_⟩
    have hpointed : (splitFraction (splitDigits rest).2).2 <:+ (splitDigits rest).2 :=
      ⟨_, append_splitFraction _⟩
    exact hpointed.trans ⟨_, append_splitDigits rest⟩
  | some digits =>
    rw [hpoint, Option.getD_some] at hfraction hne
    exact ⟨_, _, splitMantissa?_pointed l.isDigit_whole hfraction hne rest, _, append_splitDigits rest⟩

end Literal

/-- A literal is scanned whole if the text behind it goes on with none of its parts. -/
theorem scan?_literal (l : Literal) (h : EndsLiteral rest) :
    scan? (l.text ++ rest) = some (l.decimal, rest) := by
  have hends : EndsMantissa (l.scaled ++ rest) := by
    rw [Literal.scaled]
    cases l.exponent with
    | none => exact h.1
    | some e => exact e.endsMantissa rest
  have hsplit : splitExponent (l.scaled ++ rest) = (l.exponent.elim 0 Exponent.value, rest) := by
    rw [Literal.scaled]
    cases l.exponent with
    | none => exact splitExponent_of_ends h.2
    | some e =>
      rw [Option.elim_some, splitExponent_append, splitDigits_of_ends h.1.1, List.append_nil]
      rfl
  rw [scan?_eq, Literal.text, List.append_assoc, List.append_assoc, List.append_assoc,
    Text.splitSign_append l.isSign (l.unsigned_mantissa _)]
  rw [l.splitMantissa?_append hends, Option.map_some, hsplit]
  rfl

theorem scan?_text (l : Literal) : scan? l.text = some (l.decimal, []) := by
  have hends : EndsLiteral [] := ⟨⟨nofun, nofun⟩, nofun⟩
  have hscan := scan?_literal l hends
  rwa [List.append_nil] at hscan

/-- Whatever is behind a literal at the start of a text, something is scanned, and what is left of the
    text is left by the literal too. -/
theorem exists_scan?_suffix (l : Literal) (rest : Text) :
    ∃ d r, scan? (l.text ++ rest) = some (d, r) ∧ r <:+ rest := by
  rw [scan?_eq, Literal.text, List.append_assoc, List.append_assoc, List.append_assoc,
    Text.splitSign_append l.isSign (l.unsigned_mantissa _)]
  rw [Literal.scaled]
  -- With an exponent the mantissa ends where that of the literal does; without one it may go on.
  cases l.exponent with
  | none =>
    obtain ⟨parts, r, hmantissa, hsuffix⟩ := l.exists_splitMantissa?_suffix rest
    obtain ⟨e?, hexponent, -⟩ := exists_exponent_of_splitExponent r
    rw [Option.elim_none, List.nil_append, hmantissa, Option.map_some]
    exact ⟨_, _, rfl, .trans ⟨_, hexponent.symm⟩ hsuffix⟩
  | some e =>
    rw [Option.elim_some, l.splitMantissa?_append (e.endsMantissa rest), Option.map_some]
    dsimp only
    rw [splitExponent_append]
    exact ⟨_, _, rfl, ⟨_, append_splitDigits rest⟩⟩

/-- What is read are the literals. -/
theorem read?_eq_some_iff {w : Binary64} :
    read? t = some w ↔ ∃ l : Literal, l.text = t ∧ l.decimal.value = w := by
  rw [read?]
  constructor
  · intro h
    split at h
    next d hscan =>
      obtain ⟨l, ht, hdecimal⟩ := exists_literal_of_scan? hscan
      rw [List.append_nil] at ht
      exact ⟨l, ht.symm, by rw [hdecimal]; exact Option.some.inj h⟩
    next => cases h
  · rintro ⟨l, rfl, rfl⟩
    rw [scan?_text]

/-! ## Integers as literals -/

/-- A sign and digits as a literal, without fraction and exponent. -/
def Literal.ofDigits {sign digits : Text} (hsign : sign.IsSign) (hdigits : digits.IsDigits) :
    Literal where
  sign := sign
  whole := digits
  fraction := none
  exponent := none
  isSign := hsign
  isDigit_whole := hdigits.2
  isDigit_fraction := nofun
  ne_nil := .inl hdigits.1

section ofDigits

variable {sign : Text} (hsign : sign.IsSign) (hdigits : digits.IsDigits)

theorem Literal.text_ofDigits : (ofDigits hsign hdigits).text = sign ++ digits :=
  congrArg (sign ++ ·) (List.append_nil digits)

theorem Literal.decimal_ofDigits : (ofDigits hsign hdigits).decimal =
    ⟨decide (sign = ['-']), Integer.ofDigits digits, 0⟩ := by
  have hnumber : (ofDigits hsign hdigits).decimal =
      ⟨decide (sign = ['-']), Integer.ofDigits (digits ++ []), 0⟩ := rfl
  rw [hnumber, List.append_nil]

end ofDigits

/-- The notation of an integer is a literal, without fraction and exponent. -/
theorem exists_literal_of_denotes {n : Int} (h : Integer.Denotes t n) :
    ∃ (l : Literal) (negative : Bool) (magnitude : Nat), l.text = t ∧
      l.decimal = ⟨negative, magnitude, 0⟩ ∧ Integer.ofSign negative magnitude = n := by
  cases h with
  | unsigned h =>
    exact ⟨.ofDigits (.inl rfl) h, _, _, Literal.text_ofDigits _ h, Literal.decimal_ofDigits _ h, rfl⟩
  | plus h =>
    have hsign : Text.IsSign ['+'] := .inr (.inl rfl)
    exact ⟨.ofDigits hsign h, _, _, Literal.text_ofDigits _ h, Literal.decimal_ofDigits _ h, rfl⟩
  | minus h =>
    have hsign : Text.IsSign ['-'] := .inr (.inr rfl)
    exact ⟨.ofDigits hsign h, _, _, Literal.text_ofDigits _ h, Literal.decimal_ofDigits _ h, rfl⟩

/-- The number of a literal without scale is the double nearest to the integer. -/
theorem value_unscaled (negative : Bool) (magnitude : Nat) :
    value ⟨negative, magnitude, 0⟩ = .ofRatio negative magnitude 1 := by
  rw [value, Binary64.ofDecimal]
  dsimp only
  split
  next hzero =>
    rw [hzero]
    cases negative <;> decide +kernel
  next =>
    rw [if_neg (by decide), if_neg (by omega), if_pos (by decide), Int.toNat_zero, Nat.pow_zero,
      Nat.mul_one]

/-! ## Characters -/

theorem Exponent.mem_text (e : Exponent) {c : Char} (hc : c ∈ e.text) :
    c ∈ Text.numerals ∨ c = 'E' := by
  rw [text, List.mem_cons, List.mem_append] at hc
  rcases hc with rfl | hc | hc
  · exact e.isMark.imp_left fun hmark => by rw [hmark]; decide
  · exact .inl (Text.mem_numerals_of_isSign e.isSign hc)
  · exact .inl (Text.mem_numerals_of_isDigit (e.isDigits.2 c hc))

/-- The characters of a literal are those of numerals, but the mark of its exponent may be a capital. -/
theorem Literal.mem_text (l : Literal) {c : Char} (hc : c ∈ l.text) :
    c ∈ Text.numerals ∨ c = 'E' := by
  rw [text, List.mem_append, List.mem_append, List.mem_append] at hc
  rcases hc with hc | hc | hc | hc
  · exact .inl (Text.mem_numerals_of_isSign l.isSign hc)
  · exact .inl (Text.mem_numerals_of_isDigit (l.isDigit_whole c hc))
  · have hfraction := l.isDigit_fraction
    cases hpoint : l.fraction with
    | none => rw [hpoint] at hc; cases hc
    | some digits =>
      rw [hpoint] at hc hfraction
      rcases List.mem_cons.mp hc with rfl | hc
      · exact .inl (by decide)
      · exact .inl (Text.mem_numerals_of_isDigit (hfraction c hc))
  · rw [scaled] at hc
    cases hexponent : l.exponent with
    | none => rw [hexponent] at hc; cases hc
    | some e => rw [hexponent] at hc; exact e.mem_text hc

end Decimal

end GridSketch
