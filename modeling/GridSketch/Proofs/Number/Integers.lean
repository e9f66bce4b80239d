/-
  Integer notations, read exactly and by way of doubles.

  An integer notation is a sign, if any, and at least one ASCII digit. It may be read exactly, or turned
  into the nearest double, which is taken if it is an integer of magnitude at most `2 ^ 53 - 1`. Up to
  that magnitude every integer is a double, so that nothing is rounded; and since `2 ^ 53` is a double
  too, nothing above that magnitude is rounded to below `2 ^ 53`. So both readings agree on every text,
  whatever the number of its digits.

  * `Integer.Denotes`, `Integer.parse?_eq_some_iff`: the notations and their integers.
  * `Binary64.safeInteger?_ofRatio`: the nearest double of an integer.
  * `Integer.read?_eq_nearest`: both readings.
-/
import GridSketch.Proofs.Number.Digits
import GridSketch.Proofs.Number.Rounding

namespace GridSketch

-- Powers of natural numbers, whatever other instances are in scope.
attribute [local instance (2000)] instPowNat

/-! ## Notations -/

namespace Integer

/-- The natural number that digits are the decimal notation of. -/
def ofDigits (digits : Text) : Nat := Nat.ofDigitChars 10 digits 0

theorem ofDigits_toDigits (n : Nat) : ofDigits (Nat.toDigits 10 n) = n :=
  Nat.ofDigitChars_ten_toDigits

/-- The integer that a text is a decimal notation of: a sign, if any, and digits. -/
inductive Denotes : Text → Int → Prop
  | unsigned {digits : Text} (h : digits.IsDigits) : Denotes digits (ofDigits digits)
  | plus {digits : Text} (h : digits.IsDigits) : Denotes ('+' :: digits) (ofDigits digits)
  | minus {digits : Text} (h : digits.IsDigits) : Denotes ('-' :: digits) (-(ofDigits digits : Int))

@[simp] theorem natAbs_ofSign (negative : Bool) (magnitude : Nat) :
    (ofSign negative magnitude).natAbs = magnitude := by
  cases negative <;> simp [ofSign]

variable {t : Text} {n : Int}

theorem isDigits_iff {digits : Text} :
    (!digits.isEmpty && digits.all Char.isDigit) = true ↔ digits.IsDigits := by
  rw [Bool.and_eq_true, List.all_eq_true, Text.IsDigits]
  simp

theorem parse?_of_splitSign {negative : Bool} {digits : Text}
    (hsplit : t.splitSign = (negative, digits)) (h : digits.IsDigits) :
    parse? t = some (ofSign negative (ofDigits digits)) := by
  rw [parse?, hsplit]
  dsimp only
  rw [if_pos (isDigits_iff.mpr h)]
  rfl

/-- The notations of integers are read, and nothing else is. -/
theorem parse?_eq_some_iff : parse? t = some n ↔ Denotes t n := by
  constructor
  · intro hparse
    have hdigits : t.splitSign.2.IsDigits ∧ ofSign t.splitSign.1 (ofDigits t.splitSign.2) = n := by
      simp only [parse?] at hparse
      split at hparse
      next h => exact ⟨isDigits_iff.mp h, Option.some.inj hparse⟩
      next => cases hparse
    obtain ⟨hdigits, rfl⟩ := hdigits
    unfold Text.splitSign at hdigits ⊢
    split at hdigits
    next rest => exact .minus hdigits
    next rest => exact .plus hdigits
    next => exact .unsigned hdigits
  · intro h
    cases h with
    | unsigned h =>
      have hunsigned := h.unsigned []
      rw [List.append_nil] at hunsigned
      exact parse?_of_splitSign (Text.splitSign_of_unsigned hunsigned) h
    | plus h => exact parse?_of_splitSign rfl h
    | minus h => exact parse?_of_splitSign rfl h

theorem isNumeral_of_denotes (h : Denotes t n) : Text.IsNumeral t := by
  have hdigits : ∀ {digits : Text}, digits.IsDigits → Text.IsNumeral digits :=
    fun h c hc => Text.mem_numerals_of_isDigit (h.2 c hc)
  cases h with
  | unsigned h => exact hdigits h
  | plus h => exact Text.isNumeral_cons (by decide) (hdigits h)
  | minus h => exact Text.isNumeral_cons (by decide) (hdigits h)

/-- An integer is read exactly if its magnitude is within the limit. -/
theorem read?_eq_some_iff : read? t = some n ↔ Denotes t n ∧ n.natAbs ≤ limit := by
  rw [read?, Option.filter_eq_some_iff, parse?_eq_some_iff, decide_eq_true_eq]

end Integer

/-! ## Integers as doubles -/

namespace Binary64

/-- The integer that a double is, if its magnitude is within the limit. -/
def safeInteger? : Binary64 → Option Int
  | .finite negative significand shift _ =>
    let magnitude := significand * 2 ^ shift
    if magnitude % 2 ^ depth = 0 ∧ magnitude / 2 ^ depth ≤ Integer.limit then
      some (Integer.ofSign negative (magnitude / 2 ^ depth))
    else none
  | _ => none

variable {n m k : Nat}

/-- Every integer with the bits of a significand is a double. -/
theorem exists_canonical (h : n < 2 ^ precision) :
    ∃ m k, Canonical m k ∧ n * 2 ^ depth = m * 2 ^ k := by
  rcases Nat.eq_zero_or_pos n with rfl | hpos
  · exact ⟨0, 0, by decide, by rw [Nat.zero_mul, Nat.zero_mul]⟩
  · have hne : n ≠ 0 := Nat.ne_of_gt hpos
    have hlog : n.log2 < precision := (Nat.log2_lt hne).mpr h
    obtain ⟨j, hj⟩ : ∃ j, n.log2 + j = precision - 1 :=
      ⟨precision - 1 - n.log2, by omega⟩
    refine ⟨n * 2 ^ j, depth - j, ⟨?_, .inr ?_, ?_⟩, ?_⟩
    · calc n * 2 ^ j < 2 ^ (n.log2 + 1) * 2 ^ j :=
            Nat.mul_lt_mul_of_pos_right Nat.lt_log2_self (Nat.two_pow_pos j)
        _ = 2 ^ precision := by rw [← Nat.pow_add, show n.log2 + 1 + j = precision by omega]
    · calc 2 ^ (precision - 1) = 2 ^ n.log2 * 2 ^ j := by rw [← Nat.pow_add, hj]
        _ ≤ n * 2 ^ j := Nat.mul_le_mul_right _ (Nat.log2_self_le hne)
    · have hdepth : depth ≤ maxShift := by decide
      omega
    · have hbits : precision - 1 ≤ depth := by decide
      rw [Nat.mul_assoc, ← Nat.pow_add, show j + (depth - j) = depth by omega]

/-- What is rounded from an integer beyond the significands is not rounded to an integer among them. -/
theorem le_of_ofRatio_eq {negative negative' : Bool} {h : Canonical m k} (hn : 2 ^ precision ≤ n)
    (hround : ofRatio negative n 1 = .finite negative' m k h) :
    2 ^ precision * 2 ^ depth ≤ m * 2 ^ k := by
  have hone : 0 < 1 := Nat.one_pos
  rw [ofRatio_eq_pack, pack] at hround
  split at hround
  next hcanonical =>
    obtain ⟨-, hm, hk⟩ := Binary64.finite.inj hround
    have hlt := significandAt_shiftFor_lt hone (n * 2 ^ depth)
    rw [hk] at hm hlt
    -- The significand would be too large at the depth or before it.
    have hdeep : depth < k := by
      refine Nat.lt_of_not_le fun hle => ?_
      have hpow : 2 ^ k ≤ 2 ^ depth := Nat.pow_le_pow_right (by decide) hle
      have hgreat : 2 ^ precision * (1 * 2 ^ k) ≤ n * 2 ^ depth := by
        rw [Nat.one_mul]
        exact Nat.mul_le_mul hn hpow
      have hfull : 2 ^ precision ≤ significandAt (n * 2 ^ depth) 1 k :=
        le_roundQuotient (Nat.mul_pos hone (Nat.two_pow_pos k)) hgreat
      omega
    have hbits : 2 ^ (precision - 1) ≤ m := h.2.1.resolve_left (by omega)
    calc 2 ^ precision * 2 ^ depth = 2 ^ (precision - 1) * 2 ^ (depth + 1) := by
          rw [← Nat.pow_add, ← Nat.pow_add, show precision - 1 + (depth + 1) = precision + depth by decide]
      _ ≤ m * 2 ^ k := Nat.mul_le_mul hbits (Nat.pow_le_pow_right (by decide) hdeep)
  next => cases hround

/-- The nearest double of an integer within the limit is that integer; the nearest double of any other
    integer is beyond the limit. -/
theorem safeInteger?_ofRatio (negative : Bool) (n : Nat) :
    (ofRatio negative n 1).safeInteger? =
      if n ≤ Integer.limit then some (Integer.ofSign negative n) else none := by
  have hlimit : Integer.limit + 1 = 2 ^ precision := by decide
  have hdepth : 0 < 2 ^ depth := Nat.two_pow_pos depth
  by_cases hn : n ≤ Integer.limit
  · obtain ⟨m, k, hcanonical, hexact⟩ := exists_canonical (n := n) (by omega)
    rw [ofRatio_eq negative Nat.one_pos hcanonical (by rw [hexact, Nat.mul_one]), safeInteger?,
      ← hexact, Nat.mul_mod_left, Nat.mul_div_cancel n hdepth, if_pos ⟨rfl, hn⟩, if_pos hn]
  · rw [if_neg hn]
    cases hround : ofRatio negative n 1 with
    | nan => rfl
    | infinity => rfl
    | finite negative' m k hcanonical =>
      have hgreat := le_of_ofRatio_eq (by omega) hround
      have hquotient := (Nat.le_div_iff_mul_le hdepth).mpr hgreat
      rw [safeInteger?, if_neg (by omega)]

end Binary64

namespace Integer

/-- The double that is nearest to the integer of a notation. -/
def nearest? (t : Text) : Option Binary64 :=
  let (negative, digits) := t.splitSign
  if !digits.isEmpty && digits.all Char.isDigit then
    some (.ofRatio negative (ofDigits digits) 1)
  else none

/-- Reading an integer by way of the nearest double gives the same as reading it exactly. -/
theorem read?_eq_nearest (t : Text) : read? t = (nearest? t).bind Binary64.safeInteger? := by
  rw [read?, parse?, nearest?]
  obtain ⟨negative, digits⟩ := t.splitSign
  dsimp only
  split
  · rw [Option.bind_some, Binary64.safeInteger?_ofRatio, Option.filter_some]
    simp only [natAbs_ofSign, decide_eq_true_eq]
    rfl
  · rfl

end Integer

end GridSketch
