/-
  Overflow: which quotients and which decimal literals have no finite double next to them.

  The greatest finite double is `(2 ^ 53 - 1) * 2 ^ 971`. Half a unit above it, at `2 ^ 1024 - 2 ^ 970`,
  a magnitude is as near to `2 ^ 1024`, whose significand is the even one: from there on the nearest
  double is an infinity.

  * `Binary64.isFinite_ofRatio`: a quotient is finite exactly below that magnitude.
  * `Decimal.isFinite_value`: so is a literal; a literal never denotes the number that is none.
-/
import GridSketch.Number.Decimal
import GridSketch.Proofs.Number.Rounding

namespace GridSketch

-- Powers of natural numbers, whatever other instances are in scope.
attribute [local instance (2000)] instPowNat

namespace Binary64

/-- The least magnitude whose nearest double is an infinity, `2 ^ 1024 - 2 ^ 970`. -/
def overflow : Nat := (2 ^ (precision + 1) - 1) * 2 ^ (maxShift - (depth + 1))

theorem overflow_pos : 0 < overflow := by decide +kernel

/-- The powers of ten that are too great to be computed overflow. -/
theorem overflow_le_ten_pow {e : Nat} (h : 311 ≤ e) : overflow ≤ 10 ^ e := by
  induction h with
  | refl => decide +kernel
  | step _ ih =>
    rw [Nat.pow_succ]
    omega

variable {n d : Nat}

/-! ## The bound of a significand -/

/-- The nearest integer stays below an even one exactly if the quotient is more than a half below it:
    a quotient a half below goes to the even one. -/
theorem roundQuotient_lt_iff (hd : 0 < d) (h : Nat) :
    roundQuotient n d < 2 * (h + 1) ↔ 2 * n < (4 * h + 3) * d := by
  have hn := Nat.div_add_mod' n d
  have hmod := Nat.mod_lt n hd
  have hsplit : (4 * h + 3) * d = 2 * ((2 * h + 1) * d) + d := by
    rw [show 4 * h + 3 = 2 * (2 * h + 1) + 1 by omega, Nat.add_one_mul, Nat.mul_assoc]
  rcases Nat.lt_trichotomy (n / d) (2 * h + 1) with hlow | heq | hhigh
  · -- even rounded up the quotient is too small
    have hstep : (n / d + 1) * d ≤ (2 * h + 1) * d := Nat.mul_le_mul_right d hlow
    rw [Nat.add_one_mul] at hstep
    unfold roundQuotient
    dsimp only
    constructor
    · intro _
      omega
    · intro _
      split <;> omega
  · rw [heq] at hn
    unfold roundQuotient
    dsimp only
    rw [heq]
    constructor
    · intro hlt
      split at hlt <;> omega
    · intro hlt
      rw [if_pos (.inl (by omega))]
      omega
  · have hstep : (2 * h + 1 + 1) * d ≤ n / d * d := Nat.mul_le_mul_right d hhigh
    rw [Nat.add_one_mul] at hstep
    unfold roundQuotient
    dsimp only
    constructor
    · intro hlt
      split at hlt <;> omega
    · intro hlt
      omega

theorem significandAt_lt_iff (hd : 0 < d) (s : Nat) :
    significandAt n d s < 2 ^ precision ↔ 2 * n < (2 ^ (precision + 1) - 1) * (d * 2 ^ s) :=
  roundQuotient_lt_iff (Nat.mul_pos hd (Nat.two_pow_pos s)) (2 ^ 52 - 1)

/-! ## Quotients -/

/-- The shift that is found is the least that leaves a significand. -/
theorem shiftFor_le_iff (hd : 0 < d) (s : Nat) :
    shiftFor n d ≤ s ↔ significandAt n d s < 2 ^ precision := by
  constructor
  · intro hle
    have hown := (significandAt_lt_iff hd _).mp (significandAt_shiftFor_lt hd n)
    have hpow : 2 ^ shiftFor n d ≤ 2 ^ s := Nat.pow_le_pow_right (by decide) hle
    have hmul := Nat.mul_le_mul_left (2 ^ (precision + 1) - 1) (Nat.mul_le_mul_left d hpow)
    exact (significandAt_lt_iff hd s).mpr (Nat.lt_of_lt_of_le hown hmul)
  · intro hfits
    refine Nat.le_of_not_lt fun hlt => ?_
    rcases Nat.lt_or_ge s (firstShift n d) with hbefore | hfrom
    · -- a shift that was not even tried leaves a significand twice as large as the first
      have hall := mul_le_of_firstShift_pos (Nat.lt_of_le_of_lt (Nat.zero_le s) hbefore)
      have hpow : 2 ^ (s + 1) ≤ 2 ^ firstShift n d := Nat.pow_le_pow_right (by decide) hbefore
      have hmul := Nat.mul_le_mul_left (2 ^ (precision - 1)) (Nat.mul_le_mul_left d hpow)
      have htwice : 2 ^ (precision - 1) * (d * 2 ^ (s + 1)) = 2 ^ precision * (d * 2 ^ s) := by
        rw [Nat.pow_succ, show 2 ^ precision = 2 ^ (precision - 1) * 2 from rfl]
        ac_rfl
      have hgreat : 2 ^ precision ≤ significandAt n d s :=
        le_roundQuotient (Nat.mul_pos hd (Nat.two_pow_pos s)) (by omega)
      omega
    · have hvain := le_significandAt_of_lt_fitShift 2 hfrom hlt
      omega

theorem isFinite_pack (negative : Bool) (m k : Nat) :
    (pack negative m k).isFinite = true ↔ Canonical m k := by
  unfold pack
  split
  · rename_i h
    exact ⟨fun _ => h, fun _ => rfl⟩
  · rename_i h
    exact ⟨nofun, fun hc => absurd hc h⟩

/-- At the greatest shift the bound of a significand is the least magnitude that overflows. -/
theorem mul_two_pow_maxShift (d : Nat) :
    (2 ^ (precision + 1) - 1) * (d * 2 ^ maxShift) = overflow * d * 2 ^ (depth + 1) := by
  have hsplit : ∀ c i j : Nat, c * (d * 2 ^ (i + j)) = c * 2 ^ i * d * 2 ^ j := by
    intro c i j
    rw [Nat.pow_add]
    ac_rfl
  have hshift : maxShift = maxShift - (depth + 1) + (depth + 1) := rfl
  rw [hshift, hsplit, overflow]

/-- A quotient is finite exactly below the least magnitude that overflows. -/
theorem isFinite_ofRatio (negative : Bool) (hd : 0 < d) :
    (ofRatio negative n d).isFinite = true ↔ n < overflow * d := by
  have hcanonical : Canonical
      (significandAt (n * 2 ^ depth) d (shiftFor (n * 2 ^ depth) d)) (shiftFor (n * 2 ^ depth) d) ↔
      shiftFor (n * 2 ^ depth) d ≤ maxShift :=
    ⟨fun h => h.2.2, canonical_shiftFor hd⟩
  have hdouble : ∀ m j : Nat, 2 * (m * 2 ^ j) = m * 2 ^ (j + 1) := by
    intro m j
    rw [Nat.pow_succ]
    ac_rfl
  rw [ofRatio_eq_pack, isFinite_pack, hcanonical, shiftFor_le_iff hd, significandAt_lt_iff hd,
    hdouble, mul_two_pow_maxShift]
  exact Nat.mul_lt_mul_right (Nat.two_pow_pos _)

/-- Rounding gives a number. -/
theorem ofRatio_ne_nan (negative : Bool) (n d : Nat) : ofRatio negative n d ≠ .nan := by
  rw [ofRatio_eq_pack, pack]
  split
  · intro h
    cases h
  · intro h
    cases h

end Binary64

/-! ## Decimal literals -/

namespace Decimal

/-- A literal overflows if its magnitude is at least the least one whose nearest double is an
    infinity. -/
def Overflows (d : Decimal) : Prop :=
  Binary64.overflow * 10 ^ (-d.exponent).toNat ≤ d.digits * 10 ^ d.exponent.toNat

instance (d : Decimal) : Decidable d.Overflows := inferInstanceAs (Decidable (_ ≤ _))

theorem value_ne_nan (d : Decimal) : d.value ≠ .nan := by
  unfold value Binary64.ofDecimal
  split
  · nofun
  split
  · nofun
  split
  · nofun
  split
  · exact Binary64.ofRatio_ne_nan _ _ _
  · exact Binary64.ofRatio_ne_nan _ _ _

/-- A literal denotes a finite number exactly if it does not overflow; powers of ten that are too
    great or too small to be computed make no difference. -/
theorem isFinite_value (d : Decimal) : d.value.isFinite = true ↔ ¬ d.Overflows := by
  obtain ⟨negative, digits, exponent⟩ := d
  unfold value Binary64.ofDecimal Overflows
  dsimp only
  rw [Nat.not_le]
  split
  next hzero =>
    have hten : 0 < 10 ^ (-exponent).toNat := Nat.pow_pos (by decide)
    have hpos := Nat.mul_pos Binary64.overflow_pos hten
    rw [hzero, Nat.zero_mul]
    exact ⟨fun _ => hpos, fun _ => rfl⟩
  next hzero =>
  have hdigits : 1 ≤ digits := Nat.one_le_iff_ne_zero.mpr hzero
  split
  next hhuge =>
    have hten : Binary64.overflow ≤ 10 ^ exponent.toNat :=
      Binary64.overflow_le_ten_pow (by omega)
    have hmul := Nat.mul_le_mul_right (10 ^ exponent.toNat) hdigits
    rw [show (-exponent).toNat = 0 by omega]
    exact ⟨nofun, fun hlt => by omega⟩
  next hhuge =>
  split
  next htiny =>
    have hten : digits < 10 ^ (-exponent).toNat := by
      calc digits < 2 ^ (digits.log2 + 1) := Nat.lt_log2_self
        _ ≤ 2 ^ (-exponent).toNat := Nat.pow_le_pow_right (by decide) (by omega)
        _ ≤ 10 ^ (-exponent).toNat := Nat.pow_le_pow_left (by decide) _
    have hmul := Nat.mul_le_mul_right (10 ^ (-exponent).toNat) Binary64.overflow_pos
    rw [show exponent.toNat = 0 by omega]
    exact ⟨fun _ => by omega, fun _ => rfl⟩
  next htiny =>
  split
  next hpos =>
    rw [Binary64.isFinite_ofRatio _ (by decide), show (-exponent).toNat = 0 by omega]
  next hneg =>
    rw [Binary64.isFinite_ofRatio _ (Nat.pow_pos (by decide)), show exponent.toNat = 0 by omega,
      Nat.pow_zero, Nat.mul_one]

end Decimal

end GridSketch
