/-
  Rounding quotients of natural numbers to doubles.

  The nearest integer to a quotient is at most a half away from it, and a quotient that is an
  integer is not changed. Hence the shift that is found is the least at which the quotient has a
  significand: two shifts above the first one that is tried there is always one, and below the
  shift that is found the significands are too large.

  * `Binary64.ofRatio_eq`: a quotient that is a double is read as that double.
  * `Binary64.exists_ofRatio_eq`: a quotient whose numerator is of moderate size is finite.
-/
import GridSketch.Number.Binary64

namespace GridSketch.Binary64

-- Powers of natural numbers, whatever other instances are in scope.
attribute [local instance (2000)] instPowNat

variable {n d m k : Nat}

/-! ## The nearest integer -/

/-- The nearest integer is at most a half above the quotient. -/
theorem roundQuotient_mul_le (n d : Nat) : 2 * (roundQuotient n d * d) ≤ 2 * n + d := by
  have hn := Nat.div_add_mod' n d
  unfold roundQuotient
  dsimp only
  split
  · omega
  · rw [Nat.add_one_mul (n / d) d]
    omega

/-- The nearest integer is at most a half below the quotient. -/
theorem le_roundQuotient_mul (hd : 0 < d) (n : Nat) :
    2 * n ≤ 2 * (roundQuotient n d * d) + d := by
  have hn := Nat.div_add_mod' n d
  have hmod := Nat.mod_lt n hd
  unfold roundQuotient
  dsimp only
  split
  · omega
  · rw [Nat.add_one_mul (n / d) d]
    omega

theorem le_roundQuotient (hd : 0 < d) (h : m * d ≤ n) : m ≤ roundQuotient n d := by
  have hquotient : m ≤ n / d := (Nat.le_div_iff_mul_le hd).mpr h
  unfold roundQuotient
  dsimp only
  split <;> omega

theorem roundQuotient_le (hd : 0 < d) (h : n ≤ m * d) : roundQuotient n d ≤ m := by
  have hbelow := roundQuotient_mul_le n d
  refine Nat.le_of_not_lt fun hlt => ?_
  have habove : (m + 1) * d ≤ roundQuotient n d * d := Nat.mul_le_mul_right d hlt
  rw [Nat.add_one_mul] at habove
  omega

/-- A quotient that is an integer is its own nearest integer. -/
theorem roundQuotient_mul (hd : 0 < d) (m : Nat) : roundQuotient (m * d) d = m :=
  Nat.le_antisymm (roundQuotient_le hd (Nat.le_refl _)) (le_roundQuotient hd (Nat.le_refl _))

/-- Halving a quotient halves the nearest integer, up to rounding. -/
theorem le_roundQuotient_two_mul (hd : 0 < d) (h : 2 * m ≤ roundQuotient n d) :
    m ≤ roundQuotient n (2 * d) := by
  have hwhole := roundQuotient_mul_le n d
  have hhalf := le_roundQuotient_mul (d := 2 * d) (by omega) n
  refine Nat.le_of_not_lt fun hlt => ?_
  have hgreat : 2 * m * d ≤ roundQuotient n d * d := Nat.mul_le_mul_right d h
  have hsmall : (roundQuotient n (2 * d) + 1) * (2 * d) ≤ m * (2 * d) :=
    Nat.mul_le_mul_right (2 * d) hlt
  rw [Nat.add_one_mul, Nat.mul_left_comm m 2 d] at hsmall
  rw [Nat.mul_assoc] at hgreat
  omega

/-! ## The shift -/

/-- The significand of a quotient at a shift. -/
def significandAt (n d s : Nat) : Nat := roundQuotient n (d * 2 ^ s)

theorem le_fitShift (n d s tries : Nat) : s ≤ fitShift n d s tries := by
  induction tries generalizing s with
  | zero => exact Nat.le_refl s
  | succ tries ih =>
    unfold fitShift
    split
    · exact Nat.le_refl s
    · exact Nat.le_of_succ_le (ih (s + 1))

theorem fitShift_le (n d s tries : Nat) : fitShift n d s tries ≤ s + tries := by
  induction tries generalizing s with
  | zero => exact Nat.le_refl s
  | succ tries ih =>
    unfold fitShift
    split
    · omega
    · have hlater := ih (s + 1)
      omega

/-- The shift found before the tries are used up leaves a significand. -/
theorem significandAt_fitShift_lt {s tries : Nat} (h : fitShift n d s tries < s + tries) :
    significandAt n d (fitShift n d s tries) < 2 ^ precision := by
  induction tries generalizing s with
  | zero => exact absurd h (Nat.lt_irrefl s)
  | succ tries ih =>
    unfold fitShift at h ⊢
    split
    next hfits => exact hfits
    next hfits =>
      rw [if_neg hfits] at h
      exact ih (by omega)

/-- A shift that was tried in vain leaves too large a significand. -/
theorem le_significandAt_of_lt_fitShift {s t : Nat} (tries : Nat) (hs : s ≤ t)
    (ht : t < fitShift n d s tries) : 2 ^ precision ≤ significandAt n d t := by
  induction tries generalizing s with
  | zero =>
    unfold fitShift at ht
    omega
  | succ tries ih =>
    unfold fitShift at ht
    split at ht
    · omega
    next hfits =>
      rcases Nat.eq_or_lt_of_le hs with rfl | hlt
      · exact Nat.le_of_not_lt hfits
      · exact ih hlt ht

/-- One shift further there is at least half the significand. -/
theorem le_significandAt_succ (hd : 0 < d) {s : Nat} (h : 2 * m ≤ significandAt n d s) :
    m ≤ significandAt n d (s + 1) := by
  have hpos : 0 < d * 2 ^ s := Nat.mul_pos hd (Nat.two_pow_pos s)
  rw [significandAt, show d * 2 ^ (s + 1) = 2 * (d * 2 ^ s) by rw [Nat.pow_succ]; ac_rfl]
  exact le_roundQuotient_two_mul hpos h

/-! ## Quotients -/

/-- The shift that is tried first. -/
def firstShift (n d : Nat) : Nat := n.log2 - d.log2 - precision

/-- Two shifts above the first there is a significand. -/
theorem significandAt_firstShift_add_two_lt (hd : 0 < d) (n : Nat) :
    significandAt n d (firstShift n d + 2) < 2 ^ precision := by
  have hpos : 0 < d * 2 ^ (firstShift n d + 2) := Nat.mul_pos hd (Nat.two_pow_pos _)
  have hdlog : 2 ^ d.log2 ≤ d := Nat.log2_self_le (by omega)
  have hbound : n ≤ 2 ^ 52 * (d * 2 ^ (firstShift n d + 2)) := by
    calc n ≤ 2 ^ (n.log2 + 1) := Nat.le_of_lt Nat.lt_log2_self
      _ ≤ 2 ^ (52 + (d.log2 + (firstShift n d + 2))) :=
        Nat.pow_le_pow_right (by decide) (by unfold firstShift precision; omega)
      _ = 2 ^ 52 * (2 ^ d.log2 * 2 ^ (firstShift n d + 2)) := by
        rw [Nat.pow_add 2 52, Nat.pow_add 2 d.log2]
      _ ≤ 2 ^ 52 * (d * 2 ^ (firstShift n d + 2)) :=
        Nat.mul_le_mul_left _ (Nat.mul_le_mul_right _ hdlog)
  have hround := roundQuotient_le hpos hbound
  exact Nat.lt_of_le_of_lt hround (by decide)

/-- The shift that is tried first is not too great: unless it is zero, it leaves all bits. -/
theorem mul_le_of_firstShift_pos (h : 0 < firstShift n d) :
    2 ^ (precision - 1) * (d * 2 ^ firstShift n d) ≤ n := by
  have hn : n ≠ 0 := by
    rintro rfl
    simp [firstShift] at h
  have hdlog : d ≤ 2 ^ (d.log2 + 1) := Nat.le_of_lt Nat.lt_log2_self
  calc 2 ^ (precision - 1) * (d * 2 ^ firstShift n d)
      ≤ 2 ^ 52 * (2 ^ (d.log2 + 1) * 2 ^ firstShift n d) :=
        Nat.mul_le_mul_left _ (Nat.mul_le_mul_right _ hdlog)
    _ = 2 ^ (52 + (d.log2 + 1 + firstShift n d)) := by
      rw [Nat.pow_add 2 52, Nat.pow_add 2 (d.log2 + 1)]
    _ ≤ 2 ^ n.log2 := Nat.pow_le_pow_right (by decide) (by unfold firstShift precision at *; omega)
    _ ≤ n := Nat.log2_self_le hn

/-- At the first shift, unless it is zero, the significand has all its bits. -/
theorem le_significandAt_firstShift (hd : 0 < d) (h : 0 < firstShift n d) :
    2 ^ (precision - 1) ≤ significandAt n d (firstShift n d) :=
  le_roundQuotient (Nat.mul_pos hd (Nat.two_pow_pos _)) (mul_le_of_firstShift_pos h)

/-- The shift that is found for a quotient. -/
def shiftFor (n d : Nat) : Nat := fitShift n d (firstShift n d) 2

theorem shiftFor_le (n d : Nat) : shiftFor n d ≤ firstShift n d + 2 := fitShift_le n d _ 2

theorem significandAt_shiftFor_lt (hd : 0 < d) (n : Nat) :
    significandAt n d (shiftFor n d) < 2 ^ precision := by
  rcases Nat.lt_or_eq_of_le (shiftFor_le n d) with hlt | heq
  · exact significandAt_fitShift_lt hlt
  · rw [heq]
    exact significandAt_firstShift_add_two_lt hd n

/-- The shift that is found leaves a significand with all its bits, unless it is zero. -/
theorem le_significandAt_shiftFor (hd : 0 < d) (h : 0 < shiftFor n d) :
    2 ^ (precision - 1) ≤ significandAt n d (shiftFor n d) := by
  rcases Nat.eq_or_lt_of_le (le_fitShift n d (firstShift n d) 2) with heq | hlt
  · rw [← shiftFor] at heq
    rw [← heq] at h ⊢
    exact le_significandAt_firstShift hd h
  · -- the shift before was tried in vain
    rw [← shiftFor] at hlt
    obtain ⟨s, hs⟩ : ∃ s, shiftFor n d = s + 1 := ⟨shiftFor n d - 1, by omega⟩
    have hvain : 2 ^ precision ≤ significandAt n d s :=
      le_significandAt_of_lt_fitShift (s := firstShift n d) 2 (by omega)
        (by rw [← shiftFor]; omega)
    rw [hs]
    exact le_significandAt_succ hd hvain

/-- The form that is found for a quotient is canonical, if its shift is in range. -/
theorem canonical_shiftFor (hd : 0 < d) (h : shiftFor n d ≤ maxShift) :
    Canonical (significandAt n d (shiftFor n d)) (shiftFor n d) :=
  ⟨significandAt_shiftFor_lt hd n,
    (Nat.eq_zero_or_pos (shiftFor n d)).imp_right (le_significandAt_shiftFor hd), h⟩

/-- The significand of an integer quotient, seen from any shift below its own. -/
theorem significandAt_mul (hd : 0 < d) (m s t : Nat) :
    significandAt (m * 2 ^ (s + t) * d) d s = m * 2 ^ t := by
  rw [significandAt, show m * 2 ^ (s + t) * d = m * 2 ^ t * (d * 2 ^ s) by
    rw [Nat.pow_add]
    ac_rfl]
  exact roundQuotient_mul (Nat.mul_pos hd (Nat.two_pow_pos s)) _

theorem firstShift_mul_le (hd : 0 < d) (h : m < 2 ^ precision) (k : Nat) :
    firstShift (m * 2 ^ k * d) d ≤ k := by
  rcases Nat.eq_zero_or_pos m with rfl | hm
  · simp [firstShift]
  · have hpos : 0 < m * 2 ^ k * d := Nat.mul_pos (Nat.mul_pos hm (Nat.two_pow_pos k)) hd
    have hbound : m * 2 ^ k * d < 2 ^ (precision + k + (d.log2 + 1)) := by
      rw [Nat.pow_add 2 (precision + k), Nat.pow_add 2 precision]
      exact Nat.mul_lt_mul'' (Nat.mul_lt_mul_of_pos_right h (Nat.two_pow_pos k)) Nat.lt_log2_self
    have hlog := (Nat.log2_lt (Nat.ne_of_gt hpos)).mpr hbound
    unfold firstShift
    omega

/-- There is one canonical form only: the shift that is found for a double is its own. -/
theorem shiftFor_mul (hd : 0 < d) (h : Canonical m k) : shiftFor (m * 2 ^ k * d) d = k := by
  obtain ⟨hfits, hbits, -⟩ := h
  have hsignificand := significandAt_shiftFor_lt hd (m * 2 ^ k * d)
  have hvain : ∀ t, firstShift (m * 2 ^ k * d) d ≤ t → t < shiftFor (m * 2 ^ k * d) d →
      2 ^ precision ≤ significandAt (m * 2 ^ k * d) d t :=
    fun t => le_significandAt_of_lt_fitShift 2
  generalize shiftFor (m * 2 ^ k * d) d = s at hsignificand hvain ⊢
  refine Nat.le_antisymm (Nat.le_of_not_lt fun hlt => ?_) (Nat.le_of_not_lt fun hlt => ?_)
  · -- its own shift would have been tried in vain
    have hown := hvain k (firstShift_mul_le hd hfits k) hlt
    have hm := significandAt_mul hd m k 0
    rw [Nat.add_zero, Nat.pow_zero, Nat.mul_one] at hm
    omega
  · -- at a smaller shift the significand is too large
    obtain ⟨t, rfl⟩ : ∃ t, k = s + (t + 1) := ⟨k - s - 1, by omega⟩
    have hmany : 2 ^ (precision - 1) ≤ m := hbits.resolve_left (by omega)
    have hgreat : 2 ^ (precision - 1) * 2 ^ 1 ≤ m * 2 ^ (t + 1) :=
      Nat.mul_le_mul hmany (Nat.pow_le_pow_right (by decide) (by omega))
    rw [significandAt_mul hd] at hsignificand
    exact absurd hsignificand (Nat.not_lt_of_le hgreat)

theorem ofRatio_eq_pack (negative : Bool) (n d : Nat) :
    ofRatio negative n d =
      pack negative (significandAt (n * 2 ^ depth) d (shiftFor (n * 2 ^ depth) d))
        (shiftFor (n * 2 ^ depth) d) := rfl

/-- A quotient that is a double is read as that double. -/
theorem ofRatio_eq (negative : Bool) (hd : 0 < d) (h : Canonical m k)
    (hn : n * 2 ^ depth = m * 2 ^ k * d) : ofRatio negative n d = .finite negative m k h := by
  have hsignificand : significandAt (m * 2 ^ k * d) d k = m := by
    rw [significandAt, show m * 2 ^ k * d = m * (d * 2 ^ k) by ac_rfl]
    exact roundQuotient_mul (Nat.mul_pos hd (Nat.two_pow_pos k)) m
  rw [ofRatio_eq_pack, hn, shiftFor_mul hd h, hsignificand, pack, dif_pos h]

/-- A quotient whose numerator has the bits of a significand is finite. -/
theorem exists_ofRatio_eq (negative : Bool) (hd : 0 < d) (hn : n < 2 ^ precision) :
    ∃ m k canonical, ofRatio negative n d = .finite negative m k canonical := by
  have hlog : (n * 2 ^ depth).log2 < precision + depth := by
    rcases Nat.eq_zero_or_pos n with rfl | hpos
    · rw [Nat.zero_mul, Nat.log2_zero]
      decide
    · refine (Nat.log2_lt (Nat.ne_of_gt (Nat.mul_pos hpos (Nat.two_pow_pos depth)))).mpr ?_
      rw [Nat.pow_add]
      exact Nat.mul_lt_mul_of_pos_right hn (Nat.two_pow_pos depth)
  have hshift : shiftFor (n * 2 ^ depth) d ≤ maxShift := by
    have hnear := shiftFor_le (n * 2 ^ depth) d
    unfold firstShift at hnear
    unfold precision depth at *
    unfold maxShift
    omega
  have hcanonical := canonical_shiftFor hd hshift
  exact ⟨_, _, hcanonical, by rw [ofRatio_eq_pack, pack, dif_pos hcanonical]⟩

end GridSketch.Binary64
