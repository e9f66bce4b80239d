/-
  Notations of numbers: they are read back, and they are words without capitals.

  An integer in range is read back from its notation, and so is every finite double except negative
  zero, whose notation is that of zero. For doubles this holds whichever notation is chosen: one
  that is tried is taken only if it reads back, and the notation in full, where none is, is the
  exact value as a quotient of a power of ten.

  * `Integer.read?_write`, `Binary64.read?_write`: notations are read back.
  * `Integer.isNumeral_write`, `Binary64.isNumeral_write`: the characters of notations.
  * `Integer.isWord_write`, `Binary64.isWord_write`: notations are words.
-/
import GridSketch.Number.Shortest
import GridSketch.Proofs.Number.Literals

namespace GridSketch

-- Powers of natural numbers, whatever other instances are in scope.
attribute [local instance (2000)] instPowNat

-- What holds of all characters of a text is decided on its characters.
attribute [local instance (2000)] List.decidableBAll

/-! ## Integers -/

namespace Integer

theorem denotes_write (n : Int) : Denotes (write n) n := by
  have hdigits := Text.isDigits_toDigits n.natAbs
  rw [write]
  split
  next hn =>
    have hminus := Denotes.minus hdigits
    rwa [ofDigits_toDigits, show -(n.natAbs : Int) = n by omega] at hminus
  next hn =>
    have hplain := Denotes.unsigned hdigits
    rwa [ofDigits_toDigits, show (n.natAbs : Int) = n by omega] at hplain

theorem parse?_write (n : Int) : parse? (write n) = some n :=
  parse?_eq_some_iff.mpr (denotes_write n)

/-- An integer in range is read back. -/
theorem read?_write {n : Int} (h : n.natAbs ≤ limit) : read? (write n) = some n := by
  rw [read?, parse?_write]
  simp [h]

theorem isNumeral_write (n : Int) : Text.IsNumeral (write n) := by
  unfold write
  split
  · exact Text.isNumeral_cons (by decide) (Text.isNumeral_toDigits _)
  · exact Text.isNumeral_toDigits _

theorem isWord_write (n : Int) : Text.IsWord (write n) := by
  refine Text.isWord_of_isNumeral ?_ (isNumeral_write n)
  unfold write
  split
  · simp
  · exact Nat.toDigits_ne_nil

end Integer

/-! ## Literals with an exponent -/

namespace Decimal

theorem isSign_sign (negative : Bool) : (Binary64.sign negative).IsSign := by
  cases negative <;> decide

/-- A literal without a point and with a negative exponent. -/
theorem scan?_toDigits (negative : Bool) (digits places : Nat) :
    scan? (Binary64.sign negative ++
        (Nat.toDigits 10 digits ++ 'e' :: '-' :: Nat.toDigits 10 places)) =
      some (⟨negative, digits, -(places : Int)⟩, []) := by
  let l : Literal :=
    { sign := Binary64.sign negative, whole := Nat.toDigits 10 digits, fraction := none,
      exponent := some ⟨'e', ['-'], Nat.toDigits 10 places, .inl rfl, .inr (.inr rfl),
        Text.isDigits_toDigits places⟩,
      isSign := isSign_sign negative, isDigit_whole := (Text.isDigits_toDigits digits).2,
      isDigit_fraction := List.forall_mem_nil _, ne_nil := .inl (Text.isDigits_toDigits digits).1 }
  have htext : l.text = Binary64.sign negative ++
      (Nat.toDigits 10 digits ++ 'e' :: '-' :: Nat.toDigits 10 places) := rfl
  have hdecimal : l.decimal = ⟨negative, digits, -(places : Int)⟩ := by
    have hsign : decide (Binary64.sign negative = ['-']) = negative := by cases negative <;> decide
    have hparts : l.decimal = ⟨decide (Binary64.sign negative = ['-']),
        Integer.ofDigits (Nat.toDigits 10 digits ++ []),
        Integer.ofSign true (Integer.ofDigits (Nat.toDigits 10 places)) - 0⟩ := rfl
    rw [hparts, hsign, List.append_nil, Integer.ofDigits_toDigits, Integer.ofDigits_toDigits, Int.sub_zero]
    rfl
  rw [← htext, scan?_text, hdecimal]

end Decimal

/-! ## Doubles -/

namespace Binary64

/-- The notation in full denotes the double exactly. -/
theorem ofDecimal_inFull (negative : Bool) {m k : Nat} (h : Canonical m k) (hm : m ≠ 0) :
    ofDecimal negative (m * 2 ^ k * 5 ^ depth) (-(depth : Int)) = .finite negative m k h := by
  have hpos : 0 < m * 2 ^ k := Nat.mul_pos (Nat.pos_of_ne_zero hm) (Nat.two_pow_pos k)
  have hgreat : 2 ^ depth ≤ m * 2 ^ k * 5 ^ depth :=
    calc 2 ^ depth ≤ 5 ^ depth := Nat.pow_le_pow_left (by decide) depth
      _ ≤ m * 2 ^ k * 5 ^ depth := Nat.le_mul_of_pos_left _ hpos
  have hne : m * 2 ^ k * 5 ^ depth ≠ 0 :=
    Nat.ne_of_gt (Nat.lt_of_lt_of_le (Nat.two_pow_pos depth) hgreat)
  have hlog : depth ≤ (m * 2 ^ k * 5 ^ depth).log2 := (Nat.le_log2 hne).mpr hgreat
  have hexact : m * 2 ^ k * 5 ^ depth * 2 ^ depth = m * 2 ^ k * 10 ^ depth := by
    rw [Nat.mul_assoc, ← Nat.mul_pow]
  have hratio := ofRatio_eq negative (Nat.pow_pos (by decide)) h hexact
  rw [ofDecimal, if_neg hne, if_neg (by decide), if_neg (by omega), if_neg (by decide)]
  rw [Int.neg_neg, Int.toNat_natCast]
  exact hratio

/-- The notation of a number other than zero is one that was tried and reads back, or the one in
    full. -/
theorem write_cases (negative : Bool) {m k : Nat} (h : Canonical m k) (hm : m ≠ 0) :
    (∃ t ∈ attempts m k, write (.finite negative m k h) = sign negative ++ t ∧
        Decimal.read? (sign negative ++ t) = some (.finite negative m k h)) ∨
      write (.finite negative m k h) = sign negative ++ inFull m k := by
  rw [write, if_neg hm]
  dsimp only
  cases hfound : ((attempts m k).map (sign negative ++ ·)).find? fun t =>
      decide (Decimal.read? t = some (.finite negative m k h)) with
  | none => exact .inr rfl
  | some tried =>
    have hread := List.find?_some hfound
    obtain ⟨t, ht, rfl⟩ := List.mem_map.mp (List.mem_of_find?_eq_some hfound)
    exact .inl ⟨t, ht, rfl, of_decide_eq_true hread⟩

/-- A finite double is read back from its notation, unless it is negative zero. -/
theorem read?_write (negative : Bool) {m k : Nat} (h : Canonical m k)
    (hzero : m = 0 → negative = false) :
    Decimal.read? (write (.finite negative m k h)) = some (.finite negative m k h) := by
  by_cases hm : m = 0
  · have hk : k = 0 := h.2.1.resolve_right (by rw [hm]; decide)
    obtain rfl := hzero hm
    subst hm hk
    rfl
  · rcases write_cases negative h hm with ⟨t, -, hwrite, hread⟩ | hwrite
    · rw [hwrite, hread]
    · rw [hwrite, inFull, Decimal.read?, Decimal.scan?_toDigits]
      exact congrArg some (ofDecimal_inFull negative h hm)

/-! ## The characters of the notation -/

theorem isNumeral_sign (negative : Bool) : Text.IsNumeral (sign negative) := by
  cases negative with
  | true => exact Text.isNumeral_cons (by decide) (by simp [Text.IsNumeral])
  | false => simp [sign, Text.IsNumeral]

theorem isNumeral_dropZeros {digits : Text} (h : Text.IsNumeral digits) :
    Text.IsNumeral (dropZeros digits) := by
  intro c hc
  rw [dropZeros, List.mem_reverse] at hc
  exact h c (List.mem_reverse.mp ((List.dropWhile_sublist _).subset hc))

theorem isNumeral_replicate (count : Nat) : Text.IsNumeral (List.replicate count '0') := by
  intro c hc
  rw [(List.mem_replicate.mp hc).2]
  decide

theorem isNumeral_layOut {digits : Text} (h : Text.IsNumeral digits) (point : Int) :
    Text.IsNumeral (layOut digits point) := by
  have htake : ∀ count, Text.IsNumeral (digits.take count) :=
    fun count c hc => h c (List.mem_of_mem_take hc)
  have hdrop : ∀ count, Text.IsNumeral (digits.drop count) :=
    fun count c hc => h c (List.mem_of_mem_drop hc)
  have hpointed : ∀ count, Text.IsNumeral (digits.take count ++ '.' :: digits.drop count) :=
    fun count => Text.isNumeral_append (htake count) (Text.isNumeral_cons (by decide) (hdrop count))
  unfold layOut
  dsimp only
  split
  · split
    · exact Text.isNumeral_append h (isNumeral_replicate _)
    · exact hpointed _
  · split
    · exact Text.isNumeral_cons (by decide) (Text.isNumeral_cons (by decide)
        (Text.isNumeral_append (isNumeral_replicate _) h))
    · refine Text.isNumeral_append ?_ (Text.isNumeral_cons (by decide) (Text.isNumeral_cons ?_
        (Text.isNumeral_toDigits _)))
      · split
        · exact h
        · exact hpointed 1
      · split <;> decide

theorem isNumeral_layOutNumber (number : Nat) (position : Int) :
    Text.IsNumeral (layOutNumber number position) :=
  isNumeral_layOut (isNumeral_dropZeros (Text.isNumeral_toDigits number)) _

theorem isNumeral_inFull (m k : Nat) : Text.IsNumeral (inFull m k) :=
  Text.isNumeral_append (Text.isNumeral_toDigits _) (Text.isNumeral_cons (by decide)
    (Text.isNumeral_cons (by decide) (Text.isNumeral_toDigits _)))

theorem isNumeral_of_mem_attempts {m k : Nat} {t : Text} (h : t ∈ attempts m k) :
    Text.IsNumeral t := by
  obtain ⟨count, -, ht⟩ := List.mem_flatMap.mp h
  obtain ⟨number, -, rfl⟩ := List.mem_map.mp ht
  exact isNumeral_layOutNumber number _

/-- Whichever notation of a finite double is chosen, its characters are those of notations. -/
theorem isNumeral_write (negative : Bool) {m k : Nat} (h : Canonical m k) :
    Text.IsNumeral (write (.finite negative m k h)) := by
  by_cases hm : m = 0
  · rw [write, if_pos hm]
    exact Text.isNumeral_cons (by decide) (by simp [Text.IsNumeral])
  · rcases write_cases negative h hm with ⟨t, ht, hwrite, -⟩ | hwrite
    · rw [hwrite]
      exact Text.isNumeral_append (isNumeral_sign negative) (isNumeral_of_mem_attempts ht)
    · rw [hwrite]
      exact Text.isNumeral_append (isNumeral_sign negative) (isNumeral_inFull m k)

/-- The notation of a finite double is one word, since a text without characters is no literal. -/
theorem isWord_write (negative : Bool) {m k : Nat} (h : Canonical m k)
    (hzero : m = 0 → negative = false) : Text.IsWord (write (.finite negative m k h)) := by
  refine Text.isWord_of_isNumeral (fun hnil => ?_) (isNumeral_write negative h)
  have hread := read?_write negative h hzero
  rw [hnil] at hread
  exact nomatch hread

end Binary64

end GridSketch
