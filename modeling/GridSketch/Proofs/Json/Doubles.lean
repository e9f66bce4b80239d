/-
  What the JSON notations of doubles mean.

  A notation of a finite double is a JSON number. None of the numbers whose digits are tried is zero, so
  the digits start with no zero, and wherever the point is put, there are digits on both sides of it. Read
  as a double, the number is the double that was written, except that zero has lost its sign. What is not
  finite has no number and is told as null.

  * `Binary64.pos_of_mem_neighbours`: the numbers that are tried.
  * `Binary64.isNumberText_layOut`: the layout of digits, by where the point stands.
  * `Binary64.exists_isNumber_write`, `Binary64.read?_write_plainZero`: notations of finite doubles.
  * `Json.exists_denotes_number`: every double.
-/
import GridSketch.Proofs.Constraint.Readback
import GridSketch.Proofs.Json.Notation
import Mathlib.Data.List.DropRight

namespace GridSketch

-- Powers of natural numbers, whatever other instances are in scope.
attribute [local instance (2000)] instPowNat

-- What holds of all characters of a text is decided on its characters.
attribute [local instance (2000)] List.decidableBAll

/-! ## Literals that are JSON numbers -/

namespace Json

/-- A text that is a JSON number, with or without a minus sign in front of it. -/
def IsNumberText (t : Text) : Prop :=
  ∀ negative, ∃ l : Decimal.Literal, IsNumber l ∧ l.text = Binary64.sign negative ++ t

/-- Digits that start with no zero, and those behind a point, if there is one. -/
theorem isNumberText_of_parts {whole : Text} (fraction : Option Text)
    (exponent : Option Decimal.Exponent) (hwhole : whole.IsDigits)
    (hlead : whole = ['0'] ∨ whole.head? ≠ some '0')
    (hfraction : ∀ digits ∈ fraction, digits.IsDigits) :
    IsNumberText (whole ++ (Decimal.pointed fraction ++ exponent.elim [] Decimal.Exponent.text)) := by
  intro negative
  have hdigits : ∀ c ∈ fraction.getD [], c.isDigit = true := by
    cases fraction with
    | none => exact List.forall_mem_nil _
    | some digits => exact (hfraction digits rfl).2
  let l : Decimal.Literal :=
    { sign := Binary64.sign negative, whole, fraction, exponent, isSign := Decimal.isSign_sign negative,
      isDigit_whole := hwhole.2, isDigit_fraction := hdigits, ne_nil := .inl hwhole.1 }
  have hplus : Binary64.sign negative ≠ ['+'] := by cases negative <;> decide
  have hpoint : l.fraction ≠ some [] := fun hnil => (hfraction [] hnil).1 rfl
  exact ⟨l, ⟨hplus, hlead.imp_right fun hzero => ⟨hwhole.1, hzero⟩, hpoint⟩, rfl⟩

end Json

namespace Binary64

open Json (IsNumberText isNumberText_of_parts)

/-! ## The numbers that are tried -/

/-- A positive magnitude is at least the power of ten below its decade. -/
theorem pow_decade_le {m : Nat} (hm : m ≠ 0) (k : Nat) :
    ∃ digits : Nat, decade m k = digits + 1 - (decimalDepth : Int) ∧
      10 ^ digits * 2 ^ depth ≤ m * 2 ^ k * 10 ^ decimalDepth := by
  have hpos : 0 < m * 2 ^ k := Nat.mul_pos (Nat.pos_of_ne_zero hm) (Nat.two_pow_pos k)
  have hdeep : 2 ^ depth ≤ 10 ^ decimalDepth := by decide +kernel
  generalize hunits : m * 2 ^ k * 10 ^ decimalDepth / 2 ^ depth = units
  have hone : 1 ≤ units := by
    rw [← hunits, Nat.le_div_iff_mul_le (Nat.two_pow_pos depth), Nat.one_mul]
    exact Nat.le_trans hdeep (Nat.le_mul_of_pos_left _ hpos)
  have hlength : 0 < (Nat.toDigits 10 units).length := Nat.length_toDigits_pos
  refine ⟨(Nat.toDigits 10 units).length - 1, ?_, ?_⟩
  · rw [decade, hunits]
    omega
  · rw [← Nat.le_div_iff_mul_le (Nat.two_pow_pos depth), hunits]
    rcases Nat.eq_zero_or_pos ((Nat.toDigits 10 units).length - 1) with hzero | hshorter
    · rwa [hzero]
    · refine Nat.le_of_not_lt fun hlt => ?_
      have hle := (Nat.length_toDigits_le_iff (by decide) hshorter).mpr hlt
      omega

/-- A bound in units of one power of ten, in units of a smaller one. -/
theorem mul_pow_le_of_units {unit magnitude digits deep count up down : Nat}
    (h : 10 ^ digits * unit ≤ magnitude * 10 ^ deep) (hbalance : digits + down = deep + count + up) :
    unit * 10 ^ up ≤ magnitude * 10 ^ down := by
  have hpow : 0 < 10 ^ (deep + count) := Nat.pow_pos (by decide)
  refine Nat.le_of_mul_le_mul_right ?_ hpow
  calc unit * 10 ^ up * 10 ^ (deep + count)
      = 10 ^ digits * unit * 10 ^ down := by
        rw [Nat.mul_assoc, ← Nat.pow_add, Nat.add_comm up, ← hbalance, Nat.pow_add]
        ac_rfl
    _ ≤ magnitude * 10 ^ deep * 10 ^ down := Nat.mul_le_mul_right _ h
    _ ≤ magnitude * 10 ^ deep * 10 ^ down * 10 ^ count :=
        Nat.le_mul_of_pos_right _ (Nat.pow_pos (by decide))
    _ = magnitude * 10 ^ down * 10 ^ (deep + count) := by
        rw [Nat.pow_add]
        ac_rfl

/-- No number is tried that is zero. -/
theorem pos_of_mem_neighbours {m : Nat} (hm : m ≠ 0) (k count : Nat) {number : Nat}
    (h : number ∈ neighbours m k (decade m k - (count + 1))) : 0 < number := by
  obtain ⟨digits, hdecade, hdigits⟩ := pow_decade_le hm k
  generalize hposition : decade m k - (count + 1) = position at h
  have hbalance : digits + (-position).toNat = decimalDepth + count + position.toNat := by omega
  have hle := mul_pow_le_of_units hdigits hbalance
  have hpos : 0 < 2 ^ depth * 10 ^ position.toNat :=
    Nat.mul_pos (Nat.two_pow_pos depth) (Nat.pow_pos (by decide))
  have hone := (Nat.one_mul _).trans_le hle
  rw [neighbours] at h
  rcases List.mem_cons.mp h with hnear | h
  · rw [hnear]
    exact le_roundQuotient hpos hone
  rcases List.mem_cons.mp h with hbelow | h
  · rw [hbelow]
    exact (Nat.le_div_iff_mul_le hpos).mpr hone
  · rw [List.mem_singleton.mp h]
    exact Nat.succ_pos _

/-! ## The layout of digits -/

/-- Digits that are laid out: they start with no zero. -/
def IsSignificant (digits : Text) : Prop := digits.IsDigits ∧ digits.head? ≠ some '0'

/-- Without the zeros at their end, digits still start as they did. -/
theorem isSignificant_dropZeros {digits : Text} (h : IsSignificant digits) :
    IsSignificant (dropZeros digits) := by
  have hdrop : dropZeros digits = digits.rdropWhile (· == '0') := rfl
  have hstart : dropZeros digits <+: digits := hdrop ▸ List.rdropWhile_prefix _ digits
  have hne : dropZeros digits ≠ [] := by
    obtain ⟨c, rest, rfl⟩ := List.exists_cons_of_ne_nil h.1.1
    rw [hdrop, ne_eq, List.rdropWhile_eq_nil_iff]
    intro hzeros
    exact h.2 (congrArg some (by simpa using hzeros c List.mem_cons_self))
  refine ⟨⟨hne, fun c hc => h.1.2 c (hstart.subset hc)⟩, ?_⟩
  obtain ⟨behind, hbehind⟩ := hstart
  have hhead : digits.head? = (dropZeros digits).head? := by
    conv_lhs => rw [← hbehind, List.head?_append_of_ne_nil _ hne]
  rw [← hhead]
  exact h.2

theorem isDigits_append {s t : Text} (hs : s.IsDigits) (ht : ∀ c ∈ t, c.isDigit = true) :
    (s ++ t).IsDigits :=
  ⟨List.append_ne_nil_of_left_ne_nil hs.1 t, List.forall_mem_append.mpr ⟨hs.2, ht⟩⟩

theorem isDigit_replicate (count : Nat) : ∀ c ∈ List.replicate count '0', c.isDigit = true := by
  intro c hc
  rw [(List.mem_replicate.mp hc).2]
  decide

section

variable {digits : Text} (h : IsSignificant digits)
include h

/-- Digits with a point behind some of them, but not behind all. -/
theorem isNumberText_pointed (count : Nat) (hcount : 0 < count) (hlt : count < digits.length)
    (exponent : Option Decimal.Exponent) :
    IsNumberText (digits.take count ++
      ('.' :: digits.drop count ++ exponent.elim [] Decimal.Exponent.text)) := by
  have hwhole : Text.IsDigits (digits.take count) :=
    ⟨by simp [h.1.1]; omega, fun c hc => h.1.2 c (List.mem_of_mem_take hc)⟩
  have hlead : (digits.take count).head? ≠ some '0' := by
    rw [List.head?_take, if_neg (by omega)]
    exact h.2
  have hfraction : Text.IsDigits (digits.drop count) :=
    ⟨by simp; omega, fun c hc => h.1.2 c (List.mem_of_mem_drop hc)⟩
  refine isNumberText_of_parts (some (digits.drop count)) exponent hwhole (.inr hlead) ?_
  rintro _ ⟨⟩
  exact hfraction

/-- Digits with a point anywhere are a JSON number: with zeros where digits are missing, or with one
    digit before the point and an exponent. -/
theorem isNumberText_layOut (point : Int) : IsNumberText (layOut digits point) := by
  rw [layOut]
  dsimp only
  split
  next hpositional =>
    split
    next hshort =>
      have hlead : (digits ++ List.replicate (point.toNat - digits.length) '0').head? ≠ some '0' := by
        rw [List.head?_append_of_ne_nil _ h.1.1]
        exact h.2
      have hnumber := isNumberText_of_parts none none
        (isDigits_append h.1 (isDigit_replicate _)) (.inr hlead) nofun
      rwa [Decimal.pointed, List.nil_append, Option.elim_none, List.append_nil] at hnumber
    next hlong =>
      have hnumber := isNumberText_pointed h point.toNat (by omega) (by omega) none
      rwa [Option.elim_none, List.append_nil] at hnumber
  next hlarge =>
    split
    next hsmall =>
      have hfraction : Text.IsDigits (List.replicate (-point).toNat '0' ++ digits) :=
        ⟨List.append_ne_nil_of_right_ne_nil _ h.1.1,
          List.forall_mem_append.mpr ⟨isDigit_replicate _, h.1.2⟩⟩
      have hnumber := isNumberText_of_parts
        (some (List.replicate (-point).toNat '0' ++ digits)) none (by decide : Text.IsDigits ['0'])
        (.inl rfl) (by rintro _ ⟨⟩; exact hfraction)
      rwa [Option.elim_none, List.append_nil] at hnumber
    next hscaled =>
      let sign : Text := if point - 1 < 0 then ['-'] else ['+']
      have hsign : sign.IsSign := by
        dsimp only [sign]
        split
        · exact .inr (.inr rfl)
        · exact .inr (.inl rfl)
      let exponent : Decimal.Exponent :=
        ⟨'e', sign, Nat.toDigits 10 (point - 1).natAbs, .inl rfl, hsign, Text.isDigits_toDigits _⟩
      have htext : exponent.text = 'e' :: (if point - 1 < 0 then '-' else '+') ::
          Nat.toDigits 10 (point - 1).natAbs := by
        rw [Decimal.Exponent.text]
        dsimp only [exponent, sign]
        split <;> rfl
      rw [← htext]
      split
      next hone =>
        have hnumber := isNumberText_of_parts none (some exponent) h.1 (.inr h.2) nofun
        rwa [Decimal.pointed, List.nil_append, Option.elim_some] at hnumber
      next hmore =>
        have hnumber := isNumberText_pointed h 1 (by decide) (by omega) (some exponent)
        rwa [Option.elim_some, ← List.append_assoc] at hnumber

end

/-! ## Notations -/

theorem isSignificant_toDigits {n : Nat} (h : 0 < n) : IsSignificant (Nat.toDigits 10 n) :=
  ⟨Text.isDigits_toDigits n, Text.head?_toDigits h⟩

theorem isNumberText_of_mem_attempts {m k : Nat} (hm : m ≠ 0) {t : Text} (h : t ∈ attempts m k) :
    IsNumberText t := by
  obtain ⟨count, -, ht⟩ := List.mem_flatMap.mp h
  obtain ⟨number, hnumber, rfl⟩ := List.mem_map.mp ht
  have hpos := pos_of_mem_neighbours hm k count hnumber
  exact isNumberText_layOut (isSignificant_dropZeros (isSignificant_toDigits hpos)) _

theorem isNumberText_inFull {m : Nat} (hm : m ≠ 0) (k : Nat) : IsNumberText (inFull m k) := by
  have hpos : 0 < m * 2 ^ k * 5 ^ depth :=
    Nat.mul_pos (Nat.mul_pos (Nat.pos_of_ne_zero hm) (Nat.two_pow_pos k)) (Nat.pow_pos (by decide))
  obtain ⟨hdigits, hlead⟩ := isSignificant_toDigits hpos
  let exponent : Decimal.Exponent :=
    ⟨'e', ['-'], Nat.toDigits 10 depth, .inl rfl, .inr (.inr rfl), Text.isDigits_toDigits depth⟩
  exact isNumberText_of_parts none (some exponent) hdigits (.inr hlead) nofun

/-- The notation of a finite double is a JSON number. -/
theorem exists_isNumber_write (negative : Bool) {m k : Nat} (h : Canonical m k) :
    ∃ l : Decimal.Literal, Json.IsNumber l ∧ l.text = write (.finite negative m k h) := by
  by_cases hm : m = 0
  · obtain ⟨l, hl, htext, -⟩ := Json.exists_number_write 0
    exact ⟨l, hl, htext.trans (by rw [write, if_pos hm]; rfl)⟩
  · rcases write_cases negative h hm with ⟨t, ht, hwrite, -⟩ | hwrite
    · rw [hwrite]
      exact isNumberText_of_mem_attempts hm ht negative
    · rw [hwrite]
      exact isNumberText_inFull hm k negative

/-- Read as a double, the notation of a finite double is that double, without the sign of a zero. -/
theorem read?_write_plainZero (negative : Bool) {m k : Nat} (h : Canonical m k) :
    Decimal.read? (write (.finite negative m k h)) = some (plainZero (.finite negative m k h)) := by
  by_cases hm : m = 0
  · subst hm
    rfl
  · obtain ⟨n, rfl⟩ := Nat.exists_eq_succ_of_ne_zero hm
    exact read?_write negative h nofun

end Binary64

/-! ## What notations mean -/

/-- What the notation of a double means: a number that is the double when it is read, without the sign of
    a zero; or null if the double is not finite. -/
def Binary64.Tells : Binary64 → Datum → Prop
  | .nan, d => d = .null
  | .infinity _, d => d = .null
  | .finite negative m k h, d =>
    ∃ decimal : Decimal, d = .number decimal.rational ∧
      decimal.value = (Binary64.finite negative m k h).plainZero

/-- Every double has a notation that means it, in both styles and at every level. -/
theorem Json.exists_denotes_number (x : Binary64) : ∃ d, x.Tells d ∧ Denotes (.number x) d := by
  cases x with
  | nan => exact ⟨.null, rfl, fun style level rest => by rw [write]; exact .null⟩
  | infinity negative => exact ⟨.null, rfl, fun style level rest => by rw [write]; exact .null⟩
  | finite negative m k h =>
    obtain ⟨l, hl, htext⟩ := Binary64.exists_isNumber_write negative h
    have hread := Binary64.read?_write_plainZero negative h
    rw [← htext, Decimal.read?_eq_some_iff.mpr ⟨l, rfl, rfl⟩] at hread
    refine ⟨_, ⟨l.decimal, rfl, Option.some.inj hread⟩, fun style level rest => ?_⟩
    have hwrite : writeNumber (.finite negative m k h) = l.text := htext.symm
    rw [write, hwrite]
    exact .number l hl

end GridSketch
