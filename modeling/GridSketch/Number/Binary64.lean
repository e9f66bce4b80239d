/-
  Double-precision numbers as exact values: not a number, the two infinities, and the finite ones
  with a sign, a significand of 53 bits and a shift. A finite number of significand `m` and shift
  `k` has magnitude `m * 2 ^ k / 2 ^ 1074`; each magnitude has exactly one such form.

  * `ofRatio`: the double nearest to a quotient, a tie going to the even significand.
  * `ofDecimal`: the double nearest to a significand times a power of ten, of any size.
-/

namespace GridSketch

-- Powers of natural numbers, whatever other instances are in scope.
attribute [local instance (2000)] instPowNat

namespace Binary64

/-- The number of bits of a significand. -/
abbrev precision : Nat := 53

/-- The magnitudes are the multiples of `2 ^ (-depth)` that have a significand. -/
abbrev depth : Nat := 1074

/-- The greatest shift. -/
abbrev maxShift : Nat := 2045

/-- The forms of the finite magnitudes: the shift is the least that leaves a significand of
    `precision` bits. -/
def Canonical (significand shift : Nat) : Prop :=
  significand < 2 ^ precision ∧ (shift = 0 ∨ 2 ^ (precision - 1) ≤ significand) ∧
    shift ≤ maxShift

end Binary64

instance (significand shift : Nat) : Decidable (Binary64.Canonical significand shift) :=
  inferInstanceAs (Decidable (_ ∧ _))

/-- A double-precision number. -/
inductive Binary64 where
  /-- Not a number. -/
  | nan
  /-- An infinity, of either sign. -/
  | infinity (negative : Bool)
  /-- The number of magnitude `significand * 2 ^ shift / 2 ^ depth`; zero has a sign too. -/
  | finite (negative : Bool) (significand shift : Nat)
      (canonical : Binary64.Canonical significand shift)
  deriving DecidableEq, Repr

namespace Binary64

/-- Positive zero. -/
def zero : Binary64 := .finite false 0 0 (by decide)

/-- Zero with a given sign. -/
def zeroOf (negative : Bool) : Binary64 := .finite negative 0 0 (by decide)

/-- Finite numbers are neither an infinity nor the number that is none. -/
def isFinite : Binary64 → Bool
  | .finite .. => true
  | _ => false

/-! ## Rounding -/

/-- The integer nearest to a quotient, the even one of two that are equally near. -/
def roundQuotient (numerator denominator : Nat) : Nat :=
  let quotient := numerator / denominator
  let twice := 2 * (numerator % denominator)
  if twice < denominator ∨ (twice = denominator ∧ quotient % 2 = 0) then quotient
  else quotient + 1

/-- The number of given significand and shift; an infinity when the shift is out of range. -/
def pack (negative : Bool) (significand shift : Nat) : Binary64 :=
  if canonical : Canonical significand shift then .finite negative significand shift canonical
  else .infinity negative

/-- The first of a number of shifts at which a quotient rounds to a significand of `precision`
    bits; if there is none, the shift that follows them. -/
def fitShift (numerator denominator : Nat) (shift : Nat) : Nat → Nat
  | 0 => shift
  | tries + 1 =>
    if roundQuotient numerator (denominator * 2 ^ shift) < 2 ^ precision then shift
    else fitShift numerator denominator (shift + 1) tries

/-- The double nearest to `numerator / denominator` with the given sign. The quotient of the
    leading powers of two is within a factor of two of the value, so the least shift that fits is
    among the three from `log2 scaled - log2 denominator - 53` on. -/
def ofRatio (negative : Bool) (numerator denominator : Nat) : Binary64 :=
  let scaled := numerator * 2 ^ depth
  let shift := fitShift scaled denominator (scaled.log2 - denominator.log2 - precision) 2
  pack negative (roundQuotient scaled (denominator * 2 ^ shift)) shift

/-- The double nearest to `digits * 10 ^ exponent` with the given sign. Beyond `10 ^ 310` the
    value is infinite and below `10 ^ (-330)` it is zero, whatever the digits, so that the powers
    of ten that are computed stay small. -/
def ofDecimal (negative : Bool) (digits : Nat) (exponent : Int) : Binary64 :=
  if digits = 0 then zeroOf negative
  else if 310 < exponent then .infinity negative
  else if exponent + digits.log2 < -330 then zeroOf negative
  else if 0 ≤ exponent then ofRatio negative (digits * 10 ^ exponent.toNat) 1
  else ofRatio negative digits (10 ^ (-exponent).toNat)

end Binary64

end GridSketch
