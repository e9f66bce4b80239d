/-
  The shortest decimal notation of a double.

  * `Binary64.layOut`: how digits are written, positional from `10 ^ (-7)` up to `10 ^ 21`,
    otherwise with one digit before the point and a signed exponent.
  * `Binary64.write`: the notation with the fewest digits that reads back as the same number, of
    those the nearest to it; of two that are equally near the even one.
-/
import GridSketch.Number.Decimal

namespace GridSketch

-- Powers of natural numbers, whatever other instances are in scope.
attribute [local instance (2000)] instPowNat

namespace Binary64

/-! ## The layout -/

/-- Digits without the zeros at their end. -/
def dropZeros (digits : Text) : Text := (digits.reverse.dropWhile (· == '0')).reverse

/-- The layout of a run of digits whose point stands after `point` of them. -/
def layOut (digits : Text) (point : Int) : Text :=
  if 0 < point ∧ point ≤ 21 then
    let whole := point.toNat
    if digits.length ≤ whole then digits ++ List.replicate (whole - digits.length) '0'
    else digits.take whole ++ '.' :: digits.drop whole
  else if -6 < point ∧ point ≤ 0 then
    '0' :: '.' :: List.replicate (-point).toNat '0' ++ digits
  else
    let mantissa := if digits.length ≤ 1 then digits else digits.take 1 ++ '.' :: digits.drop 1
    let exponent := point - 1
    mantissa ++ 'e' :: (if exponent < 0 then '-' else '+') :: Nat.toDigits 10 exponent.natAbs

/-- The notation of `number * 10 ^ position`, without needless zeros. -/
def layOutNumber (number : Nat) (position : Int) : Text :=
  let digits := Nat.toDigits 10 number
  layOut (dropZeros digits) (digits.length + position)

/-! ## The digits -/

/-- No magnitude but zero is below `10 ^ (-decimalDepth)`. -/
abbrev decimalDepth : Nat := 324

/-- The position of the point of a positive magnitude: `10 ^ (decade - 1) ≤ magnitude` and
    `magnitude < 10 ^ decade`. -/
def decade (significand shift : Nat) : Int :=
  let units := significand * 2 ^ shift * 10 ^ decimalDepth / 2 ^ depth
  (Nat.toDigits 10 units).length - (decimalDepth : Int)

/-- The multiples of `10 ^ position` next to a magnitude, the nearer one first; a tie is decided
    for the even one. -/
def neighbours (significand shift : Nat) (position : Int) : List Nat :=
  let numerator := significand * 2 ^ shift * 10 ^ (-position).toNat
  let denominator := 2 ^ depth * 10 ^ position.toNat
  [roundQuotient numerator denominator, numerator / denominator, numerator / denominator + 1]

/-- The notations that are tried for a magnitude: the neighbours on the grids of one digit, two
    digits, and so on. Seventeen digits always suffice. -/
def attempts (significand shift : Nat) : List Text :=
  let top := decade significand shift
  (List.range 17).flatMap fun (count : Nat) =>
    let position := top - (count + 1)
    (neighbours significand shift position).map fun number => layOutNumber number position

/-- The notation of a magnitude in full, as a multiple of the least power of ten it needs. -/
def inFull (significand shift : Nat) : Text :=
  Nat.toDigits 10 (significand * 2 ^ shift * 5 ^ depth) ++ 'e' :: '-' :: Nat.toDigits 10 depth

/-- The minus sign of a negative number. -/
def sign (negative : Bool) : Text := if negative then ['-'] else []

/-- The notation of a double. Zero has none but `0`, whatever its sign. -/
def write : Binary64 → Text
  | .nan => "NaN".toList
  | .infinity negative => sign negative ++ "Infinity".toList
  | .finite negative significand shift canonical =>
    if significand = 0 then ['0']
    else
      let tried := (attempts significand shift).map (sign negative ++ ·)
      let readsBack (t : Text) : Bool :=
        Decimal.read? t = some (.finite negative significand shift canonical)
      (tried.find? readsBack).getD (sign negative ++ inFull significand shift)

end Binary64

end GridSketch
