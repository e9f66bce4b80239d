/-
  Decimal literals: an optional sign, digits with an optional point, an optional exponent.

  * `Decimal.scan?`: the longest literal a text starts with, and the rest of the text.
  * `Decimal.read?`: the double nearest to a text that is one literal from end to end.
-/
import GridSketch.Number.Binary64
import GridSketch.Number.Integer

namespace GridSketch

/-- A decimal literal: its sign, its digits read as one number, and the power of ten that scales
    them. -/
structure Decimal where
  negative : Bool
  digits : Nat
  exponent : Int
  deriving DecidableEq, Repr

namespace Decimal

/-- The double nearest to a literal. -/
def value (d : Decimal) : Binary64 := .ofDecimal d.negative d.digits d.exponent

/-- Splits the leading run of ASCII digits off a text. -/
def splitDigits (t : Text) : Text × Text := (t.takeWhile Char.isDigit, t.dropWhile Char.isDigit)

/-- Splits a fraction off a text: a point and the digits after it, which may be none. -/
def splitFraction : Text → Option Text × Text
  | '.' :: rest => (some (splitDigits rest).1, (splitDigits rest).2)
  | rest => (none, rest)

/-- Splits a mantissa off a text: whole digits, then perhaps a fraction, with a digit in one of
    them at least. The result is both runs of digits and the rest. -/
def splitMantissa? (t : Text) : Option ((Text × Text) × Text) :=
  let (whole, afterWhole) := splitDigits t
  let (fraction?, rest) := splitFraction afterWhole
  let fraction := fraction?.getD []
  if whole.isEmpty && fraction.isEmpty then none else some ((whole, fraction), rest)

/-- Splits an exponent off a text: an `e` of either case, a sign perhaps, and at least one digit;
    without them the exponent is zero and nothing is taken. -/
def splitExponent : Text → Int × Text
  | [] => (0, [])
  | mark :: tail =>
    let (negative, unsigned) := Text.splitSign tail
    let (digits, rest) := splitDigits unsigned
    if (mark = 'e' ∨ mark = 'E') ∧ !digits.isEmpty then
      (Integer.ofSign negative (Nat.ofDigitChars 10 digits 0), rest)
    else (0, mark :: tail)

/-- The longest decimal literal at the start of a text, with the rest of the text. -/
def scan? (t : Text) : Option (Decimal × Text) :=
  let (negative, unsigned) := Text.splitSign t
  (splitMantissa? unsigned).map fun ((whole, fraction), afterMantissa) =>
    let (exponent, rest) := splitExponent afterMantissa
    (⟨negative, Nat.ofDigitChars 10 (whole ++ fraction) 0, exponent - fraction.length⟩, rest)

/-- The double a text denotes, when one literal spans it. -/
def read? (t : Text) : Option Binary64 :=
  match scan? t with
  | some (d, []) => some d.value
  | _ => none

end Decimal

end GridSketch
