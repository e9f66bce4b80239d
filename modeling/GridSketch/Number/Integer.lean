/-
  Integers in decimal notation, and the range of those that are read.

  * `Integer.read?`: an optional sign and ASCII digits, nothing else, of magnitude at most
    `2 ^ 53 - 1`; the value is exact for any number of digits.
  * `Integer.write`: the shortest decimal notation.
-/
import GridSketch.Text.Basic

namespace GridSketch

/-- Splits a leading sign off a text and says whether it is a minus. -/
def Text.splitSign : Text → Bool × Text
  | '-' :: rest => (true, rest)
  | '+' :: rest => (false, rest)
  | rest => (false, rest)

namespace Integer

/-- The number with a given sign and magnitude. -/
def ofSign (negative : Bool) (magnitude : Nat) : Int :=
  if negative then -(magnitude : Int) else magnitude

/-- The integer written as an optional sign and at least one ASCII digit. -/
def parse? (t : Text) : Option Int :=
  let (negative, digits) := t.splitSign
  if !digits.isEmpty && digits.all Char.isDigit then
    some (ofSign negative (Nat.ofDigitChars 10 digits 0))
  else none

/-- The greatest magnitude of an integer value, `2 ^ 53 - 1`. -/
def limit : Nat := 9007199254740991

/-- The integer a text denotes, when its magnitude is within `limit`. -/
def read? (t : Text) : Option Int := (parse? t).filter fun n => decide (n.natAbs ≤ limit)

/-- The decimal notation of an integer: no sign for zero and above, no leading zeros. -/
def write (n : Int) : Text :=
  if n < 0 then '-' :: Nat.toDigits 10 n.natAbs else Nat.toDigits 10 n.natAbs

end Integer

end GridSketch
