/-
  The tokens of a sketch: marks of one character, and identifiers, the maximal runs of characters
  that are neither blanks nor marks.

  * `Mark.table`: the characters of the marks; two of the marks have an older second spelling.
  * `Token.scan`: the tokens of a text in order, each with its offset in 16-bit code units.
-/
import GridSketch.Text.Basic

namespace GridSketch

/-- The marks of a sketch. -/
inductive Mark where
  /-- Starts a row. -/
  | rowStart
  /-- Ends a row. -/
  | rowEnd
  /-- Lengthens the region above. -/
  | lengthen
  /-- Widens the region to the left. -/
  | widen
  /-- Takes up a cell. -/
  | filler
  deriving DecidableEq, Repr

namespace Mark

/-- The characters of the marks. -/
def table : List (Char × Mark) :=
  [('\x7b', .rowStart), ('\x7d', .rowEnd), ('|', .lengthen), ('^', .lengthen), ('+', .widen),
   ('<', .widen), ('-', .filler)]

/-- The mark that a character is. -/
def ofChar? (c : Char) : Option Mark := table.lookup c

end Mark

/-- A token of a sketch with its offset. -/
inductive Token where
  | mark (m : Mark) (offset : Nat)
  | identifier (text : Text) (offset : Nat)
  deriving DecidableEq, Repr

namespace Token

/-- Whether a token names a region. -/
def isIdentifier : Token → Bool
  | mark .. => false
  | identifier .. => true

/-- Whether a text ends an identifier: a text with a blank in it, or a mark. -/
def ends (t : Text) : Bool := t.any Text.isBlank || Mark.table.any fun row => t == [row.1]

/-- Puts a character before the tokens of the text behind it: it extends an identifier that starts
    right there, and otherwise is an identifier of its own. -/
def extend (c : Char) (offset : Nat) : List Token → List Token
  | identifier text next :: rest =>
    if next = offset + Text.units c then identifier (c :: text) offset :: rest
    else identifier [c] offset :: identifier text next :: rest
  | rest => identifier [c] offset :: rest

/-- The tokens of a text that starts at a given offset. -/
def scanFrom (offset : Nat) : Text → List Token
  | [] => []
  | c :: rest =>
    let later := scanFrom (offset + Text.units c) rest
    if Text.isBlank c then later
    else match Mark.ofChar? c with
      | some m => mark m offset :: later
      | none => extend c offset later

/-- The tokens of a text. -/
def scan (t : Text) : List Token := scanFrom 0 t

end Token

end GridSketch
