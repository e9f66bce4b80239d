/-
  Text as a list of characters, and what every reader of this library does with it: measuring it
  in 16-bit code units, telling blanks from the rest, and cutting it at separators.

  * `size16`: the code units of a text; offsets into a sketch are counted in them.
  * `isBlank`: the characters that only separate.
  * `pieces`: the parts of a text between separators; `words`: the blank-free runs of a text.
  * `unwords`: words joined by single spaces, the canonical spelling of a list of words.
-/

namespace GridSketch

/-- A text, as the list of its characters. -/
abbrev Text := List Char

namespace Text

/-! ## Size in code units -/

/-- The number of 16-bit code units of a character: two beyond U+FFFF, otherwise one. -/
def units (c : Char) : Nat := if c.toNat < 0x10000 then 1 else 2

/-- The number of 16-bit code units of a text. -/
def size16 : Text → Nat
  | [] => 0
  | c :: rest => units c + size16 rest

/-! ## Blanks -/

/-- The ranges of blank characters: the ASCII controls from tab to carriage return, the space
    separators, the line and paragraph separators, and the byte order mark. -/
def blankRanges : List (Nat × Nat) :=
  [(0x09, 0x0D), (0x20, 0x20), (0xA0, 0xA0), (0x1680, 0x1680), (0x2000, 0x200A),
   (0x2028, 0x2029), (0x202F, 0x202F), (0x205F, 0x205F), (0x3000, 0x3000), (0xFEFF, 0xFEFF)]

/-- A blank separates words and tokens and belongs to none of them. -/
def isBlank (c : Char) : Bool :=
  blankRanges.any fun range => decide (range.1 ≤ c.toNat ∧ c.toNat ≤ range.2)

/-! ## Pieces and words -/

/-- The pieces of a text between the occurrences of a separator: one more than there are
    separators, each possibly empty. -/
def pieces (separator : Char) (t : Text) : List Text := t.splitOnP (· == separator)

/-- The words of a text: its maximal runs without a blank, in order. -/
def words (t : Text) : List Text := (t.splitOnP isBlank).filter fun word => !word.isEmpty

/-- The words joined by single spaces. -/
def unwords (ws : List Text) : Text := [' '].intercalate ws

end Text

end GridSketch
