/-
  Lower case for every character, independent of any locale.

  * `lowerChar`: the image of one character on its own.
  * `lower`: the image of a text; a capital sigma that ends a word becomes the final form.
-/
import GridSketch.Text.Basic
import GridSketch.Text.CaseTable

namespace GridSketch.Text

/-- Whether a character lies in one of the ranges of a table. -/
def inRanges (ranges : List (Nat × Nat)) (c : Char) : Bool :=
  ranges.any fun range => decide (range.1 ≤ c.toNat ∧ c.toNat ≤ range.2)

/-- Letters with case. -/
def isCased (c : Char) : Bool := inRanges casedRanges c

/-- Marks and punctuation that do not end a word for the form of a sigma. -/
def isCaseIgnorable (c : Char) : Bool := inRanges caseIgnorableRanges c

/-- The lower-case image of one character: the capital I with dot becomes an i and a combining
    dot, every other image is a single character. -/
def lowerChar (c : Char) : Text :=
  if c.toNat < 0x80 then [c.toLower]
  else if c.toNat = 0x130 then ['i', '\u0307']
  else match caseRuns.find? fun run => run.holds c.toNat with
    | some run => [Char.ofNat (run.lower c.toNat)]
    | none => [c]

/-- Whether the first character that is not passed over is a cased letter. -/
def startsCased (t : Text) : Bool := (t.find? fun c => !isCaseIgnorable c).any isCased

/-- The image of a text, given whether a cased letter stands before it: a capital sigma between
    such a letter and the end of its word takes the final form. -/
def lowerAfter (afterCased : Bool) : Text → Text
  | [] => []
  | c :: rest =>
    let image := if c = 'Σ' ∧ afterCased ∧ !startsCased rest then ['ς'] else lowerChar c
    image ++ lowerAfter (if isCaseIgnorable c then afterCased else isCased c) rest

/-- The lower-case image of a text. -/
def lower (t : Text) : Text := lowerAfter false t

end GridSketch.Text
