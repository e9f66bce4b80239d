/-
  The arguments from which constraint texts are put together: texts, numbers, or nothing.
-/
import GridSketch.Number.Shortest

namespace GridSketch

/-- An argument of a constraint text. -/
inductive Part where
  /-- Any number of words. -/
  | text (t : Text)
  /-- One word, the notation of the number. -/
  | number (x : Binary64)
  /-- One word, the notation of the integer. -/
  | integer (n : Int)
  /-- Nothing. -/
  | absent
  deriving DecidableEq, Repr

namespace Part

/-- The text of an argument. -/
def write : Part → Text
  | text t => t
  | number x => x.write
  | integer n => Integer.write n
  | absent => []

/-- The words of a list of arguments, in order. -/
def words (parts : List Part) : List Text := parts.flatMap fun p => Text.words p.write

/-- The words of a list of arguments as one text, with single spaces between them. -/
def join (parts : List Part) : Text := Text.unwords (words parts)

end Part

end GridSketch
