/-
  Constraints embedded in a sketch: entries separated by commas, each a name and a value run
  together, as in `wx1,wy2,i*5`.

  * `Embedded.splitEntry`: cuts an entry behind the name that it starts with.
  * `Embedded.expand`: the constraint text that the entries stand for.
-/
import GridSketch.Constraint.Mnemonic
import GridSketch.Fault

namespace GridSketch.Embedded

/-- What separates entries. -/
def entrySeparator : Char := ','

/-- Cuts an entry behind the constraint name that it starts with; the name keeps its spelling. -/
def splitEntry (entry : Text) : Except Fault (Text × Text) :=
  match Mnemonic.leading? entry with
  | some m => .ok (entry.take m.spelling.length, entry.drop m.spelling.length)
  | none => .error (.entryUnrecognized entry)

/-- Cuts every entry, up to the first that starts with no name. -/
def splitEntries : List Text → Except Fault (List (Text × Text))
  | [] => .ok []
  | entry :: rest => do
    let pair ← splitEntry entry
    let pairs ← splitEntries rest
    return pair :: pairs

/-- The words of cut entries; an entry with no value has the name only. -/
def entryWords (pairs : List (Text × Text)) : List Text :=
  (pairs.flatMap fun pair => [pair.1, pair.2]).filter fun word => !word.isEmpty

/-- The constraint text of embedded entries; no entries at all make the empty text. -/
def expand (spec : Text) : Except Fault Text :=
  if spec.isEmpty then .ok []
  else (splitEntries (Text.pieces entrySeparator spec)).map fun pairs => Text.unwords (entryWords pairs)

end GridSketch.Embedded
