/-
  Constraint texts carried out on a record: names and values in turn, separated by blanks.

  The pairs are carried out in order, and the first that cannot be read ends the work; those before
  it stay carried out. A text with a name left over is refused as a whole.

  * `Record.applyPairs`, `Record.applyText`, `Record.applyParts`: for pairs, one text, arguments.
-/
import GridSketch.Constraint.Assignment
import GridSketch.Constraint.Part
import GridSketch.Trace

namespace GridSketch

/-- A record after constraints, the pairs that were carried out, and what ended the work early. -/
structure Applied where
  record : Record
  /-- The pairs carried out: the name in lower case, the value as written. -/
  done : List (Text × Text)
  fault : Option Fault
  deriving DecidableEq, Repr

/-- The steps that were carried out. -/
def Applied.trace (a : Applied) : List Event := a.done.map fun pair => .applied pair.1 pair.2

/-- The record, unless something ended the work early, with the steps carried out. -/
def Applied.traced (a : Applied) : Traced Diagnostic Record where
  trace := a.trace
  outcome := match a.fault with
    | none => .ok a.record
    | some fault => .error fault.diagnostic

/-- The words taken two by two; a word left over is the failure. -/
def pairUp : List Text → Except Text (List (Text × Text))
  | [] => .ok []
  | [last] => .error last
  | name :: value :: rest =>
    match pairUp rest with
    | .ok pairs => .ok ((name, value) :: pairs)
    | .error last => .error last

/-- The words that stand where a name is expected: the first, and every other one after it. -/
def pairNames : List Text → List Text
  | [] => []
  | [name] => [name]
  | name :: _ :: rest => name :: pairNames rest

namespace Record

/-- Carries out pairs of names and values in order, up to the first that cannot be read. -/
def applyPairs (r : Record) : List (Text × Text) → Applied
  | [] => ⟨r, [], none⟩
  | (name, value) :: rest =>
    match Assignment.read name value with
    | .error fault => ⟨r, [], some fault⟩
    | .ok assignment =>
      let later := (assignment.apply r).applyPairs rest
      { later with done := (Text.lower name, value) :: later.done }

/-- Carries out a constraint text. -/
def applyText (r : Record) (t : Text) : Applied :=
  match pairUp (Text.words t) with
  | .ok pairs => r.applyPairs pairs
  | .error last => ⟨r, [], some (.valueMissing t last)⟩

/-- Carries out the constraint text that arguments make. -/
def applyParts (r : Record) (parts : List Part) : Applied := r.applyText (Part.join parts)

end Record

end GridSketch
