/-
  A sketch being read, token by token.

  Rows are delimited by braces. An identifier starts a region of one cell at the current cell; `+`
  widens the region that the current row named last, `|` lengthens the nearest region above that
  starts in the current column, and `-` takes up a cell. Any sequence of tokens has a meaning; the
  only failure is an embedded constraint that cannot be read.

  * `Draft.step`: the effect of one token.
  * `Registry.read`: the regions of a whole sketch.
-/
import GridSketch.Constraint.Embedded
import GridSketch.Sketch.Registry
import GridSketch.Sketch.Token
import GridSketch.Trace

namespace GridSketch

/-- A sketch read up to some cell. -/
structure Draft where
  /-- The current row. -/
  row : Int
  /-- The current column. -/
  col : Int
  /-- The regions that can no longer be widened. -/
  settled : List Region
  /-- The region that the current row named last. -/
  current : Option Region

namespace Draft

/-- The start of a sketch. -/
def start : Draft := ⟨0, 0, [], none⟩

/-- The regions so far, in the order of their identifiers. -/
def regions (d : Draft) : List Region := d.settled ++ d.current.toList

/-- The draft one cell farther to the right. -/
def advance (d : Draft) : Draft := { d with col := d.col + 1 }

end Draft

namespace Region

/-- What separates the name of a region from its embedded entries. -/
def specSeparator : Char := ':'

/-- The name and the embedded entries of an identifier: what stands before its first separator,
    and what stands between that and the next one. -/
def splitIdentifier (text : Text) : Text × Text :=
  match Text.pieces specSeparator text with
  | [] => ([], [])
  | [name] => (name, [])
  | name :: spec :: _ => (name, spec)

/-- The region of one cell that an identifier starts. -/
def ofIdentifier (text : Text) (offset : Nat) (row col : Int) : Except Diagnostic Region :=
  let (name, spec) := splitIdentifier text
  match Embedded.expand spec with
  | .ok constraints => .ok ⟨name, row, col, 1, 1, constraints⟩
  | .error fault =>
    .error (fault.diagnostic.withContext { region := some name, offset := some offset })

/-- The nearest row above a cell in which a region starts in the column of the cell. -/
def rowAbove? (regions : List Region) (row col : Int) : Option Int :=
  ((regions.filter fun r => decide (r.col = col ∧ r.row < row)).map Region.row).max?

/-- Lengthens the first region that starts at a cell, and gives it too. -/
def lengthenAt (row col : Int) : List Region → Option (Region × List Region)
  | [] => none
  | r :: rest =>
    if r.row = row ∧ r.col = col then
      let longer := { r with height := r.height + 1 }
      some (longer, longer :: rest)
    else (lengthenAt row col rest).map fun (longer, rest) => (longer, r :: rest)

/-- Lengthens the nearest region above a cell that starts in its column; of several at the same
    cell the first. -/
def lengthenAbove (row col : Int) (regions : List Region) : Option (Region × List Region) :=
  (rowAbove? regions row col).bind fun above => lengthenAt above col regions

end Region

namespace Draft

/-- The effect of one token. -/
def step (d : Draft) : Token → Traced Diagnostic Draft
  | .mark .rowStart _ => pure { d with col := 0 }
  | .mark .rowEnd _ => pure { d with row := d.row + 1, settled := d.regions, current := none }
  | .mark .filler _ => pure d.advance
  | .mark .widen _ =>
    match d.current with
    | none => pure d.advance
    | some r => do
      let wider := { r with width := r.width + 1 }
      Traced.tell (.widened wider.name wider.width)
      return { d.advance with current := some wider }
  | .mark .lengthen _ =>
    match Region.lengthenAbove d.row d.col d.settled with
    | none => pure d.advance
    | some (longer, settled) => do
      Traced.tell (.lengthened longer.name longer.height)
      return { d.advance with settled := settled }
  | .identifier text offset => do
    let r ← Traced.ofExcept (Region.ofIdentifier text offset d.row d.col)
    Traced.tell (.found r.name r.row r.col)
    return { d.advance with settled := d.regions, current := some r }

/-- The effect of tokens in order, up to the first that fails. -/
def run (d : Draft) (tokens : List Token) : Traced Diagnostic Draft := tokens.foldlM step d

end Draft

namespace Registry

/-- The regions of a sketch. -/
def read (sketch : Text) : Traced Diagnostic Registry := do
  let d ← Draft.start.run (Token.scan sketch)
  return ofList d.regions

/-- The regions of a sketch that may be missing. -/
def read? : Option Text → Traced Diagnostic Registry
  | none => Traced.ofExcept (.error Fault.layoutMissing.diagnostic)
  | some sketch => read sketch

end Registry

end GridSketch
