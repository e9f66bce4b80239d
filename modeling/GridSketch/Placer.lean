/-
  Placements: where each component goes, and with which layout parameters.

  A placer holds default parameters and the last sketch that was read. A placement starts from the
  defaults; for a region of the sketch the embedded constraints follow, then those of the caller,
  then the size of the region in the grid. A weight that no constraint sets is a hundredth of the
  size, so that larger regions take proportionally more of the surplus space.

  * `Placer.placeAt`, `Placer.place`: a placement at a cell, and of a region.
  * `Placer.step`, `Session.step`: requests to a placer, and to one that may not exist yet.
-/
import GridSketch.Constraint.Apply
import GridSketch.Sketch.Draft

namespace GridSketch

/-- A component's cell and its parameters. -/
structure Placement where
  /-- The region placed, if it comes from a sketch. -/
  name : Option Text
  row : Int
  col : Int
  constraints : Record
  deriving DecidableEq, Repr

/-- Default parameters, and the last sketch that was read. -/
structure Placer where
  defaults : Record
  layout : Option Registry

namespace Region

/-- The part of a size that makes a weight. -/
def weightDivisor : Nat := 100

/-- The weight derived from a size. -/
def derivedWeight (size : Int) : Binary64 :=
  .ofRatio (decide (size < 0)) size.natAbs weightDivisor

/-- The name and the derived weight of an axis, unless one of the names sets that weight. -/
def weightParts (names : List Text) (axis : Axis) (name : Text) (size : Int) : List Part :=
  if names.any (Mnemonic.weighs axis) then []
  else [.text name, .number (derivedWeight size)]

/-- The constraint text of a region: its own constraints and those of the caller, its size, and
    the weights that none of them sets. -/
def mergedConstraints (r : Region) (parts : List Part) : Text :=
  let given := Part.join (.text r.constraints :: parts)
  let names := (pairNames (Text.words given)).map Text.lower
  Part.join <|
    [.text given, .text "gridwidth".toList, .integer r.width,
      .text "gridheight".toList, .integer r.height] ++
    weightParts names .x "weightx".toList r.width ++
    weightParts names .y "weighty".toList r.height

end Region

namespace Placer

/-- A placer without a sketch, its defaults being the standard ones with constraints applied. -/
def create (parts : List Part) : Traced Diagnostic Placer := do
  let defaults ← (Record.standard.applyParts parts).traced
  return ⟨defaults, none⟩

/-- The placer with a sketch that was read. -/
def withLayout (placer : Placer) (layout : Registry) : Placer :=
  { placer with layout := some layout }

/-- A placement at a given cell. -/
def placeAt (placer : Placer) (row col : Int) (parts : List Part) :
    Traced Diagnostic Placement := do
  let record ← (placer.defaults.applyParts parts).traced
  return ⟨none, row, col, record⟩

/-- The region of a name in the last sketch. -/
def region (placer : Placer) (name : Text) : Except Fault Region :=
  match placer.layout with
  | none => .error (.layoutUnread name)
  | some registry =>
    match registry.get? name with
    | none => .error (.regionAbsent name)
    | some r => .ok r

/-- The placement of a region of the last sketch. -/
def place (placer : Placer) (name : Text) (parts : List Part) : Traced Diagnostic Placement := do
  let r ← Traced.ofExcept ((placer.region name).mapError Fault.diagnostic)
  let merged := r.mergedConstraints parts
  Traced.tell (.merged name merged)
  let record ← (placer.defaults.applyText merged).traced
  return ⟨some name, r.row, r.col, record⟩

/-! ## Requests -/

/-- What can be asked of a placer. -/
inductive Request where
  | adjustDefaults (parts : List Part)
  | defaults
  | readLayout (sketch : Option Text)
  | layout
  | placeAt (row col : Int) (parts : List Part)
  | place (name : Text) (parts : List Part)

/-- What a placer answers. -/
inductive Answer where
  | done
  | record (r : Record)
  | registry (layout : Option Registry)
  | placement (p : Placement)

/-- The placer after a request, and its answer. Only the defaults and the sketch ever change:
    adjusted defaults keep the constraints carried out before a failure, and a sketch that cannot
    be read leaves the earlier one. -/
def step (placer : Placer) : Request → Placer × Traced Diagnostic Answer
  | .adjustDefaults parts =>
    let applied := placer.defaults.applyParts parts
    ({ placer with defaults := applied.record }, (fun _ => .done) <$> applied.traced)
  | .defaults => (placer, pure (.record placer.defaults))
  | .readLayout sketch =>
    let read := Registry.read? sketch
    let next := match read.outcome with
      | .ok layout => placer.withLayout layout
      | .error _ => placer
    (next, (fun layout => .registry (some layout)) <$> read)
  | .layout => (placer, pure (.registry placer.layout))
  | .placeAt row col parts => (placer, .placement <$> placer.placeAt row col parts)
  | .place name parts => (placer, .placement <$> placer.place name parts)

end Placer

/-! ## Sessions -/

/-- A placer, once one has been created. -/
abbrev Session := Option Placer

namespace Session

/-- What can be asked in a session. -/
inductive Request where
  /-- A new placer in place of the old one. -/
  | create (parts : List Part)
  /-- A request to the placer. -/
  | ask (request : Placer.Request)

/-- The session after a request, and the answer. A placer that cannot be created leaves the old
    one; without a placer, a request to it does nothing. -/
def step (session : Session) : Request → Session × Traced Diagnostic Placer.Answer
  | .create parts =>
    let created := Placer.create parts
    let next := match created.outcome with
      | .ok placer => some placer
      | .error _ => session
    (next, (fun _ => .done) <$> created)
  | .ask request =>
    match session with
    | none => (none, pure .done)
    | some placer =>
      let (next, answer) := placer.step request
      (some next, answer)

end Session

end GridSketch
