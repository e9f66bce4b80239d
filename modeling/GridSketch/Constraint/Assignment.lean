/-
  One constraint, read and carried out.

  * `Assignment.read`: a name and a value are read without looking at any record.
  * `Assignment.apply`: the parameters that the name sets take the value, the others stay.
-/
import GridSketch.Constraint.Mnemonic
import GridSketch.Constraint.Record
import GridSketch.Constraint.Value

namespace GridSketch

namespace Record

/-- The record with one integer parameter set. -/
def setMeasure (r : Record) (m : Measure) (n : Int) : Record :=
  match m with
  | .gridwidth => { r with gridwidth := n }
  | .gridheight => { r with gridheight := n }
  | .ipadx => { r with ipadx := n }
  | .ipady => { r with ipady := n }
  | .insetTop => { r with insets := { r.insets with top := n } }
  | .insetBottom => { r with insets := { r.insets with bottom := n } }
  | .insetLeft => { r with insets := { r.insets with left := n } }
  | .insetRight => { r with insets := { r.insets with right := n } }

/-- The record with the weight of one axis set. -/
def setWeight (r : Record) (axis : Axis) (w : Binary64) : Record :=
  match axis with
  | .x => { r with weightx := w }
  | .y => { r with weighty := w }

end Record

/-- A constraint that has been read: what it sets, and the value. -/
inductive Assignment where
  | measures (ms : List Measure) (n : Int)
  | weights (axes : List Axis) (w : Binary64)
  | anchor (a : Anchor)
  | fill (f : Fill)
  deriving DecidableEq, Repr

/-- Reads the value of a constraint with a given target. -/
def Target.read (target : Target) (name value : Text) : Except Fault Assignment :=
  match target with
  | measures ms => (Value.integer name value).map (.measures ms)
  | weights axes => (Value.weight name value).map (.weights axes)
  | anchor => (Value.anchor value).map .anchor
  | fill => (Value.fill value).map .fill

namespace Assignment

/-- Reads a constraint from its name and its value, both in any letter case. -/
def read (name value : Text) : Except Fault Assignment :=
  match Mnemonic.target? (Text.lower name) with
  | some target => target.read (Text.lower name) (Text.lower value)
  | none => .error (.nameUnknown (Text.lower name) value)

/-- Carries out a constraint on a record. -/
def apply (a : Assignment) (r : Record) : Record :=
  match a with
  | measures ms n => ms.foldl (fun r m => r.setMeasure m n) r
  | weights axes w => axes.foldl (fun r axis => r.setWeight axis w) r
  | anchor a => { r with anchor := a }
  | fill f => { r with fill := f }

end Assignment

end GridSketch
