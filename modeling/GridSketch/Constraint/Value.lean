/-
  The values of constraints, each kind with the failure that names the constraint.

  * `Value.require`: what is read from a value, or the failure if nothing is.
-/
import GridSketch.Constraint.Keyword
import GridSketch.Fault
import GridSketch.Number.Decimal

namespace GridSketch.Value

/-- What was read from a value; it is a failure if nothing was. -/
def require {α : Type} (fault : Fault) : Option α → Except Fault α
  | some a => .ok a
  | none => .error fault

section

variable {α β : Type} {fault fault' : Fault} {found : Option α} {f : α → β}

@[simp] theorem require_eq_ok_iff {a : α} : require fault found = .ok a ↔ found = some a := by
  cases found <;> simp [require]

@[simp] theorem require_eq_error_iff :
    require fault found = .error fault' ↔ found = none ∧ fault = fault' := by
  cases found <;> simp [require]

theorem map_require_eq_ok_iff {b : β} :
    (require fault found).map f = .ok b ↔ ∃ a, found = some a ∧ f a = b := by
  cases found <;> simp [require, Except.map]

theorem map_require_eq_error_iff :
    (require fault found).map f = .error fault' ↔ found = none ∧ fault = fault' := by
  cases found <;> simp [require, Except.map]

end

/-- The integer that a value denotes. -/
def integer (name value : Text) : Except Fault Int :=
  require (.integerExpected name value) (Integer.read? value)

/-- The weight that a value denotes. -/
def weight (name value : Text) : Except Fault Binary64 :=
  require (.numberExpected name value) (Decimal.read? value)

/-- The anchor that a value denotes. -/
def anchor (value : Text) : Except Fault Anchor :=
  require (.anchorUnknown value) (Choice.read? value)

/-- The fill that a value denotes. -/
def fill (value : Text) : Except Fault Fill :=
  require (.fillUnknown value) (Choice.read? value)

end GridSketch.Value
