/-
  The causes of failure, each with what it is about; a cause determines its code, its message and
  its context.
-/
import GridSketch.Diagnostic

namespace GridSketch

/-- A cause of failure. -/
inductive Fault where
  /-- There is no sketch to read. -/
  | layoutMissing
  /-- A region was to be placed before any sketch was read. -/
  | layoutUnread (region : Text)
  /-- The sketch has no region of this name. -/
  | regionAbsent (region : Text)
  /-- An embedded entry starts with no constraint name. -/
  | entryUnrecognized (entry : Text)
  /-- The last name of a constraint text has no value. -/
  | valueMissing (constraints name : Text)
  /-- There is no constraint of this name. -/
  | nameUnknown (name value : Text)
  /-- The value of an integer constraint is not an integer, or out of range. -/
  | integerExpected (name value : Text)
  /-- The value of a weight is not a decimal number. -/
  | numberExpected (name value : Text)
  /-- The value of an anchor is neither a direction nor an integer. -/
  | anchorUnknown (value : Text)
  /-- The value of a fill is neither a mode nor an integer. -/
  | fillUnknown (value : Text)
  deriving DecidableEq, Repr

namespace Fault

/-- The code of a cause. -/
def code : Fault → Code
  | layoutMissing => .layoutInputMissing
  | layoutUnread _ => .layoutNotParsed
  | regionAbsent _ => .regionNotFound
  | entryUnrecognized _ => .embeddedConstraintUnrecognized
  | valueMissing .. => .constraintPairIncomplete
  | nameUnknown .. => .constraintNameUnknown
  | integerExpected .. => .constraintValueInvalid
  | numberExpected .. => .constraintValueInvalid
  | anchorUnknown _ => .anchorValueUnknown
  | fillUnknown _ => .fillValueUnknown

/-- A text between braces. -/
def braced (t : Text) : Text := '\x7b' :: t ++ ['\x7d']

/-- The message of a cause. -/
def message : Fault → Text
  | layoutMissing => "No layout string given".toList
  | layoutUnread _ => "No layout string has been parsed".toList
  | regionAbsent region => "No region named ".toList ++ region ++ " in layout string".toList
  | entryUnrecognized entry => "Could not interpret embedded constraint ".toList ++ braced entry
  | valueMissing constraints name =>
    "Incomplete constraint pair in ".toList ++ braced constraints ++ ": constraint ".toList ++
      name ++ " has no value".toList
  | nameUnknown name _ => "Unknown constraint name: ".toList ++ name
  | integerExpected name value => valueMessage name value "an integer".toList
  | numberExpected name value => valueMessage name value "a number".toList
  | anchorUnknown value => "Unknown anchor value ".toList ++ braced value
  | fillUnknown value => "Unknown fill value ".toList ++ braced value
where
  valueMessage (name value expected : Text) : Text :=
    "Invalid numeric value ".toList ++ braced value ++ " for constraint ".toList ++ name ++
      ": expected ".toList ++ expected

/-- The circumstances that a cause itself tells. -/
def context : Fault → Context
  | layoutMissing => {}
  | layoutUnread region => { region := some region }
  | regionAbsent region => { region := some region }
  | entryUnrecognized entry => { input := some entry }
  | valueMissing constraints name => { input := some constraints, name := some name }
  | nameUnknown name value => { name := some name, value := some value }
  | integerExpected name value => { name := some name, value := some value }
  | numberExpected name value => { name := some name, value := some value }
  | anchorUnknown value => { name := some "anchor".toList, value := some value }
  | fillUnknown value => { name := some "fill".toList, value := some value }

/-- The report of a cause. -/
def diagnostic (fault : Fault) : Diagnostic := .raised fault.code fault.message fault.context

end Fault

end GridSketch
