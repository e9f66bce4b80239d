/-
  What a reader reports when it gives up: a code, a message, and the circumstances.

  * `Context`: the circumstances, each of them set or not; `Context.merge` prefers the later one.
  * `Account`: what is told of a failure.
  * `Diagnostic`: a report with its account, and with an earlier report as its cause if there is one.
  * `Diagnostic.withContext`: a new report with further circumstances, of which the report is the cause.
-/
import GridSketch.Text.Basic

namespace GridSketch

/-- The kinds of failure. -/
inductive Code where
  | layoutInputMissing
  | layoutNotParsed
  | regionNotFound
  | embeddedConstraintUnrecognized
  | constraintPairIncomplete
  | constraintNameUnknown
  | constraintValueInvalid
  | anchorValueUnknown
  | fillValueUnknown
  deriving DecidableEq, Repr

namespace Code

/-- Every code, in the order of the reference list. -/
def all : List Code :=
  [.layoutInputMissing, .layoutNotParsed, .regionNotFound, .embeddedConstraintUnrecognized,
   .constraintPairIncomplete, .constraintNameUnknown, .constraintValueInvalid,
   .anchorValueUnknown, .fillValueUnknown]

/-- The spelling of a code in reports. -/
def label : Code → Text
  | layoutInputMissing => "LAYOUT_INPUT_MISSING".toList
  | layoutNotParsed => "LAYOUT_NOT_PARSED".toList
  | regionNotFound => "REGION_NOT_FOUND".toList
  | embeddedConstraintUnrecognized => "EMBEDDED_CONSTRAINT_UNRECOGNIZED".toList
  | constraintPairIncomplete => "CONSTRAINT_PAIR_INCOMPLETE".toList
  | constraintNameUnknown => "CONSTRAINT_NAME_UNKNOWN".toList
  | constraintValueInvalid => "CONSTRAINT_VALUE_INVALID".toList
  | anchorValueUnknown => "ANCHOR_VALUE_UNKNOWN".toList
  | fillValueUnknown => "FILL_VALUE_UNKNOWN".toList

end Code

/-- The circumstances of a failure. -/
structure Context where
  /-- The entry or constraint text that was being read. -/
  input : Option Text := none
  /-- The constraint name. -/
  name : Option Text := none
  /-- The constraint value. -/
  value : Option Text := none
  /-- The region being created or placed. -/
  region : Option Text := none
  /-- The offset in the sketch, in 16-bit code units. -/
  offset : Option Int := none
  deriving DecidableEq, Repr

/-- Two sets of circumstances together; where both set one, the later wins. -/
def Context.merge (earlier later : Context) : Context where
  input := later.input <|> earlier.input
  name := later.name <|> earlier.name
  value := later.value <|> earlier.value
  region := later.region <|> earlier.region
  offset := later.offset <|> earlier.offset

/-- What is told of a failure. -/
structure Account where
  code : Code
  message : Text
  context : Context
  deriving DecidableEq, Repr

/-- A report of a failure. -/
inductive Diagnostic where
  /-- A failure as it was found. -/
  | raised (code : Code) (message : Text) (context : Context)
  /-- A failure that an earlier report led to, with an account of its own. -/
  | within (cause : Diagnostic) (account : Account)
  deriving DecidableEq, Repr

namespace Diagnostic

/-- The title under which every report is written. -/
def title : Text := "LayoutError".toList

/-- What a report tells. -/
def account : Diagnostic → Account
  | raised code message context => ⟨code, message, context⟩
  | within _ account => account

/-- The kind of failure. -/
def code (d : Diagnostic) : Code := d.account.code

/-- The message. -/
def message (d : Diagnostic) : Text := d.account.message

/-- The circumstances that are known. -/
def context (d : Diagnostic) : Context := d.account.context

/-- The report that led to this one. -/
def cause? : Diagnostic → Option Diagnostic
  | raised .. => none
  | within cause _ => some cause

/-- The failure told from farther out, where more of its circumstances are known: what is learned there
    wins, and the report becomes the cause of the new one. -/
def withContext (d : Diagnostic) (further : Context) : Diagnostic :=
  within d ⟨d.code, d.message, d.context.merge further⟩

/-- The reports that a report goes back to and the report itself, the first one first. -/
def chain : Diagnostic → List Diagnostic
  | d@(raised ..) => [d]
  | d@(within cause _) => cause.chain ++ [d]

/-- A report on one line: the title, and the message if there is one. -/
def summary (d : Diagnostic) : Text :=
  if d.message.isEmpty then title else title ++ ": ".toList ++ d.message

end Diagnostic

end GridSketch
