/-
  A run of the program: what is printed on which stream, and the exit status.

  * `Environment`: what the program finds around it.
  * `Command.answer`: the text that a command prints, or why there is none.
  * `CommandLine.run`: a whole run, from the arguments to the output.
-/
import GridSketch.CommandLine.Arguments
import GridSketch.Json.Encode
import GridSketch.Text.Utf8

namespace GridSketch

/-! ## Input -/

/-- Where a sketch is read from. -/
inductive Source where
  | standardInput
  | file (name : Text)
  deriving DecidableEq, Repr

/-- Why a source cannot be read. -/
inductive ReadError where
  /-- There is nothing of this name. -/
  | notFound (name : Text)
  /-- A part of the name before its end is not a directory. -/
  | notDirectory (name : Text)
  /-- The name, or a part of it, exceeds what the system allows. -/
  | nameTooLong (name : Text)
  /-- The file may not be read. -/
  | denied (name : Text)
  /-- The name is that of a directory. -/
  | isDirectory
  deriving DecidableEq, Repr

/-- The message of a source that cannot be opened. -/
def ReadError.opening (reason : String) (name : Text) : Text :=
  reason.toList ++ ", open '".toList ++ name ++ ['\'']

/-- The message of a read error. A directory is opened, and found out when it is read. -/
def ReadError.message : ReadError → Text
  | notFound name => opening "ENOENT: no such file or directory" name
  | notDirectory name => opening "ENOTDIR: not a directory" name
  | nameTooLong name => opening "ENAMETOOLONG: name too long" name
  | denied name => opening "EACCES: permission denied" name
  | isDirectory => "EISDIR: illegal operation on a directory, read".toList

/-- The source that an argument names; a dash is the standard input. -/
def Source.ofArgument (argument : Text) : Source :=
  if argument = ['-'] then .standardInput else .file argument

/-- The source that a command reads. -/
def Command.source? : Command → Option Source
  | version => none
  | regions input _ => some (.ofArgument input)
  | record .. => none
  | placement input .. => some (.ofArgument input)

/-- What the program finds around it. -/
structure Environment where
  /-- The variable that asks for the steps of the work. -/
  debug : Option Text
  /-- The bytes of a source, or why it cannot be read. -/
  input : Source → Except ReadError (List UInt8)

/-! ## Answers -/

/-- Why a command has no answer. -/
inductive CommandError where
  | reading (e : ReadError)
  | reported (d : Diagnostic)
  deriving DecidableEq, Repr

/-- The line that reports a failure. -/
def CommandError.message : CommandError → Text
  | reading e => "Error: ".toList ++ e.message
  | reported d => "Error [".toList ++ d.code.label ++ "]: ".toList ++ d.message

namespace Command

/-- The number of this release. -/
def release : Text := "1.0.0".toList

/-- The text of a source. -/
def readSource (env : Environment) (argument : Text) : Traced CommandError Text :=
  Traced.ofExcept <|
    match env.input (.ofArgument argument) with
    | .ok bytes => .ok (Text.Utf8.decode bytes)
    | .error e => .error (.reading e)

/-- The text that a command prints. A placement reads its source first, then applies the defaults,
    and only then looks at the regions of the sketch. -/
def answer (env : Environment) : Command → Traced CommandError Text
  | version => pure release
  | regions input style => do
    let sketch ← readSource env input
    let registry ← (Registry.read sketch).mapError .reported
    return registry.json.render style
  | record constraints style => do
    let r ← (Record.standard.applyParts (constraints.map .text)).traced.mapError .reported
    return r.json.render style
  | placement input name constraints defaults style => do
    let sketch ← readSource env input
    let placer ← (Placer.create (defaults.toList.map .text)).mapError .reported
    let layout ← (Registry.read sketch).mapError .reported
    let placed ← ((placer.withLayout layout).place name (constraints.map .text)).mapError .reported
    return placed.json.render style

end Command

/-! ## Output -/

/-- What a run of the program leaves behind. -/
structure Output where
  exit : Nat
  stdout : Text
  stderr : Text
  deriving DecidableEq, Repr

namespace CommandLine

/-- Lines as they are printed. -/
def printed (lines : List Text) : Text := lines.flatMap fun line => line ++ ['\n']

/-- The standard output carries answers only: the steps are silenced. -/
def silenced : Bool := true

/-- What the program prints for a list of arguments, and its exit status. -/
def run (env : Environment) (args : List Text) : Output :=
  match read args with
  | .error e => ⟨1, [], printed [e.message]⟩
  | .ok command =>
    let answered := command.answer env
    let steps := Trace.shown env.debug silenced answered.trace
    match answered.outcome with
    | .ok t => ⟨0, printed (steps ++ [t]), []⟩
    | .error e => ⟨1, printed steps, printed [e.message]⟩

end CommandLine

end GridSketch
