/-
  The arguments of the program. There are three commands, which print regions, a record, or a
  placement as JSON.

  * `Command`: what a list of arguments asks for.
  * `CommandLine.sort`: options and positional arguments told apart.
  * `CommandLine.read`: the command of a list of arguments, or why it cannot be understood.
-/
import GridSketch.Json.Basic

namespace GridSketch

/-- What a list of arguments asks for. -/
inductive Command where
  /-- The number of this release. -/
  | version
  /-- The regions of a sketch. -/
  | regions (input : Text) (style : Json.Style)
  /-- The record that constraints make of the defaults. -/
  | record (constraints : List Text) (style : Json.Style)
  /-- The placement of a region of a sketch. -/
  | placement (input name : Text) (constraints : List Text) (defaults : Option Text)
      (style : Json.Style)
  deriving DecidableEq, Repr

/-- Why a list of arguments cannot be understood. -/
inductive UsageError where
  | unknownOption (option : Text)
  | missingArgument (name : Text)
  | missingDefaults
  | unknownCommand (command : Text)
  | missingCommand
  deriving DecidableEq, Repr

/-- The message of a usage error. -/
def UsageError.message : UsageError → Text
  | unknownOption option => "error: unknown option '".toList ++ option ++ ['\'']
  | missingArgument name => "error: missing required argument '".toList ++ name ++ ['\'']
  | missingDefaults => "error: option '-d, --defaults <constraints>' argument missing".toList
  | unknownCommand command => "error: unknown command '".toList ++ command ++ ['\'']
  | missingCommand => "error: no command given".toList

namespace CommandLine

/-! ## Arguments -/

/-- The arguments of a command, sorted. -/
structure Arguments where
  compact : Bool := false
  defaults : Option Text := none
  positional : List Text := []
  /-- The first option that the command does not have. -/
  unknown : Option Text := none
  deriving DecidableEq, Repr

/-- The output style asked for. -/
def Arguments.style (a : Arguments) : Json.Style := if a.compact then .compact else .indented

/-- An argument that starts with a dash and goes on is an option. -/
def isOption : Text → Bool
  | '-' :: _ :: _ => true
  | _ => false

/-- The value of the defaults option when it stands in the same argument. -/
def attachedDefaults? (argument : Text) : Option Text :=
  if "--defaults=".toList.isPrefixOf argument then some (argument.drop "--defaults=".length)
  else match argument with
    | '-' :: 'd' :: c :: rest => some (c :: rest)
    | _ => none

/-- Sorts the arguments of a command, which may have the defaults option or not. After `--` all
    arguments are positional. -/
def sort (hasDefaults : Bool) (a : Arguments) : List Text → Except UsageError Arguments
  | [] => .ok a
  | argument :: rest =>
    if argument = "--".toList then .ok { a with positional := a.positional ++ rest }
    else if argument = "--compact".toList then sort hasDefaults { a with compact := true } rest
    else if hasDefaults && (argument = "-d".toList || argument = "--defaults".toList) then
      match rest with
      | [] => .error .missingDefaults
      | value :: rest => sort hasDefaults { a with defaults := some value } rest
    else match (if hasDefaults then attachedDefaults? argument else none) with
      | some value => sort hasDefaults { a with defaults := some value } rest
      | none =>
        if isOption argument then
          sort hasDefaults { a with unknown := a.unknown <|> some argument } rest
        else sort hasDefaults { a with positional := a.positional ++ [argument] } rest

/-- The sorted arguments of a command that are in order but for the number of positionals. -/
def arguments (hasDefaults : Bool) (args : List Text) : Except UsageError Arguments :=
  match sort hasDefaults {} args with
  | .error e => .error e
  | .ok a =>
    match a.unknown with
    | some option => .error (.unknownOption option)
    | none => .ok a

/-! ## Commands -/

/-- Whether an argument asks for the number of this release. -/
def asksVersion (argument : Text) : Bool :=
  argument = "--version".toList || "-V".toList.isPrefixOf argument

/-- The command for the regions of a sketch. -/
def readRegions (args : List Text) : Except UsageError Command :=
  match arguments false args with
  | .error e => .error e
  | .ok a =>
    match a.positional with
    | [] => .error (.missingArgument "input".toList)
    | input :: _ => .ok (.regions input a.style)

/-- The command for the record of constraints. -/
def readRecord (args : List Text) : Except UsageError Command :=
  match arguments false args with
  | .error e => .error e
  | .ok a =>
    match a.positional with
    | [] => .error (.missingArgument "tokens".toList)
    | constraints => .ok (.record constraints a.style)

/-- The command for the placement of a region. -/
def readPlacement (args : List Text) : Except UsageError Command :=
  match arguments true args with
  | .error e => .error e
  | .ok a =>
    match a.positional with
    | [] => .error (.missingArgument "input".toList)
    | [_] => .error (.missingArgument "name".toList)
    | input :: name :: constraints => .ok (.placement input name constraints a.defaults a.style)

/-- What a list of arguments asks for. The number of this release can be asked for anywhere before
    `--`; otherwise the first argument names the command. -/
def read (args : List Text) : Except UsageError Command :=
  if (args.takeWhile (· ≠ "--".toList)).any asksVersion then .ok .version
  else match args with
    | [] => .error .missingCommand
    | command :: rest =>
      if command = "parse".toList then readRegions rest
      else if command = "constraints".toList then readRecord rest
      else if command = "place".toList then readPlacement rest
      else if isOption command then .error (.unknownOption command)
      else .error (.unknownCommand command)

end CommandLine

end GridSketch
