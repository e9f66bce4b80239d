/-
  The program: arguments in, a sketch from a file or the standard input, JSON out.
-/
import GridSketch.CommandLine.Run

namespace GridSketch

/-- All bytes of a stream. -/
partial def readAll (stream : IO.FS.Stream) (before : ByteArray) : IO ByteArray := do
  let block ← stream.read 65536
  if block.isEmpty then return before else readAll stream (before ++ block)

/-- The bytes of a source, or why it cannot be read. -/
def readSource (source : Source) : IO (Except ReadError (List UInt8)) := do
  match source with
  | .standardInput => return .ok (← readAll (← IO.getStdin) .empty).toList
  | .file name =>
    try
      return .ok (← IO.FS.readBinFile (String.ofList name)).toList
    catch
      | .inappropriateType none .. => return .error .isDirectory
      | .inappropriateType (some _) .. => return .error (.notDirectory name)
      | .invalidArgument .. => return .error (.nameTooLong name)
      | .permissionDenied .. => return .error (.denied name)
      | _ => return .error (.notFound name)

end GridSketch

open GridSketch in
/-- Runs the program. -/
def main (args : List String) : IO UInt32 := do
  let texts := args.map String.toList
  let input ← match (CommandLine.read texts).toOption.bind Command.source? with
    | some source => readSource source
    | none => pure (.ok [])
  let debug ← IO.getEnv "DEBUG"
  let output := CommandLine.run ⟨debug.map String.toList, fun _ => input⟩ texts
  (← IO.getStdout).putStr (String.ofList output.stdout)
  (← IO.getStderr).putStr (String.ofList output.stderr)
  return output.exit.toUInt32
