import StallRecovery.Program

/-!
# The executable

Reads the arguments and the files they name, prints what the program prints, and ends with a code of
one if it failed and of two if the arguments made no call.
-/

namespace StallRecovery.Program

/-- The bytes of a file of the system. -/
def readFile (path : String) : IO (Except Unreadable ByteArray) := do
  try
    return .ok (← IO.FS.readBinFile path)
  catch
    | .noFileOrDirectory .. => return .error .notFound
    | .inappropriateType .. => return .error .isDirectory
    | e => return .error (.other (toString e))

/-- The paths of the files that a call reads. -/
def pathsOf (call : CommandLine.Invocation) : List String :=
  match call.command with
  | .run policy scenario _ => [policy, scenario]
  | .check policy => [policy]

end StallRecovery.Program

open StallRecovery

/-- Runs the program. -/
def main (args : List String) : IO UInt32 := do
  match CommandLine.parse args with
  | .error problem =>
    IO.eprintln problem.message
    return 2
  | .ok call =>
    let files ← (Program.pathsOf call).mapM fun path => return (path, ← Program.readFile path)
    let reader : FileReader := fun path =>
      match files.find? (·.1 == path) with
      | some (_, content) => content
      | none => .error .notFound
    match Program.execute reader call with
    | .ok text =>
      IO.print text
      return 0
    | .error failure =>
      IO.eprintln ("Error: " ++ failure.message)
      return 1
