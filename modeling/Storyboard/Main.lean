import Storyboard.Command

/-!
# The executable

Answers the requests of the command from the real file system and ends with
its status. All decisions are made by `Storyboard.Command.program`.
-/

namespace Storyboard.Executable

/-- The fault of a failed operation on the file at a path. -/
def faultOfError (path : String) (e : IO.Error) : Fault :=
  if '\x00' ∈ path.toList then .nullInPath
  else
    match e with
    | .noFileOrDirectory _ _ _ => .missingFile path
    | .inappropriateType _ 21 _ => .isFolder path
    | .inappropriateType _ _ _ => .notFolder path
    | .invalidArgument _ 36 _ => .nameTooLong path
    | e => .system e.toString

/-- Runs a program on the real file system, and answers its status. -/
def run : Command.Program → IO UInt32
  | .done outcome => do
    (← IO.getStdout).putStr outcome.out
    (← IO.getStderr).putStr outcome.err
    match outcome.status with
    | .ok status => pure (UInt32.ofNat status)
    | .error fault =>
      (← IO.getStderr).putStr (fault.message ++ "\n")
      pure 1
  | .readInput next => do
    run (next (← (← IO.getStdin).readToEnd))
  | .readFile path next => do
    match ← (IO.FS.readBinFile path).toBaseIO with
    | .ok bytes => run (next (.ok bytes.toList))
    | .error e => run (next (.error (faultOfError path e)))
  | .writeFile path content next => do
    match ← (IO.FS.writeBinFile path ⟨content.toBytes.toArray⟩).toBaseIO with
    | .ok _ => run (next none)
    | .error e => run (next (some (faultOfError path e)))

end Storyboard.Executable

/-- Runs the command. -/
def main (arguments : List String) : IO UInt32 :=
  Storyboard.Executable.run (Storyboard.Command.program arguments)
