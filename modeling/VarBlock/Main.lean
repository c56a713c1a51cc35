import VarBlock.CommandLine.Run

/-!
# The program

Reads what the command line may need, runs it and prints the outcome.
-/

namespace VarBlock.CommandLine

/-- The cause of a failure to read a file, by the number the system gives it. -/
def readErrorOf : IO.Error → ReadError
  | .inappropriateType _ code _ => if code = 21 then .isDirectory else .notDirectory
  | .invalidArgument .. => .nameTooLong
  | _ => .missing

/-- The content of a file, or why it cannot be read. -/
def readFile (path : String) : IO (String × Except ReadError ByteArray) := do
  try
    return (path, .ok (← IO.FS.readBinFile path))
  catch e =>
    return (path, .error (readErrorOf e))

/-- What a request may read in the current directory. -/
def environmentFor (request : Request) : IO Environment := do
  let files ← request.paths.mapM readFile
  let stdin ← if request.readsStdin then (← IO.getStdin).readBinToEnd else pure ByteArray.empty
  return .ofReadings stdin files

end VarBlock.CommandLine

/-- Run a command line in the current directory. -/
def main (arguments : List String) : IO UInt32 := do
  let env ← match VarBlock.CommandLine.parse arguments with
    | .ok request => VarBlock.CommandLine.environmentFor request
    | .error _ => pure (.ofReadings ByteArray.empty [])
  let outcome := VarBlock.CommandLine.run env arguments
  IO.print outcome.stdout
  IO.eprint outcome.stderr
  return UInt32.ofNat outcome.exit
