import TokenGrammar.CommandLine.Run

open TokenGrammar CommandLine

def readErrorOf : IO.Error → ReadError
  | .inappropriateType .. => .isDirectory
  | _ => .notFound

def readFile (name : String) : IO (Except ReadError String) := do
  match ← (IO.FS.readBinFile name).toBaseIO with
  | .ok bytes => return decode bytes
  | .error error => return .error (readErrorOf error)

/-- Reads what an invocation needs. -/
def surroundingsOf (invocation : Invocation) : IO Surroundings := do
  let names := invocation.configurationFiles ++ invocation.path?.toList
  let files ← names.mapM fun name => return (name, ← readFile name)
  let input ←
    if invocation.path? = some "-" then (← IO.getStdin).readBinToEnd else pure .empty
  return ⟨fun name => (files.lookup name).getD (.error .notFound), decode input⟩

def main (arguments : List String) : IO UInt32 := do
  let surroundings ← match Invocation.ofArguments arguments with
    | .ok invocation => surroundingsOf invocation
    | .error _ => pure ⟨fun _ => .error .notFound, .ok ""⟩
  let report := run surroundings arguments
  (← IO.getStdout).putStr report.output
  (← IO.getStderr).putStr report.errors
  return UInt32.ofNat report.code
