import SchemaAudit.CommandLine.Run

/-!
# The program

Reads files and the environment, and ends with the status of the run.
-/

namespace SchemaAudit

/-- Why a file could not be read. -/
def reasonOf : IO.Error → String
  | .noFileOrDirectory _ code _ => "No such file or directory (os error " ++ toString code ++ ")"
  | .permissionDenied _ code _ => "Permission denied (os error " ++ toString code ++ ")"
  | e => toString e

def readFile (path : String) : IO (Except String String) := do
  try
    return .ok (← IO.FS.readFile path)
  catch e =>
    return .error (reasonOf e)

/-- The variables of the environment that count and are there. -/
def environment : IO (List (String × String)) :=
  CommandLine.variableNames.filterMapM fun name => do
    return (← IO.getEnv name).map fun value => (name, value)

end SchemaAudit

def main (arguments : List String) : IO UInt32 := do
  let values ← SchemaAudit.environment
  let outcome ← SchemaAudit.CommandLine.run SchemaAudit.readFile (values.lookup ·) arguments
  IO.print outcome.output
  IO.eprint outcome.complaint
  return outcome.status
