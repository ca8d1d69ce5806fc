import PushBuild.CommandLine.Outcome

/-!
The program: it reads what the outcome depends on and does what the outcome says.
-/

namespace PushBuild.CommandLine

/-- The variables that the configuration depends on. -/
def variableNames : List String :=
  ["BUILDWRIGHT_CONFIG_DIR", "KUBERNETES_SERVICE_HOST", "XDG_CONFIG_HOME", "HOME"] ++
    Config.overrides.map (·.1)

/-- What is found at a path. -/
def readState (path : String) : IO FileState := do
  try
    return .text (← IO.FS.readFile path)
  catch
    | .noFileOrDirectory .. => return .missing
    | _ => return .directory

/-- Writes a file, and the directories above it that are missing. -/
def save (path text : String) : IO Unit := do
  match (directoriesAbove path).head? with
  | some above => if !above.isEmpty then IO.FS.createDirAll above
  | none => pure ()
  IO.FS.writeFile path text

/-- Writes the file of an outcome; if that fails, the outcome is another. -/
def carryOut (outcome : Outcome) : IO Outcome := do
  match outcome.saved with
  | none => return outcome
  | some (path, text) =>
    try
      save path text
      return outcome
    catch _ => return .failed notSaved

/-- Does what the outcome says. -/
def runProgram (arguments : List String) : IO UInt32 := do
  let values ← variableNames.mapM fun name => return (name, ← IO.getEnv name)
  let env : Environment := fun name => (values.lookup name).join
  let named := match Invocation.ofArguments arguments with
    | .ok invocation => invocation.options.config
    | .error _ => none
  let path := env.resolve named
  let states ← (path :: directoriesAbove path).mapM fun p => return (p, ← readState p)
  let files : Files := fun p => (states.lookup p).getD .missing
  let outcome ← carryOut (perform env files arguments)
  IO.print outcome.output
  IO.eprint outcome.errors
  return UInt32.ofNat outcome.code

end PushBuild.CommandLine

def main (arguments : List String) : IO UInt32 :=
  PushBuild.CommandLine.runProgram arguments
