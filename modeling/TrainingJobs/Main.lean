import TrainingJobs.CommandLine.Run
import TrainingJobs.World

/-!
# The program

Reads its arguments, its environment and the file with its settings, and carries out the command line. It has no way to
reach a cluster: what needs one ends with that.
-/

namespace TrainingJobs

/-- The variables that the program looks at. -/
def knownVariables : List String :=
  [Settings.fileVariable, Settings.homeVariable, Settings.metricsVariable, Settings.projectVariable, userVariable]

/-- Those variables with their values. -/
def readEnvironment : IO Environment := do
  let entries ← knownVariables.filterMapM fun name => do return (← IO.getEnv name).map (name, ·)
  return .ofList entries

/-- Reads a file. -/
def readFile (path : String) : IO (Except FileError String) := do
  try return .ok (← IO.FS.readFile path)
  catch
    | .noFileOrDirectory _ _ _ => return .error .absent
    | e => return .error (.other (toString e))

/-- The exit code of a program that crashed. -/
def crashCode : UInt32 := 101

/-- Carries out a command line, and gives the exit code. -/
def carryOut (line : CommandLine) : IO UInt32 := do
  let env ← readEnvironment
  let file ← match Settings.path? line.settings env with
    | some path => readFile path
    | none => pure (.error .absent)
  let (result, world) := (line.run env (fun _ => file) false).run { reachable := false }
  IO.print world.output
  for (_, text) in world.log do IO.eprintln text
  match result with
  | .ok () => return 0
  | .error failure =>
    if failure.isCrash then
      IO.eprintln failure.text
      return crashCode
    else
      IO.eprintln ("Error: " ++ failure.text)
      return 1

end TrainingJobs

/-- The entry of the program. -/
def main (arguments : List String) : IO UInt32 := do
  match TrainingJobs.CommandLine.read arguments with
  | .ok line => TrainingJobs.carryOut line
  | .error e =>
    IO.eprintln e.message
    return e.exitCode
