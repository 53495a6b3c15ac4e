import StackMutants.Command.Run
import StackMutants.Files.Directory

/-!
# Main — the program

The arguments say what to do.  The exit code is the one of the command, or 2 if the arguments are
refused.
-/

namespace StackMutants.Main

/-- The words of the operating system for an error. -/
def reason : IO.Error → String
  | .noFileOrDirectory _ _ _ => Directory.missing
  | .inappropriateType _ 21 _ => Directory.isADirectory
  | .inappropriateType _ _ _ => Directory.notADirectory
  | .permissionDenied _ _ _ => "Permission denied (os error 13)"
  | e => e.toString

/-- The files on the disk. -/
def disk : Files IO where
  read path := do pure ((← (IO.FS.readBinFile path).toBaseIO).mapError reason)
  write path text := do pure ((← (IO.FS.writeFile path text).toBaseIO).mapError reason)

/-- Colours are shown if they are forced, or if a person is watching and has not switched them off. -/
def terminal : BaseIO Terminal := do
  let forced := (← IO.getEnv "CLICOLOR_FORCE").any (· != "0")
  let refused := (← IO.getEnv "NO_COLOR").isSome || (← IO.getEnv "CLICOLOR") == some "0"
  pure (if forced || (!refused && (← (← IO.getStdout).isTty)) then .colored else .plain)

def usage : String :=
  "Usage: bytecode-mutation-testing [-v] <COMMAND> [OPTIONS]\n\n" ++
  "Commands:\n" ++
  "  mutants   List the mutation points of a program [-p FILE] [-c FILE]\n" ++
  "  plan      Build execution units and replay results already known\n" ++
  "            [-p FILE] [-c FILE] [--history FILE] [--write-history FILE]\n" ++
  "  validate  Validate the configuration without building anything [-c FILE]\n" ++
  "  example   Show an example program file"

def runCommand (verbose : Bool) (command : Command) : IO UInt32 := do
  let finish ← command.run disk (← terminal)
  let level : Journal.Level := if verbose then .debug else .info
  for line in Journal.lines level finish.entries do IO.eprintln line
  IO.print finish.output
  IO.eprint finish.errors
  pure (UInt32.ofNat finish.exitCode)

end StackMutants.Main

open StackMutants in
def main (args : List String) : IO UInt32 := do
  match Arguments.read? args with
  | some (.run verbose command) => Main.runCommand verbose command
  | some .help => do
    IO.println Main.usage
    pure 0
  | some .version => do
    IO.println versionLine
    pure 0
  | none => do
    IO.eprintln Main.usage
    pure 2
