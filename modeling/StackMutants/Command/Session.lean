import StackMutants.Files.Basic
import StackMutants.Text.Painted

/-!
# Command.Session — what a command prints while it works

A command works in a session: it asks the file system, prints, makes journal entries, and may end early
with a failure.  What was printed before a failure stays printed.  `Session.finish` turns the end of a
session into what the caller of the program sees.
-/

namespace StackMutants

/-- A fault, perhaps with what was being done. -/
structure Failure where
  activity : Option String := none
  fault : Fault

def Failure.message (f : Failure) : String :=
  match f.activity with
  | some activity => s!"{activity}: {f.fault.message}"
  | none => f.fault.message

/-- What a session has left behind so far. -/
structure Trail where
  output : String := ""
  entries : List Journal.Entry := []

abbrev Session (m : Type → Type) (α : Type) := ExceptT Failure (StateT Trail m) α

/-- What a finished command hands over. -/
structure Finish where
  exitCode : Nat
  output : String
  errors : String
  entries : List Journal.Entry

namespace Session

variable {m : Type → Type} [Monad m] {α : Type}

/-- Prints lines. -/
def print (lines : List String) : Session m Unit :=
  modify fun t => { t with output := t.output ++ String.join (lines.map (· ++ "\n")) }

/-- Prints a text as it stands. -/
def printText (text : String) : Session m Unit :=
  modify fun t => { t with output := t.output ++ text }

def fail (fault : Fault) : Session m α := throw { fault }

/-- The value of a computation, or its fault as a failure. -/
def ofExcept : Except Fault α → Session m α
  | .ok a => pure a
  | .error fault => fail fault

/-- Takes over the entries and the end of a journaled computation. -/
def ofJournaled (x : Journaled Fault α) : Session m α := do
  modify fun t => { t with entries := t.entries ++ x.entries }
  ofExcept x.outcome

/-- Asks the file system. -/
def ask (x : m α) : Session m α := ExceptT.lift (StateT.lift x)

/-- Says in the message of a failure what was being done. -/
def during (activity : String) (x : Session m α) : Session m α :=
  tryCatch x fun failure => throw { failure with activity := some activity }

/-- The exit code of a failure: a method without a fresh label is beyond what the program can handle. -/
def failureCode (failure : Failure) : Nat :=
  match failure.fault with
  | .labelsExhausted => 101
  | _ => 1

/-- Runs a session that ends in an exit code. -/
def finish (terminal : Terminal) (x : Session m Nat) : m Finish := do
  let (ending, trail) ← x.run.run {}
  let (exitCode, errors) := match ending with
    | .ok exitCode => (exitCode, "")
    | .error failure =>
      (failureCode failure, terminal.paint Paint.red.strong "Error" ++ s!": {failure.message}\n")
  pure { exitCode, output := trail.output, errors, entries := trail.entries }

end Session

end StackMutants
