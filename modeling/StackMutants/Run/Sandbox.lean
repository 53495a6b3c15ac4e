import StackMutants.Mutation
import StackMutants.Fault

/-!
# Run.Sandbox — the environments that mutants are run in

A sandbox launches environments, each with a set of test classes, and an environment loads a mutant and
runs tests against it.  An environment is a state machine, so its answers may depend on everything it was
asked before.  A worker calls it, if one can be started.  A call is answered or kills the worker that made
it, and either may happen in time or only when the budget of the check has run out.
-/

namespace StackMutants

/-- What running one test came to. -/
inductive TestResult where
  | passed
  | failed (failure : String)
  | outOfMemory
  /-- The environment crashed. -/
  | crashed (reason : String)
deriving DecidableEq, Repr

/-- How a call of an environment ends. -/
structure Reply (α : Type) where
  /-- What comes back from the call; nothing if the worker dies. -/
  answer? : Option α
  /-- Whether the call ends when nobody waits for its end any longer. -/
  overran : Bool
deriving DecidableEq, Repr

namespace Reply

variable {α : Type}

def prompt (answer : α) : Reply α := ⟨some answer, false⟩

def late (answer : α) : Reply α := ⟨some answer, true⟩

/-- The worker dies in time. -/
def fatal : Reply α := ⟨none, false⟩

end Reply

structure Sandbox where
  Env : Type
  /-- The environment of a launch attempt, counted from zero. -/
  launch : Nat → List ClassName → Except Fault Env
  /-- Starts the worker that is to check a mutant in the environment, or says why it cannot be started. -/
  spawn : Env → MutationId → Except String Unit := fun _ _ => .ok ()
  /-- Loads the mutated class. -/
  load : Env → MutationId → Reply (Except Fault Unit) × Env
  /-- Runs a test against the mutant that was loaded last. -/
  runTest : Env → CoveringTest → Reply TestResult × Env
  /-- Whether an environment can be stopped from outside. -/
  hasKillSwitch : Env → Bool

end StackMutants
