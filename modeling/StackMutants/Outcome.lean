import StackMutants.Mutation

/-!
# Outcome — what became of a mutant

A verdict is a status, the number of tests that were run to reach it, and a note: the test that failed,
or a description of what went wrong.  An outcome is a mutation with its verdict.
-/

namespace StackMutants

inductive Status where
  /-- The mutant still has to be run. -/
  | notStarted
  | noCoverage
  | survived
  | killed
  | timedOut
  /-- The mutant could not be loaded. -/
  | nonViable
  | memoryError
  | runError
deriving DecidableEq, Repr, Inhabited

namespace Status

def name : Status → String
  | notStarted => "NOT_STARTED"
  | noCoverage => "NO_COVERAGE"
  | survived => "SURVIVED"
  | killed => "KILLED"
  | timedOut => "TIMED_OUT"
  | nonViable => "NON_VIABLE"
  | memoryError => "MEMORY_ERROR"
  | runError => "RUN_ERROR"

def all : List Status :=
  [notStarted, noCoverage, survived, killed, timedOut, nonViable, memoryError, runError]

def ofName? (s : String) : Option Status := all.find? (·.name == s)

/-- Whether the tests are credited with noticing the mutant. -/
def isDetected : Status → Bool
  | killed | timedOut | nonViable | memoryError | runError => true
  | notStarted | noCoverage | survived => false

/-- Whether no test noticed the mutant, though it is settled. -/
def isUndetected : Status → Bool
  | survived | noCoverage => true
  | _ => false

/-- Whether the environment that led to the status may host another mutant. -/
def leavesUsable : Status → Bool
  | killed | survived => true
  | _ => false

end Status

structure Verdict where
  status : Status
  /-- How many tests were run: no more than the mutant has, so 32 bits hold the count unless a mutant has
  2 ^ 32 tests (`FreshUnit.fits_of_mem_outcomes`). -/
  testsRun : Nat := 0
  /-- The killing test, or a description of an error. -/
  note : Option String := none
deriving DecidableEq, Repr, Inhabited

def Verdict.notStarted : Verdict := { status := .notStarted }

structure Outcome where
  mutation : Mutation
  verdict : Verdict
deriving DecidableEq, Repr, Inhabited

namespace Outcome

def notStarted (m : Mutation) : Outcome := ⟨m, .notStarted⟩

def status (o : Outcome) : Status := o.verdict.status

def key (o : Outcome) : Mutation.Key := o.mutation.key

end Outcome

end StackMutants
