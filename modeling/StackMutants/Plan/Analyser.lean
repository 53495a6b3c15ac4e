import StackMutants.Outcome
import StackMutants.Fault
import StackMutants.Sequence.Distinct

/-!
# Plan.Analyser — what is known about mutations without running them

An analyser is asked about groups of mutations, one after the other, and answers with an outcome for
each, or fails.  A recall is an analyser that knows stored outcomes: it repeats the last verdict stored
for the same identifier and line, except that a verdict of no coverage lapses once there are covering
tests.
-/

namespace StackMutants

structure Analyser where
  State : Type
  start : State
  /-- The answer about a group, and the state for the next question. -/
  answer : State → List Mutation → Except Fault (List Outcome) × State

/-- An analyser whose answers do not depend on what it was asked before. -/
def Analyser.steady (answer : List Mutation → Except Fault (List Outcome)) : Analyser where
  State := Unit
  start := ()
  answer _ group := (answer group, ())

/-- Knows nothing. -/
def Analyser.unknowing : Analyser := .steady fun group => .ok (group.map .notStarted)

/-- Stored outcomes, oldest first. -/
structure Recall where
  outcomes : List Outcome

namespace Recall

/-- An outcome that was not started is no knowledge. -/
def ofOutcomes (outcomes : List Outcome) : Recall := ⟨outcomes.filter (·.status ≠ .notStarted)⟩

/-- The last verdict stored for a mutation. -/
def verdict? (r : Recall) (key : Mutation.Key) : Option Verdict :=
  (r.outcomes.reverse.find? (·.key = key)).map (·.verdict)

/-- The number of mutations of which there is a verdict. -/
def size (r : Recall) : Nat := (Sequence.distinct (r.outcomes.map (·.key))).length

/-- The stored verdict, unless it has lapsed. -/
def current? (r : Recall) (m : Mutation) : Option Verdict :=
  (r.verdict? m.key).filter fun v => !(v.status = .noCoverage && m.isCovered)

def outcome (r : Recall) (m : Mutation) : Outcome := ⟨m, (r.current? m).getD .notStarted⟩

def analyser (r : Recall) : Analyser := .steady fun group => .ok (group.map r.outcome)

end Recall

end StackMutants
