import StackMutants.Datum.Code
import StackMutants.Outcome

/-!
# Datum.Outcome — reading mutations and what became of them
-/

namespace StackMutants

open Datum

variable {m : Type → Type} {ν : Type} [Monad m] [MonadExcept Unit m] [Datum m ν]

def CoveringTest.read? (v : ν) : m CoveringTest := do
  match ← fields? ["name", "defining_class", "time_ms"] v with
  | [name, definingClass, timeMs] =>
    pure {
      name := ← needed? text? name
      definingClass := ← needed? ClassName.read? definingClass
      timeMs := ← field? 0 word64? timeMs }
  | _ => refuse

def MutationId.read? (v : ν) : m MutationId := do
  match ← fields? ["class", "method", "descriptor", "operator", "index"] v with
  | [owner, method, descriptor, operator, index] =>
    pure {
      owner := ← needed? ClassName.read? owner
      method := ← needed? text? method
      descriptor := ← needed? text? descriptor
      operator := ← needed? text? operator
      index := ← needed? (natBelow? UInt64.size) index }
  | _ => refuse

def Mutation.read? (v : ν) : m Mutation := do
  match ← fields? ["id", "line", "description", "tests_in_order"] v with
  | [id, line, description, tests] =>
    pure {
      id := ← needed? MutationId.read? id
      line := ← needed? word32? line
      description := ← needed? text? description
      tests := ← field? [] (list? CoveringTest.read?) tests }
  | _ => refuse

def Status.read? (v : ν) : m Status := named? Status.ofName? v

/-- Reads a text, or that there is none. -/
def optionalText? (v : ν) : m (Option String) := do
  match ← optional? v with
  | none => pure none
  | some v => pure (some (← text? v))

def Verdict.read? (v : ν) : m Verdict := do
  match ← fields? ["tests_run", "status", "killing_test"] v with
  | [testsRun, status, note] =>
    pure {
      testsRun := ← needed? (natBelow? UInt32.size) testsRun
      status := ← needed? Status.read? status
      note := ← field? none optionalText? note }
  | _ => refuse

def Outcome.read? (v : ν) : m Outcome := do
  match ← fields? ["details", "status_test_pair"] v with
  | [mutation, verdict] =>
    pure {
      mutation := ← needed? Mutation.read? mutation
      verdict := ← needed? Verdict.read? verdict }
  | _ => refuse

end StackMutants
