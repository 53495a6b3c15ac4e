import StackMutants.Run.Sandbox
import StackMutants.Outcome

/-!
# Run.Check — checking one mutant in one environment

A check loads the mutant and runs its tests in order until one of them is decisive.  It is written as
what the worker does from beginning to end; that some call ended late only means that nobody saw the end.
A worker that cannot be started makes no call (`Sandbox.attend`).
-/

namespace StackMutants

/-- A call that a check makes of its environment. -/
inductive Call where
  | load (id : MutationId)
  | test (test : CoveringTest)
deriving DecidableEq, Repr

/-- A check from beginning to end. -/
structure Check (Env : Type) where
  /-- The calls that were made, in order. -/
  calls : List Call
  /-- Whether one of them outlived the budget. -/
  overran : Bool
  /-- The verdict and the environment, or what is known about a worker that is lost with its environment. -/
  ending : Except String (Verdict × Env)

namespace Check

variable {Env : Type}

/-- The same check with a call in front of it. -/
def after (call : Call) (overran : Bool) (c : Check Env) : Check Env :=
  { c with calls := call :: c.calls, overran := overran || c.overran }

end Check

/-- What is known about a worker that has died. -/
def workerDied : String := "environment worker terminated unexpectedly"

/-- The verdict that a result leads to, if it is decisive. -/
def TestResult.verdict? (test : CoveringTest) (testsRun : Nat) : TestResult → Option Verdict
  | passed => none
  | failed _ => some { status := .killed, testsRun, note := some test.name }
  | outOfMemory => some { status := .memoryError, testsRun }
  | crashed reason => some { status := .runError, testsRun, note := some reason }

namespace Sandbox

variable (box : Sandbox)

/-- Runs tests until one is decisive.  `testsRun` tests have been run before. -/
def runTests (env : box.Env) (testsRun : Nat) : List CoveringTest → Check box.Env
  | [] => ⟨[], false, .ok ({ status := .survived, testsRun }, env)⟩
  | t :: ts =>
    let (reply, env) := box.runTest env t
    match reply.answer? with
    | none => ⟨[.test t], reply.overran, .error workerDied⟩
    | some result =>
      match result.verdict? t (testsRun + 1) with
      | some verdict => ⟨[.test t], reply.overran, .ok (verdict, env)⟩
      | none => (runTests env (testsRun + 1) ts).after (.test t) reply.overran

/-- Loads the mutant and, if that succeeds, runs its tests. -/
def check (env : box.Env) (m : Mutation) : Check box.Env :=
  let (reply, env) := box.load env m.id
  match reply.answer? with
  | none => ⟨[.load m.id], reply.overran, .error workerDied⟩
  | some (.error fault) =>
    ⟨[.load m.id], reply.overran, .ok ({ status := .nonViable, note := some fault.message }, env)⟩
  | some (.ok ()) => (box.runTests env 0 m.tests).after (.load m.id) reply.overran

/-- Has a worker check a mutant.  If none can be started, the environment is lost like that of a worker that
dies, and nothing has been asked of it. -/
def attend (env : box.Env) (m : Mutation) : Check box.Env :=
  match box.spawn env m.id with
  | .ok () => box.check env m
  | .error reason => ⟨[], false, .error reason⟩

variable {box} {env : box.Env} {m : Mutation}

theorem runTests_cons (env : box.Env) (testsRun : Nat) (t : CoveringTest) (ts : List CoveringTest) :
    box.runTests env testsRun (t :: ts) =
      match (box.runTest env t).1.answer? with
      | none => ⟨[.test t], (box.runTest env t).1.overran, .error workerDied⟩
      | some result =>
        match result.verdict? t (testsRun + 1) with
        | some verdict => ⟨[.test t], (box.runTest env t).1.overran, .ok (verdict, (box.runTest env t).2)⟩
        | none =>
          (box.runTests (box.runTest env t).2 (testsRun + 1) ts).after (.test t)
            (box.runTest env t).1.overran := rfl

theorem check_eq (env : box.Env) (m : Mutation) :
    box.check env m =
      match (box.load env m.id).1.answer? with
      | none => ⟨[.load m.id], (box.load env m.id).1.overran, .error workerDied⟩
      | some (.error fault) => ⟨[.load m.id], (box.load env m.id).1.overran,
          .ok ({ status := .nonViable, note := some fault.message }, (box.load env m.id).2)⟩
      | some (.ok ()) => (box.runTests (box.load env m.id).2 0 m.tests).after (.load m.id)
          (box.load env m.id).1.overran := rfl

theorem attend_of_started (h : box.spawn env m.id = .ok ()) : box.attend env m = box.check env m := by
  unfold attend
  rw [h]

theorem attend_of_unstarted {reason : String} (h : box.spawn env m.id = .error reason) :
    box.attend env m = ⟨[], false, .error reason⟩ := by
  unfold attend
  rw [h]

/-- What holds of a check by a worker and of one that has no worker holds of what the unit sees. -/
theorem attend_cases {P : Check box.Env → Prop} (started : P (box.check env m))
    (unstarted : ∀ reason, P ⟨[], false, .error reason⟩) : P (box.attend env m) := by
  cases hspawn : box.spawn env m.id with
  | ok _ => exact attend_of_started hspawn ▸ started
  | error reason => exact attend_of_unstarted hspawn ▸ unstarted reason

end Sandbox

end StackMutants
