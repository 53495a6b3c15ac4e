import StackMutants.Run.Check
import StackMutants.Plan.WorkUnit
import StackMutants.Journal

/-!
# Run.FreshRun — running the mutants of a fresh unit

The mutants of a unit are checked one after the other.  A mutant without covering tests is settled
without an environment.  A covered one is checked in the environment that the unit holds, or in a new
one if it holds none; after a normal verdict the unit goes on holding the environment, after any other it
holds none.

A run is a list of steps, one for each mutant.  A step says what happened (`Course`), and verdict, events
and journal entries are read off from that.  The events of a check that overran are those of the whole
check: the worker goes on behind the back of the unit, and nothing else uses its environment.
-/

namespace StackMutants

/-- Which of two parties shuts an environment down: the unit, or a worker that nobody waits for. -/
inductive Party where
  | unit
  | worker
deriving DecidableEq, Repr

/-- What happens to an environment, which is named by the number of environments launched before it. -/
inductive Event where
  | launch (env : Nat) (testClasses : List ClassName)
  | call (env : Nat) (call : Call)
  | kill (env : Nat)
  | shutdown (env : Nat) (party : Party)
deriving DecidableEq, Repr

/-- What happened to a mutant. -/
inductive Course (Env : Type) where
  | uncovered
  | unlaunched (fault : Fault)
  /-- A worker was to check the mutant in the environment `env`, which was launched for it or held from
  before.  `killable` says whether the environment has a kill switch. -/
  | checked (env : Nat) (launchedFor : Option (List ClassName)) (killable : Bool) (check : Check Env)

namespace Course

variable {Env : Type}

def verdict : Course Env → Verdict
  | uncovered => { status := .noCoverage }
  | unlaunched fault => { status := .runError, note := some fault.message }
  | checked _ _ _ c =>
    if c.overran then { status := .timedOut }
    else
      match c.ending with
      | .ok (verdict, _) => verdict
      | .error reason => { status := .runError, note := some reason }

/-- The environment that the unit goes on holding, if it held `held` before the mutant. -/
def held (held : Option (Nat × Env)) : Course Env → Option (Nat × Env)
  | uncovered => held
  | unlaunched _ => none
  | checked env _ _ c =>
    if c.overran then none
    else
      match c.ending with
      | .ok (verdict, e) => if verdict.status.leavesUsable then some (env, e) else none
      | .error _ => none

/-- What happens after the calls of a check.  An environment that overran is killed by the unit and shut
down by its worker, if the worker gets that far. -/
def aftermath (env : Nat) (killable : Bool) (c : Check Env) : List Event :=
  match c.overran, c.ending with
  | true, ending =>
    (if killable then [.kill env] else []) ++
      if ending.isOk then [.shutdown env .worker] else []
  | false, .ok (verdict, _) =>
    if verdict.status.leavesUsable then [] else [.shutdown env .unit]
  | false, .error _ => []

def events : Course Env → List Event
  | uncovered | unlaunched _ => []
  | checked env launchedFor killable c =>
    (match launchedFor with
      | some testClasses => [.launch env testClasses]
      | none => []) ++
    c.calls.map (.call env) ++ aftermath env killable c

/-- What is written down about a mutant on the way to its verdict. -/
def entries (m : Mutation) (budgetMs : Nat) : Course Env → List Journal.Entry
  | uncovered => []
  | unlaunched fault =>
    [⟨.warn, s!"Could not launch environment for {m.id.text}: {fault.message}"⟩]
  | checked _ _ _ c =>
    ⟨.debug, s!"Running {m.id.text} with a budget of {budgetMs}ms"⟩ ::
      if c.overran then [⟨.warn, s!"{m.id.text} timed out after {budgetMs}ms"⟩] else []

end Course

/-- How many launches were attempted and how many succeeded. -/
structure Launches where
  attempted : Nat := 0
  succeeded : Nat := 0
deriving DecidableEq, Repr

namespace Sandbox

variable (box : Sandbox)

/-- Checks a mutant in the environment held, or in a new one. -/
def course (testClasses : List ClassName) (launches : Launches)
    (held : Option (Nat × box.Env)) (m : Mutation) : Course box.Env × Launches :=
  if !m.isCovered then (.uncovered, launches)
  else
    match held with
    | some (n, env) => (.checked n none (box.hasKillSwitch env) (box.attend env m), launches)
    | none =>
      let attempted := launches.attempted + 1
      match box.launch launches.attempted testClasses with
      | .error fault => (.unlaunched fault, { launches with attempted })
      | .ok env =>
        (.checked launches.succeeded (some testClasses) (box.hasKillSwitch env) (box.attend env m),
          { attempted, succeeded := launches.succeeded + 1 })

/-- The courses of mutants one after the other, the launches after the last of them, and the environment
that is still held then. -/
def courses (testClasses : List ClassName) :
    Launches → Option (Nat × box.Env) → List Mutation →
      List (Mutation × Course box.Env) × Launches × Option (Nat × box.Env)
  | launches, held, [] => ([], launches, held)
  | launches, held, m :: ms =>
    let (course, launches) := box.course testClasses launches held m
    let (rest, launches, held) := courses testClasses launches (course.held held) ms
    ((m, course) :: rest, launches, held)

end Sandbox

/-- A fresh unit that has been run. -/
structure FreshRun (Env : Type) where
  steps : List (Mutation × Course Env)
  launches : Launches
  /-- The environment that the unit shuts down when its last mutant is done. -/
  heldAtEnd : Option (Nat × Env)

def FreshUnit.run (u : FreshUnit) (box : Sandbox) (launches : Launches) : FreshRun box.Env :=
  let (steps, launches, heldAtEnd) := box.courses u.testClasses launches none u.mutations
  { steps, launches, heldAtEnd }

namespace FreshRun

variable {Env : Type}

def outcomes (r : FreshRun Env) : List Outcome := r.steps.map fun (m, course) => ⟨m, course.verdict⟩

def events (r : FreshRun Env) : List Event :=
  r.steps.flatMap (fun (_, course) => course.events) ++
    match r.heldAtEnd with
    | some (env, _) => [.shutdown env .unit]
    | none => []

/-- What is written down about the mutants of a unit: the way to each verdict, and the verdict. -/
def entries (u : FreshUnit) (r : FreshRun Env) : List Journal.Entry :=
  r.steps.flatMap fun (m, course) =>
    course.entries m (u.timeout.budgetMs m.testingMs) ++
      [⟨if u.verbose then .info else .debug, s!"{course.verdict.status.name} {m.text}"⟩]

end FreshRun

end StackMutants
