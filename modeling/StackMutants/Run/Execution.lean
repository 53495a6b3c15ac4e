import StackMutants.Run.FreshRun

/-!
# Run.Execution — executing units of work

Executing a unit announces the start and the end of each of its parts; the end comes with the outcomes.
Known parts repeat their outcomes, fresh parts run their mutants, and the parts of a bundle are executed
in order.
-/

namespace StackMutants

/-- What is reported when a part of a unit ends. -/
structure UnitReport where
  mutators : List String
  outcomes : List Outcome
deriving DecidableEq, Repr

inductive Notice where
  | started (label : UnitLabel)
  | finished (label : UnitLabel) (report : UnitReport)
deriving DecidableEq, Repr

/-- What the execution of units leaves behind. -/
structure Execution where
  notices : List Notice := []
  events : List Event := []
  entries : List Journal.Entry := []
  launches : Launches := {}

namespace Execution

def started (e : Execution) : List UnitLabel :=
  e.notices.filterMap fun
    | .started label => some label
    | .finished _ _ => none

def finished (e : Execution) : List (UnitLabel × UnitReport) :=
  e.notices.filterMap fun
    | .started _ => none
    | .finished label report => some (label, report)

/-- Every outcome reported, in order. -/
def outcomes (e : Execution) : List Outcome := e.finished.flatMap (·.2.outcomes)

/-- Adds a part of a unit. -/
def addPart (e : Execution) (label : UnitLabel) (report : UnitReport) (events : List Event)
    (entries : List Journal.Entry) (launches : Launches) : Execution where
  notices := e.notices ++ [.started label, .finished label report]
  events := e.events ++ events
  entries := e.entries ++ entries
  launches := launches

theorem outcomes_addPart (e : Execution) (label : UnitLabel) (report : UnitReport)
    (events : List Event) (entries : List Journal.Entry) (launches : Launches) :
    (e.addPart label report events entries launches).outcomes = e.outcomes ++ report.outcomes := by
  simp [addPart, outcomes, finished]

def addKnown (e : Execution) (u : KnownUnit) : Execution :=
  e.addPart u.label ⟨u.mutators, u.outcomes⟩ [] [] e.launches

def addFresh (e : Execution) (box : Sandbox) (u : FreshUnit) : Execution :=
  let r := u.run box e.launches
  e.addPart u.label ⟨u.mutators, r.outcomes⟩ r.events (r.entries u) r.launches

mutual

/-- Executes a unit after what was executed before. -/
def addUnit (box : Sandbox) (e : Execution) : WorkUnit → Execution
  | .known u => e.addKnown u
  | .fresh u => e.addFresh box u
  | .bundle us => addUnits box e us

def addUnits (box : Sandbox) (e : Execution) : List WorkUnit → Execution
  | [] => e
  | u :: us => addUnits box (addUnit box e u) us

end

end Execution

/-- Executes units in order. -/
def execute (box : Sandbox) (units : List WorkUnit) : Execution := Execution.addUnits box {} units

/-- A plan with nothing run: the known parts of the units are executed and the fresh parts set aside. -/
structure Replay where
  execution : Execution := {}
  awaiting : List FreshUnit := []

mutual

def Replay.addUnit (r : Replay) : WorkUnit → Replay
  | .known u => { r with execution := r.execution.addKnown u }
  | .fresh u => { r with awaiting := r.awaiting ++ [u] }
  | .bundle us => r.addUnits us

def Replay.addUnits (r : Replay) : List WorkUnit → Replay
  | [] => r
  | u :: us => (r.addUnit u).addUnits us

end

def replayKnown (units : List WorkUnit) : Replay := ({} : Replay).addUnits units

end StackMutants
