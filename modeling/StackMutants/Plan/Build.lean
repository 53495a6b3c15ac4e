import StackMutants.Plan.Analyser
import StackMutants.Plan.WorkUnit
import StackMutants.Sequence.Chunks

/-!
# Plan.Build — from classes to units of work

The mutations of each class are cut into groups, the analyser is asked about each group, and each group
becomes one unit: known, fresh, or a bundle of both.  An analyser that fails, or whose answer is not one
outcome for each mutation of the group, is ignored.  Nothing is run here.
-/

namespace StackMutants

/-- The groups of the mutations of a class; size zero stands for one group. -/
def groupsOf (size : Nat) (ms : List Mutation) : List (List Mutation) :=
  if ms.isEmpty then [] else if size = 0 then [ms] else Sequence.chunks size ms

/-- Whether there is exactly one outcome for each mutation, and no mutation occurs twice. -/
def matchesEach (group : List Mutation) (outcomes : List Outcome) : Bool :=
  let expected := Sequence.distinct (group.map (·.key))
  let returned := Sequence.distinct (outcomes.map (·.key))
  outcomes.length == group.length && returned.length == outcomes.length &&
    expected.all (returned.contains ·) && returned.all (expected.contains ·)

/-- The outcomes in the order of the mutations. -/
def alignedWith (group : List Mutation) (outcomes : List Outcome) : List Outcome :=
  group.filterMap fun m => outcomes.find? (·.key == m.key)

/-- What is known of a group, given the answer of an analyser, and what there is to write down. -/
def reviewAnswer (group : List Mutation) :
    Except Fault (List Outcome) → List Outcome × List Journal.Entry
  | .ok outcomes =>
    if matchesEach group outcomes then (alignedWith group outcomes, [])
    else (group.map .notStarted,
      [⟨.warn, s!"Analyser returned {outcomes.length} result(s) that do not match the " ++
        s!"{group.length} mutation(s) given; running them all"⟩])
  | .error fault =>
    (group.map .notStarted,
      [⟨.warn, s!"Analysis failed, running all {group.length} mutation(s): {fault.message}"⟩])

/-- The unit for outcomes, those that are not started being left to run. -/
def unitOf (mutators : List String) (settings : Settings) (outcomes : List Outcome) : WorkUnit :=
  let known : KnownUnit :=
    { mutators, outcomes := outcomes.filter (·.status ≠ .notStarted) }
  let toRun := (outcomes.filter (·.status = .notStarted)).map (·.mutation)
  let fresh : FreshUnit :=
    { mutations := toRun, testClasses := testClassesOf toRun, mutators
      timeout := settings.timeout, verbose := settings.verbose }
  if toRun.isEmpty then .known known
  else if known.outcomes.isEmpty then .fresh fresh
  else .bundle [.known known, .fresh fresh]

/-- The units for groups, and the state of the analyser after the last of them. -/
def unitsOfGroups (a : Analyser) (mutators : List String) (settings : Settings) :
    a.State → List (List Mutation) → Journaled Fault (List WorkUnit × a.State)
  | s, [] => pure ([], s)
  | s, group :: groups => do
    let (answer, s) := a.answer s group
    let (outcomes, entries) := reviewAnswer group answer
    .write entries
    let (units, s) ← unitsOfGroups a mutators settings s groups
    pure (unitOf mutators settings outcomes :: units, s)

/-- The units for classes, one class after the other. -/
def unitsOfClasses (source : ClassName → Journaled Fault (List Mutation)) (a : Analyser)
    (mutators : List String) (settings : Settings) :
    a.State → List ClassName → Journaled Fault (List WorkUnit)
  | _, [] => pure []
  | s, c :: cs => do
    let ms ← source c
    let groups := groupsOf settings.unitSize ms
    .debug (if ms.isEmpty then s!"No mutations found for {c.text}"
      else s!"{ms.length} mutation(s) in {c.text} split into {groups.length} group(s)")
    let (units, s) ← unitsOfGroups a mutators settings s groups
    let rest ← unitsOfClasses source a mutators settings s cs
    pure (units ++ rest)

/-- The units for a batch of classes.  Invalid settings are refused before any class is looked at. -/
def buildUnits (settings : Settings) (source : ClassName → Journaled Fault (List Mutation))
    (a : Analyser) (classes : List ClassName) : Journaled Fault (List WorkUnit) := do
  let mutators ← .ofExcept settings.validate
  unitsOfClasses source a (mutators.map (·.name)) settings a.start classes

end StackMutants
