import StackMutants.Outcome
import StackMutants.Plan.Settings

/-!
# Plan.WorkUnit — units of work

A unit either repeats outcomes that are known, or has mutants to run, or is a bundle of units.  A fresh
unit carries everything that running it needs: the mutations, the classes whose tests cover them, and
the time that each may take.
-/

namespace StackMutants

/-- What notifications call a unit. -/
structure UnitLabel where
  name : String
  owner : Option ClassName
deriving DecidableEq, Repr

def UnitLabel.text (l : UnitLabel) : String :=
  match l.owner with
  | some owner => s!"{l.name} ({owner.text})"
  | none => l.name

structure KnownUnit where
  mutators : List String
  outcomes : List Outcome
deriving DecidableEq, Repr

def KnownUnit.label (u : KnownUnit) : UnitLabel :=
  ⟨"known status mutation test", u.outcomes.head?.map (·.mutation.id.owner)⟩

structure FreshUnit where
  mutations : List Mutation
  /-- The classes that define the tests, in ascending order and without repetitions. -/
  testClasses : List ClassName
  mutators : List String
  timeout : Timeout
  verbose : Bool
deriving DecidableEq, Repr

def FreshUnit.label (u : FreshUnit) : UnitLabel :=
  ⟨"mutation test", u.mutations.head?.map (·.id.owner)⟩

/-- Class names in ascending order, each once. -/
def sortedClasses (names : List ClassName) : List ClassName :=
  Sequence.sortStable (fun a b => a.text < b.text) (Sequence.distinct names)

/-- The classes that define tests which cover any of the mutations. -/
def testClassesOf (ms : List Mutation) : List ClassName :=
  sortedClasses (ms.flatMap fun m => m.tests.map (·.definingClass))

inductive WorkUnit where
  | known (unit : KnownUnit)
  | fresh (unit : FreshUnit)
  | bundle (units : List WorkUnit)

namespace WorkUnit

mutual

/-- The identifiers of the mutations of a unit, in order. -/
def ids : WorkUnit → List MutationId
  | known u => u.outcomes.map (·.mutation.id)
  | fresh u => u.mutations.map (·.id)
  | bundle us => idsOfAll us

def idsOfAll : List WorkUnit → List MutationId
  | [] => []
  | u :: us => u.ids ++ idsOfAll us

end

mutual

/-- The number of mutations of a unit. -/
def count : WorkUnit → Nat
  | known u => u.outcomes.length
  | fresh u => u.mutations.length
  | bundle us => countOfAll us

def countOfAll : List WorkUnit → Nat
  | [] => 0
  | u :: us => u.count + countOfAll us

end

mutual

/-- The units that repeat known outcomes, in order. -/
def knownParts : WorkUnit → List KnownUnit
  | known u => [u]
  | fresh _ => []
  | bundle us => knownPartsOfAll us

def knownPartsOfAll : List WorkUnit → List KnownUnit
  | [] => []
  | u :: us => u.knownParts ++ knownPartsOfAll us

end

mutual

/-- The units that have mutants to run, in order. -/
def freshParts : WorkUnit → List FreshUnit
  | known _ => []
  | fresh u => [u]
  | bundle us => freshPartsOfAll us

def freshPartsOfAll : List WorkUnit → List FreshUnit
  | [] => []
  | u :: us => u.freshParts ++ freshPartsOfAll us

end

end WorkUnit

end StackMutants
