import StackMutants.Mutation
import StackMutants.Code.Method
import StackMutants.Sequence.StableSort

/-!
# Pass.Register — the mutation points found in a class

A register lives for one run over a class.  It numbers the points of each operator in each method in
the order they are entered, and keeps the points of the method that is being visited in the order of
their position; points at the same position stay in the order they are entered.  A register may have a
target: the one mutation that is to be applied.
-/

namespace StackMutants

structure Register where
  owner : ClassName
  target : Option MutationId
  /-- The points of the methods that are done. -/
  found : List Mutation
  /-- The points of the method being visited, with their positions, in ascending order. -/
  pending : List (Nat × Mutation)
  /-- Whether the target has been met. -/
  applied : Bool
deriving DecidableEq, Repr

namespace Register

/-- A register for a run that only looks for points. -/
def blank (owner : ClassName) : Register :=
  { owner, target := none, found := [], pending := [], applied := false }

/-- A register for a run that applies one mutation. -/
def seeking (target : MutationId) : Register :=
  { blank target.owner with target := some target }

/-- Every point entered so far. -/
def entered (r : Register) : List Mutation := r.found ++ r.pending.map (·.2)

/-- Whether a point was found by the operator in a method of the name and descriptor. -/
def isOf (name descriptor operator : String) (m : Mutation) : Bool :=
  m.id.method == name && m.id.descriptor == descriptor && m.id.operator == operator

/-- The number of points that the operator has in the method. -/
def count (r : Register) (name descriptor operator : String) : Nat :=
  r.entered.countP (isOf name descriptor operator)

/-- Puts an entry behind all entries whose position is not greater. -/
def insertByPosition : Nat × Mutation → List (Nat × Mutation) → List (Nat × Mutation) :=
  Sequence.insertStable fun x y => x.1 < y.1

/-- Enters a point and returns its identifier. -/
def enter (r : Register) (name descriptor operator : String) (position : Nat) (line : UInt32)
    (description : String) : MutationId × Register :=
  let id : MutationId :=
    { owner := r.owner, method := name, descriptor, operator
      index := r.count name descriptor operator }
  (id, { r with pending := insertByPosition (position, { id, line, description }) r.pending })

/-- Whether the mutation is the target; if it is, the target has been met. -/
def meets (r : Register) (id : MutationId) : Bool × Register :=
  if r.target = some id then (true, { r with applied := true }) else (false, r)

/-- Ends a method. -/
def closeMethod (r : Register) : Register := { r with found := r.entered, pending := [] }

/-- All points, when the run is over. -/
def mutations (r : Register) : List Mutation := r.closeMethod.found

end Register

end StackMutants
