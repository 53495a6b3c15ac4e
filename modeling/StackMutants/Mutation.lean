import StackMutants.Code.Instruction

/-!
# Mutation — mutation points and their identity

A mutation point is found by one operator in one method of one class, and `index` counts the points
that the operator finds in that method; so an identifier outlives runs over unchanged code.  Two points
count as the same mutation if identifier and line agree (`Mutation.key`), whatever their description and
covering tests are.
-/

namespace StackMutants

/-- A test that covers a line, with the time it takes when nothing is mutated. -/
structure CoveringTest where
  name : String
  definingClass : ClassName
  timeMs : UInt64 := 0
deriving DecidableEq, Repr, Inhabited

structure MutationId where
  owner : ClassName
  method : String
  descriptor : String
  operator : String
  index : Nat
deriving DecidableEq, Repr, Inhabited

namespace MutationId

def text (id : MutationId) : String :=
  s!"{id.owner.text}::{id.method}{id.descriptor} [{id.operator} #{id.index}]"

/-- Identifiers are ordered by class, method, descriptor, operator and index, texts by code point. -/
def order (a b : MutationId) : Ordering :=
  (compare a.owner.text b.owner.text).then <| (compare a.method b.method).then <|
    (compare a.descriptor b.descriptor).then <| (compare a.operator b.operator).then <|
      compare a.index b.index

end MutationId

structure Mutation where
  id : MutationId
  line : UInt32
  description : String
  /-- The tests that cover the line, cheapest first. -/
  tests : List CoveringTest := []
deriving DecidableEq, Repr, Inhabited

namespace Mutation

/-- What makes two points the same mutation. -/
abbrev Key := MutationId × UInt32

def key (m : Mutation) : Key := (m.id, m.line)

def isCovered (m : Mutation) : Bool := !m.tests.isEmpty

/-- The greatest number of milliseconds that is told apart. -/
def maxMs : Nat := UInt64.size - 1

/-- The time of all covering tests together, at most `maxMs`. -/
def testingMs (m : Mutation) : Nat := m.tests.foldl (fun ms t => min (ms + t.timeMs.toNat) maxMs) 0

def text (m : Mutation) : String := s!"{m.id.text} (line {m.line}): {m.description}"

end Mutation

end StackMutants
