import StackMutants.Pass.Substitution

/-!
# Pass.Operator — mutation operators in general

An operator creates a visitor for each method that it is run on.  A visitor is a state machine: it is
asked about positions of the stream in order, and answers whether it matches there.  What it remembers
between two questions is its own affair, so laws of passes hold for every visitor.
-/

namespace StackMutants

/-- What a visitor says about a position. -/
inductive Answer where
  | decline
  /-- The position would match, but for the reason given it cannot be mutated. -/
  | abstain (reason : String)
  | propose (substitution : Substitution)
deriving Repr

structure Visitor where
  State : Type
  start : State
  /-- The answer about a position of the stream, and the state for the next question. -/
  visit : State → List Instruction → Nat → Answer × State

/-- A visitor that remembers nothing. -/
def Visitor.stateless (answer : List Instruction → Nat → Answer) : Visitor where
  State := Unit
  start := ()
  visit _ insns i := (answer insns i, ())

structure Operator where
  /-- The name in configurations and reports. -/
  name : String
  /-- The name in identifiers of mutations, different for different operators. -/
  id : String
  visitor : MethodHeader → Visitor

end StackMutants
