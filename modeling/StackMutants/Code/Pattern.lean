import StackMutants.Code.Method

/-!
# Code.Pattern — the shapes of instructions that operators look for

Each pattern is a predicate on one instruction, or a function that also returns what was matched.
-/

namespace StackMutants.Instruction

/-- A call to an instance constructor, whatever class owns it. -/
def callsConstructor (i : Instruction) : Bool :=
  i.opcode == .invoke .special && i.method?.any (·.name == constructorName)

def isArith (i : Instruction) : Bool :=
  match i.opcode with
  | .arith _ _ => true
  | _ => false

/-- The comparison of an integer jump, against zero or against another integer. -/
def comparison? (i : Instruction) : Option CmpOp :=
  match i.opcode with
  | .ifZero c | .ifCmp c => some c
  | _ => none

def comparesOrder (i : Instruction) : Bool := i.comparison?.any (·.isOrdering)

/-- A jump that may also fall through. -/
def isConditionalJump (i : Instruction) : Bool :=
  match i.opcode with
  | .ifZero _ | .ifCmp _ | .ifNull | .ifNonNull => true
  | _ => false

/-- The kind of value that a return hands over; none for a void return. -/
def returned? (i : Instruction) : Option ValueKind :=
  match i.opcode with
  | .ret kind => kind
  | _ => none

/-- A load of an object reference from a local variable. -/
def loadsObject (i : Instruction) : Bool := i.opcode == .load .ref

/-- An instruction that dereferences the reference on top of the stack and nothing below it: a field
read, or a call on an object that takes no arguments. -/
def isDereference (i : Instruction) : Bool :=
  match i.opcode with
  | .getField => true
  | .invoke .virtual | .invoke .interface =>
    match i.method? with
    | none => false
    | some r =>
      match Descriptor.parse r.descriptor with
      | .ok d => d.params.isEmpty
      | .error _ => false
  | _ => false

end StackMutants.Instruction
