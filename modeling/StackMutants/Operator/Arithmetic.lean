import StackMutants.Code.Pattern
import StackMutants.Pass.Operator

/-!
# Operator.Arithmetic — swapping arithmetic operators

Every arithmetic instruction gets another operator on the same type, unless that operator is bitwise
and the type is not integral.
-/

namespace StackMutants

/-- The operator that stands in for an operator. -/
def ArithOp.swapped : ArithOp → ArithOp
  | add => sub
  | sub => add
  | mul => div
  | div => mul
  | rem => mul
  | and => or
  | or => and
  | xor => and
  | shl => shr
  | shr => shl
  | ushr => shl

/-- The operator that stands in for an operator on a type, if the type has it. -/
def ArithOp.swappedOn? (op : ArithOp) (type : NumType) : Option ArithOp :=
  if type.isIntegral || !op.swapped.isBitwise then some op.swapped else none

namespace Operator

def arithmeticAnswer (insns : List Instruction) (i : Nat) : Answer :=
  match insns[i]?.map Instruction.opcode with
  | some (.arith op type) =>
    match op.swappedOn? type with
    | none => .decline
    | some new =>
      .propose <| .single [{ opcode := .arith new type }]
        s!"Replaced {type.phrase} {op.phrase} with {new.phrase}"
  | _ => .decline

def arithmeticVisitor : Visitor := .stateless arithmeticAnswer

end Operator

end StackMutants
