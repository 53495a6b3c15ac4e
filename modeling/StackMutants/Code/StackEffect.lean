import StackMutants.Code.Descriptor

/-!
# Code.StackEffect — what one instruction does to the operand stack

`Instruction.stackEffect` says how many values an instruction pops and pushes.  It is where the shape
of the operand is checked: an instruction whose operand does not fit its opcode has no effect at all.
-/

namespace StackMutants

structure StackEffect where
  pops : Nat
  pushes : Nat
deriving DecidableEq, Repr

/-- The change of the stack depth. -/
def StackEffect.delta (e : StackEffect) : Int := e.pushes - e.pops

/-- A call takes its arguments and the receiver and pushes what it returns. -/
def Descriptor.callEffect (d : Descriptor) (kind : InvokeKind) : StackEffect where
  pops := d.params.length + if kind.takesReceiver then 1 else 0
  pushes := if d.returns.isSome then 1 else 0

namespace Instruction

def stackEffect (i : Instruction) : Except CodeFault StackEffect :=
  match i.opcode, i.operand with
  | .nop, _ => .ok ⟨0, 0⟩
  | .label, .label _ => .ok ⟨0, 0⟩
  | .nullConst, _ => .ok ⟨0, 1⟩
  | .const, .int _ | .const, .text _ => .ok ⟨0, 1⟩
  | .load _, .var _ => .ok ⟨0, 1⟩
  | .store _, .var _ => .ok ⟨1, 0⟩
  | .pop, _ => .ok ⟨1, 0⟩
  | .dup, _ => .ok ⟨1, 2⟩
  | .arith op type, _ =>
    if op.isBitwise && !type.isIntegral then .error (.instruction i.opcode .bitwiseOnFloat)
    else .ok ⟨2, 1⟩
  | .neg _, _ => .ok ⟨1, 1⟩
  | .ifZero _, .label _ | .ifNull, .label _ | .ifNonNull, .label _ => .ok ⟨1, 0⟩
  | .ifCmp _, .label _ => .ok ⟨2, 0⟩
  | .goto, .label _ => .ok ⟨0, 0⟩
  | .new, .type _ => .ok ⟨0, 1⟩
  | .getField, .field _ => .ok ⟨1, 1⟩
  | .putField, .field _ => .ok ⟨2, 0⟩
  | .getStatic, .field _ => .ok ⟨0, 1⟩
  | .putStatic, .field _ => .ok ⟨1, 0⟩
  | .invoke kind, .method r => (Descriptor.parse r.descriptor).map (·.callEffect kind)
  | .ret (some _), _ => .ok ⟨1, 0⟩
  | .ret none, _ => .ok ⟨0, 0⟩
  | .throw, _ => .ok ⟨1, 0⟩
  | opcode, operand => .error (.instruction opcode (.unexpectedOperand operand))

end Instruction

end StackMutants
