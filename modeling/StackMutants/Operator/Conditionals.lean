import StackMutants.Code.Pattern
import StackMutants.Pass.Operator

/-!
# Operator.Conditionals — changing conditional jumps

One operator moves the boundary of ordering comparisons, the other inverts every conditional jump.
Both change the comparison alone and keep the target, and both are involutions on comparisons.
-/

namespace StackMutants

/-- The ordering with the boundary moved by one. -/
def CmpOp.shifted? : CmpOp → Option CmpOp
  | lt => some le
  | le => some lt
  | gt => some ge
  | ge => some gt
  | eq | ne => none

/-- The comparison that holds exactly where this one does not. -/
def CmpOp.negated : CmpOp → CmpOp
  | eq => ne
  | ne => eq
  | lt => ge
  | ge => lt
  | gt => le
  | le => gt

theorem CmpOp.shifted?_shifted? {c d : CmpOp} (h : c.shifted? = some d) : d.shifted? = some c := by
  cases c <;> cases h <;> rfl

@[simp] theorem CmpOp.negated_negated (c : CmpOp) : c.negated.negated = c := by cases c <;> rfl

/-- The opcode of the jump with its boundary moved. -/
def Opcode.shifted? : Opcode → Option Opcode
  | ifZero c => c.shifted?.map ifZero
  | ifCmp c => c.shifted?.map ifCmp
  | _ => none

/-- The opcode of the inverse jump. -/
def Opcode.negated? : Opcode → Option Opcode
  | ifZero c => some (ifZero c.negated)
  | ifCmp c => some (ifCmp c.negated)
  | ifNull => some ifNonNull
  | ifNonNull => some ifNull
  | _ => none

namespace Operator

/-- Proposes another opcode for the instruction, with the same operand. -/
def opcodeAnswer (change : Opcode → Option Opcode) (description : String)
    (insns : List Instruction) (i : Nat) : Answer :=
  match insns[i]? with
  | none => .decline
  | some insn =>
    match change insn.opcode with
    | none => .decline
    | some opcode => .propose <| .single [{ opcode, operand := insn.operand }] description

def boundaryVisitor : Visitor :=
  .stateless (opcodeAnswer (·.shifted?) "changed conditional boundary")

def negationVisitor : Visitor := .stateless (opcodeAnswer (·.negated?) "negated conditional")

end Operator

end StackMutants
