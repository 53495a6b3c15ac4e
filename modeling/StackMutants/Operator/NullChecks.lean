import StackMutants.Code.Pattern
import StackMutants.Pass.Operator

/-!
# Operator.NullChecks — returning early instead of failing on null

A reference that is loaded from a local variable and dereferenced by the next instruction gets a null
check between the two.  Where it is null, the method returns a default value.
-/

namespace StackMutants.Operator

/-- Returns the default value of a kind: null, zero or nothing. -/
def returnOfDefault : Option ValueKind → List Instruction
  | none => [{ opcode := .ret none }]
  | some .ref => [{ opcode := .nullConst }, { opcode := .ret (some .ref) }]
  | some kind => [{ opcode := .const, operand := .int 0 }, { opcode := .ret (some kind) }]

/-- The load, followed by an early return unless it loaded an object. -/
def checkedLoad (label : UInt32) (returns : Option ValueKind) (load : Instruction) :
    List Instruction :=
  [{ opcode := load.opcode, operand := load.operand },
   { opcode := .dup },
   { opcode := .ifNonNull, operand := .label label },
   { opcode := .pop }] ++
  returnOfDefault returns ++ [{ opcode := .label, operand := .label label }]

/-- Whether the instruction loads the object that the method is called on, which is never null. -/
def loadsSelf (header : MethodHeader) (i : Instruction) : Bool :=
  !header.isStatic && i.slot? == some 0

def nullCheckVisitor (header : MethodHeader) : Visitor :=
  .stateless fun insns i =>
    match insns[i]? with
    | none => .decline
    | some insn =>
      if insn.loadsObject && !loadsSelf header insn && insns[i + 1]?.any (·.isDereference) then
        .propose <|
          .single (checkedLoad header.freshLabel header.returnKind? insn)
            ("added null check returning default value before dereference of local " ++
              toString (insn.slot?.getD 0))
      else .decline

end StackMutants.Operator
