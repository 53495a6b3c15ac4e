import StackMutants.Code.Pattern
import StackMutants.Pass.Operator

/-!
# Operator.Returns — changing what a method returns

A return of a value is replaced by a return of another value of the same kind, computed from the one on
the stack.  An integer, which may stand for a truth value, becomes one if it is zero and zero
otherwise; this needs a branch to a label that is not in use.
-/

namespace StackMutants.Operator

/-- What stands for a return of a kind, and how the change is described. -/
def changedReturn (label : UInt32) (kind : ValueKind) : List Instruction × String :=
  let ret : Instruction := { opcode := .ret (some kind) }
  match kind with
  | .int =>
    ([{ opcode := .ifZero .eq, operand := .label label },
      { opcode := .const, operand := .int 0 },
      ret,
      { opcode := .label, operand := .label label },
      { opcode := .const, operand := .int 1 },
      ret],
     "replaced return of integer sized value with (x == 0 ? 1 : 0)")
  | .long =>
    ([{ opcode := .const, operand := .int 1 }, { opcode := .arith .add .long }, ret],
     "replaced return of long value with value + 1")
  | .float => ([{ opcode := .neg .float }, ret], "replaced return of float value with -(x)")
  | .double => ([{ opcode := .neg .double }, ret], "replaced return of double value with -(x)")
  | .ref =>
    ([{ opcode := .pop }, { opcode := .nullConst }, ret],
     "mutated return of Object value to null")

def returnsVisitor (header : MethodHeader) : Visitor :=
  .stateless fun insns i =>
    match insns[i]?.bind Instruction.returned? with
    | none => .decline
    | some kind =>
      let (replacement, description) := changedReturn header.freshLabel kind
      .propose (.single replacement description)

end StackMutants.Operator
