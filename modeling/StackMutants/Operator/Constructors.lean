import StackMutants.Code.Pattern
import StackMutants.Pass.Operator

/-!
# Operator.Constructors — removing constructor calls

A new object is replaced by null: the call of its constructor becomes pops of the arguments, of the
receiver and of the reference that the allocation left.  Only calls that close an allocation are
mutated; a call that delegates to another constructor closes none.  The visitor counts the allocations
that are still open.
-/

namespace StackMutants.Operator

/-- Pops the arguments, the receiver and the reference below it, and pushes null. -/
def discardedCall (d : Descriptor) : List Instruction :=
  List.replicate (d.params.length + 2) { opcode := .pop } ++ [{ opcode := .nullConst }]

/-- The answer about a constructor call that closes an allocation. -/
def closingCallAnswer (r : MemberRef) : Answer :=
  match Descriptor.parse r.descriptor with
  | .error fault => .abstain s!"Not mutating constructor call: {fault.message}"
  | .ok d => .propose <| .single (discardedCall d) s!"removed call to {r.owner.text}::{r.name}"

/-- The answer about a position, and the number of open allocations behind it. -/
def constructorAnswer (opened : Nat) (insns : List Instruction) (i : Nat) : Answer × Nat :=
  match insns[i]? with
  | none => (.decline, opened)
  | some insn =>
    if insn.opcode = .new then (.decline, opened + 1)
    else if !insn.callsConstructor then (.decline, opened)
    else
      match opened, insn.method? with
      | 0, _ => (.decline, 0)
      | opened + 1, none => (.decline, opened)
      | opened + 1, some r => (closingCallAnswer r, opened)

def constructorVisitor : Visitor where
  State := Nat
  start := 0
  visit := constructorAnswer

end StackMutants.Operator
