import StackMutants.Code.Depth
import StackMutants.Code.Method
import StackMutants.Fault

/-!
# Pass.Substitution — replacing a region of a stream

An operator proposes a substitution for the region that begins where it matched.  `Substitution.check`
accepts a replacement that leaves the stack as the region does and branches only to labels that the
method or the replacement itself declares.
-/

namespace StackMutants

structure Substitution where
  /-- How many instructions are replaced, the matched one included.  Zero counts as one, and a number
  beyond the end of the stream as all that are left. -/
  consumed : Nat
  replacement : List Instruction
  description : String
deriving DecidableEq, Repr

namespace Substitution

/-- Replaces the matched instruction alone. -/
def single (replacement : List Instruction) (description : String) : Substitution :=
  { consumed := 1, replacement, description }

/-- The first branch target of a stream that is not among the labels. -/
def undeclaredTarget? (labels : List UInt32) (insns : List Instruction) : Option UInt32 :=
  (insns.filterMap (·.target?)).find? fun id => !labels.contains id

/-- Why the replacement may not stand for the region, if it may not. -/
def check (method : Method) (region replacement : List Instruction) :
    Except SubstitutionFault Unit := do
  let before ← (exitDepth region).mapError .code
  let after ← (exitDepth replacement).mapError .code
  if before ≠ after then throw (.stackEffect after before)
  let labels := labelsIn method.instructions ++ labelsIn replacement
  match undeclaredTarget? labels replacement with
  | some id => throw (.undeclaredLabel id)
  | none => pure ()

/-- The check, with the operator and the method named in the fault. -/
def validate (operator : String) (method : Method) (region replacement : List Instruction) :
    Except Fault Unit :=
  (check method region replacement).mapError (.substitution operator method.signature)

end Substitution

end StackMutants
