import StackMutants.Code.Instruction

/-!
# Code.Fault — what can be wrong with code

A fault of code lies either in a method descriptor or in an instruction.  Each cause is a constructor;
`message` gives the wording.
-/

namespace StackMutants

/-- Why a text is not a method descriptor. -/
inductive DescriptorFault where
  | missingOpen
  | missingClose
  | badParameter
  | badReturn
  | trailing
deriving DecidableEq, Repr

def DescriptorFault.message : DescriptorFault → String
  | missingOpen => "missing '('"
  | missingClose => "missing ')'"
  | badParameter => "bad parameter type"
  | badReturn => "bad return type"
  | trailing => "trailing characters after return type"

/-- Why an instruction has no place in a stream. -/
inductive InstructionFault where
  /-- A bitwise operator or a shift on a floating point type. -/
  | bitwiseOnFloat
  /-- The operand is not of the shape that the opcode needs. -/
  | unexpectedOperand (operand : Operand)
  /-- The label is reached with two different stack depths. -/
  | unevenLabel (id : UInt32) (current expected : Int)
deriving DecidableEq, Repr

def InstructionFault.message : InstructionFault → String
  | bitwiseOnFloat => "bitwise operator on a floating point type"
  | unexpectedOperand o => "unexpected operand " ++ o.spelling
  | unevenLabel id current expected =>
    s!"label {id} reached with stack depths {current} and {expected}"

inductive CodeFault where
  | descriptor (text : String) (cause : DescriptorFault)
  | instruction (opcode : Opcode) (cause : InstructionFault)
deriving DecidableEq, Repr

def CodeFault.message : CodeFault → String
  | descriptor text cause => s!"Invalid method descriptor '{text}': {cause.message}"
  | instruction opcode cause => s!"Invalid instruction {opcode.spelling}: {cause.message}"

end StackMutants
