import StackMutants.Code.Method
import StackMutants.Datum.Basic

/-!
# Datum.Code — reading instructions, methods and classes

Opcodes and operands are cases: those without data are bare names, the others have their data as
content.  An operand is none and a line zero unless given, a method is an instance method without
instructions, and a class has no methods.
-/

namespace StackMutants

open Datum

variable {m : Type → Type} {ν : Type} [Monad m] [MonadExcept Unit m] [Datum m ν]

def ClassName.read? (v : ν) : m ClassName := ClassName.mk <$> text? v

def ValueKind.read? (v : ν) : m ValueKind := named? ValueKind.ofName? v

def NumType.read? (v : ν) : m NumType := named? NumType.ofName? v

def ArithOp.read? (v : ν) : m ArithOp := named? ArithOp.ofName? v

def CmpOp.read? (v : ν) : m CmpOp := named? CmpOp.ofName? v

def InvokeKind.read? (v : ν) : m InvokeKind := named? InvokeKind.ofName? v

namespace Opcode

/-- Reads the operation and the type of an arithmetic opcode. -/
def readArith? (v : ν) : m Opcode := do
  match ← items? v with
  | [op, type] => pure (.arith (← ArithOp.read? op) (← NumType.read? type))
  | _ => refuse

/-- Reads the data of an opcode that has some. -/
def readContent? (name : String) (v : ν) : m Opcode :=
  match name with
  | "Load" => .load <$> ValueKind.read? v
  | "Store" => .store <$> ValueKind.read? v
  | "Arith" => readArith? v
  | "Neg" => .neg <$> NumType.read? v
  | "If" => .ifZero <$> CmpOp.read? v
  | "IfCmp" => .ifCmp <$> CmpOp.read? v
  | "Invoke" => .invoke <$> InvokeKind.read? v
  | "Return" => do
    match ← optional? v with
    | none => pure (.ret none)
    | some kind => pure (.ret (some (← ValueKind.read? kind)))
  | _ => refuse

def read? (v : ν) : m Opcode := do
  let c ← choice? v
  match plain.lookup c.name with
  | some op => if isBare c then pure op else refuse
  | none => needed? (readContent? c.name) c.content

end Opcode

def MemberRef.read? (v : ν) : m MemberRef := do
  match ← fields? ["owner", "name", "descriptor"] v with
  | [owner, name, descriptor] =>
    pure {
      owner := ← needed? ClassName.read? owner
      name := ← needed? text? name
      descriptor := ← needed? text? descriptor }
  | _ => refuse

namespace Operand

/-- Reads the data of an operand that has some. -/
def readContent? (name : String) (v : ν) : m Operand :=
  match name with
  | "Int" => .int <$> int64? v
  | "Text" => .text <$> text? v
  | "Var" => .var <$> word16? v
  | "Label" => .label <$> word32? v
  | "Type" => .type <$> ClassName.read? v
  | "Field" => .field <$> MemberRef.read? v
  | "Method" => .method <$> MemberRef.read? v
  | _ => refuse

def read? (v : ν) : m Operand := do
  let c ← choice? v
  if c.name = "None" then if isBare c then pure .none else refuse
  else needed? (readContent? c.name) c.content

end Operand

def Instruction.read? (v : ν) : m Instruction := do
  match ← fields? ["opcode", "operand", "line"] v with
  | [opcode, operand, line] =>
    pure {
      opcode := ← needed? Opcode.read? opcode
      operand := ← field? .none Operand.read? operand
      line := ← field? 0 word32? line }
  | _ => refuse

def Method.read? (v : ν) : m Method := do
  match ← fields? ["name", "descriptor", "is_static", "instructions"] v with
  | [name, descriptor, isStatic, instructions] =>
    pure {
      name := ← needed? text? name
      descriptor := ← needed? text? descriptor
      isStatic := ← field? false bool? isStatic
      instructions := ← field? [] (list? Instruction.read?) instructions }
  | _ => refuse

def ClassDef.read? (v : ν) : m ClassDef := do
  match ← fields? ["name", "methods"] v with
  | [name, methods] =>
    pure {
      name := ← needed? ClassName.read? name
      methods := ← field? [] (list? Method.read?) methods }
  | _ => refuse

end StackMutants
