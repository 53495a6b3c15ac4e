import StackMutants.Code.Kind
import StackMutants.Text.Quoted

/-!
# Code.Instruction — instructions of the stack machine

An instruction is an opcode, an operand and the source line it comes from (0 when unknown).  The
operand is independent of the opcode: whether the two fit is a question of `Code.StackEffect`.
`Opcode.spelling` and `Operand.spelling` are the spellings that messages use.
-/

namespace StackMutants

/-- The full name of a class, such as `com/example/Foo`. -/
structure ClassName where
  text : String
deriving DecidableEq, Repr, Inhabited, Hashable

inductive Opcode where
  | nop
  /-- Marks a branch target; it does nothing when run. -/
  | label
  | nullConst
  | const
  | load (kind : ValueKind)
  | store (kind : ValueKind)
  | pop
  | dup
  | arith (op : ArithOp) (type : NumType)
  | neg (type : NumType)
  /-- Compares the integer on top of the stack with zero. -/
  | ifZero (cmp : CmpOp)
  /-- Compares the two integers on top of the stack. -/
  | ifCmp (cmp : CmpOp)
  | ifNull
  | ifNonNull
  | goto
  | new
  | getField
  | putField
  | getStatic
  | putStatic
  | invoke (kind : InvokeKind)
  /-- Returns a value of the kind, or nothing. -/
  | ret (kind : Option ValueKind)
  | throw
deriving DecidableEq, Repr, Inhabited

/-- The opcodes that carry no data, under the names they are written with. -/
def Opcode.plain : List (String × Opcode) :=
  [("Nop", .nop), ("Label", .label), ("AConstNull", .nullConst), ("Const", .const), ("Pop", .pop),
   ("Dup", .dup), ("IfNull", .ifNull), ("IfNonNull", .ifNonNull), ("Goto", .goto), ("New", .new),
   ("GetField", .getField), ("PutField", .putField), ("GetStatic", .getStatic),
   ("PutStatic", .putStatic), ("Throw", .throw)]

def Opcode.spelling : Opcode → String
  | nop => "Nop"
  | label => "Label"
  | nullConst => "AConstNull"
  | const => "Const"
  | load k => s!"Load({k.name})"
  | store k => s!"Store({k.name})"
  | pop => "Pop"
  | dup => "Dup"
  | arith op ty => s!"Arith({op.name}, {ty.name})"
  | neg ty => s!"Neg({ty.name})"
  | ifZero c => s!"If({c.name})"
  | ifCmp c => s!"IfCmp({c.name})"
  | ifNull => "IfNull"
  | ifNonNull => "IfNonNull"
  | goto => "Goto"
  | new => "New"
  | getField => "GetField"
  | putField => "PutField"
  | getStatic => "GetStatic"
  | putStatic => "PutStatic"
  | invoke k => s!"Invoke({k.name})"
  | ret none => "Return(None)"
  | ret (some k) => s!"Return(Some({k.name}))"
  | throw => "Throw"

/-- A reference to a member of a class: a field with its type or a method with its descriptor. -/
structure MemberRef where
  owner : ClassName
  name : String
  descriptor : String
deriving DecidableEq, Repr, Inhabited

inductive Operand where
  | none
  | int (value : Int)
  | text (value : String)
  | var (slot : UInt16)
  | label (id : UInt32)
  | type (name : ClassName)
  | field (ref : MemberRef)
  | method (ref : MemberRef)
deriving DecidableEq, Repr, Inhabited

def ClassName.quoted (c : ClassName) : String := s!"ClassName({Text.quoted c.text})"

def MemberRef.fieldsText (r : MemberRef) : String :=
  " \x7b owner: " ++ r.owner.quoted ++ ", name: " ++ Text.quoted r.name ++
    ", descriptor: " ++ Text.quoted r.descriptor ++ " \x7d"

def Operand.spelling : Operand → String
  | none => "None"
  | int n => s!"Int({n})"
  | text s => s!"Text({Text.quoted s})"
  | var n => s!"Var({n})"
  | label n => s!"Label({n})"
  | type c => s!"Type({c.quoted})"
  | field r => "Field(FieldRef" ++ r.fieldsText ++ ")"
  | method r => "Method(MethodRef" ++ r.fieldsText ++ ")"

structure Instruction where
  opcode : Opcode
  operand : Operand := .none
  line : UInt32 := 0
deriving DecidableEq, Repr, Inhabited

namespace Instruction

/-- The same instruction attributed to another source line. -/
def onLine (i : Instruction) (line : UInt32) : Instruction := { i with line }

def method? (i : Instruction) : Option MemberRef :=
  match i.operand with
  | .method r => some r
  | _ => none

def label? (i : Instruction) : Option UInt32 :=
  match i.operand with
  | .label id => some id
  | _ => none

def slot? (i : Instruction) : Option UInt16 :=
  match i.operand with
  | .var slot => some slot
  | _ => none

/-- Whether control may go to the label of the operand. -/
def isBranch (i : Instruction) : Bool :=
  match i.opcode with
  | .ifZero _ | .ifCmp _ | .ifNull | .ifNonNull | .goto => true
  | _ => false

/-- Whether control never goes on to the next instruction. -/
def isTerminal (i : Instruction) : Bool :=
  match i.opcode with
  | .ret _ | .throw | .goto => true
  | _ => false

/-- The label that the instruction declares, if it is a label with an operand. -/
def declares? (i : Instruction) : Option UInt32 :=
  match i.opcode with
  | .label => i.label?
  | _ => none

/-- The label that the instruction may branch to. -/
def target? (i : Instruction) : Option UInt32 :=
  if i.isBranch then i.label? else none

end Instruction

/-- The labels that a stream declares, in order and with repetitions. -/
def labelsIn (insns : List Instruction) : List UInt32 :=
  insns.filterMap (·.declares?)

end StackMutants
