/-!
# Code.Kind — the small vocabularies of the instruction set

Value kinds, number types, arithmetic operators, comparisons and call kinds.  Each vocabulary lists
its words once (`all`), and `name` spells a word; reading a word back is a search through `all`, so
the two cannot drift apart.
-/

namespace StackMutants

/-- What a local variable holds or a method returns. -/
inductive ValueKind where
  | int
  | long
  | float
  | double
  | ref
deriving DecidableEq, Repr, Inhabited

namespace ValueKind

def name : ValueKind → String
  | int => "Int"
  | long => "Long"
  | float => "Float"
  | double => "Double"
  | ref => "Ref"

def all : List ValueKind := [int, long, float, double, ref]

def ofName? (s : String) : Option ValueKind := all.find? (·.name == s)

end ValueKind

/-- The operand type of arithmetic. -/
inductive NumType where
  | int
  | long
  | float
  | double
deriving DecidableEq, Repr, Inhabited

namespace NumType

def name : NumType → String
  | int => "Int"
  | long => "Long"
  | float => "Float"
  | double => "Double"

def all : List NumType := [int, long, float, double]

def ofName? (s : String) : Option NumType := all.find? (·.name == s)

/-- The types on which bitwise operators and shifts are defined. -/
def isIntegral : NumType → Bool
  | int | long => true
  | float | double => false

/-- The word for the type in descriptions of mutations. -/
def phrase : NumType → String
  | int => "integer"
  | long => "long"
  | float => "float"
  | double => "double"

end NumType

/-- Binary arithmetic, bitwise and shift operators. -/
inductive ArithOp where
  | add
  | sub
  | mul
  | div
  | rem
  | and
  | or
  | xor
  | shl
  | shr
  | ushr
deriving DecidableEq, Repr, Inhabited

namespace ArithOp

def name : ArithOp → String
  | add => "Add"
  | sub => "Sub"
  | mul => "Mul"
  | div => "Div"
  | rem => "Rem"
  | and => "And"
  | or => "Or"
  | xor => "Xor"
  | shl => "Shl"
  | shr => "Shr"
  | ushr => "Ushr"

def all : List ArithOp := [add, sub, mul, div, rem, and, or, xor, shl, shr, ushr]

def ofName? (s : String) : Option ArithOp := all.find? (·.name == s)

/-- The operators that are defined on integral types only. -/
def isBitwise : ArithOp → Bool
  | add | sub | mul | div | rem => false
  | and | or | xor | shl | shr | ushr => true

/-- The word for the operator in descriptions of mutations. -/
def phrase : ArithOp → String
  | add => "addition"
  | sub => "subtraction"
  | mul => "multiplication"
  | div => "division"
  | rem => "modulus"
  | and => "bitwise AND"
  | or => "bitwise OR"
  | xor => "XOR"
  | shl => "shift left"
  | shr => "shift right"
  | ushr => "unsigned shift right"

end ArithOp

/-- The comparison of a conditional jump. -/
inductive CmpOp where
  | eq
  | ne
  | lt
  | ge
  | gt
  | le
deriving DecidableEq, Repr, Inhabited

namespace CmpOp

def name : CmpOp → String
  | eq => "Eq"
  | ne => "Ne"
  | lt => "Lt"
  | ge => "Ge"
  | gt => "Gt"
  | le => "Le"

def all : List CmpOp := [eq, ne, lt, ge, gt, le]

def ofName? (s : String) : Option CmpOp := all.find? (·.name == s)

def symbol : CmpOp → String
  | eq => "=="
  | ne => "!="
  | lt => "<"
  | ge => ">="
  | gt => ">"
  | le => "<="

/-- The comparisons that have a boundary to move. -/
def isOrdering : CmpOp → Bool
  | lt | ge | gt | le => true
  | eq | ne => false

end CmpOp

/-- How a call finds its method. -/
inductive InvokeKind where
  | virtual
  | special
  | static
  | interface
deriving DecidableEq, Repr, Inhabited

namespace InvokeKind

def name : InvokeKind → String
  | virtual => "Virtual"
  | special => "Special"
  | static => "Static"
  | interface => "Interface"

def all : List InvokeKind := [virtual, special, static, interface]

def ofName? (s : String) : Option InvokeKind := all.find? (·.name == s)

/-- Every call but a static one takes the object it is called on from the stack. -/
def takesReceiver : InvokeKind → Bool
  | static => false
  | virtual | special | interface => true

end InvokeKind

end StackMutants
