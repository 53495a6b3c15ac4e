import StackMutants.Code.Descriptor

/-!
# Code.Method — methods and classes

A class holds methods in declaration order, a method its instructions.  `Method.freshLabel?` is the
label after the greatest one that the instructions mention; labels are 32-bit words, so a method that
mentions the greatest word has no fresh label.
-/

namespace StackMutants

structure Method where
  name : String
  descriptor : String
  isStatic : Bool := false
  instructions : List Instruction := []
deriving DecidableEq, Repr, Inhabited

structure ClassDef where
  name : ClassName
  methods : List Method := []
deriving DecidableEq, Repr, Inhabited

/-- The name of instance constructors. -/
def constructorName : String := "<init>"

namespace Method

/-- Every label that the instructions mention, as a declaration or as a target. -/
def mentionedLabels (m : Method) : List UInt32 := m.instructions.filterMap (·.label?)

/-- The successor of the greatest mentioned label, if labels go on that far. -/
def freshLabel? (m : Method) : Option UInt32 :=
  match m.mentionedLabels.max? with
  | none => some 0
  | some greatest => if greatest + 1 = 0 then none else some (greatest + 1)

/-- The name with the descriptor, by which a method is told apart within its class. -/
def signature (m : Method) : String := m.name ++ m.descriptor

end Method

/-- What an operator is told about the method that it visits. -/
structure MethodHeader where
  owner : ClassName
  name : String
  descriptor : String
  isStatic : Bool
  /-- A label that the method does not mention. -/
  freshLabel : UInt32
deriving DecidableEq, Repr

/-- The header of a method of the class; none if the method has no fresh label. -/
def Method.header? (m : Method) (owner : ClassName) : Option MethodHeader :=
  m.freshLabel?.map fun freshLabel =>
    { owner, name := m.name, descriptor := m.descriptor, isStatic := m.isStatic, freshLabel }

namespace MethodHeader

def isConstructor (h : MethodHeader) : Bool := h.name == constructorName

/-- The kind that the method returns; none for void and for a descriptor that cannot be read. -/
def returnKind? (h : MethodHeader) : Option ValueKind :=
  match Descriptor.parse h.descriptor with
  | .ok d => d.returns
  | .error _ => none

/-- The method as messages name it. -/
def fullName (h : MethodHeader) : String := s!"{h.owner.text}::{h.name}{h.descriptor}"

end MethodHeader

end StackMutants
