import StackMutants.Pass.Replay

/-!
# Mutant — finding the mutation points of a class and building mutants

`mutationPoints` runs every operator over every method of a class and collects the points in the order of
the methods and of the positions in each method.  `buildMutant` runs one operator over one method again,
with the wanted mutation as the target.
-/

namespace StackMutants

namespace Register

/-- Runs operators over a method, one after the other. -/
def visitMethod (r : Register) (method : Method) : List Operator → Journaled Fault Register
  | [] => pure r.closeMethod
  | o :: os => do
    let (_, r) ← r.runPass o method
    r.visitMethod method os

/-- Runs operators over methods, one method after the other. -/
def visitMethods (r : Register) (os : List Operator) : List Method → Journaled Fault Register
  | [] => pure r
  | m :: ms => do
    let r ← r.visitMethod m os
    r.visitMethods os ms

end Register

/-- Every point of the class at which one of the operators can mutate it. -/
def ClassDef.mutationPoints (c : ClassDef) (os : List Operator) : Journaled Fault (List Mutation) := do
  let r ← (Register.blank c.name).visitMethods os c.methods
  pure r.mutations

/-- A class with one mutation applied. -/
structure Mutant where
  mutation : Mutation
  definition : ClassDef
deriving DecidableEq, Repr

/-- The class with other instructions in one method. -/
def ClassDef.withInstructions (c : ClassDef) (index : Nat) (insns : List Instruction) : ClassDef :=
  { c with methods := c.methods.modify index fun m => { m with instructions := insns } }

/-- Whether the mutation is one of the method. -/
def Method.isMethodOf (id : MutationId) (m : Method) : Bool :=
  m.name == id.method && m.descriptor == id.descriptor

/-- The mutant of an identifier.  The method is the first one with the name and descriptor, so these are
to be unique within the class. -/
def ClassDef.buildMutant (c : ClassDef) (os : List Operator) (id : MutationId) :
    Journaled Fault Mutant :=
  let notFound : Fault := .mutationNotFound id
  if c.name ≠ id.owner then .fail notFound
  else
    match os.find? (·.id == id.operator), c.methods.findIdx? (·.isMethodOf id) with
    | some o, some index =>
      match c.methods[index]? with
      | none => .fail notFound
      | some method => do
        let (insns, r) ← (Register.seeking id).runPass o method
        match r.applied, r.mutations.find? (·.id == id) with
        | true, some mutation => pure ⟨mutation, c.withInstructions index insns⟩
        | _, _ => .fail notFound
    | _, _ => .fail notFound

end StackMutants
