import StackMutants.Mutant
import StackMutants.Operator.Selection
import StackMutants.Sequence.StableSort

/-!
# Program — classes and the tests that cover their lines

A program holds the classes to mutate and, line by line, the tests that cover them.  Mutations are
addressed by class, method name and descriptor, so `validate` wants these to be unique.
-/

namespace StackMutants

/-- The tests that cover one line of a class. -/
structure LineCoverage where
  owner : ClassName
  line : UInt32
  tests : List CoveringTest := []
deriving DecidableEq, Repr, Inhabited

structure Program where
  classes : List ClassDef := []
  coverage : List LineCoverage := []
deriving DecidableEq, Repr, Inhabited

/-- The first repeated signature among methods. -/
def repeatedSignature? (seen : List (String × String)) : List Method → Option Method
  | [] => none
  | m :: ms =>
    if (m.name, m.descriptor) ∈ seen then some m
    else repeatedSignature? ((m.name, m.descriptor) :: seen) ms

namespace Program

/-- Looks for repetitions class by class: first the name of the class, then its methods. -/
def validateClasses (seen : List ClassName) : List ClassDef → Except Fault Unit
  | [] => .ok ()
  | c :: cs =>
    if c.name ∈ seen then .error (.config (.repeatedClass c.name))
    else
      match repeatedSignature? [] c.methods with
      | some m => .error (.config (.repeatedMethod m.signature c.name))
      | none => validateClasses (c.name :: seen) cs

def validate (p : Program) : Except Fault Unit := validateClasses [] p.classes

def classNames (p : Program) : List ClassName := p.classes.map (·.name)

/-- The class of a name. -/
def class? (p : Program) (name : ClassName) : Option ClassDef := p.classes.find? (·.name == name)

/-- Tests are run in ascending order of time, and of name where the times agree. -/
def runsBefore (a b : CoveringTest) : Bool :=
  a.timeMs < b.timeMs || (a.timeMs == b.timeMs && a.name < b.name)

/-- The tests that cover a line, each once, cheapest first. -/
def coveringTests (p : Program) (owner : ClassName) (line : UInt32) : List CoveringTest :=
  let entries := p.coverage.filter fun c => c.owner == owner && c.line == line
  Sequence.sortStable runsBefore (Sequence.distinct (entries.flatMap (·.tests)))

/-- The mutation points of a class of the program, with their covering tests.  A class that the program
does not define has none. -/
def mutations (p : Program) (os : List Operator) (name : ClassName) :
    Journaled Fault (List Mutation) :=
  match p.class? name with
  | none => do
    .warn s!"No class definition found for {name.text}"
    pure []
  | some c => do
    let found ← c.mutationPoints os
    .debug s!"Found {found.length} mutation(s) in {name.text}"
    pure (found.map fun m => { m with tests := p.coveringTests name m.line })

/-- The mutant of an identifier, with its covering tests. -/
def mutant (p : Program) (os : List Operator) (id : MutationId) : Journaled Fault Mutant :=
  match p.class? id.owner with
  | none => .fail (.classNotFound id.owner)
  | some c => do
    let m ← c.buildMutant os id
    pure { m with mutation := { m.mutation with tests := p.coveringTests id.owner m.mutation.line } }

end Program

end StackMutants
