import StackMutants.Operator.Arithmetic
import StackMutants.Operator.Conditionals
import StackMutants.Operator.Returns
import StackMutants.Operator.Constructors
import StackMutants.Operator.NullChecks
import StackMutants.Sequence.Distinct

/-!
# Operator.Selection — the operators on offer and how they are chosen by name

`Mutator` lists the operators.  A configuration chooses them by names of operators and of groups;
`Mutator.select` resolves such names in their order and keeps each operator where it comes first.
-/

namespace StackMutants

inductive Mutator where
  | conditionalsBoundary
  | math
  | negateConditionals
  | returnVals
  | constructorCalls
  | checkNullObject
deriving DecidableEq, Repr

namespace Mutator

/-- Every operator, in the order in which groups list them. -/
def all : List Mutator :=
  [conditionalsBoundary, math, negateConditionals, returnVals, constructorCalls, checkNullObject]

/-- The operators that are used when nothing else is asked for. -/
def defaults : List Mutator := [conditionalsBoundary, math, negateConditionals, returnVals]

def name : Mutator → String
  | conditionalsBoundary => "CONDITIONALS_BOUNDARY"
  | math => "MATH"
  | negateConditionals => "NEGATE_CONDITIONALS"
  | returnVals => "RETURN_VALS"
  | constructorCalls => "CONSTRUCTOR_CALLS"
  | checkNullObject => "CHECK_NULL_OBJECT"

/-- The name in identifiers of mutations. -/
def id : Mutator → String
  | conditionalsBoundary => "bytecode_mutation_testing::operators::ConditionalsBoundaryMutator"
  | math => "bytecode_mutation_testing::operators::MathMutator"
  | negateConditionals => "bytecode_mutation_testing::operators::NegateConditionalsMutator"
  | returnVals => "bytecode_mutation_testing::operators::ReturnValsMutator"
  | constructorCalls => "bytecode_mutation_testing::operators::ConstructorCallMutator"
  | checkNullObject => "bytecode_mutation_testing::operators::CheckNullObjectMutator"

def visitor : Mutator → MethodHeader → Visitor
  | conditionalsBoundary, _ => Operator.boundaryVisitor
  | math, _ => Operator.arithmeticVisitor
  | negateConditionals, _ => Operator.negationVisitor
  | returnVals, header => Operator.returnsVisitor header
  | constructorCalls, _ => Operator.constructorVisitor
  | checkNullObject, header => Operator.nullCheckVisitor header

def operator (m : Mutator) : Operator where
  name := m.name
  id := m.id
  visitor := m.visitor

def defaultsGroup : String := "DEFAULTS"

def allGroup : String := "ALL"

/-- The names that a configuration may use. -/
def available : List String := defaultsGroup :: allGroup :: all.map name

/-- The operators that a name stands for, if it is the name of a group or of an operator. -/
def expand? (s : String) : Option (List Mutator) :=
  if s = defaultsGroup then some defaults
  else if s = allGroup then some all
  else (all.find? (·.name == s)).map fun m => [m]

/-- Appends the operators that the names stand for and that are not there yet. -/
def selectOnto (selected : List Mutator) : List String → Except Fault (List Mutator)
  | [] => .ok selected
  | s :: names =>
    match expand? s with
    | none => .error (.config (.unknownMutator s available))
    | some new => selectOnto (Sequence.appendNew selected new) names

/-- The operators that names stand for; the fault names the first that stands for none. -/
def select (names : List String) : Except Fault (List Mutator) := selectOnto [] names

end Mutator

end StackMutants
