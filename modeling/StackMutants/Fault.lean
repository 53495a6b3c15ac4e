import StackMutants.Code.Fault
import StackMutants.Mutation
import StackMutants.Number.Shortest

/-!
# Fault — everything that can go wrong

Each cause is a constructor that carries what its message names.  `Fault.message` is the only place
that words a message.
-/

namespace StackMutants

/-- Why a replacement is refused. -/
inductive SubstitutionFault where
  /-- The region or the replacement is faulty in itself. -/
  | code (fault : CodeFault)
  | stackEffect (after before : Option Int)
  | undeclaredLabel (id : UInt32)
deriving DecidableEq, Repr

/-- A depth as messages show it. -/
def depthText : Option Int → String
  | none => "None"
  | some n => s!"Some({n})"

def SubstitutionFault.message : SubstitutionFault → String
  | code fault => fault.message
  | stackEffect after before =>
    s!"stack effect {depthText after} does not match original {depthText before}"
  | undeclaredLabel id => s!"branch to undeclared label {id}"

/-- What is wrong with a configuration or a program. -/
inductive ConfigFault where
  | timeoutFactor (factor : Binary32)
  | noMutators
  | unknownMutator (name : String) (available : List String)
  | repeatedClass (name : ClassName)
  | repeatedMethod (signature : String) (owner : ClassName)
  | unreadable (file : String) (reason : String)
  /-- The text of a file is not what the file is to hold, for instance a `config`. -/
  | malformed (what : String) (file : String)
deriving DecidableEq, Repr

def ConfigFault.message : ConfigFault → String
  | timeoutFactor f => "timeout_factor must be a non-negative number, got " ++ f.text
  | noMutators => "at least one mutator must be configured"
  | unknownMutator name available =>
    s!"Unknown mutator '{name}'. Available: " ++ ", ".intercalate available
  | repeatedClass name => s!"Class {name.text} is defined more than once"
  | repeatedMethod signature owner =>
    s!"Method {signature} is defined more than once in {owner.text}"
  | unreadable file reason => s!"Failed to read config file '{file}': {reason}"
  | malformed what file => s!"Failed to parse {what} file '{file}': unexpected content"

/-- What is wrong with a file of stored results. -/
inductive HistoryFault where
  | malformed
  | unsupportedVersion (found expected : Nat)
deriving DecidableEq, Repr

def HistoryFault.message : HistoryFault → String
  | malformed => "unexpected content"
  | unsupportedVersion found expected =>
    s!"unsupported history version {found} (expected {expected})"

inductive Fault where
  | code (fault : CodeFault)
  | substitution (operator : String) (method : String) (cause : SubstitutionFault)
  | mutationNotFound (id : MutationId)
  | classNotFound (name : ClassName)
  | analysis (reason : String)
  | environment (reason : String)
  | history (file : String) (cause : HistoryFault)
  | unreadable (file : String) (reason : String)
  | unwritable (file : String) (reason : String)
  | config (cause : ConfigFault)
  /-- An operator was to visit a method that mentions the greatest label there is. -/
  | labelsExhausted
deriving DecidableEq, Repr

def Fault.message : Fault → String
  | code fault => fault.message
  | substitution operator method cause =>
    s!"Operator {operator} produced an invalid substitution in {method}: {cause.message}"
  | mutationNotFound id => s!"Mutation {id.text} not found"
  | classNotFound name => s!"Class not found: {name.text}"
  | analysis reason => s!"Analysis failed: {reason}"
  | environment reason => s!"Isolated environment error: {reason}"
  | history file cause => s!"History error for '{file}': {cause.message}"
  | unreadable file reason => s!"Failed to read file '{file}': {reason}"
  | unwritable file reason => s!"Failed to write file '{file}': {reason}"
  | config cause => s!"Configuration error: {cause.message}"
  | labelsExhausted => "no label is left for a method"

end StackMutants
