import StackMutants.Number.Binary32

/-!
# Datum — what a data format offers to a reader of values

A reader of a domain type asks a value of some data format for what it expects there: a text, a number,
a record of named fields.  The class `Datum` lists the questions; each format answers them by its own
rules, and may keep a state from one answer to the next.  Every question may be refused, which means that
the value is not what was asked for.

A field that is missing is told apart from one that is there, so that the reader decides whether it may be
missing.
-/

namespace StackMutants

/-- A value that names one of several cases, perhaps with content. -/
structure Choice (ν : Type) where
  name : String
  content : Option ν

class Datum (m : outParam (Type → Type)) (ν : Type) where
  text? : ν → m String
  bool? : ν → m Bool
  /-- A number without a sign. -/
  nat? : ν → m Nat
  int? : ν → m Int
  /-- A number in single precision. -/
  single? : ν → m Binary32
  /-- The value unless it stands for none. -/
  optional? : ν → m (Option ν)
  items? : ν → m (List ν)
  /-- The fields of the given names, in the order of the names.  Other fields are ignored. -/
  fields? : List String → ν → m (List (Option ν))
  choice? : ν → m (Choice ν)
  /-- Whether the value is the content of a case that has none. -/
  isNothing : ν → Bool

namespace Datum

variable {m : Type → Type} {ν α : Type} [Monad m] [MonadExcept Unit m]

/-- The value is not what was asked for. -/
def refuse : m α := throw ()

/-- What is there; a refusal if nothing is. -/
def ofOption : Option α → m α
  | none => refuse
  | some a => pure a

/-- The fields of the given names among pairs of names and values.  A name that occurs twice is an
error. -/
def pick? (names : List String) (pairs : List (String × ν)) : Option (List (Option ν)) :=
  names.mapM fun name =>
    match pairs.filter (·.1 == name) with
    | [] => some none
    | [pair] => some (some pair.2)
    | _ => none

/-- Reads a field that has to be there. -/
def needed? (read : ν → m α) : Option ν → m α
  | none => refuse
  | some v => read v

/-- Reads a field that may be missing. -/
def field? (missing : α) (read : ν → m α) : Option ν → m α
  | none => pure missing
  | some v => read v

omit [Monad m] in
@[simp] theorem needed?_some (read : ν → m α) (v : ν) : needed? read (some v) = read v := rfl

omit [MonadExcept Unit m] in
@[simp] theorem field?_some (missing : α) (read : ν → m α) (v : ν) :
    field? missing read (some v) = read v := rfl

variable [Datum m ν]

def list? (read : ν → m α) (v : ν) : m (List α) := do (← items? v).mapM read

/-- A number below a bound. -/
def natBelow? (bound : Nat) (v : ν) : m Nat := do
  let n ← nat? v
  if n < bound then pure n else refuse

def word16? (v : ν) : m UInt16 := UInt16.ofNat <$> natBelow? UInt16.size v

def word32? (v : ν) : m UInt32 := UInt32.ofNat <$> natBelow? UInt32.size v

def word64? (v : ν) : m UInt64 := UInt64.ofNat <$> natBelow? UInt64.size v

/-- An integer of 64 bits with a sign. -/
def int64? (v : ν) : m Int := do
  let n ← int? v
  if Int64.minValue.toInt ≤ n && n ≤ Int64.maxValue.toInt then pure n else refuse

/-- Whether the case is named without content. -/
def isBare (c : Choice ν) : Bool := c.content.all isNothing

/-- Reads one of several cases without content. -/
def named? (ofName? : String → Option α) (v : ν) : m α := do
  let c ← choice? v
  if isBare c then ofOption (ofName? c.name) else refuse

end Datum

end StackMutants
