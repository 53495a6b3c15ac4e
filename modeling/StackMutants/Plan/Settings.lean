import StackMutants.Program

/-!
# Plan.Settings — what a plan is made with, and time budgets

`Timeout.budgetMs` is how long a mutant may run: the time of its tests without the mutation times a
factor, plus a constant.  The product is computed in double precision and rounded to whole
milliseconds, a half up; no budget exceeds the greatest 64-bit word.
-/

namespace StackMutants

structure Timeout where
  factor : Binary32
  constantMs : UInt64
deriving DecidableEq, Repr

namespace Timeout

/-- One and a quarter. -/
def defaultFactor : Binary32 := ⟨0x3fa00000⟩

def defaultConstantMs : UInt64 := 4000

/-- A time times the factor.  A negative product counts as zero, as does the product of zero with
infinity and any product with a factor that is no number. -/
def scaledMs (factor : Binary32) (testingMs : Nat) : Nat :=
  match factor.value, Format.binary64.ofNat testingMs with
  | .finite false f, some b =>
    match Format.binary64.mul b f with
    | some product => min product.toNat Mutation.maxMs
    | none => Mutation.maxMs
  | .infinite false, some b => if b.mantissa = 0 then 0 else Mutation.maxMs
  | _, _ => 0

def budgetMs (t : Timeout) (testingMs : Nat) : Nat :=
  min (scaledMs t.factor testingMs + t.constantMs.toNat) Mutation.maxMs

end Timeout

structure Settings where
  /-- The greatest number of mutations in one unit; zero puts all mutations of a class into one. -/
  unitSize : Nat := 0
  /-- Whether the outcome of every mutant is worth more than a debug entry. -/
  verbose : Bool := false
  timeoutFactor : Binary32 := Timeout.defaultFactor
  timeoutConstantMs : UInt64 := Timeout.defaultConstantMs
  /-- Names of operators and of groups of operators. -/
  mutators : List String := [Mutator.defaultsGroup]
deriving DecidableEq, Repr

namespace Settings

def timeout (s : Settings) : Timeout := ⟨s.timeoutFactor, s.timeoutConstantMs⟩

/-- The operators of valid settings. -/
def validate (s : Settings) : Except Fault (List Mutator) :=
  if !s.timeoutFactor.isFinite || s.timeoutFactor.isNegative then
    .error (.config (.timeoutFactor s.timeoutFactor))
  else if s.mutators.isEmpty then .error (.config .noMutators)
  else Mutator.select s.mutators

end Settings

/-- A configuration: settings, and the classes to mutate, all of the program's if none is named. -/
structure Config where
  version : String
  settings : Settings := {}
  classes : List ClassName := []
deriving DecidableEq, Repr

def Config.targets (c : Config) (p : Program) : List ClassName :=
  if c.classes.isEmpty then p.classNames else c.classes

end StackMutants
