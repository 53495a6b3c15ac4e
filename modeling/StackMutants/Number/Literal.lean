/-!
# Number.Literal — decimal literals

A decimal literal is a sign, the digits before and after the point, and an exponent of ten.  The
digits are kept apart because readers of numbers differ in how many of them they look at.
-/

namespace StackMutants

structure Literal where
  negative : Bool
  /-- The digits before the point, as numbers below ten. -/
  whole : List Nat
  /-- The digits after the point. -/
  fraction : List Nat
  exponent : Int
deriving DecidableEq, Repr, Inhabited

namespace Literal

/-- The value of a digit of a number in base `base`. -/
def digit? (base : Nat) (c : Char) : Option Nat :=
  let d :=
    if '0' ≤ c ∧ c ≤ '9' then c.toNat - '0'.toNat
    else if 'a' ≤ c ∧ c ≤ 'z' then c.toNat - 'a'.toNat + 10
    else if 'A' ≤ c ∧ c ≤ 'Z' then c.toNat - 'A'.toNat + 10
    else base
  if d < base then some d else none

def isDigit (c : Char) : Bool := (digit? 10 c).isSome

/-- The number that digits denote, the most significant first. -/
def ofDigits (base : Nat) (digits : List Nat) : Nat := digits.foldl (fun n d => base * n + d) 0

/-- Reads digits only; an empty text denotes no number. -/
def natural? (base : Nat) (cs : List Char) : Option Nat :=
  if cs.isEmpty then none else (cs.mapM (digit? base)).map (ofDigits base)

/-- The digits that a text begins with, and the rest. -/
def spanDigits (cs : List Char) : List Nat × List Char :=
  ((cs.takeWhile isDigit).filterMap (digit? 10), cs.dropWhile isDigit)

/-- The exponent at the end of a literal: nothing, or a letter, a sign and digits. -/
def exponentPart? (cs : List Char) : Option Int :=
  match cs with
  | [] => some 0
  | c :: cs =>
    if c = 'e' ∨ c = 'E' then
      match cs with
      | '-' :: cs => (natural? 10 cs).map fun n => -(n : Int)
      | '+' :: cs => (natural? 10 cs).map fun n => (n : Int)
      | cs => (natural? 10 cs).map fun n => (n : Int)
    else none

/-- All digits, as one number. -/
def significand (l : Literal) : Nat := ofDigits 10 (l.whole ++ l.fraction)

/-- The power of ten that the significand is multiplied with. -/
def scale (l : Literal) : Int := l.exponent - l.fraction.length

end Literal

end StackMutants
