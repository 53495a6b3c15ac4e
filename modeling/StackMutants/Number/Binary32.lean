import StackMutants.Number.Dyadic

/-!
# Number.Binary32 — single precision numbers

A single precision number is its 32 bits.  `value` decodes them; the functions that make one round to
the nearest and go to infinity beyond the greatest finite number.
-/

namespace StackMutants

structure Binary32 where
  bits : UInt32
deriving DecidableEq, Repr, Inhabited

namespace Binary32

/-- What the bits stand for. -/
inductive Value where
  | nan
  | infinite (negative : Bool)
  | finite (negative : Bool) (magnitude : Dyadic)
deriving DecidableEq, Repr

/-- The bit of a mantissa that is not stored, because it is set in every normal number. -/
def hiddenBit : Nat := 1 <<< 23

def value (x : Binary32) : Value :=
  let n := x.bits.toNat
  let negative : Bool := 1 <<< 31 ≤ n
  let biased : Nat := n / hiddenBit % 256
  let fraction : Nat := n % hiddenBit
  if biased = 255 then if fraction = 0 then .infinite negative else .nan
  else if biased = 0 then .finite negative ⟨fraction, -149⟩
  else .finite negative ⟨hiddenBit + fraction, (biased : Int) - 150⟩

def signBit (negative : Bool) : Nat := if negative then 1 <<< 31 else 0

def infinity (negative : Bool) : Binary32 := ⟨UInt32.ofNat (signBit negative + 255 * hiddenBit)⟩

def nan : Binary32 := ⟨0x7fc00000⟩

/-- The number with a magnitude that has been rounded to the format already. -/
def ofRounded (negative : Bool) (d : Dyadic) : Binary32 :=
  let n :=
    if d.mantissa < hiddenBit then d.mantissa
    else (d.exponent + 150).toNat * hiddenBit + (d.mantissa - hiddenBit)
  ⟨UInt32.ofNat (signBit negative + n)⟩

/-- The nearest number; no magnitude stands for one that is too large already. -/
def ofMagnitude (negative : Bool) (d : Option Dyadic) : Binary32 :=
  match d.bind Format.binary32.ofDyadic with
  | some d => ofRounded negative d
  | none => infinity negative

def isFinite (x : Binary32) : Bool :=
  match x.value with
  | .finite _ _ => true
  | _ => false

/-- Whether the number is below zero; the negative zero and the numbers that are none are not. -/
def isNegative (x : Binary32) : Bool :=
  match x.value with
  | .finite negative d => negative && d.mantissa != 0
  | .infinite negative => negative
  | .nan => false

end Binary32

end StackMutants
