import StackMutants.Number.Literal

/-!
# Number.Dyadic — binary fractions and rounding to them

A dyadic number is a natural mantissa times a power of two.  A format bounds mantissa and exponent;
`Format.round` takes a ratio to the nearest number of the format, and to the even mantissa if two are
equally near.  Everything is exact arithmetic on natural numbers, so that what is computed here can be
reasoned about.
-/

namespace StackMutants

/-- The number `mantissa * 2 ^ exponent`. -/
structure Dyadic where
  mantissa : Nat
  exponent : Int
deriving DecidableEq, Repr, Inhabited

/-- The quotient rounded to the nearest integer, a half to the even neighbour. -/
def roundDivEven (num den : Nat) : Nat :=
  let q := num / den
  let r := num % den
  if 2 * r > den ∨ (2 * r = den ∧ q % 2 = 1) then q + 1 else q

/-- The quotient rounded to the nearest integer, a half up. -/
def roundDivUp (num den : Nat) : Nat := (2 * num + den) / (2 * den)

namespace Dyadic

def zero : Dyadic := ⟨0, 0⟩

/-- The factor `2 ^ e` in the numerator, if `e` is not negative. -/
def up (e : Int) : Nat := 1 <<< e.toNat

/-- The factor `2 ^ (-e)` in the denominator, if `e` is negative. -/
def down (e : Int) : Nat := 1 <<< (-e).toNat

/-- The nearest integer, a half up. -/
def toNat (d : Dyadic) : Nat := roundDivUp (d.mantissa * up d.exponent) (down d.exponent)

/-- Whether the number is at least `n`. -/
def atLeast (d : Dyadic) (n : Nat) : Bool := n * down d.exponent ≤ d.mantissa * up d.exponent

/-- The number of tenths that is nearest, a half to the even one. -/
def tenths (d : Dyadic) : Nat := roundDivEven (10 * (d.mantissa * up d.exponent)) (down d.exponent)

/-- The bits of a double precision number that is normal or zero. -/
def bits64 (d : Dyadic) : Nat :=
  if d.mantissa = 0 then 0 else (d.exponent + 1075).toNat * (1 <<< 52) + (d.mantissa - (1 <<< 52))

end Dyadic

/-- A floating point format: the bits of a mantissa and the least and greatest exponent. -/
structure Format where
  precision : Nat
  minExponent : Int
  maxExponent : Int

namespace Format

def binary32 : Format := ⟨24, -149, 104⟩

def binary64 : Format := ⟨53, -1074, 971⟩

/-- The exponent at which the ratio of two positive numbers has a mantissa of full precision, or the
least one. -/
def exponentOf (f : Format) (num den : Nat) : Int :=
  let e : Int := (num.log2 : Int) - den.log2 - f.precision
  let full := num * Dyadic.down e < (1 <<< f.precision) * (den * Dyadic.up e)
  max f.minExponent (if full then e else e + 1)

/-- The ratio rounded to the format; none if it is too large for it. -/
def round (f : Format) (num den : Nat) : Option Dyadic :=
  if num = 0 then some .zero
  else
    let e := f.exponentOf num den
    let m := roundDivEven (num * Dyadic.down e) (den * Dyadic.up e)
    let d : Dyadic := if m = 1 <<< f.precision then ⟨1 <<< (f.precision - 1), e + 1⟩ else ⟨m, e⟩
    if d.exponent ≤ f.maxExponent then some d else none

def ofNat (f : Format) (n : Nat) : Option Dyadic := f.round n 1

def ofDyadic (f : Format) (d : Dyadic) : Option Dyadic :=
  f.round (d.mantissa * Dyadic.up d.exponent) (Dyadic.down d.exponent)

def mul (f : Format) (a b : Dyadic) : Option Dyadic :=
  f.ofDyadic ⟨a.mantissa * b.mantissa, a.exponent + b.exponent⟩

def div (f : Format) (a b : Dyadic) : Option Dyadic :=
  let e := a.exponent - b.exponent
  f.round (a.mantissa * Dyadic.up e) (b.mantissa * Dyadic.down e)

/-- The number of the format that is nearest to a literal, signs apart.  A literal that is out of
bounds by many powers of ten is settled without computing its power. -/
def ofLiteral (f : Format) (l : Literal) : Option Dyadic :=
  let n := l.significand
  let magnitude := l.scale + (Nat.toDigits 10 n).length
  if n = 0 ∨ magnitude < -400 then some .zero
  else if 400 < magnitude then none
  else f.round (n * Nat.pow 10 l.scale.toNat) (Nat.pow 10 (-l.scale).toNat)

end Format

namespace Literal

/-- The greatest significand that is collected before digits are dropped. -/
def wordLimit : Nat := UInt64.size

/-- Appends digits while the result fits into a word, and says how many digits did not fit. -/
def collect (n : Nat) : List Nat → Nat × Nat
  | [] => (n, 0)
  | d :: ds => if 10 * n + d < wordLimit then collect (10 * n + d) ds else (n, ds.length + 1)

/-- Scales by a power of ten in steps of at most `10 ^ 308`, rounding after each step; the first
argument bounds the number of steps. -/
def scaleBy : Nat → Dyadic → Int → Option Dyadic
  | 0, _, _ => some .zero
  | steps + 1, d, e =>
    if d.mantissa = 0 then some .zero
    else if 308 < e then none
    else if 0 ≤ e then
      (Format.binary64.ofNat (Nat.pow 10 e.toNat)).bind fun p => Format.binary64.mul d p
    else if -308 ≤ e then
      (Format.binary64.ofNat (Nat.pow 10 (-e).toNat)).bind fun p => Format.binary64.div d p
    else do
      let p ← Format.binary64.ofNat (Nat.pow 10 308)
      scaleBy steps (← Format.binary64.div d p) (e + 308)

/-- A fast reading of a literal as a binary64 number: the leading digits that fit into a word, scaled
by one power of ten.  It may be off by a unit in the last place.  None if the number is too large. -/
def toBinary64Fast? (l : Literal) : Option Dyadic :=
  let (n, dropped) := collect 0 l.whole
  let (m, ignored) := collect n l.fraction
  let e : Int := l.exponent + dropped - (l.fraction.length - ignored : Nat)
  (Format.binary64.ofNat m).bind fun d => scaleBy 4 d e

end Literal

end StackMutants
