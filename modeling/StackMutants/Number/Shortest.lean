import StackMutants.Number.Binary32

/-!
# Number.Shortest — the shortest decimal text of a number

The text of a single precision number has the fewest digits that still read back as the number, and of
those the nearest to it.  `shortest?` looks at one decimal grid after the other, from coarse to fine,
and at the two neighbours of the number on each.  `Binary32.text` writes the digits without an exponent.
-/

namespace StackMutants.Shortest

/-- The reals that round to a number: `center`, with the distances to both ends, all in units of
`2 ^ exponent`, and whether the ends belong to it. -/
structure Interval where
  center : Nat
  below : Nat
  above : Nat
  exponent : Int
  closed : Bool

/-- The interval of a positive magnitude.  Below the least mantissa of full precision the numbers lie
twice as dense. -/
def Interval.ofDyadic (d : Dyadic) : Interval where
  center := 4 * d.mantissa
  below := if d.mantissa = Binary32.hiddenBit then 1 else 2
  above := 2
  exponent := d.exponent - 2
  closed := d.mantissa % 2 = 0

/-- A multiple of a unit of the grid with step `10 ^ scale`, on a common scale with `inUnits`. -/
def Interval.onGrid (i : Interval) (scale : Int) (c : Nat) : Nat :=
  c * Nat.pow 10 scale.toNat * Dyadic.down i.exponent

def Interval.inUnits (i : Interval) (scale : Int) (x : Nat) : Nat :=
  x * Dyadic.up i.exponent * Nat.pow 10 (-scale).toNat

/-- Whether `c` steps of the grid lie in the interval. -/
def Interval.contains (i : Interval) (scale : Int) (c : Nat) : Bool :=
  let x := i.onGrid scale c
  let low := i.inUnits scale (i.center - i.below)
  let high := i.inUnits scale (i.center + i.above)
  if i.closed then low ≤ x && x ≤ high else low < x && x < high

/-- The neighbour of the center on the grid that lies in the interval; if both do, the nearer one, and
the greater if both are equally near. -/
def Interval.nearest? (i : Interval) (scale : Int) : Option Nat :=
  let center := i.inUnits scale i.center
  let step := i.onGrid scale 1
  let c := center / step
  match i.contains scale c, i.contains scale (c + 1) with
  | true, true => some (if 2 * (center - c * step) < step then c else c + 1)
  | true, false => some c
  | false, true => some (c + 1)
  | false, false => none

/-- The first hit on the grids with step `10 ^ scale`, `10 ^ (scale - 1)` and so on, with its scale. -/
def Interval.search? (i : Interval) : Nat → Int → Option (Nat × Int)
  | 0, _ => none
  | grids + 1, scale =>
    match i.nearest? scale with
    | some c => some (c, scale)
    | none => i.search? grids (scale - 1)

/-- The digits of a positive magnitude as one number, and the power of ten they are multiplied with.
The search starts above the magnitude: `2 ^ k` is less than `10 ^ (k / 3 + 1)`.
Zero has no shortest digits. -/
def shortest? (d : Dyadic) : Option (Nat × Int) :=
  if d.mantissa = 0 then none
  else
    let bits : Int := d.mantissa.log2 + 1 + d.exponent
    (Interval.ofDyadic d).search? 80 (if 0 ≤ bits then bits / 3 + 1 else bits / 4 + 1)

/-- Digits times a power of ten, written without an exponent. -/
def positional (digits : Nat) (scale : Int) : String :=
  let ds := Nat.toDigits 10 digits
  if 0 ≤ scale then String.ofList (ds ++ List.replicate scale.toNat '0')
  else
    let places := (-scale).toNat
    let padded := List.replicate (places + 1 - ds.length) '0' ++ ds
    let whole := padded.length - places
    String.ofList (padded.take whole ++ '.' :: padded.drop whole)

end StackMutants.Shortest

/-- The text of a single precision number. -/
def StackMutants.Binary32.text (x : StackMutants.Binary32) : String :=
  let sign (negative : Bool) := if negative then "-" else ""
  match x.value with
  | .nan => "NaN"
  | .infinite negative => sign negative ++ "inf"
  | .finite negative d =>
    sign negative ++
      match StackMutants.Shortest.shortest? d with
      | some (digits, scale) => StackMutants.Shortest.positional digits scale
      | none => "0"
