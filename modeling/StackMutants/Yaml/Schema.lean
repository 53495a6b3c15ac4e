import StackMutants.Number.Binary32

/-!
# Yaml.Schema — what plain scalars spell

Only some spellings stand for nothing, truth values and numbers; every scalar is a text.  Digits that
begin with a superfluous zero spell no integer.
-/

namespace StackMutants.Yaml

def spellsNull (s : String) : Bool := ["null", "Null", "NULL", "~"].contains s

def spelledBool? (s : String) : Option Bool :=
  if ["true", "True", "TRUE"].contains s then some true
  else if ["false", "False", "FALSE"].contains s then some false
  else none

/-- The bases that a letter after a zero announces. -/
def announcedBase? : Char → Option Nat
  | 'x' => some 16
  | 'o' => some 8
  | 'b' => some 2
  | _ => none

/-- Reads an integer without its sign. -/
def magnitude? : List Char → Option Nat
  | '0' :: c :: cs =>
    match announcedBase? c with
    | some base => Literal.natural? base cs
    | none => none
  | cs => Literal.natural? 10 cs

/-- Reads an integer; only a plus may stand in front of it. -/
def spelledNat? (s : String) : Option Nat :=
  match s.toList with
  | '+' :: cs => magnitude? cs
  | cs => magnitude? cs

def spelledInt? (s : String) : Option Int :=
  match s.toList with
  | '-' :: cs => (magnitude? cs).map fun n => -(n : Int)
  | '+' :: cs => (magnitude? cs).map fun n => (n : Int)
  | cs => (magnitude? cs).map fun n => (n : Int)

/-- Reads a decimal literal without its sign: digits with a point before, in or behind them or none,
and perhaps an exponent. -/
def unsignedLiteral? (negative : Bool) (cs : List Char) : Option Literal :=
  let (whole, cs) := Literal.spanDigits cs
  let (fraction, cs) := match cs with
    | '.' :: cs => Literal.spanDigits cs
    | cs => ([], cs)
  if whole.isEmpty && fraction.isEmpty then none
  else (Literal.exponentPart? cs).map fun exponent => { negative, whole, fraction, exponent }

def literal? (cs : List Char) : Option Literal :=
  match cs with
  | '-' :: cs => unsignedLiteral? true cs
  | '+' :: cs => unsignedLiteral? false cs
  | cs => unsignedLiteral? false cs

/-- Reads a number in double precision and rounds it to single precision.  A literal that is too large
for double precision is no number. -/
def spelledSingle? (s : String) : Option Binary32 :=
  if [".inf", ".Inf", ".INF", "+.inf", "+.Inf", "+.INF"].contains s then some (.infinity false)
  else if ["-.inf", "-.Inf", "-.INF"].contains s then some (.infinity true)
  else if [".nan", ".NaN", ".NAN"].contains s then some .nan
  else do
    let l ← literal? s.toList
    let d ← Format.binary64.ofLiteral l
    some (.ofMagnitude l.negative (some d))

end StackMutants.Yaml
