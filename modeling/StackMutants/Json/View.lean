import StackMutants.Datum.Basic
import StackMutants.Json.Basic

/-!
# Json.View — JSON values as data

Numbers are no texts and texts no numbers, and a number with a fraction or an exponent is no integer.
A case with content is an object with one field.  A record is an object, or an array of its fields in their
order.
-/

namespace StackMutants.Json

def text? : Json → Option String
  | .string s => s
  | _ => none

/-- The texts that name the fields, with the values; none if a name is no text. -/
def namedFields? (fields : List (Option String × Json)) : Option (List (String × Json)) :=
  fields.mapM fun f => f.1.map fun name => (name, f.2)

def choice? : Json → Option (Choice Json)
  | .string (some name) => some ⟨name, none⟩
  | .object [(some name, content)] => some ⟨name, some content⟩
  | _ => none

/-- The fields in the order of their names, as far as there are values; too many are an error. -/
def inOrder? (names : List String) (values : List Json) : Option (List (Option Json)) :=
  if values.length ≤ names.length then
    some (values.map some ++ List.replicate (names.length - values.length) none)
  else none

/-- The digits of an integer as a literal. -/
def literalOfInt (n : Int) : Literal :=
  { negative := n < 0, whole := (Nat.toDigits 10 n.natAbs).filterMap (Literal.digit? 10)
    fraction := [], exponent := 0 }

/-- The literal that a number is. -/
def literal? : Json → Option Literal
  | .int n => some (literalOfInt n)
  | .real l => some l
  | _ => none

instance : Datum Option Json where
  text? := text?
  bool?
    | .bool b => some b
    | _ => none
  nat?
    | .int (.ofNat n) => some n
    | _ => none
  int?
    | .int n => some n
    | _ => none
  single? v := do
    let l ← v.literal?
    some (.ofMagnitude l.negative (← l.toBinary64Fast?))
  optional?
    | .null => some none
    | v => some (some v)
  items?
    | .array items => some items
    | _ => none
  fields? names
    | .array items => inOrder? names items
    | .object fields => do Datum.pick? names (← namedFields? fields)
    | _ => none
  choice? := choice?
  isNothing
    | .null => true
    | _ => false

@[simp] theorem text?_text (s : String) : Datum.text? (text s) = some s := rfl

@[simp] theorem nat?_nat (n : Nat) : Datum.nat? (nat n) = some n := rfl

end StackMutants.Json
