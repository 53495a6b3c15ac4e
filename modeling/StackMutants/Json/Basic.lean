import StackMutants.Number.Literal

/-!
# Json.Basic — values of the JSON data format

A number is an integer or, if it is written with a fraction, an exponent or as a negative zero, a
decimal literal.  An object keeps its fields in the order they are written in, repetitions included.
A string may spell half of a surrogate pair; such a string denotes no text, but a value that nobody
looks at may contain it.
-/

namespace StackMutants

inductive Json where
  | null
  | bool (b : Bool)
  | int (n : Int)
  | real (l : Literal)
  /-- A string, with the text that it denotes if it denotes one. -/
  | string (s : Option String)
  | array (items : List Json)
  | object (fields : List (Option String × Json))
deriving Inhabited

namespace Json

def text (s : String) : Json := .string (some s)

def nat (n : Nat) : Json := .int n

/-- An object from fields that all have a text for a name. -/
def record (fields : List (String × Json)) : Json := .object (fields.map fun f => (some f.1, f.2))

mutual

/-- How deep arrays and objects are nested. -/
def depth : Json → Nat
  | .array items => depthOfItems items + 1
  | .object fields => depthOfFields fields + 1
  | _ => 0

def depthOfItems : List Json → Nat
  | [] => 0
  | v :: vs => max v.depth (depthOfItems vs)

def depthOfFields : List (Option String × Json) → Nat
  | [] => 0
  | f :: fs => max f.2.depth (depthOfFields fs)

end

mutual

/-- Whether a property holds of every value inside a value, itself included, and whether every name of
a field is a text. -/
def everywhere (p : Json → Bool) : Json → Bool
  | .array items => p (.array items) && everywhereInItems p items
  | .object fields => p (.object fields) && everywhereInFields p fields
  | v => p v

def everywhereInItems (p : Json → Bool) : List Json → Bool
  | [] => true
  | v :: vs => everywhere p v && everywhereInItems p vs

def everywhereInFields (p : Json → Bool) : List (Option String × Json) → Bool
  | [] => true
  | f :: fs => f.1.isSome && everywhere p f.2 && everywhereInFields p fs

end

/-- Of the fields with one name keeps the last. -/
def lastOfEach (fields : List (Option String × Json)) : List (Option String × Json) :=
  fields.foldr
    (fun field rest => if rest.any (·.1 == field.1) then rest else field :: rest) []

mutual

/-- The value with one field for each name in every object: the one written last. -/
def distinct : Json → Json
  | .array items => .array (distinctItems items)
  | .object fields => .object (lastOfEach (distinctFields fields))
  | v => v

def distinctItems : List Json → List Json
  | [] => []
  | v :: vs => v.distinct :: distinctItems vs

def distinctFields : List (Option String × Json) → List (Option String × Json)
  | [] => []
  | f :: fs => (f.1, f.2.distinct) :: distinctFields fs

end

end Json

end StackMutants
