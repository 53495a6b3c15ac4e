import StackMutants.Json.Token

/-!
# Json.Reader — from tokens to a value

A stack machine reads one token at a time.  Each frame of the stack is an array or an object that is
still open, with what it holds so far in reverse.  A text is a value exactly if the machine takes every
token of it and stands behind an outermost value at the end.
-/

namespace StackMutants.Json

/-- An open array, or an open object in which the value of `name` is being read. -/
inductive Frame where
  | array (items : List Json)
  | object (fields : List (Option String × Json)) (name : Option String)

/-- What the machine has just done. -/
inductive State where
  /-- A value has to follow, or the end of the array on top if it is still empty. -/
  | beforeValue (mayClose : Bool) (stack : List Frame)
  /-- The name of a field has to follow, or the end of the object if it is still empty. -/
  | beforeName (mayClose : Bool) (fields : List (Option String × Json)) (stack : List Frame)
  /-- The colon after a name has to follow. -/
  | afterName (fields : List (Option String × Json)) (name : Option String) (stack : List Frame)
  /-- A value is complete, and the frame on top waits for it. -/
  | afterValue (value : Json) (stack : List Frame)

def State.step : State → Token → Option State
  | .beforeValue mayClose stack, token =>
    match token, mayClose, stack with
    | .openArray, _, _ => some (.beforeValue true (.array [] :: stack))
    | .openObject, _, _ => some (.beforeName true [] stack)
    | .string s, _, _ => some (.afterValue (.string s) stack)
    | .scalar v, _, _ => some (.afterValue v stack)
    | .closeArray, true, .array items :: rest => some (.afterValue (.array items.reverse) rest)
    | _, _, _ => none
  | .beforeName mayClose fields stack, token =>
    match token, mayClose with
    | .string s, _ => some (.afterName fields s stack)
    | .closeObject, true => some (.afterValue (.object fields.reverse) stack)
    | _, _ => none
  | .afterName fields name stack, token =>
    match token with
    | .colon => some (.beforeValue false (.object fields name :: stack))
    | _ => none
  | .afterValue value stack, token =>
    match token, stack with
    | .comma, .array items :: rest => some (.beforeValue false (.array (value :: items) :: rest))
    | .closeArray, .array items :: rest =>
      some (.afterValue (.array (value :: items).reverse) rest)
    | .comma, .object fields name :: rest =>
      some (.beforeName false ((name, value) :: fields) rest)
    | .closeObject, .object fields name :: rest =>
      some (.afterValue (.object ((name, value) :: fields).reverse) rest)
    | _, _ => none

def State.run (s : State) : List Token → Option State
  | [] => some s
  | t :: ts => (s.step t).bind fun s' => s'.run ts

/-- The value that a whole text denotes. -/
def read? (cs : List Char) : Option Json := do
  let ts ← tokens? cs
  match ← (State.beforeValue false []).run ts with
  | .afterValue v [] => some v
  | _ => none

end StackMutants.Json
