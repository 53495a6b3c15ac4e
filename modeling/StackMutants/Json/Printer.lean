import StackMutants.Json.Basic

/-!
# Json.Printer — JSON texts of values

`compact` writes no blanks at all.  `pretty` puts every item and every field on a line of its own, two
blanks further in than the bracket that holds it; an empty array or object stays on one line.  Both
write the fields in their order.  In a string, quotes, backslashes and control characters are escaped,
and everything else stands for itself.
-/

namespace StackMutants.Json

def hexDigit (n : Nat) : Char := Nat.digitChar n

/-- A character as it stands inside a string. -/
def escapeChar (c : Char) : List Char :=
  match c with
  | '"' => ['\\', '"']
  | '\\' => ['\\', '\\']
  | '\x08' => ['\\', 'b']
  | '\x0c' => ['\\', 'f']
  | '\n' => ['\\', 'n']
  | '\r' => ['\\', 'r']
  | '\t' => ['\\', 't']
  | c =>
    if c.toNat < 0x20 then ['\\', 'u', '0', '0', hexDigit (c.toNat / 16), hexDigit (c.toNat % 16)]
    else [c]

/-- A string that denotes no text is written as the half of a pair that it could be. -/
def writeString (s : Option String) : List Char :=
  match s with
  | some s => '"' :: (s.toList.flatMap escapeChar ++ ['"'])
  | none => ['"', '\\', 'u', 'd', '8', '0', '0', '"']

def writeInt (n : Int) : List Char :=
  if n < 0 then '-' :: Nat.toDigits 10 n.natAbs else Nat.toDigits 10 n.natAbs

def writeReal (l : Literal) : List Char :=
  (if l.negative then ['-'] else []) ++ l.whole.map Nat.digitChar ++
    (if l.fraction.isEmpty then [] else '.' :: l.fraction.map Nat.digitChar) ++
    'e' :: writeInt l.exponent

/-- A scalar; arrays and objects are written by the two printers below. -/
def writeScalar : Json → List Char
  | .null => ['n', 'u', 'l', 'l']
  | .bool true => ['t', 'r', 'u', 'e']
  | .bool false => ['f', 'a', 'l', 's', 'e']
  | .int n => writeInt n
  | .real l => writeReal l
  | .string s => writeString s
  | .array _ | .object _ => []

mutual

def compact : Json → List Char
  | .array items => '[' :: (compactItems items ++ [']'])
  | .object fields => '{' :: (compactFields fields ++ ['}'])
  | v => writeScalar v

def compactItems : List Json → List Char
  | [] => []
  | [v] => compact v
  | v :: vs => compact v ++ ',' :: compactItems vs

def compactFields : List (Option String × Json) → List Char
  | [] => []
  | [f] => writeString f.1 ++ ':' :: compact f.2
  | f :: fs => writeString f.1 ++ ':' :: (compact f.2 ++ ',' :: compactFields fs)

end

/-- The start of a line at a nesting depth. -/
def newline (depth : Nat) : List Char := '\n' :: List.replicate (2 * depth) ' '

mutual

/-- The pretty text of a value that stands at a nesting depth. -/
def prettyAt (depth : Nat) : Json → List Char
  | .array [] => ['[', ']']
  | .array (v :: vs) => '[' :: (prettyItems (depth + 1) (v :: vs) ++ newline depth ++ [']'])
  | .object [] => ['{', '}']
  | .object (f :: fs) => '{' :: (prettyFields (depth + 1) (f :: fs) ++ newline depth ++ ['}'])
  | v => writeScalar v

def prettyItems (depth : Nat) : List Json → List Char
  | [] => []
  | [v] => newline depth ++ prettyAt depth v
  | v :: vs => newline depth ++ prettyAt depth v ++ ',' :: prettyItems depth vs

def prettyFields (depth : Nat) : List (Option String × Json) → List Char
  | [] => []
  | [f] => newline depth ++ writeString f.1 ++ ':' :: ' ' :: prettyAt depth f.2
  | f :: fs =>
    newline depth ++ writeString f.1 ++ ':' :: ' ' :: (prettyAt depth f.2 ++
      ',' :: prettyFields depth fs)

end

def pretty (v : Json) : List Char := prettyAt 0 v

end StackMutants.Json
