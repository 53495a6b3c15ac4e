import StackMutants.Number.Literal
import StackMutants.Yaml.Cursor

/-!
# Yaml.Tag — the addresses that tags consist of

A tag is a string of bytes.  Percent escapes may write any bytes that have the shape of an encoded
character, so a tag need not be a text (`Tag.text?`).  A tag ends in front of its first zero byte.
-/

namespace StackMutants.Yaml

abbrev Tag := List UInt8

namespace Tag

def ofString (s : String) : Tag := s.toList.flatMap String.utf8EncodeChar

/-- The text that a tag is, if it is one. -/
def text? (t : Tag) : Option String := String.fromUTF8? ⟨t.toArray⟩

/-- The tag of a type that plain scalars are resolved to. -/
def core (name : String) : Tag := ofString ("tag:yaml.org,2002:" ++ name)

/-- The exclamation mark that tags of an application begin with. -/
def mark : UInt8 := 0x21

/-- The name of a case that a tag spells.  A lone exclamation mark is a name. -/
def caseName? : Tag → Option String
  | [b] => if b = mark then text? [b] else none
  | b :: name => if b = mark then text? name else none
  | [] => none

/-! ## Reading -/

/-- The characters that an address may contain besides those of names. -/
def marks : List Char :=
  [';', '/', '?', ':', '@', '&', '=', '+', '$', '.', '%', '!', '~', '*', '\'', '(', ')']

/-- The characters that an address consists of; between angle brackets there are more. -/
def isTagChar (verbatim : Bool) (c : Char) : Bool :=
  isNameChar c || marks.contains c || (verbatim && (c = ',' || c = '[' || c = ']'))

/-- The number of bytes of a character whose encoding begins with the byte. -/
def encodedLength? (byte : UInt8) : Option Nat :=
  if byte < 0x80 then some 1
  else if 0xc0 ≤ byte && byte < 0xe0 then some 2
  else if 0xe0 ≤ byte && byte < 0xf0 then some 3
  else if 0xf0 ≤ byte && byte < 0xf8 then some 4
  else none

/-- Whether the byte may stand in an encoded character, but not first. -/
def isContinuation (byte : UInt8) : Bool := 0x80 ≤ byte && byte < 0xc0

/-- The bytes that `n` percent escapes stand for, and what follows them. -/
def escapes? : Nat → List Char → Option (List UInt8 × List Char)
  | 0, cs => some ([], cs)
  | n + 1, '%' :: a :: b :: cs => do
    let byte ← Literal.natural? 16 [a, b]
    let (bytes, rest) ← escapes? n cs
    some (UInt8.ofNat byte :: bytes, rest)
  | _ + 1, _ => none

/-- The bytes of one character that is written in percent escapes, and what follows it.  Only the kind of
each byte is looked at, not the character. -/
def escapedChar? (cs : List Char) : Option (List UInt8 × List Char) := do
  let (first, _) ← escapes? 1 cs
  let (bytes, rest) ← escapes? (← encodedLength? (first.headD 0)) cs
  if bytes.tail.all isContinuation then some (bytes, rest) else none

/-- The bytes of an address, with its percent escapes replaced.  The first argument bounds the number of
characters. -/
def bytes? : Nat → List Char → Option (List UInt8)
  | 0, _ => some []
  | _, [] => some []
  | n + 1, '%' :: cs => do
    let (bytes, rest) ← escapedChar? ('%' :: cs)
    (bytes? n rest).map (bytes ++ ·)
  | n + 1, c :: cs => (bytes? n cs).map (String.utf8EncodeChar c ++ ·)

/-- Reads an address; with `mayBeEmpty`, there may be none. -/
def read? (verbatim mayBeEmpty : Bool) (c : Cursor) : Option (Tag × Cursor) :=
  let (raw, c) := c.span (isTagChar verbatim)
  if raw.isEmpty && !mayBeEmpty then none
  else (bytes? raw.length raw).map fun bytes => (bytes.takeWhile (· != 0), c)

/-- Reads a tag handle: an exclamation mark, a name, and perhaps another exclamation mark. -/
def handle? (c : Cursor) : Option (String × Cursor) :=
  if c.sees (· = '!') then
    let (name, c) := (c.skip 1).span isNameChar
    if c.sees (· = '!') then some (String.ofList ('!' :: name ++ ['!']), c.skip 1)
    else some (String.ofList ('!' :: name), c)
  else none

/-- Whether a handle is closed by a second exclamation mark. -/
def isClosed (handle : String) : Bool := handle != "!" && handle.toList.getLast? == some '!'

end Tag

end StackMutants.Yaml
