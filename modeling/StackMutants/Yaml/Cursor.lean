/-!
# Yaml.Cursor — a place in a YAML text

A cursor is what is left of a text and how far the reading has come: the line, the column in characters,
and the number of bytes read.  A line ends at a carriage return, a line feed or both together, or at one
of three other break characters.
-/

namespace StackMutants.Yaml

def isBlank (c : Char) : Bool := c = ' ' || c = '\t'

def isBreak (c : Char) : Bool :=
  c = '\r' || c = '\n' || c = '\u0085' || c = '\u2028' || c = '\u2029'

/-- The characters that names of anchors and tag handles are made of. -/
def isNameChar (c : Char) : Bool :=
  ('a' ≤ c && c ≤ 'z') || ('A' ≤ c && c ≤ 'Z') || ('0' ≤ c && c ≤ '9') || c = '_' || c = '-'

/-- The characters that a text may consist of: no control characters but tab and line ends. -/
def isAllowed (c : Char) : Bool :=
  let n := c.toNat
  n = 0x09 || n = 0x0a || n = 0x0d || (0x20 ≤ n && n ≤ 0x7e) || n = 0x85 ||
    (0xa0 ≤ n && n ≤ 0xd7ff) || (0xe000 ≤ n && n ≤ 0xfffd) || 0x10000 ≤ n

structure Cursor where
  rest : List Char
  line : Nat := 0
  column : Nat := 0
  /-- How many bytes are behind the cursor. -/
  offset : Nat := 0

namespace Cursor

def head? (c : Cursor) : Option Char := c.rest.head?

/-- The character `n` places ahead. -/
def ahead? (c : Cursor) (n : Nat) : Option Char := c.rest[n]?

def atEnd (c : Cursor) : Bool := c.rest.isEmpty

/-- Whether the next character has the property. -/
def sees (c : Cursor) (p : Char → Bool) : Bool := c.head?.any p

/-- Whether the character `n` places ahead is a blank, a line break or the end. -/
def endsAt (c : Cursor) (n : Nat) : Bool :=
  match c.ahead? n with
  | none => true
  | some ch => isBlank ch || isBreak ch

/-- Passes `n` characters, none of which is a line break. -/
def skip (c : Cursor) (n : Nat) : Cursor :=
  { c with
    rest := c.rest.drop n, column := c.column + n
    offset := (c.rest.take n).foldl (fun bytes ch => bytes + ch.utf8Size) c.offset }

/-- Passes the characters that have a property, none of which is a line break. -/
def span (c : Cursor) (p : Char → Bool) : List Char × Cursor :=
  let taken := c.rest.takeWhile p
  (taken, c.skip taken.length)

def skipBlanks (c : Cursor) : Cursor := (c.span isBlank).2

/-- Passes everything up to the end of the line. -/
def skipToBreak (c : Cursor) : Cursor := (c.span fun ch => !isBreak ch).2

/-- Passes a line break, if there is one, and says what it stands for in a text: the two separators of
lines and paragraphs stand for themselves, any other break for a line feed. -/
def passBreak (c : Cursor) : List Char × Cursor :=
  match c.rest with
  | '\r' :: '\n' :: rest => (['\n'], ⟨rest, c.line + 1, 0, c.offset + 2⟩)
  | ch :: rest =>
    if isBreak ch then
      ([if ch = '\u2028' ∨ ch = '\u2029' then ch else '\n'],
        ⟨rest, c.line + 1, 0, c.offset + ch.utf8Size⟩)
    else ([], c)
  | [] => ([], c)

def skipBreak (c : Cursor) : Cursor := c.passBreak.2

/-- Whether a line begins here with three times the character and then a blank or the end of the line,
which marks the start or the end of a document. -/
def marksDocument (c : Cursor) (ch : Char) : Bool :=
  c.column = 0 && c.rest.take 3 == [ch, ch, ch] && c.endsAt 3

def atDocumentMark (c : Cursor) : Bool := c.marksDocument '-' || c.marksDocument '.'

end Cursor

end StackMutants.Yaml
