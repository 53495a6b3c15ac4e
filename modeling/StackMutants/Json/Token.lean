import StackMutants.Json.Basic

/-!
# Json.Token — the words of a JSON text

`tokens?` cuts a text into brackets, commas, colons, strings and bare words, one character after the
other.  What stands between two quotes is first collected as it is written and then read by
`readString?`.  A bare word runs up to the next blank, bracket or sign and is a number or one of the
three literal names.
-/

namespace StackMutants.Json

inductive Token where
  | openArray
  | closeArray
  | openObject
  | closeObject
  | comma
  | colon
  | string (s : Option String)
  | scalar (v : Json)
deriving Inhabited

/-- Four hexadecimal digits, as a number. -/
def hex4? (a b c d : Char) : Option Nat := Literal.natural? 16 [a, b, c, d]

def isHighSurrogate (n : Nat) : Bool := 0xd800 ≤ n && n < 0xdc00

def isLowSurrogate (n : Nat) : Bool := 0xdc00 ≤ n && n < 0xe000

/-- The character after a backslash, for the escapes of one letter. -/
def shortEscape? : Char → Option Char
  | '"' => some '"'
  | '\\' => some '\\'
  | '/' => some '/'
  | 'b' => some '\x08'
  | 'f' => some '\x0c'
  | 'n' => some '\n'
  | 'r' => some '\r'
  | 't' => some '\t'
  | _ => none

/-- Reads what stands between quotes.  The outer option is none if this is no string; the inner one is
none if half a surrogate pair keeps it from denoting a text. -/
def readString? : List Char → Option (Option (List Char))
  | [] => some (some [])
  | '\\' :: 'u' :: a :: b :: c :: d :: '\\' :: 'u' :: e :: f :: g :: h :: rest => do
    let n ← hex4? a b c d
    if isHighSurrogate n then
      let m ← hex4? e f g h
      let text ← readString? rest
      if isLowSurrogate m then
        some (text.map (Char.ofNat (0x10000 + (n - 0xd800) * 0x400 + (m - 0xdc00)) :: ·))
      else some none
    else
      let text ← readString? ('\\' :: 'u' :: e :: f :: g :: h :: rest)
      if isLowSurrogate n then some none else some (text.map (Char.ofNat n :: ·))
  | '\\' :: 'u' :: a :: b :: c :: d :: rest => do
    let n ← hex4? a b c d
    let text ← readString? rest
    if isHighSurrogate n || isLowSurrogate n then some none
    else some (text.map (Char.ofNat n :: ·))
  | '\\' :: c :: rest => do
    let c ← shortEscape? c
    let text ← readString? rest
    some (text.map (c :: ·))
  | c :: rest =>
    if c = '\\' ∨ c.toNat < 0x20 then none
    else (readString? rest).map fun text => text.map (c :: ·)

/-- Reads a number: an optional minus sign, digits without a superfluous zero in front, then perhaps a
fraction and an exponent. -/
def readNumber? (word : List Char) : Option Json := do
  let (negative, cs) := match word with
    | '-' :: cs => (true, cs)
    | cs => (false, cs)
  let (whole, cs) := Literal.spanDigits cs
  if whole.isEmpty || (whole.head? == some 0 && whole.length != 1) then none
  let (fraction, cs) ← match cs with
    | '.' :: cs =>
      let (fraction, cs) := Literal.spanDigits cs
      if fraction.isEmpty then none else some (some fraction, cs)
    | cs => some (none, cs)
  let exponent ← Literal.exponentPart? cs
  if fraction.isNone && cs.isEmpty && !(negative && whole == [0]) then
    let n : Int := Literal.ofDigits 10 whole
    some (.int (if negative then -n else n))
  else some (.real { negative, whole, fraction := fraction.getD [], exponent })

/-- Reads a word that stands without quotes. -/
def readWord? (word : List Char) : Option Json :=
  if word = ['n', 'u', 'l', 'l'] then some .null
  else if word = ['t', 'r', 'u', 'e'] then some (.bool true)
  else if word = ['f', 'a', 'l', 's', 'e'] then some (.bool false)
  else readNumber? word

def isBlank (c : Char) : Bool := c = ' ' || c = '\t' || c = '\n' || c = '\r'

/-- The tokens that are one character long. -/
def punctuation? : Char → Option Token
  | '[' => some .openArray
  | ']' => some .closeArray
  | '{' => some .openObject
  | '}' => some .closeObject
  | ',' => some .comma
  | ':' => some .colon
  | _ => none

/-- What a scan is in the middle of: nothing, a bare word or a string, the characters of which are kept
in reverse; in a string, whether the last character was a backslash that escapes the next. -/
inductive Pending where
  | nothing
  | word (read : List Char)
  | quoted (read : List Char) (escaping : Bool)

/-- The tokens of a text, given what the scan is in the middle of. -/
def scan? : Pending → List Char → Option (List Token)
  | .nothing, [] => some []
  | .word w, [] => (readWord? w.reverse).map fun v => [.scalar v]
  | .quoted _ _, [] => none
  | .quoted w true, c :: cs => scan? (.quoted (c :: w) false) cs
  | .quoted w false, c :: cs =>
    if c = '"' then do
      let s ← readString? w.reverse
      let rest ← scan? .nothing cs
      some (.string (s.map String.ofList) :: rest)
    else scan? (.quoted (c :: w) (c = '\\')) cs
  | .nothing, c :: cs =>
    if isBlank c then scan? .nothing cs
    else if c = '"' then scan? (.quoted [] false) cs
    else
      match punctuation? c with
      | some t => (scan? .nothing cs).map (t :: ·)
      | none => scan? (.word [c]) cs
  | .word w, c :: cs =>
    if isBlank c then do
      let v ← readWord? w.reverse
      let rest ← scan? .nothing cs
      some (.scalar v :: rest)
    else if c = '"' then none
    else
      match punctuation? c with
      | some t => do
        let v ← readWord? w.reverse
        let rest ← scan? .nothing cs
        some (.scalar v :: t :: rest)
      | none => scan? (.word (c :: w)) cs

def tokens? (cs : List Char) : Option (List Token) := scan? .nothing cs

end StackMutants.Json
