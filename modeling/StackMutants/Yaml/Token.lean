import StackMutants.Yaml.Scalar
import StackMutants.Yaml.Tag

/-!
# Yaml.Token — the tokens of a YAML text

In block context the structure of a text is in its indentation, so the tokens that begin and end blocks
are derived from columns.  A mapping key is recognised only when its colon is met; the place where a key
may have begun is remembered until then (`KeySpot`), and the tokens that it calls for are inserted there.
A key that is not written with a question mark has to be on one line, and its colon at most 1024 bytes
behind its beginning.
-/

namespace StackMutants.Yaml

inductive Token where
  | versionDirective (major minor : Nat)
  | tagDirective (handle : String) (start : Tag)
  | documentStart
  | documentEnd
  | blockSequenceStart
  | blockMappingStart
  | blockEnd
  | flowSequenceStart
  | flowSequenceEnd
  | flowMappingStart
  | flowMappingEnd
  | blockEntry
  | flowEntry
  | key
  | value
  | alias (name : String)
  | anchor (name : String)
  | tag (handle : String) (suffix : Tag)
  | scalar (style : Style) (text : String)
deriving DecidableEq, Repr

/-- A place where a key may have begun. -/
structure KeySpot where
  /-- The number of tokens in front of it. -/
  token : Nat
  line : Nat
  column : Nat
  offset : Nat
  /-- Whether nothing but a key can stand there. -/
  required : Bool

structure Scanner where
  cursor : Cursor
  /-- How many flow collections are open. -/
  flow : Nat := 0
  /-- The column of the innermost block, -1 outside all blocks. -/
  indent : Int := -1
  /-- The columns of the blocks around it. -/
  outer : List Int := []
  /-- Whether a key may begin at the next token. -/
  keyAllowed : Bool := true
  /-- For the block context and each open flow collection, innermost first, where a key may have begun. -/
  spots : List (Option KeySpot) := [none]
  tokens : Array Token := #[]

namespace Scanner

def push (s : Scanner) (t : Token) : Scanner := { s with tokens := s.tokens.push t }

/-- Puts a token in front of those that follow the first `n`. -/
def insertAt (s : Scanner) (n : Nat) (t : Token) : Scanner :=
  let tail := s.tokens.extract n s.tokens.size
  { s with tokens := (s.tokens.take n).push t ++ tail }

/-! ## Blocks -/

/-- Begins a block at a column that is further in than the innermost block. -/
def beginBlock (s : Scanner) (column : Nat) (place : Nat) (t : Token) : Scanner :=
  if s.flow = 0 && s.indent < column then
    { s.insertAt place t with indent := column, outer := s.indent :: s.outer }
  else s

/-- The number of blocks to end before a column, and the innermost block and those around it then. -/
def blocksBeyond (column : Int) : Int → List Int → Nat × Int × List Int
  | indent, [] => (0, indent, [])
  | indent, i :: is =>
    if column < indent then
      let (n, rest) := blocksBeyond column i is
      (n + 1, rest)
    else (0, indent, i :: is)

/-- Ends the blocks that lie further in than a column. -/
def endBlocks (s : Scanner) (column : Int) : Scanner :=
  if s.flow = 0 then
    let (n, indent, outer) := blocksBeyond column s.indent s.outer
    { s with indent, outer, tokens := s.tokens ++ Array.replicate n .blockEnd }
  else s

/-! ## Places where a key may begin -/

/-- Forgets the innermost spot; a required key that is given up is an error. -/
def dropSpot (s : Scanner) : Option Scanner :=
  match s.spots with
  | some spot :: spots => if spot.required then none else some { s with spots := none :: spots }
  | _ => some s

/-- Remembers that a key may begin here, if it may. -/
def saveSpot (s : Scanner) : Option Scanner :=
  if s.keyAllowed then do
    let s ← s.dropSpot
    let c := s.cursor
    let spot : KeySpot :=
      { token := s.tokens.size, line := c.line, column := c.column, offset := c.offset
        required := s.flow = 0 && s.indent = c.column }
    some { s with spots := some spot :: s.spots.tail }
  else some s

/-- Forgets the spots of keys that would be too long or run over a line end. -/
def dropStale (s : Scanner) : Option Scanner := do
  let isStale (spot : KeySpot) : Bool :=
    spot.line < s.cursor.line || spot.offset + 1024 < s.cursor.offset
  if s.spots.any fun spot => spot.any fun spot => spot.required && isStale spot then none
  some { s with spots := s.spots.map fun spot => spot.filter fun spot => !isStale spot }

/-! ## The way to the next token -/

/-- Passes blanks, comments and line breaks.  In block context tabs are no blanks where a key may begin,
and a new line makes a key possible.  The first argument bounds the number of lines. -/
def toNextToken : Nat → Scanner → Scanner
  | 0, s => s
  | n + 1, s =>
    let c := s.cursor
    let c := if c.column = 0 && c.sees (· = '\ufeff') then c.skip 1 else c
    let tabs := s.flow != 0 || !s.keyAllowed
    let c := (c.span fun ch => ch = ' ' || (tabs && ch = '\t')).2
    let c := if c.sees (· = '#') then c.skipToBreak else c
    if c.sees isBreak then
      toNextToken n { s with cursor := c.skipBreak, keyAllowed := s.keyAllowed || s.flow = 0 }
    else { s with cursor := c }

/-! ## Directives -/

/-- Reads a number of a version, of at most nine digits. -/
def versionNumber? (c : Cursor) : Option (Nat × Cursor) :=
  let (digits, c) := c.span Literal.isDigit
  if digits.length ≤ 9 then (Literal.natural? 10 digits).map fun n => (n, c) else none

/-- Reads the values of a directive with a known name. -/
def directiveToken? (name : List Char) (c : Cursor) : Option (Token × Cursor) :=
  if name = ['Y', 'A', 'M', 'L'] then do
    let (major, c) ← versionNumber? c.skipBlanks
    if !c.sees (· = '.') then none
    let (minor, c) ← versionNumber? (c.skip 1)
    some (.versionDirective major minor, c)
  else if name = ['T', 'A', 'G'] then do
    let (handle, c) ← Tag.handle? c.skipBlanks
    if !(handle = "!" || Tag.isClosed handle) then none
    if !c.sees isBlank then none
    let (start, c) ← Tag.read? true false c.skipBlanks
    if !c.endsAt 0 then none
    some (.tagDirective handle start, c)
  else none

/-- Reads a directive, with a comment behind it, up to the end of its line. -/
def directive (s : Scanner) : Option Scanner := do
  let s ← (s.endBlocks (-1)).dropSpot
  let (name, c) := (s.cursor.skip 1).span isNameChar
  if name.isEmpty || !c.endsAt 0 then none
  let (t, c) ← directiveToken? name c
  let c := c.skipBlanks
  let c := if c.sees (· = '#') then c.skipToBreak else c
  if !(c.atEnd || c.sees isBreak) then none
  some { s.push t with keyAllowed := false, cursor := c.skipBreak }

/-! ## Indicators -/

def documentMark (s : Scanner) (t : Token) : Option Scanner := do
  let s ← (s.endBlocks (-1)).dropSpot
  some { s.push t with keyAllowed := false, cursor := s.cursor.skip 3 }

def flowStart (s : Scanner) (t : Token) : Option Scanner := do
  let s ← s.saveSpot
  some { s.push t with
    spots := none :: s.spots, flow := s.flow + 1, keyAllowed := true, cursor := s.cursor.skip 1 }

def flowEnd (s : Scanner) (t : Token) : Option Scanner := do
  let s ← s.dropSpot
  let spots := if s.flow = 0 then s.spots else s.spots.tail
  some { s.push t with
    spots, flow := s.flow - 1, keyAllowed := false, cursor := s.cursor.skip 1 }

def flowEntry (s : Scanner) : Option Scanner := do
  let s ← s.dropSpot
  some { s.push .flowEntry with keyAllowed := true, cursor := s.cursor.skip 1 }

def blockEntry (s : Scanner) : Option Scanner := do
  if s.flow = 0 && !s.keyAllowed then none
  let s ← (s.beginBlock s.cursor.column s.tokens.size .blockSequenceStart).dropSpot
  some { s.push .blockEntry with keyAllowed := true, cursor := s.cursor.skip 1 }

def keyMark (s : Scanner) : Option Scanner := do
  if s.flow = 0 && !s.keyAllowed then none
  let s ← (s.beginBlock s.cursor.column s.tokens.size .blockMappingStart).dropSpot
  some { s.push .key with keyAllowed := s.flow = 0, cursor := s.cursor.skip 1 }

def valueMark (s : Scanner) : Option Scanner :=
  let finish (s : Scanner) : Scanner := { s.push .value with cursor := s.cursor.skip 1 }
  match s.spots with
  | some spot :: spots =>
    let s := (s.insertAt spot.token .key).beginBlock spot.column spot.token .blockMappingStart
    some (finish { s with spots := none :: spots, keyAllowed := false })
  | _ =>
    if s.flow = 0 && !s.keyAllowed then none
    else
      let s := s.beginBlock s.cursor.column s.tokens.size .blockMappingStart
      some (finish { s with keyAllowed := s.flow = 0 })

/-! ## Properties of nodes and scalars -/

/-- The characters, blanks and line breaks apart, that may follow the name of an anchor. -/
def nameEnds : List Char := ['?', ':', ',', ']', '}', '%', '@', '\x60']

/-- Reads the name of an anchor or an alias. -/
def named (s : Scanner) (token : String → Token) : Option Scanner := do
  let s ← s.saveSpot
  let (name, c) := (s.cursor.skip 1).span isNameChar
  if name.isEmpty || !(c.endsAt 0 || c.sees nameEnds.contains) then none
  some { s.push (token (String.ofList name)) with keyAllowed := false, cursor := c }

/-- Reads a tag: verbatim in angle brackets, or a handle with a suffix, or a suffix of the handle `!`.
A lone exclamation mark is a tag without a handle. -/
def tagToken? (c : Cursor) : Option (Token × Cursor) :=
  if c.ahead? 1 == some '<' then do
    let (tag, c) ← Tag.read? true false (c.skip 2)
    if !c.sees (· = '>') then none
    some (.tag "" tag, c.skip 1)
  else do
    let (handle, c) ← Tag.handle? c
    if Tag.isClosed handle then
      let (suffix, c) ← Tag.read? false false c
      some (.tag handle suffix, c)
    else
      let (more, c) ← Tag.read? false true c
      let suffix := (Tag.ofString handle).tail ++ more
      if suffix.isEmpty then some (.tag "" [Tag.mark], c) else some (.tag "!" suffix, c)

def tag (s : Scanner) : Option Scanner := do
  let s ← s.saveSpot
  let (t, c) ← tagToken? s.cursor
  if !(c.endsAt 0 || (s.flow != 0 && c.sees (· = ','))) then none
  some { s.push t with keyAllowed := false, cursor := c }

def blockScalarToken (s : Scanner) (literal : Bool) : Option Scanner := do
  let s ← s.dropSpot
  let (text, c) ← blockScalar literal s.indent s.cursor
  let t : Token := .scalar (if literal then .literal else .folded) (String.ofList text)
  some { s.push t with keyAllowed := true, cursor := c }

def quotedScalarToken (s : Scanner) (single : Bool) : Option Scanner := do
  let s ← s.saveSpot
  let (text, c) ← quotedScalar single s.cursor
  let t : Token := .scalar (if single then .singleQuoted else .doubleQuoted) (String.ofList text)
  some { s.push t with keyAllowed := false, cursor := c }

def plainScalarToken (s : Scanner) : Option Scanner := do
  let s ← s.saveSpot
  let (text, c, newLine) ← plainScalar (s.flow != 0) (s.indent + 1) s.cursor
  some { s.push (.scalar .plain (String.ofList text)) with keyAllowed := newLine, cursor := c }

/-! ## One token after the other -/

/-- The characters that mean something else at the start of a token. -/
def indicators : List Char :=
  ['-', '?', ':', ',', '[', ']', '{', '}', '#', '&', '*', '!', '|', '>', '\'', '"', '%', '@', '\x60']

/-- Whether a plain scalar may begin here. -/
def mayBeginPlain (flow : Bool) (c : Cursor) (ch : Char) : Bool :=
  !(isBlank ch || isBreak ch || indicators.contains ch) ||
    (ch = '-' && !(c.ahead? 1).any isBlank) ||
    (!flow && (ch = '?' || ch = ':') && !c.endsAt 1)

/-- Reads the token that begins with a character, which is the next one. -/
def token (s : Scanner) (ch : Char) : Option Scanner :=
  let c := s.cursor
  let inFlow := s.flow != 0
  if c.column = 0 && ch = '%' then s.directive
  else if c.marksDocument '-' then s.documentMark .documentStart
  else if c.marksDocument '.' then s.documentMark .documentEnd
  else if ch = '[' then s.flowStart .flowSequenceStart
  else if ch = '{' then s.flowStart .flowMappingStart
  else if ch = ']' then s.flowEnd .flowSequenceEnd
  else if ch = '}' then s.flowEnd .flowMappingEnd
  else if ch = ',' then s.flowEntry
  else if ch = '-' && c.endsAt 1 then s.blockEntry
  else if ch = '?' && (inFlow || c.endsAt 1) then s.keyMark
  else if ch = ':' && (inFlow || c.endsAt 1) then s.valueMark
  else if ch = '*' then s.named .alias
  else if ch = '&' then s.named .anchor
  else if ch = '!' then s.tag
  else if ch = '|' && !inFlow then s.blockScalarToken true
  else if ch = '>' && !inFlow then s.blockScalarToken false
  else if ch = '\'' then s.quotedScalarToken true
  else if ch = '"' then s.quotedScalarToken false
  else if mayBeginPlain inFlow c ch then s.plainScalarToken
  else none

/-- All tokens of the text that is left.  The first argument bounds the number of tokens. -/
def run : Nat → Scanner → Option (Array Token)
  | 0, _ => none
  | n + 1, s => do
    let s ← (s.toNextToken (s.cursor.rest.length + 1)).dropStale
    match s.cursor.head? with
    | none =>
      let s ← (s.endBlocks (-1)).dropSpot
      some s.tokens
    | some ch =>
      let s ← (s.endBlocks s.cursor.column).token ch
      run n s

end Scanner

/-- The tokens of a text. -/
def tokens? (cs : List Char) : Option (List Token) :=
  if cs.all isAllowed then
    (Scanner.run (cs.length + 1) { cursor := { rest := cs } }).map (·.toList)
  else none

end StackMutants.Yaml
