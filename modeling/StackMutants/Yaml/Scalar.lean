import StackMutants.Number.Literal
import StackMutants.Yaml.Cursor

/-!
# Yaml.Scalar — scalars in the styles of YAML

A scalar stands in the text plainly, between single or double quotes, or as a block whose lines are kept
(literal) or joined (folded).  Where a plain or quoted scalar runs over a line break, the blanks around
the break are dropped and a single break becomes a space.
-/

namespace StackMutants.Yaml

inductive Style where
  | plain
  | singleQuoted
  | doubleQuoted
  | literal
  | folded
deriving DecidableEq, Repr

/-- What stands between two words of a scalar: blanks on one line, or line breaks. -/
structure Gap where
  /-- The blanks, in reverse. -/
  blanks : List Char := []
  /-- Whether a line break has been passed. -/
  broken : Bool := false
  /-- The first line break. -/
  first : List Char := []
  /-- The line breaks after the first. -/
  more : List Char := []

namespace Gap

/-- What the gap stands for: the blanks, or the folded line breaks. -/
def text (g : Gap) : List Char :=
  if !g.broken then g.blanks.reverse
  else if g.first = ['\n'] then if g.more.isEmpty then [' '] else g.more
  else g.first ++ g.more

def addBreak (g : Gap) (b : List Char) : Gap :=
  if g.broken then { g with more := g.more ++ b } else { broken := true, first := b }

/-- Passes blanks and line breaks.  Once a line is broken, a tab left of `indent` is refused.  The first
argument bounds the number of characters. -/
def pass (indent : Int) : Nat → Gap → Cursor → Option (Gap × Cursor)
  | 0, g, c => some (g, c)
  | n + 1, g, c =>
    match c.head? with
    | none => some (g, c)
    | some ch =>
      if isBlank ch then
        if !g.broken then pass indent n { g with blanks := ch :: g.blanks } (c.skip 1)
        else if ch = '\t' && (c.column : Int) < indent then none
        else pass indent n g (c.skip 1)
      else if isBreak ch then
        let (b, c) := c.passBreak
        pass indent n (g.addBreak b) c
      else some (g, c)

end Gap

/-! ## Plain scalars -/

/-- Whether the character is one that separates or closes in a flow collection. -/
def isFlowIndicator (c : Char) : Bool := c = ',' || c = '[' || c = ']' || c = '{' || c = '}'

/-- Passes the characters of a plain scalar up to a blank, a line break or an indicator that ends the
scalar.  In a flow collection a colon directly in front of an indicator is refused. -/
def plainWord (flow : Bool) : List Char → Option (List Char)
  | [] => some []
  | c :: cs =>
    if isBlank c || isBreak c then some []
    else if flow && c = ':' && cs.head?.any (fun d => isFlowIndicator d || d = '?') then none
    else if c = ':' && cs.head?.all (fun d => isBlank d || isBreak d) then some []
    else if flow && isFlowIndicator c then some []
    else (plainWord flow cs).map (c :: ·)

/-- The rest of a plain scalar after a gap.  `read` is what was read, in reverse.  The last component
says whether the scalar was left on a new line.  The first argument bounds the number of words. -/
def plainFrom (flow : Bool) (indent : Int) :
    Nat → (read : List Char) → Gap → Cursor → Option (List Char × Cursor × Bool)
  | 0, read, g, c => some (read.reverse, c, g.broken)
  | n + 1, read, g, c =>
    if c.atDocumentMark || c.sees (· = '#') then some (read.reverse, c, g.broken)
    else do
      let word ← plainWord flow c.rest
      let (read, g) :=
        if word.isEmpty then (read, g) else (word.reverse ++ g.text.reverse ++ read, {})
      let c := c.skip word.length
      if c.sees fun ch => isBlank ch || isBreak ch then
        let (g, c) ← g.pass indent (c.rest.length + 1) c
        if !flow && (c.column : Int) < indent then some (read.reverse, c, g.broken)
        else plainFrom flow indent n read g c
      else some (read.reverse, c, g.broken)

def plainScalar (flow : Bool) (indent : Int) (c : Cursor) : Option (List Char × Cursor × Bool) :=
  plainFrom flow indent (c.rest.length + 1) [] {} c

/-! ## Quoted scalars -/

/-- The characters that a backslash and one letter stand for. -/
def shortEscape? : Char → Option Char
  | '0' => some '\x00'
  | 'a' => some '\x07'
  | 'b' => some '\x08'
  | 't' | '\t' => some '\t'
  | 'n' => some '\n'
  | 'v' => some '\x0b'
  | 'f' => some '\x0c'
  | 'r' => some '\r'
  | 'e' => some '\x1b'
  | ' ' => some ' '
  | '"' => some '"'
  | '/' => some '/'
  | '\\' => some '\\'
  | 'N' => some '\u0085'
  | '_' => some '\u00a0'
  | 'L' => some '\u2028'
  | 'P' => some '\u2029'
  | _ => none

/-- How many hexadecimal digits follow the letter of an escape by code point. -/
def escapeLength? : Char → Option Nat
  | 'x' => some 2
  | 'u' => some 4
  | 'U' => some 8
  | _ => none

/-- The character of a code point, if it is one. -/
def charOf? (n : Nat) : Option Char :=
  if n.isValidChar then some (Char.ofNat n) else none

/-- Reads the escape that follows a backslash: its character and its length without the backslash. -/
def escape? (cs : List Char) : Option (Char × Nat) :=
  match cs with
  | [] => none
  | c :: cs =>
    match shortEscape? c, escapeLength? c with
    | some ch, _ => some (ch, 1)
    | none, none => none
    | none, some len =>
      if cs.length < len then none
      else do
        let n ← Literal.natural? 16 (cs.take len)
        let ch ← charOf? n
        some (ch, len + 1)

/-- How a word of a quoted scalar ends. -/
inductive WordEnd where
  | blank
  | quote
  /-- A backslash at the end of the line, which joins the lines without a space. -/
  | joined

/-- Passes a word of a quoted scalar, up to a blank, a line break or the closing quote.  `read` is what
was read, in reverse.  The first argument bounds the number of characters. -/
def quotedWord (single : Bool) :
    Nat → (read : List Char) → Cursor → Option (List Char × WordEnd × Cursor)
  | 0, _, _ => none
  | n + 1, read, c =>
    match c.rest with
    | [] => some (read, .blank, c)
    | ch :: rest =>
      if isBlank ch || isBreak ch then some (read, .blank, c)
      else if single && ch = '\'' && rest.head? == some '\'' then
        quotedWord single n ('\'' :: read) (c.skip 2)
      else if ch = (if single then '\'' else '"') then some (read, .quote, c)
      else if !single && ch = '\\' then
        if rest.head?.any isBreak then some (read, .joined, (c.skip 1).skipBreak)
        else
          match escape? rest with
          | none => none
          | some (ch, len) => quotedWord single n (ch :: read) (c.skip (len + 1))
      else quotedWord single n (ch :: read) (c.skip 1)

/-- The rest of a quoted scalar, up to and with its closing quote.  The first argument bounds the number
of words. -/
def quotedFrom (single : Bool) : Nat → (read : List Char) → Cursor → Option (List Char × Cursor)
  | 0, _, _ => none
  | n + 1, read, c =>
    if c.atDocumentMark || c.atEnd then none
    else do
      let (read, wordEnd, c) ← quotedWord single (c.rest.length + 1) read c
      match wordEnd with
      | .quote => some (read.reverse, c.skip 1)
      | .blank | .joined =>
        if c.sees fun ch => ch = (if single then '\'' else '"') then some (read.reverse, c.skip 1)
        else
          let start : Gap := match wordEnd with
            | .joined => { broken := true }
            | _ => {}
          let (g, c) ← start.pass 0 (c.rest.length + 1) c
          quotedFrom single n (g.text.reverse ++ read) c

/-- Reads a quoted scalar from its opening quote on. -/
def quotedScalar (single : Bool) (c : Cursor) : Option (List Char × Cursor) :=
  quotedFrom single (c.rest.length + 1) [] (c.skip 1)

/-! ## Block scalars -/

/-- What becomes of the line breaks at the end of a block. -/
inductive Chomping where
  | strip
  | clip
  | keep
deriving DecidableEq

/-- The header of a block: its chomping, its indentation if given, and the cursor after it. -/
def blockHeader (c : Cursor) : Option (Chomping × Option Nat × Cursor) :=
  let chomping? (c : Cursor) : Option Chomping :=
    match c.head? with
    | some '+' => some .keep
    | some '-' => some .strip
    | _ => none
  let increment? (c : Cursor) : Option Nat := c.head?.bind (Literal.digit? 10)
  match chomping? c, increment? c with
  | some chomping, _ =>
    let c := c.skip 1
    match increment? c with
    | some 0 => none
    | some n => some (chomping, some n, c.skip 1)
    | none => some (chomping, none, c)
  | none, some 0 => none
  | none, some n =>
    let c := c.skip 1
    match chomping? c with
    | some chomping => some (chomping, some n, c.skip 1)
    | none => some (.clip, some n, c)
  | none, none => some (.clip, none, c)

/-- Passes the empty lines of a block and the indentation of the line after them.  With no indentation
known yet, all spaces count, and `widest` is the greatest column reached.  The first argument bounds the
number of lines. -/
def blockBreaks (indent : Option Nat) :
    Nat → (breaks : List Char) → (widest : Nat) → Cursor → Option (List Char × Nat × Cursor)
  | 0, breaks, widest, c => some (breaks, widest, c)
  | n + 1, breaks, widest, c =>
    let spaces := (c.rest.takeWhile (· = ' ')).length
    let width := match indent with
      | none => spaces
      | some i => min spaces (i - c.column)
    let c := c.skip width
    let widest := max widest c.column
    let inIndentation := indent.all (c.column < ·)
    if inIndentation && c.sees (· = '\t') then none
    else if c.sees isBreak then
      let (b, c) := c.passBreak
      blockBreaks indent n (breaks ++ b) widest c
    else some (breaks, widest, c)

/-- The lines of a block.  `read` is what was read, in reverse; `first` is the line break that ended the
line before, `more` are the empty lines after it, and `wasBlank` says whether that line began with a
blank.  The first argument bounds the number of lines. -/
def blockLines (literal : Bool) (indent : Nat) :
    Nat → (read first more : List Char) → (wasBlank : Bool) → Cursor →
      Option (List Char × List Char × List Char × Cursor)
  | 0, read, first, more, _, c => some (read, first, more, c)
  | n + 1, read, first, more, wasBlank, c =>
    if c.column != indent || c.atEnd then some (read, first, more, c)
    else do
      let startsBlank := c.sees isBlank
      let folds := !literal && first.head? == some '\n' && !wasBlank && !startsBlank
      let joint := if folds then (if more.isEmpty then [' '] else []) else first
      let (line, c) := c.span fun ch => !isBreak ch
      let (first, c) := c.passBreak
      let read := line.reverse ++ more.reverse ++ joint.reverse ++ read
      let (more, _, c) ← blockBreaks (some indent) (c.rest.length + 1) [] 0 c
      blockLines literal indent n read first more startsBlank c

/-- Reads a block scalar from its indicator on, inside a block of indentation `parent`. -/
def blockScalar (literal : Bool) (parent : Int) (c : Cursor) : Option (List Char × Cursor) := do
  let (chomping, increment, c) ← blockHeader (c.skip 1)
  let c := c.skipBlanks
  let c := if c.sees (· = '#') then c.skipToBreak else c
  if !(c.atEnd || c.sees isBreak) then none
  let c := c.skipBreak
  let given := increment.map fun n => if 0 ≤ parent then parent.toNat + n else n
  let (more, widest, c) ← blockBreaks given (c.rest.length + 1) [] 0 c
  let indent := given.getD (max widest (max (parent + 1).toNat 1))
  let (read, first, more, c) ← blockLines literal indent (c.rest.length + 1) [] [] more false c
  let tail := match chomping with
    | .strip => []
    | .clip => first
    | .keep => first ++ more
  some (read.reverse ++ tail, c)

end StackMutants.Yaml
