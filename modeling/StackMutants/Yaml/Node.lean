import StackMutants.Yaml.Token

/-!
# Yaml.Node — the tree of a YAML document

* `Document.ofTokens?`: the one document that tokens stand for, with its anchors and aliases by name.
* `Document.numbered?`: the same tree with every alias leading to the number of an anchor.  An anchor gets
  the number of different names met before it, so a name that is used again may give the number of one
  name to another node; the node that comes last in the text then stands for the number.
* `Document.read?`: the tree of a text with the nodes that its numbers stand for.

An empty text, like an empty document, is an empty plain scalar.
-/

namespace StackMutants.Yaml

/-- A node whose anchors and aliases are of type `α`. -/
inductive Node (α : Type) where
  | alias (target : α)
  | scalar (anchor : Option α) (tag : Option Tag) (style : Style) (text : String)
  | sequence (anchor : Option α) (tag : Option Tag) (items : List (Node α))
  | mapping (anchor : Option α) (tag : Option Tag) (pairs : List (Node α × Node α))

namespace Node

variable {α : Type}

/-- What stands for a node that is left out. -/
def empty : Node α := .scalar none none .plain ""

mutual

/-- The number of marks that it takes to write a node down: one for a scalar or an alias, two around the
marks for the parts of a collection. -/
def weight : Node α → Nat
  | .alias _ => 1
  | .scalar _ _ _ _ => 1
  | .sequence _ _ items => weightOfItems items + 2
  | .mapping _ _ pairs => weightOfPairs pairs + 2

def weightOfItems : List (Node α) → Nat
  | [] => 0
  | v :: vs => v.weight + weightOfItems vs

def weightOfPairs : List (Node α × Node α) → Nat
  | [] => 0
  | p :: ps => p.1.weight + p.2.weight + weightOfPairs ps

end

end Node

/-! ## From tokens to a tree -/

/-- What tag handles stand for. -/
abbrev TagHandles := List (String × Tag)

/-- The handles of every document. -/
def TagHandles.standard : TagHandles := [("!", [Tag.mark]), ("!!", Tag.core "")]

/-- The full tag; none if the handle stands for nothing.  A tag without a handle is full already. -/
def TagHandles.resolve? (handles : TagHandles) (handle : String) (suffix : Tag) : Option Tag :=
  if handle = "" then some suffix else (handles.lookup handle).map (· ++ suffix)

/-- The tag and the anchor in front of a node, in any order and each at most once. -/
def properties : List Token → Option String × Option (String × Tag) × List Token
  | .anchor a :: .tag handle suffix :: ts => (some a, some (handle, suffix), ts)
  | .tag handle suffix :: .anchor a :: ts => (some a, some (handle, suffix), ts)
  | .anchor a :: ts => (some a, none, ts)
  | .tag handle suffix :: ts => (none, some (handle, suffix), ts)
  | ts => (none, none, ts)

/-- What was read, and the tokens behind it. -/
abbrev Taken (β : Type) := β × List Token

/-- Whether the next token is one of some. -/
def nextIs (ts : List Token) (tokens : List Token) : Bool := ts.head?.any tokens.contains

/-- The context that a node stands in. -/
inductive Place where
  /-- In a flow collection, where no block can begin. -/
  | flow
  | block
  /-- The key or the value of a block mapping, where a sequence needs no indentation. -/
  | entry
deriving DecidableEq

mutual

/-- Reads a node.  The first argument of the functions from here on bounds their nesting. -/
def node (handles : TagHandles) : Nat → Place → List Token → Option (Taken (Node String))
  | 0, _, _ => none
  | _ + 1, _, .alias name :: ts => some (.alias name, ts)
  | n + 1, place, ts => do
    let (anchor, named, ts) := properties ts
    let tag ← match named with
      | none => some none
      | some (handle, suffix) => (handles.resolve? handle suffix).map some
    let nothing : Option (Taken (Node String)) :=
      if anchor.isSome || tag.isSome then some (.scalar anchor tag .plain "", ts) else none
    match ts with
    | .scalar style text :: ts => some (.scalar anchor tag style text, ts)
    | .flowSequenceStart :: ts => do
      let (items, ts) ← flowItems handles n true ts
      some (.sequence anchor tag items, ts)
    | .flowMappingStart :: ts => do
      let (pairs, ts) ← flowPairs handles n true ts
      some (.mapping anchor tag pairs, ts)
    | .blockEntry :: _ =>
      if place = .entry then do
        let (items, ts) ← entryItems handles n ts
        some (.sequence anchor tag items, ts)
      else nothing
    | .blockSequenceStart :: rest =>
      if place = .flow then nothing
      else do
        let (items, ts) ← blockItems handles n rest
        some (.sequence anchor tag items, ts)
    | .blockMappingStart :: rest =>
      if place = .flow then nothing
      else do
        let (pairs, ts) ← blockPairs handles n rest
        some (.mapping anchor tag pairs, ts)
    | _ => nothing

/-- Reads a node, or nothing in front of one of the tokens given. -/
def nodeBefore (handles : TagHandles) :
    Nat → Place → List Token → List Token → Option (Taken (Node String))
  | 0, _, _, _ => none
  | n + 1, place, ends, ts =>
    if nextIs ts ends then some (.empty, ts) else node handles n place ts

/-- The items of a block sequence, to its end. -/
def blockItems (handles : TagHandles) : Nat → List Token → Option (Taken (List (Node String)))
  | 0, _ => none
  | n + 1, ts =>
    match ts with
    | .blockEntry :: ts => do
      let (item, ts) ← nodeBefore handles n .block [.blockEntry, .blockEnd] ts
      let (items, ts) ← blockItems handles n ts
      some (item :: items, ts)
    | .blockEnd :: ts => some ([], ts)
    | _ => none

/-- The items of a sequence without indentation, up to the first token that is no item. -/
def entryItems (handles : TagHandles) : Nat → List Token → Option (Taken (List (Node String)))
  | 0, _ => none
  | n + 1, ts =>
    match ts with
    | .blockEntry :: ts => do
      let (item, ts) ← nodeBefore handles n .block [.blockEntry, .key, .value, .blockEnd] ts
      let (items, ts) ← entryItems handles n ts
      some (item :: items, ts)
    | ts => some ([], ts)

/-- The pairs of a block mapping, to its end. -/
def blockPairs (handles : TagHandles) :
    Nat → List Token → Option (Taken (List (Node String × Node String)))
  | 0, _ => none
  | n + 1, ts =>
    match ts with
    | .blockEnd :: ts => some ([], ts)
    | .key :: ts => do
      let (key, ts) ← nodeBefore handles n .entry [.key, .value, .blockEnd] ts
      let (value, ts) ← blockValue handles n ts
      let (pairs, ts) ← blockPairs handles n ts
      some ((key, value) :: pairs, ts)
    | _ => none

/-- The value after a key of a block mapping; it may be missing. -/
def blockValue (handles : TagHandles) : Nat → List Token → Option (Taken (Node String))
  | 0, _ => none
  | n + 1, ts =>
    match ts with
    | .value :: ts => nodeBefore handles n .entry [.key, .value, .blockEnd] ts
    | ts => some (.empty, ts)

/-- The items of a flow sequence, to its end.  A pair may be an item; of a pair that begins with a
question mark and has no key, the token after the mark is passed over, whatever it is. -/
def flowItems (handles : TagHandles) :
    Nat → (first : Bool) → List Token → Option (Taken (List (Node String)))
  | 0, _, _ => none
  | n + 1, first, ts =>
    match ts, first with
    | .flowSequenceEnd :: ts, _ => some ([], ts)
    | .flowEntry :: .flowSequenceEnd :: ts, false => some ([], ts)
    | .flowEntry :: ts, false => flowItem handles n ts
    | _, false => none
    | ts, true => flowItem handles n ts

/-- An item of a flow sequence and those after it. -/
def flowItem (handles : TagHandles) : Nat → List Token → Option (Taken (List (Node String)))
  | 0, _ => none
  | n + 1, ts =>
    match ts with
    | .key :: ts => do
      let (key, ts) ←
        if nextIs ts [.value, .flowEntry, .flowSequenceEnd] then some (.empty, ts.tail)
        else node handles n .flow ts
      let (value, ts) ← flowValue handles n .flowSequenceEnd ts
      let (items, ts) ← flowItems handles n false ts
      some (.mapping none none [(key, value)] :: items, ts)
    | ts => do
      let (item, ts) ← node handles n .flow ts
      let (items, ts) ← flowItems handles n false ts
      some (item :: items, ts)

/-- The value after a key in a flow collection; it may be missing. -/
def flowValue (handles : TagHandles) :
    Nat → (close : Token) → List Token → Option (Taken (Node String))
  | 0, _, _ => none
  | n + 1, close, ts =>
    match ts with
    | .value :: ts => nodeBefore handles n .flow [.flowEntry, close] ts
    | ts => some (.empty, ts)

/-- The pairs of a flow mapping, to its end. -/
def flowPairs (handles : TagHandles) :
    Nat → (first : Bool) → List Token → Option (Taken (List (Node String × Node String)))
  | 0, _, _ => none
  | n + 1, first, ts =>
    match ts, first with
    | .flowMappingEnd :: ts, _ => some ([], ts)
    | .flowEntry :: .flowMappingEnd :: ts, false => some ([], ts)
    | .flowEntry :: ts, false => flowPair handles n ts
    | _, false => none
    | ts, true => flowPair handles n ts

/-- A pair of a flow mapping and those after it.  What stands without a colon is a key. -/
def flowPair (handles : TagHandles) :
    Nat → List Token → Option (Taken (List (Node String × Node String)))
  | 0, _ => none
  | n + 1, ts =>
    match ts with
    | .key :: ts => do
      let (key, ts) ← nodeBefore handles n .flow [.value, .flowEntry, .flowMappingEnd] ts
      let (value, ts) ← flowValue handles n .flowMappingEnd ts
      let (pairs, ts) ← flowPairs handles n false ts
      some ((key, value) :: pairs, ts)
    | ts => do
      let (key, ts) ← node handles n .flow ts
      let (pairs, ts) ← flowPairs handles n false ts
      some ((key, .empty) :: pairs, ts)

end

/-- Reads the directives in front of a document: whether a version was given, and the handles. -/
def directives : (versioned : Bool) → TagHandles → List Token → Option (Taken TagHandles)
  | versioned, handles, .versionDirective major minor :: ts =>
    if versioned || major != 1 || !(minor = 1 || minor = 2) then none
    else directives true handles ts
  | versioned, handles, .tagDirective handle start :: ts =>
    if (handles.lookup handle).isSome then none
    else directives versioned (handles ++ [(handle, start)]) ts
  | _, handles, ts => some (handles ++ .standard, ts)

namespace Token

/-- Whether the token belongs to the frame of a document. -/
def isFrame : Token → Bool
  | versionDirective _ _ | tagDirective _ _ | documentStart | documentEnd => true
  | _ => false

/-- Whether an explicit document begins with the token. -/
def beginsDocument (t : Token) : Bool := t.isFrame && t != documentEnd

end Token

namespace Document

/-- The content of a document behind its start. -/
def content (handles : TagHandles) (ts : List Token) : Option (Taken (Node String)) :=
  if ts.head?.all Token.isFrame then some (.empty, ts)
  else node handles (3 * ts.length + 3) .block ts

/-- The only document that tokens stand for.  Nothing but marks of its end may follow it. -/
def ofTokens? (ts : List Token) : Option (Node String) := do
  let (tree, rest) ←
    if ts.head?.all Token.beginsDocument then do
      let (handles, rest) ← directives false [] ts
      match rest with
      | [] => if ts.isEmpty then some (.empty, []) else none
      | .documentStart :: rest => content handles rest
      | _ => none
    else node .standard (3 * ts.length + 3) .block ts
  if rest.all (· == .documentEnd) then some tree else none

/-! ## Anchors -/

/-- The names met so far, each with the number that it had last. -/
abbrev Names := List (String × Nat)

/-- Gives an anchor its number. -/
def Names.number (names : Names) : Option String → Option Nat × Names
  | none => (none, names)
  | some name => (some names.length, (name, names.length) :: names.filter (·.1 != name))

mutual

/-- The tree with numbers for names; none if an alias has a name that no earlier anchor has. -/
def numbered? (names : Names) : Node String → Option (Node Nat × Names)
  | .alias name => (names.lookup name).map fun id => (.alias id, names)
  | .scalar anchor tag style text =>
    let (id, names) := names.number anchor
    some (.scalar id tag style text, names)
  | .sequence anchor tag items => do
    let (id, names) := names.number anchor
    let (items, names) ← numberedItems? names items
    some (.sequence id tag items, names)
  | .mapping anchor tag pairs => do
    let (id, names) := names.number anchor
    let (pairs, names) ← numberedPairs? names pairs
    some (.mapping id tag pairs, names)

def numberedItems? (names : Names) : List (Node String) → Option (List (Node Nat) × Names)
  | [] => some ([], names)
  | v :: vs => do
    let (v, names) ← numbered? names v
    let (vs, names) ← numberedItems? names vs
    some (v :: vs, names)

def numberedPairs? (names : Names) :
    List (Node String × Node String) → Option (List (Node Nat × Node Nat) × Names)
  | [] => some ([], names)
  | p :: ps => do
    let (key, names) ← numbered? names p.1
    let (value, names) ← numbered? names p.2
    let (ps, names) ← numberedPairs? names ps
    some ((key, value) :: ps, names)

end

mutual

/-- The nodes with an anchor, in the order of the text. -/
def anchored : Node Nat → List (Nat × Node Nat)
  | .alias _ => []
  | .scalar anchor tag style text =>
    match anchor with
    | some id => [(id, .scalar anchor tag style text)]
    | none => []
  | .sequence anchor tag items =>
    match anchor with
    | some id => (id, .sequence anchor tag items) :: anchoredItems items
    | none => anchoredItems items
  | .mapping anchor tag pairs =>
    match anchor with
    | some id => (id, .mapping anchor tag pairs) :: anchoredPairs pairs
    | none => anchoredPairs pairs

def anchoredItems : List (Node Nat) → List (Nat × Node Nat)
  | [] => []
  | v :: vs => anchored v ++ anchoredItems vs

def anchoredPairs : List (Node Nat × Node Nat) → List (Nat × Node Nat)
  | [] => []
  | p :: ps => anchored p.1 ++ (anchored p.2 ++ anchoredPairs ps)

end

end Document

/-- A document: its tree, and the nodes that the numbers of aliases stand for, the last one first. -/
structure Document where
  tree : Node Nat
  anchors : List (Nat × Node Nat)

/-- Reads the document that a text consists of. -/
def Document.read? (cs : List Char) : Option Document := do
  let tree ← ofTokens? (← tokens? cs)
  let (tree, _) ← numbered? [] tree
  some { tree, anchors := (anchored tree).reverse }

end StackMutants.Yaml
