import StackMutants.Datum.Basic
import StackMutants.Yaml.Node
import StackMutants.Yaml.Schema

/-!
# Yaml.View — nodes of a YAML document as data

Every scalar is a text.  Numbers and truth values are plain scalars, or literal blocks with the tag of
their type.  A record is a mapping.  A case with content carries its name as a tag that begins with an
exclamation mark; the content is the same node, and has no tag any more.

Aliases that lead to nodes with aliases can make a short text stand for very much data, so a reading may
follow only so many of them (`Document.allowance`).  What a reader ignores is not followed.
-/

namespace StackMutants.Yaml

/-- A node together with what aliases stand for. -/
structure View where
  anchors : List (Nat × Node Nat)
  node : Node Nat
  /-- Whether the tag of the node has served as the name of a case. -/
  isContent : Bool := false

/-- A reading that keeps count of how many more aliases it may follow. -/
abbrev Reading := StateT Nat Option

namespace View

/-- The root of a document. -/
def root (d : Document) : View := ⟨d.anchors, d.tree, false⟩

/-- Another node of the same document. -/
def goTo (v : View) (node : Node Nat) : View := ⟨v.anchors, node, false⟩

/-- The node that an alias stands for; any other node stands for itself. -/
def follow (v : View) : Reading View :=
  match v.node with
  | .alias id => do
    match ← get with
    | 0 => Datum.refuse
    | left + 1 =>
      set left
      pure ((v.anchors.lookup id).elim v v.goTo)
  | _ => pure v

/-- The tag, unless it has served already. -/
def openTag? (v : View) (tag : Option Tag) : Option Tag := if v.isContent then none else tag

def text? (v : View) : Reading String := do
  match (← v.follow).node with
  | .scalar _ _ _ text => pure text
  | _ => Datum.refuse

/-- The text of a scalar that may be a value of the core type of a name. -/
def coreText? (v : View) (type : String) : Reading String := do
  let v ← v.follow
  match v.node with
  | .scalar _ tag style text =>
    if style = .plain || (style = .literal && v.openTag? tag == some (.core type)) then pure text
    else Datum.refuse
  | _ => Datum.refuse

/-- Reads a value of a core type, given what spells one. -/
def core? {α : Type} (type : String) (spelled? : String → Option α) (v : View) : Reading α := do
  Datum.ofOption (spelled? (← v.coreText? type))

/-- Whether a plain scalar with a tag is nothing: without a tag if it is empty or spells it, with a tag
only if the tag says so too. -/
def isNull (tag : Option Tag) (text : String) : Bool :=
  match tag with
  | none => text.isEmpty || spellsNull text
  | some tag => tag == .core "null" && spellsNull text

def isNothing (v : View) : Bool :=
  match v.node with
  | .scalar _ tag .plain text => isNull (v.openTag? tag) text
  | _ => false

def optional? (v : View) : Reading (Option View) := do
  let v ← v.follow
  match v.node with
  | .scalar _ tag .plain text =>
    let tag := v.openTag? tag
    if isNull tag text then pure none
    else if tag == some (.core "null") then Datum.refuse
    else pure (some v)
  | _ => pure (some v)

/-- Whether the node is an empty plain scalar, which stands for an empty collection too. -/
def isLeftOut (v : View) : Bool :=
  match v.node with
  | .scalar _ _ .plain text => text.isEmpty
  | _ => false

def items? (v : View) : Reading (List View) := do
  let v ← v.follow
  match v.node with
  | .sequence _ _ items => pure (items.map v.goTo)
  | _ => if v.isLeftOut then pure [] else Datum.refuse

/-- The pairs of a mapping whose keys are texts. -/
def namedPairs? (v : View) : Reading (List (String × View)) := do
  let v ← v.follow
  match v.node with
  | .mapping _ _ pairs => pairs.mapM fun p => do pure (← (v.goTo p.1).text?, v.goTo p.2)
  | _ => if v.isLeftOut then pure [] else Datum.refuse

def fields? (names : List String) (v : View) : Reading (List (Option View)) := do
  Datum.ofOption (Datum.pick? names (← v.namedPairs?))

def choice? (v : View) : Reading (Choice View) := do
  let v ← v.follow
  let content : View := { v with isContent := true }
  match v.node with
  | .alias _ => Datum.refuse
  | .scalar _ tag _ text =>
    if v.isContent then if text.isEmpty then Datum.refuse else pure ⟨text, none⟩
    else
      match tag.bind Tag.caseName? with
      | some name => pure ⟨name, some content⟩
      | none => pure ⟨text, none⟩
  | .sequence _ tag _ | .mapping _ tag _ =>
    match (v.openTag? tag).bind Tag.caseName? with
    | some name => pure ⟨name, some content⟩
    | none => Datum.refuse

instance : Datum Reading View where
  text? := text?
  bool? := core? "bool" spelledBool?
  nat? := core? "int" spelledNat?
  int? := core? "int" spelledInt?
  single? := core? "float" spelledSingle?
  optional? := optional?
  items? := items?
  fields? := fields?
  choice? := choice?
  isNothing := isNothing

end View

namespace Document

/-- How many aliases a reading of the document may follow. -/
def allowance (d : Document) : Nat := 100 * d.tree.weight

/-- What a reader makes of the document. -/
def readAs? {α : Type} (d : Document) (read : View → Reading α) : Option α :=
  (read (.root d)).run' d.allowance

end Document

end StackMutants.Yaml
