import StackMutants.Code.Fault

/-!
# Code.Descriptor — method descriptors such as `(IJLjava/lang/String;[I)V`

A descriptor holds field types between parentheses and then a field type or `V`.  The parameters end
at the first `)`, wherever it stands, so no type among them may contain one; the type after it may.
`fieldType?` reads one type and says what is left, and what is left is always shorter.
-/

namespace StackMutants

/-- What a method takes from the stack and leaves on it; no return kind means void. -/
structure Descriptor where
  params : List ValueKind
  returns : Option ValueKind
deriving DecidableEq, Repr

namespace Descriptor

/-- The kind of a type that is written with one letter. -/
def primitive? : Char → Option ValueKind
  | 'B' | 'C' | 'I' | 'S' | 'Z' => some .int
  | 'J' => some .long
  | 'F' => some .float
  | 'D' => some .double
  | _ => none

/-- Reads the field type that a text begins with.  The name of a class ends at its first `;`. -/
def fieldType? : List Char → Option (ValueKind × List Char)
  | [] => none
  | c :: cs =>
    if c = '[' then (fieldType? cs).map fun (_, rest) => (.ref, rest)
    else if c = 'L' then
      match cs.dropWhile (· ≠ ';') with
      | [] => none
      | _ :: rest => some (.ref, rest)
    else (primitive? c).map fun k => (k, cs)

theorem length_lt_of_fieldType? {cs rest : List Char} {k : ValueKind}
    (h : fieldType? cs = some (k, rest)) : rest.length < cs.length := by
  induction cs generalizing k rest with
  | nil => simp [fieldType?] at h
  | cons c cs ih =>
    unfold fieldType? at h
    split at h
    · obtain ⟨⟨k', rest'⟩, h', heq⟩ := Option.map_eq_some_iff.1 h
      simp only [Prod.mk.injEq] at heq
      have := ih h'
      grind
    · split at h
      · have hle := (List.dropWhile_sublist (l := cs) (fun x => decide (x ≠ ';'))).length_le
        split at h
        · simp at h
        · rename_i hdrop
          obtain ⟨_, rfl⟩ : ValueKind.ref = k ∧ _ = rest := by simpa using h
          rw [hdrop] at hle
          simp only [List.length_cons] at hle ⊢
          omega
      · obtain ⟨k', _, heq⟩ := Option.map_eq_some_iff.1 h
        simp only [Prod.mk.injEq] at heq
        simp [← heq.2]

/-- Reads field types up to the end of the text. -/
def fieldTypes? (cs : List Char) : Option (List ValueKind) :=
  if cs = [] then some []
  else
    match _h : fieldType? cs with
    | none => none
    | some (k, rest) => (fieldTypes? rest).map (k :: ·)
termination_by cs.length
decreasing_by exact length_lt_of_fieldType? _h

/-- Reads what stands after the parameters. -/
def returns? (cs : List Char) : Except DescriptorFault (Option ValueKind) :=
  if cs = ['V'] then .ok none
  else
    match fieldType? cs with
    | none => .error .badReturn
    | some (k, []) => .ok (some k)
    | some (_, _ :: _) => .error .trailing

/-- Reads a descriptor.  The parentheses are looked at first, then the parameters, then the return
type. -/
def read (cs : List Char) : Except DescriptorFault Descriptor :=
  match cs with
  | '(' :: body =>
    match body.dropWhile (· ≠ ')') with
    | [] => .error .missingClose
    | _ :: after =>
      match fieldTypes? (body.takeWhile (· ≠ ')')) with
      | none => .error .badParameter
      | some params => (returns? after).map fun returns => { params, returns }
  | _ => .error .missingOpen

/-- Reads a descriptor and blames the whole text for a fault. -/
def parse (text : String) : Except CodeFault Descriptor :=
  (read text.toList).mapError (.descriptor text)

end Descriptor

end StackMutants
