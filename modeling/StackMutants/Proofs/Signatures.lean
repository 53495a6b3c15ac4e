import StackMutants.Code.Descriptor
import Mathlib.Data.List.Basic
import Mathlib.Data.List.TakeWhile

/-!
# Proofs.Signatures — which texts are method descriptors

A `FieldType` is a type as descriptors have it, and a `Signature` the types of the parameters with the type
that is returned; `written` spells both.  The readers of descriptors accept exactly what is spelled:

* `Descriptor.fieldType?` reads a field type off the front of a text, and `Descriptor.fieldTypes?` a text of
  field types;
* `Descriptor.read` cuts a text at its first closing parenthesis, and so accepts the signatures in whose
  parameters there is none (`Signature.closes`);
* a text spells one signature at most (`Signature.written_injective`), as no spelling of a field type begins
  another one (`FieldType.written_append_inj`).
-/

namespace StackMutants

/-! ## Texts cut where a character first occurs -/

section Cut

variable {c d : Char} {xs ys xs' ys' : List Char}

theorem takeWhile_ne_append (h : c ∉ xs) (ys : List Char) : (xs ++ c :: ys).takeWhile (· ≠ c) = xs := by
  have hxs : ∀ x ∈ xs, decide (x ≠ c) = true := by
    intro x hx
    exact decide_eq_true (ne_of_mem_of_not_mem hx h)
  rw [List.takeWhile_append_of_pos hxs]
  simp

theorem dropWhile_ne_append (h : c ∉ xs) (ys : List Char) :
    (xs ++ c :: ys).dropWhile (· ≠ c) = c :: ys := by
  have hxs : ∀ x ∈ xs, decide (x ≠ c) = true := by
    intro x hx
    exact decide_eq_true (ne_of_mem_of_not_mem hx h)
  rw [List.dropWhile_append_of_pos hxs]
  simp

/-- What is left of a text in front of a character is what does not contain it. -/
theorem exists_cut_of_dropWhile (h : xs.dropWhile (· ≠ c) = d :: ys) :
    ∃ front, c ∉ front ∧ xs.takeWhile (· ≠ c) = front ∧ xs = front ++ c :: ys := by
  by_cases hc : c ∈ xs
  · obtain ⟨front, back, rfl, hfront⟩ := List.eq_append_cons_of_mem hc
    rw [dropWhile_ne_append hfront] at h
    obtain ⟨-, rfl⟩ := List.cons.inj h
    exact ⟨front, hfront, takeWhile_ne_append hfront back, rfl⟩
  · have hnil : xs.dropWhile (· ≠ c) = [] := by
      rw [List.dropWhile_eq_nil_iff]
      intro x hx
      exact decide_eq_true (ne_of_mem_of_not_mem hx hc)
    rw [hnil] at h
    cases h

theorem cut_unique (hxs : c ∉ xs) (hxs' : c ∉ xs') (h : xs ++ c :: ys = xs' ++ c :: ys') :
    xs = xs' ∧ ys = ys' := by
  have hfront : xs = xs' := by
    rw [← takeWhile_ne_append hxs ys, h, takeWhile_ne_append hxs' ys']
  subst hfront
  exact ⟨rfl, (List.cons.inj (List.append_cancel_left h)).2⟩

end Cut

/-! ## Field types -/

/-- A type of a field, a parameter or a returned value.  The name of a class is any text without a
semicolon. -/
inductive FieldType where
  | byte
  | char
  | short
  | int
  | boolean
  | long
  | float
  | double
  | object (name : { name : List Char // ';' ∉ name })
  | array (element : FieldType)

namespace FieldType

/-- How a descriptor spells the type. -/
def written : FieldType → List Char
  | byte => ['B']
  | char => ['C']
  | short => ['S']
  | int => ['I']
  | boolean => ['Z']
  | long => ['J']
  | float => ['F']
  | double => ['D']
  | object name => 'L' :: (name.val ++ [';'])
  | array element => '[' :: element.written

/-- What kind of values the type has. -/
def kind : FieldType → ValueKind
  | byte | char | short | int | boolean => .int
  | long => .long
  | float => .float
  | double => .double
  | object _ | array _ => .ref

theorem written_ne_nil (t : FieldType) : t.written ≠ [] := by
  cases t <;> simp [written]

/-- **No spelling of a field type begins another one.** -/
theorem written_append_inj {t t' : FieldType} {rest rest' : List Char}
    (h : t.written ++ rest = t'.written ++ rest') : t = t' ∧ rest = rest' := by
  induction t generalizing t' with
  | object name =>
    cases t' with
    | object name' =>
      simp only [written, List.cons_append, List.append_assoc, List.cons.injEq, true_and] at h
      obtain ⟨hname, hrest⟩ := cut_unique name.2 name'.2 h
      rw [Subtype.ext hname]
      exact ⟨rfl, hrest⟩
    | _ => simp [written] at h
  | array element ih =>
    cases t' with
    | array element' =>
      simp only [written, List.cons_append, List.cons.injEq, true_and] at h
      obtain ⟨helement, hrest⟩ := ih h
      rw [helement]
      exact ⟨rfl, hrest⟩
    | _ => simp [written] at h
  | _ => cases t' <;> simp_all [written]

theorem flatMap_written_inj {ts ts' : List FieldType} (h : ts.flatMap written = ts'.flatMap written) :
    ts = ts' := by
  induction ts generalizing ts' with
  | nil =>
    cases ts' with
    | nil => rfl
    | cons t' ts' => simp [written_ne_nil] at h
  | cons t ts ih =>
    cases ts' with
    | nil => simp [written_ne_nil] at h
    | cons t' ts' =>
      rw [List.flatMap_cons, List.flatMap_cons] at h
      obtain ⟨rfl, hrest⟩ := written_append_inj h
      rw [ih hrest]

end FieldType

/-! ## Signatures -/

/-- A method's parameter types with the type that it returns, none for void.  The parameters end at the first
closing parenthesis, so none of them has one in it. -/
structure Signature where
  params : List FieldType
  returns : Option FieldType
  closes : ∀ t ∈ params, ')' ∉ t.written

namespace Signature

/-- How a descriptor spells what is returned. -/
def writtenReturn : Option FieldType → List Char
  | none => ['V']
  | some t => t.written

def written (s : Signature) : List Char :=
  '(' :: (s.params.flatMap FieldType.written ++ ')' :: writtenReturn s.returns)

/-- What the method takes from the stack and leaves on it. -/
def descriptor (s : Signature) : Descriptor where
  params := s.params.map FieldType.kind
  returns := s.returns.map FieldType.kind

theorem not_mem_params (s : Signature) : ')' ∉ s.params.flatMap FieldType.written := by
  intro h
  obtain ⟨t, ht, hmem⟩ := List.mem_flatMap.mp h
  exact s.closes t ht hmem

theorem writtenReturn_inj {r r' : Option FieldType} (h : writtenReturn r = writtenReturn r') : r = r' := by
  cases r with
  | none =>
    cases r' with
    | none => rfl
    | some t' => cases t' <;> simp [writtenReturn, FieldType.written] at h
  | some t =>
    cases r' with
    | none => cases t <;> simp [writtenReturn, FieldType.written] at h
    | some t' =>
      have hrest : t.written ++ [] = t'.written ++ [] := congrArg (· ++ []) h
      rw [(FieldType.written_append_inj hrest).1]

/-- **A text spells one signature at most.** -/
theorem written_injective : Function.Injective written := by
  intro s s' h
  have hbody := (List.cons.inj h).2
  obtain ⟨hparams, hreturns⟩ := cut_unique s.not_mem_params s'.not_mem_params hbody
  have hsame := FieldType.flatMap_written_inj hparams
  have hsame' := writtenReturn_inj hreturns
  cases s
  cases s'
  simp_all

end Signature

/-! ## The readers -/

namespace Descriptor

open FieldType

theorem fieldType?_written (t : FieldType) (rest : List Char) :
    fieldType? (t.written ++ rest) = some (t.kind, rest) := by
  induction t with
  | object name =>
    have hname : (name.val ++ [';'] ++ rest).dropWhile (· ≠ ';') = ';' :: rest := by
      rw [List.append_assoc]
      exact dropWhile_ne_append name.2 rest
    simp only [written, List.cons_append, fieldType?]
    rw [hname]
    simp [kind]
  | array element ih => simp [written, kind, fieldType?, ih]
  | _ => simp [written, kind, fieldType?, primitive?]

theorem exists_written_of_primitive? {c : Char} {k : ValueKind} (h : primitive? c = some k) :
    ∃ t : FieldType, t.written = [c] ∧ t.kind = k := by
  unfold primitive? at h
  split at h <;> cases h
  · exact ⟨.byte, rfl, rfl⟩
  · exact ⟨.char, rfl, rfl⟩
  · exact ⟨.int, rfl, rfl⟩
  · exact ⟨.short, rfl, rfl⟩
  · exact ⟨.boolean, rfl, rfl⟩
  · exact ⟨.long, rfl, rfl⟩
  · exact ⟨.float, rfl, rfl⟩
  · exact ⟨.double, rfl, rfl⟩

/-- A field type is read off the front of a text exactly if the text begins with its spelling. -/
theorem fieldType?_eq_some_iff {cs rest : List Char} {k : ValueKind} :
    fieldType? cs = some (k, rest) ↔ ∃ t : FieldType, cs = t.written ++ rest ∧ t.kind = k := by
  constructor
  · intro h
    induction cs generalizing k with
    | nil => cases h
    | cons c cs ih =>
      unfold fieldType? at h
      split at h
      · rename_i hc
        obtain ⟨⟨k', rest'⟩, helement, heq⟩ := Option.map_eq_some_iff.mp h
        obtain ⟨rfl, rfl⟩ := Prod.mk.inj heq
        obtain ⟨t, rfl, -⟩ := ih helement
        exact ⟨.array t, by rw [hc]; rfl, rfl⟩
      · split at h
        · rename_i hc
          split at h
          · cases h
          · rename_i hdrop
            obtain ⟨rfl, rfl⟩ := Prod.mk.inj (Option.some.inj h)
            obtain ⟨name, hname, -, rfl⟩ := exists_cut_of_dropWhile hdrop
            refine ⟨.object ⟨name, hname⟩, ?_, rfl⟩
            simp [written, hc]
        · obtain ⟨k', hprimitive, heq⟩ := Option.map_eq_some_iff.mp h
          obtain ⟨rfl, rfl⟩ := Prod.mk.inj heq
          obtain ⟨t, ht, hkind⟩ := exists_written_of_primitive? hprimitive
          exact ⟨t, by rw [ht]; rfl, hkind⟩
  · rintro ⟨t, rfl, rfl⟩
    exact fieldType?_written t rest

theorem fieldTypes?_cons (t : FieldType) (rest : List Char) :
    fieldTypes? (t.written ++ rest) = (fieldTypes? rest).map (t.kind :: ·) := by
  have hne : t.written ++ rest ≠ [] := by simp [written_ne_nil]
  have hread := fieldType?_written t rest
  rw [fieldTypes?, if_neg hne]
  split
  · rename_i hnone
    rw [hread] at hnone
    cases hnone
  · rename_i k rest' hsome
    rw [hread] at hsome
    obtain ⟨rfl, rfl⟩ := Prod.mk.inj (Option.some.inj hsome)
    rfl

/-- Field types are read off a text exactly if it is their spellings one after the other. -/
theorem fieldTypes?_eq_some_iff {cs : List Char} {ks : List ValueKind} :
    fieldTypes? cs = some ks ↔ ∃ ts : List FieldType, cs = ts.flatMap written ∧ ts.map kind = ks := by
  constructor
  · intro h
    induction cs using fieldTypes?.induct generalizing ks with
    | case1 =>
      rw [fieldTypes?, if_pos rfl] at h
      cases h
      exact ⟨[], rfl, rfl⟩
    | case2 cs hne hnone =>
      rw [fieldTypes?, if_neg hne] at h
      split at h <;> simp_all
    | case3 cs hne k rest hsome ih =>
      obtain ⟨t, rfl, rfl⟩ := fieldType?_eq_some_iff.mp hsome
      rw [fieldTypes?_cons] at h
      obtain ⟨ks', hrest, rfl⟩ := Option.map_eq_some_iff.mp h
      obtain ⟨ts, rfl, rfl⟩ := ih hrest
      exact ⟨t :: ts, rfl, rfl⟩
  · rintro ⟨ts, rfl, rfl⟩
    induction ts with
    | nil => rw [List.flatMap_nil, fieldTypes?, if_pos rfl]; rfl
    | cons t ts ih => rw [List.flatMap_cons, fieldTypes?_cons, ih]; rfl

theorem returns?_eq_ok_iff {cs : List Char} {r : Option ValueKind} :
    returns? cs = .ok r ↔ ∃ returns, cs = Signature.writtenReturn returns ∧ returns.map kind = r := by
  unfold returns?
  constructor
  · intro h
    split at h
    · rename_i hvoid
      cases h
      exact ⟨none, hvoid, rfl⟩
    · split at h
      · cases h
      · rename_i k hread
        cases h
        obtain ⟨t, rfl, rfl⟩ := fieldType?_eq_some_iff.mp hread
        exact ⟨some t, List.append_nil _, rfl⟩
      · cases h
  · rintro ⟨returns, rfl, rfl⟩
    cases returns with
    | none => rfl
    | some t =>
      have hread : fieldType? t.written = some (t.kind, []) := by
        have := fieldType?_written t []
        rwa [List.append_nil] at this
      have hvoid : t.written ≠ ['V'] := by cases t <;> simp [written]
      simp [Signature.writtenReturn, hvoid, hread]

/-- A descriptor is read off a text exactly if the text spells a signature. -/
theorem read_eq_ok_iff {cs : List Char} {d : Descriptor} :
    read cs = .ok d ↔ ∃ s : Signature, s.written = cs ∧ s.descriptor = d := by
  constructor
  · intro h
    unfold read at h
    split at h
    · rename_i body
      split at h
      · cases h
      · rename_i _ after hdrop
        obtain ⟨params, hparams, htake, rfl⟩ := exists_cut_of_dropWhile hdrop
        rw [htake] at h
        split at h
        · cases h
        · rename_i hkinds
          obtain ⟨ts, rfl, rfl⟩ := fieldTypes?_eq_some_iff.mp hkinds
          have hcloses : ∀ t ∈ ts, ')' ∉ t.written := by
            intro t ht hmem
            exact hparams (List.mem_flatMap.mpr ⟨t, ht, hmem⟩)
          cases hreturns : returns? after with
          | error fault =>
            rw [hreturns] at h
            cases h
          | ok r =>
            rw [hreturns] at h
            cases h
            obtain ⟨returns, rfl, rfl⟩ := returns?_eq_ok_iff.mp hreturns
            exact ⟨⟨ts, returns, hcloses⟩, rfl, rfl⟩
    · cases h
  · rintro ⟨s, rfl, rfl⟩
    have hdrop := dropWhile_ne_append s.not_mem_params (Signature.writtenReturn s.returns)
    have htake := takeWhile_ne_append s.not_mem_params (Signature.writtenReturn s.returns)
    have hparams := fieldTypes?_eq_some_iff.mpr ⟨s.params, rfl, rfl⟩
    have hreturns := returns?_eq_ok_iff.mpr ⟨s.returns, rfl, rfl⟩
    simp only [Signature.written, read]
    rw [hdrop, htake, hparams]
    simp only [hreturns]
    rfl

/-- **Descriptors are the texts that spell signatures.**  Such a text is read as the kinds of the parameters, in
order, with the kind of what is returned, and it spells no other signature; every other text is refused. -/
theorem parse_reads_signatures :
    (∀ text d, parse text = .ok d ↔ ∃ s : Signature, s.written = text.toList ∧ s.descriptor = d) ∧
      ∀ s s' : Signature, s.written = s'.written → s = s' := by
  constructor
  · intro text d
    rw [← read_eq_ok_iff]
    unfold parse
    cases read text.toList with
    | error fault => simp [Except.mapError]
    | ok d' => simp [Except.mapError]
  · intro s s' h
    exact Signature.written_injective h

/-- Only the type that is returned may have a parenthesis in the name of its class. -/
example : parse "([J)La(b);" = .ok ⟨[.ref], some .ref⟩ ∧
    parse "(La(b);)V" = .error (.descriptor "(La(b);)V" .badParameter) :=
  ⟨by cbv, by cbv⟩

end Descriptor

end StackMutants
