import StackMutants.Proofs.Targets
import StackMutants.Proofs.Points

/-!
# Proofs.Distinctness — different identifiers have different mutants

`DivergesAt` says where two streams first differ, and a mutant is told from others by where it first differs
from its class and what stands there.  For most operators this is the position of the match, as a replacement
begins with another opcode (`Mutator.leading?`), which tells the operators that match the same instruction
apart.  A null check begins with the very load that it replaces, and differs from it one position further, at
the instruction that dereferences the object; no operator matches there.  So a mutated stream determines the
operator and the position that it was made with (`Mutator.eq_of_splices`).
-/

namespace StackMutants

/-! ## Where streams first differ -/

/-- The streams agree in front of the position and have instructions with different opcodes at it. -/
structure DivergesAt (before after : List Instruction) (i : Nat) (old new : Instruction) : Prop where
  agrees : ∀ j < i, after[j]? = before[j]?
  old_at : before[i]? = some old
  new_at : after[i]? = some new
  opcode_ne : new.opcode ≠ old.opcode

namespace DivergesAt

variable {before after : List Instruction} {i j : Nat} {old old' new new' : Instruction}

theorem getElem?_ne (h : DivergesAt before after i old new) : after[i]? ≠ before[i]? := by
  rw [h.old_at, h.new_at]
  intro heq
  exact h.opcode_ne (congrArg Instruction.opcode (Option.some.inj heq))

theorem ne (h : DivergesAt before after i old new) : after ≠ before := by
  rintro rfl
  exact h.getElem?_ne rfl

/-- Two streams first differ at one position only. -/
theorem unique (h : DivergesAt before after i old new) (h' : DivergesAt before after j old' new') :
    i = j ∧ old = old' ∧ new = new' := by
  have hij : i = j := by
    rcases Nat.lt_trichotomy i j with hlt | heq | hgt
    · exact absurd (h'.agrees i hlt) h.getElem?_ne
    · exact heq
    · exact absurd (h.agrees j hgt) h'.getElem?_ne
  subst hij
  exact ⟨rfl, Option.some.inj (h.old_at.symm.trans h'.old_at),
    Option.some.inj (h.new_at.symm.trans h'.new_at)⟩

end DivergesAt

namespace IsSplice

variable {method : Method} {p : Nat} {sub : Substitution} {output : List Instruction}

theorem getElem?_before (h : IsSplice method p sub output) {j : Nat} (hj : j < p) :
    output[j]? = method.instructions[j]? := by
  obtain ⟨first, hfirst, rfl⟩ := h.stream
  have hp : p < method.instructions.length := (List.getElem?_eq_some_iff.mp hfirst).1
  have htake : (method.instructions.take p).length = p := List.length_take_of_le (Nat.le_of_lt hp)
  rw [List.append_assoc, List.getElem?_append_left (by omega), List.getElem?_take_of_lt hj]

theorem getElem?_inside (h : IsSplice method p sub output) {first : Instruction}
    (hfirst : method.instructions[p]? = some first) {k : Nat} (hk : k < sub.replacement.length) :
    output[p + k]? = (sub.replacement[k]?).map (·.onLine first.line) := by
  obtain ⟨first', hfirst', rfl⟩ := h.stream
  obtain rfl : first = first' := Option.some.inj (hfirst.symm.trans hfirst')
  have hp : p < method.instructions.length := (List.getElem?_eq_some_iff.mp hfirst).1
  have htake : (method.instructions.take p).length = p := List.length_take_of_le (Nat.le_of_lt hp)
  rw [List.append_assoc, List.getElem?_append_right (by omega), htake, Nat.add_sub_cancel_left,
    List.getElem?_append_left (by rwa [List.length_map]), List.getElem?_map]

end IsSplice

/-! ## What replacements begin with -/

theorem Opcode.shifted?_ne_negated? {o a : Opcode} (h : o.shifted? = some a) : o.negated? ≠ some a := by
  cases o with
  | ifZero c => cases c <;> cases h <;> decide
  | ifCmp c => cases c <;> cases h <;> decide
  | _ => cases h

namespace Mutator

/-- The opcode that the replacement of an instruction with the opcode begins with; none if the operator has no
match there, or begins with the instruction itself as null checks do. -/
def leading? : Mutator → Opcode → Option Opcode
  | conditionalsBoundary, o => o.shifted?
  | math, .arith op type => (op.swappedOn? type).map (.arith · type)
  | negateConditionals, o => o.negated?
  | returnVals, .ret (some .int) => some (.ifZero .eq)
  | returnVals, .ret (some .long) => some .const
  | returnVals, .ret (some .float) => some (.neg .float)
  | returnVals, .ret (some .double) => some (.neg .double)
  | returnVals, .ret (some .ref) => some .pop
  | constructorCalls, .invoke .special => some .pop
  | _, _ => none

theorem leading?_ne {m : Mutator} {o a : Opcode} (h : m.leading? o = some a) : a ≠ o := by
  cases m with
  | conditionalsBoundary =>
    cases o with
    | ifZero c => cases c <;> cases h <;> decide
    | ifCmp c => cases c <;> cases h <;> decide
    | _ => cases h
  | math =>
    cases o with
    | arith op type => cases op <;> cases type <;> cases h <;> decide
    | _ => cases h
  | negateConditionals =>
    cases o with
    | ifZero c => cases c <;> cases h <;> decide
    | ifCmp c => cases c <;> cases h <;> decide
    | ifNull => cases h; decide
    | ifNonNull => cases h; decide
    | _ => cases h
  | returnVals =>
    cases o with
    | ret kind =>
      cases kind with
      | none => cases h
      | some kind => cases kind <;> cases h <;> decide
    | _ => cases h
  | constructorCalls =>
    cases o with
    | invoke kind => cases kind <;> cases h; decide
    | _ => cases h
  | checkNullObject => cases h

/-- The operator that matches instructions with the opcode; none for jumps, which two operators match. -/
def soleAt? : Opcode → Option Mutator
  | .arith _ _ => some math
  | .ret _ => some returnVals
  | .invoke _ => some constructorCalls
  | _ => none

theorem leading?_cases {m : Mutator} {o a : Opcode} (h : m.leading? o = some a) :
    m = conditionalsBoundary ∧ o.shifted? = some a ∨ m = negateConditionals ∧ o.negated? = some a ∨
      soleAt? o = some m := by
  cases m with
  | conditionalsBoundary => exact Or.inl ⟨rfl, h⟩
  | negateConditionals => exact Or.inr (Or.inl ⟨rfl, h⟩)
  | math =>
    cases o with
    | arith op type => exact Or.inr (Or.inr rfl)
    | _ => cases h
  | returnVals =>
    cases o with
    | ret kind => exact Or.inr (Or.inr rfl)
    | _ => cases h
  | constructorCalls =>
    cases o with
    | invoke kind => exact Or.inr (Or.inr rfl)
    | _ => cases h
  | checkNullObject => cases h

theorem shifted?_of_soleAt? {m : Mutator} {o : Opcode} (h : soleAt? o = some m) : o.shifted? = none := by
  cases o with
  | ifZero c => cases h
  | ifCmp c => cases h
  | _ => rfl

theorem negated?_of_soleAt? {m : Mutator} {o : Opcode} (h : soleAt? o = some m) : o.negated? = none := by
  cases o with
  | ifZero c => cases h
  | ifCmp c => cases h
  | ifNull => cases h
  | ifNonNull => cases h
  | _ => rfl

/-- Operators that match the same instruction begin their replacements with different opcodes. -/
theorem leading?_injective {m m' : Mutator} {o a : Opcode} (h : m.leading? o = some a)
    (h' : m'.leading? o = some a) : m = m' := by
  rcases leading?_cases h with ⟨rfl, hshifted⟩ | ⟨rfl, hnegated⟩ | hsole
  · rcases leading?_cases h' with ⟨rfl, -⟩ | ⟨-, hnegated⟩ | hsole
    · rfl
    · exact absurd hnegated (Opcode.shifted?_ne_negated? hshifted)
    · exact absurd hshifted (by simp [shifted?_of_soleAt? hsole])
  · rcases leading?_cases h' with ⟨-, hshifted⟩ | ⟨rfl, -⟩ | hsole
    · exact absurd hnegated (Opcode.shifted?_ne_negated? hshifted)
    · rfl
    · exact absurd hnegated (by simp [negated?_of_soleAt? hsole])
  · rcases leading?_cases h' with ⟨-, hshifted⟩ | ⟨-, hnegated⟩ | hsole'
    · exact absurd hshifted (by simp [shifted?_of_soleAt? hsole])
    · exact absurd hnegated (by simp [negated?_of_soleAt? hsole])
    · exact Option.some.inj (hsole.symm.trans hsole')

/-- No operator has a match at an instruction that dereferences an object. -/
theorem leading?_of_dereferences {insn : Instruction} (h : insn.Dereferences) (m : Mutator) :
    m.leading? insn.opcode = none := by
  rcases h with h | ⟨h | h, -⟩
  · rw [h]
    cases m <;> rfl
  · rw [h]
    cases m <;> rfl
  · rw [h]
    cases m <;> rfl

/-- What a proposal begins with, unless it is a null check. -/
theorem leading?_of_visit {m : Mutator} (hcheck : m ≠ .checkNullObject) {header : MethodHeader}
    {t : (m.visitor header).State} {insns : List Instruction} {p : Nat} {sub : Substitution}
    (h : ((m.visitor header).visit t insns p).1 = .propose sub) :
    ∃ insn first, insns[p]? = some insn ∧ sub.replacement[0]? = some first ∧
      m.leading? insn.opcode = some first.opcode := by
  cases m with
  | conditionalsBoundary =>
    obtain ⟨insn, opcode, hinsn, hopcode, rfl⟩ := Operator.opcodeAnswer_eq_propose_iff.mp h
    exact ⟨insn, _, hinsn, rfl, hopcode⟩
  | math =>
    obtain ⟨insn, op, type, new, hinsn, hopcode, hnew, rfl⟩ := Operator.arithmeticAnswer_eq_propose_iff.mp h
    refine ⟨insn, _, hinsn, rfl, ?_⟩
    rw [hopcode, leading?, hnew, Option.map_some]
  | negateConditionals =>
    obtain ⟨insn, opcode, hinsn, hopcode, rfl⟩ := Operator.opcodeAnswer_eq_propose_iff.mp h
    exact ⟨insn, _, hinsn, rfl, hopcode⟩
  | returnVals =>
    obtain ⟨insn, kind, hinsn, hopcode, rfl⟩ := Operator.returnsVisitor_proposes_iff.mp h
    cases kind <;> exact ⟨insn, _, hinsn, rfl, hopcode ▸ rfl⟩
  | constructorCalls =>
    obtain ⟨insn, r, d, hinsn, hopcode, -, -, -, -, rfl⟩ := Operator.constructorVisitor_proposes_iff.mp h
    refine ⟨insn, { opcode := .pop }, hinsn, rfl, ?_⟩
    rw [hopcode]
    rfl
  | checkNullObject => exact absurd rfl hcheck

end Mutator

/-! ## Where mutants differ -/

variable {method : Method} {header : MethodHeader} {p : Nat} {sub : Substitution} {output : List Instruction}

/-- Where a mutated stream first differs from the original one: at the match, and there as the operator begins;
or at the instruction behind the load that a null check is added to. -/
theorem IsSplice.exists_divergesAt {m : Mutator} {t : (m.visitor header).State}
    (hvisit : ((m.visitor header).visit t method.instructions p).1 = .propose sub)
    (h : IsSplice method p sub output) :
    ∃ i old new, DivergesAt method.instructions output i old new ∧
      (m ≠ .checkNullObject ∧ i = p ∧ m.leading? old.opcode = some new.opcode ∨
        m = .checkNullObject ∧ i = p + 1 ∧ old.Dereferences) := by
  by_cases hcheck : m = .checkNullObject
  · subst hcheck
    obtain ⟨insn, hinsn, hload, -, hnext, rfl⟩ := Operator.nullCheckVisitor_proposes_iff.mp hvisit
    obtain ⟨next, hat, hderef⟩ := (Option.any_eq_true _ _).mp hnext
    have hderef' := Operator.isDereference_iff.mp hderef
    have hload : output[p]? = some insn := h.getElem?_inside hinsn (k := 0) (Nat.succ_pos _)
    have hdup : output[p + 1]? = some ⟨.dup, .none, insn.line⟩ :=
      h.getElem?_inside hinsn (k := 1) (Nat.succ_lt_succ (Nat.succ_pos _))
    have hagrees : ∀ j < p + 1, output[j]? = method.instructions[j]? := by
      intro j hj
      rcases Nat.lt_or_eq_of_le (Nat.le_of_lt_succ hj) with hlt | rfl
      · exact h.getElem?_before hlt
      · exact hload.trans hinsn.symm
    have hne : Opcode.dup ≠ next.opcode := by
      rcases hderef' with heq | ⟨heq | heq, -⟩ <;> rw [heq] <;> decide
    exact ⟨p + 1, next, _, ⟨hagrees, hat, hdup, hne⟩, Or.inr ⟨rfl, rfl, hderef'⟩⟩
  · obtain ⟨insn, first, hinsn, hfirst, hleading⟩ := Mutator.leading?_of_visit hcheck hvisit
    have hlength : 0 < sub.replacement.length := (List.getElem?_eq_some_iff.mp hfirst).1
    have hnew := h.getElem?_inside hinsn hlength
    rw [hfirst, Option.map_some, Nat.add_zero] at hnew
    have hdiverges : DivergesAt method.instructions output p insn (first.onLine insn.line) :=
      ⟨fun j hj => h.getElem?_before hj, hinsn, hnew, Mutator.leading?_ne hleading⟩
    exact ⟨p, insn, first.onLine insn.line, hdiverges, Or.inl ⟨hcheck, rfl, hleading⟩⟩

/-- **A mutated stream determines** the operator and the position that it was made with. -/
theorem Mutator.eq_of_splices {m m' : Mutator} {header' : MethodHeader} {p' : Nat} {sub' : Substitution}
    {t : (m.visitor header).State} {t' : (m'.visitor header').State}
    (hvisit : ((m.visitor header).visit t method.instructions p).1 = .propose sub)
    (hvisit' : ((m'.visitor header').visit t' method.instructions p').1 = .propose sub')
    (h : IsSplice method p sub output) (h' : IsSplice method p' sub' output) : m = m' ∧ p = p' := by
  obtain ⟨i, old, new, hdiverges, hcase⟩ := h.exists_divergesAt hvisit
  obtain ⟨i', old', new', hdiverges', hcase'⟩ := h'.exists_divergesAt hvisit'
  obtain ⟨rfl, rfl, rfl⟩ := hdiverges.unique hdiverges'
  rcases hcase with ⟨-, rfl, hleading⟩ | ⟨rfl, rfl, hderef⟩
  · rcases hcase' with ⟨-, rfl, hleading'⟩ | ⟨-, -, hderef⟩
    · exact ⟨leading?_injective hleading hleading', rfl⟩
    · rw [leading?_of_dereferences hderef] at hleading
      cases hleading
  · rcases hcase' with ⟨-, -, hleading'⟩ | ⟨rfl, hposition, -⟩
    · rw [leading?_of_dereferences hderef] at hleading'
      cases hleading'
    · exact ⟨rfl, Nat.succ.inj hposition⟩

namespace ClassDef

variable {c : ClassDef}

/-- A class with other instructions in one method determines the method and the instructions. -/
theorem withInstructions_injective {i i' : Nat} {m m' : Method} {insns insns' : List Instruction}
    (hm : c.methods[i]? = some m) (hm' : c.methods[i']? = some m') (hne : insns ≠ m.instructions)
    (h : c.withInstructions i insns = c.withInstructions i' insns') : i = i' ∧ insns = insns' := by
  rw [withInstructions_eq hm, withInstructions_eq hm'] at h
  have hmethods : c.methods.set i { m with instructions := insns } =
      c.methods.set i' { m' with instructions := insns' } := congrArg ClassDef.methods h
  have hat := congrArg (·[i]?) hmethods
  have hi : i < c.methods.length := (List.getElem?_eq_some_iff.mp hm).1
  rw [List.getElem?_set_self hi] at hat
  by_cases heq : i' = i
  · subst heq
    rw [List.getElem?_set_self hi] at hat
    exact ⟨rfl, congrArg Method.instructions (Option.some.inj hat)⟩
  · rw [List.getElem?_set_ne heq, hm] at hat
    exact absurd (congrArg Method.instructions (Option.some.inj hat)) hne

/-- **Different identifiers have different mutants**, and every mutant differs from its class. -/
theorem buildMutant_definition_ne (c : ClassDef) (ms ms' : List Mutator) :
    (∀ id mutant, (c.buildMutant (ms.map (·.operator)) id).outcome = .ok mutant →
      mutant.definition ≠ c) ∧
    ∀ id id' mutant mutant', (c.buildMutant (ms.map (·.operator)) id).outcome = .ok mutant →
      (c.buildMutant (ms'.map (·.operator)) id').outcome = .ok mutant' → id ≠ id' →
      mutant.definition ≠ mutant'.definition := by
  constructor
  · intro id mutant h heq
    obtain ⟨m, index, method, header, p, first, others, sub, output, -, hmethod, -, -, -, ⟨t, hvisit⟩,
      hsplice, hdefinition⟩ := exists_match_of_buildMutant h
    obtain ⟨i, old, new, hdiverges, -⟩ := hsplice.exists_divergesAt hvisit
    -- the class is itself with the instructions that the method has
    have hself : c.withInstructions index method.instructions = c := by
      obtain ⟨hlt, rfl⟩ := List.getElem?_eq_some_iff.mp hmethod
      rw [withInstructions_eq hmethod]
      exact congrArg (fun methods => { c with methods }) (List.set_getElem_self hlt)
    have hboth : c.withInstructions index output = c.withInstructions index method.instructions :=
      (hdefinition.symm.trans heq).trans hself.symm
    exact hdiverges.ne (withInstructions_injective hmethod hmethod hdiverges.ne hboth).2
  · intro id id' mutant mutant' h h' hne heq
    obtain ⟨m, index, method, header, p, first, others, sub, output, -, hmethod, hheader, hid, haccepted,
      ⟨t, hvisit⟩, hsplice, hdefinition⟩ := exists_match_of_buildMutant h
    obtain ⟨m', index', method', header', p', first', others', sub', output', -, hmethod', hheader', hid',
      haccepted', ⟨t', hvisit'⟩, hsplice', hdefinition'⟩ := exists_match_of_buildMutant h'
    obtain ⟨i, old, new, hdiverges, -⟩ := hsplice.exists_divergesAt hvisit
    have hboth : c.withInstructions index output = c.withInstructions index' output' :=
      (hdefinition.symm.trans heq).trans hdefinition'
    obtain ⟨rfl, rfl⟩ := withInstructions_injective hmethod hmethod' hdiverges.ne hboth
    obtain rfl : method = method' := Option.some.inj (hmethod.symm.trans hmethod')
    obtain rfl : header = header' := Option.some.inj (hheader.symm.trans hheader')
    obtain ⟨rfl, rfl⟩ := Mutator.eq_of_splices hvisit hvisit' hsplice hsplice'
    have hindex : id.index = id'.index := Operator.eq_of_accepted haccepted haccepted' rfl
    exact hne (hid.trans ((congrArg _ hindex).trans hid'.symm))

end ClassDef

/-- A method that reads the same field twice, with the same instructions on the same line. -/
def twiceReader : Method where
  name := "touch"
  descriptor := "(LPair;)V"
  isStatic := true
  instructions :=
    [{ opcode := .load .ref, operand := .var 0, line := 3 },
     { opcode := .getField, operand := .field ⟨⟨"Pair"⟩, "left", "I"⟩, line := 3 },
     { opcode := .pop, line := 3 },
     { opcode := .load .ref, operand := .var 0, line := 3 },
     { opcode := .getField, operand := .field ⟨⟨"Pair"⟩, "left", "I"⟩, line := 3 },
     { opcode := .pop, line := 3 },
     { opcode := .ret none, line := 3 }]

def twiceReaderClass : ClassDef := { name := ⟨"Reader"⟩, methods := [twiceReader] }

/-- The null check of one of the two reads. -/
def twiceReaderMutation (index : Nat) : Mutation where
  id :=
    { owner := ⟨"Reader"⟩, method := "touch", descriptor := "(LPair;)V"
      operator := Mutator.checkNullObject.id, index }
  line := 3
  description := "added null check returning default value before dereference of local 0"

def twiceReaderMutant (index : Nat) : Mutant where
  mutation := twiceReaderMutation index
  definition := twiceReaderClass.withInstructions 0
    (twiceReader.instructions.take (3 * index) ++
      (Operator.checkedLoad 0 none { opcode := .load .ref, operand := .var 0 }).map (·.onLine 3) ++
      twiceReader.instructions.drop (3 * index + 1))

theorem buildMutant_definition_ne_twiceReader :
    let operators := [Mutator.math, .checkNullObject].map (·.operator)
    (twiceReaderClass.buildMutant operators (twiceReaderMutation 0).id).outcome =
        .ok (twiceReaderMutant 0) ∧
      (twiceReaderClass.buildMutant operators (twiceReaderMutation 1).id).outcome =
        .ok (twiceReaderMutant 1) ∧
      (twiceReaderMutant 0).definition ≠ twiceReaderClass ∧
      (twiceReaderMutant 0).definition ≠ (twiceReaderMutant 1).definition := by
  intro operators
  have hfirst : (twiceReaderClass.buildMutant operators (twiceReaderMutation 0).id).outcome =
      .ok (twiceReaderMutant 0) := by decide +kernel
  have hsecond : (twiceReaderClass.buildMutant operators (twiceReaderMutation 1).id).outcome =
      .ok (twiceReaderMutant 1) := by decide +kernel
  obtain ⟨horiginal, hdistinct⟩ := twiceReaderClass.buildMutant_definition_ne
    [.math, .checkNullObject] [.math, .checkNullObject]
  exact ⟨hfirst, hsecond, horiginal _ _ hfirst, hdistinct _ _ _ _ hfirst hsecond (by decide)⟩

end StackMutants
