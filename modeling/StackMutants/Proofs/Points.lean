import StackMutants.Proofs.Closure
import StackMutants.Proofs.Independence

/-!
# Proofs.Points — where the operators find mutation points

`Mutator.PointAt` says, for the operators without memory, which instructions are mutation points, and
mentions neither visitors nor replacements nor the check.  A pass enters exactly these positions into its
register (`Mutator.runPass_points`).

* `Visitor.mem_positions_iff`: a visitor that replaces single instructions is asked about every position in
  turn, and has a match accepted at a position exactly if it makes a proposal there that the check accepts
  (`Visitor.AcceptedAt`).
* One equivalence for each operator says where that is.  Of the check there remains what the operators do not
  look at themselves: whether the operand of the instruction fits, and whether the target of a jump is
  declared.
-/

namespace StackMutants

/-! ## Visitors of single instructions -/

namespace Visitor

/-- What the visitor remembers before a position, once it was asked about all positions before it. -/
def stateAt (v : Visitor) (insns : List Instruction) : Nat → v.State
  | 0 => v.start
  | i + 1 => (v.visit (v.stateAt insns i) insns i).2

/-- All proposals of the visitor are to replace one instruction. -/
def ReplacesOne (v : Visitor) : Prop :=
  ∀ s insns i sub, (v.visit s insns i).1 = .propose sub → sub.consumed = 1

/-- The visitor makes a proposal about the instruction at the position, and the check accepts it. -/
def AcceptedAt (v : Visitor) (method : Method) (i : Nat) : Prop :=
  ∃ insn sub, method.instructions[i]? = some insn ∧
    (v.visit (v.stateAt method.instructions i) method.instructions i).1 = .propose sub ∧
    Substitution.check method [insn] sub.replacement = .ok ()

theorem segments_cons {v : Visitor} (hone : v.ReplacesOne) (method : Method) (s : v.State) (p : Nat)
    (insn : Instruction) (rest : List Instruction) :
    ∃ seg, v.segments method s p 0 (insn :: rest) =
        seg :: v.segments method (v.visit s method.instructions p).2 (p + 1) 0 rest ∧
      seg.position = p ∧
      (seg.hit?.isSome ↔ ∃ sub, (v.visit s method.instructions p).1 = .propose sub ∧
        Substitution.check method [insn] sub.replacement = .ok ()) := by
  cases hvisit : v.visit s method.instructions p with
  | mk answer s' =>
    cases answer with
    | decline =>
      refine ⟨.declined p insn none, ?_, rfl, by simp [Segment.hit?]⟩
      rw [segments, hvisit]
    | abstain reason =>
      refine ⟨.declined p insn (some reason), ?_, rfl, by simp [Segment.hit?]⟩
      rw [segments, hvisit]
    | propose sub =>
      have hconsumed : sub.consumed = 1 :=
        hone s method.instructions p sub (congrArg Prod.fst hvisit)
      refine ⟨.matched p insn [] sub (sub.fault? method [insn]), ?_, rfl, ?_⟩
      · rw [segments, hvisit]
        dsimp only
        rw [hconsumed]
        rfl
      · unfold Substitution.fault?
        cases hcheck : Substitution.check method [insn] sub.replacement with
        | ok _ => simp [hcheck]
        | error fault => simp [Segment.hit?, hcheck]

/-- **Where a visitor of single instructions has its matches accepted.** -/
theorem mem_positions_iff {v : Visitor} (hone : v.ReplacesOne) {method : Method}
    {pre rest : List Instruction} (hmethod : method.instructions = pre ++ rest) (i : Nat) :
    i ∈ ((v.segments method (v.stateAt method.instructions pre.length) pre.length 0 rest).filterMap
        (·.hit?)).map (·.position) ↔ pre.length ≤ i ∧ v.AcceptedAt method i := by
  induction rest generalizing pre with
  | nil =>
    simp only [segments, List.filterMap_nil, List.map_nil, List.not_mem_nil, false_iff]
    rintro ⟨hle, insn, sub, hinsn, -⟩
    have hlt : i < method.instructions.length := (List.getElem?_eq_some_iff.mp hinsn).1
    rw [hmethod, List.append_nil] at hlt
    omega
  | cons insn rest ih =>
    obtain ⟨seg, hsegments, hposition, hhit⟩ := segments_cons hone method
      (v.stateAt method.instructions pre.length) pre.length insn rest
    have hinsn : method.instructions[pre.length]? = some insn := by simp [hmethod]
    -- what the visitor is asked next begins behind the instruction
    have hsplit : method.instructions = (pre ++ [insn]) ++ rest := by simp [hmethod]
    have hrest := ih hsplit
    rw [List.length_append, List.length_singleton] at hrest
    have hhere : seg.hit?.isSome ↔ v.AcceptedAt method pre.length := by
      rw [hhit]
      constructor
      · rintro ⟨sub, hsub, hcheck⟩
        exact ⟨insn, sub, hinsn, hsub, hcheck⟩
      · rintro ⟨insn', sub, hinsn', hsub, hcheck⟩
        obtain rfl : insn = insn' := Option.some.inj (hinsn.symm.trans hinsn')
        exact ⟨sub, hsub, hcheck⟩
    rw [hsegments]
    cases hseg : seg.hit? with
    | none =>
      rw [List.filterMap_cons_none hseg]
      refine hrest.trans ?_
      constructor
      · rintro ⟨hle, h⟩
        exact ⟨by omega, h⟩
      · rintro ⟨hle, h⟩
        have hne : i ≠ pre.length := by
          rintro rfl
          rw [hseg] at hhere
          exact absurd (hhere.mpr h) (by simp)
        exact ⟨by omega, h⟩
    | some hit =>
      have hat : hit.position = pre.length := (Segment.position_of_hit? hseg).trans hposition
      rw [List.filterMap_cons_some hseg, List.map_cons, List.mem_cons, hat]
      constructor
      · rintro (rfl | hmem)
        · exact ⟨Nat.le_refl _, hhere.mp (by rw [hseg]; rfl)⟩
        · obtain ⟨hle, h⟩ := hrest.mp hmem
          exact ⟨by omega, h⟩
      · rintro ⟨hle, h⟩
        by_cases heq : i = pre.length
        · exact Or.inl heq
        · exact Or.inr (hrest.mpr ⟨by omega, h⟩)

end Visitor

/-- The operators replace single instructions. -/
theorem Mutator.replacesOne (mutator : Mutator) (header : MethodHeader) :
    (mutator.visitor header).ReplacesOne := by
  intro s insns i sub h
  obtain ⟨insn, -, hconsumed, -⟩ := Mutator.standsFor_of_visit h
  exact hconsumed

/-! ## The documented points -/

/-- An instruction that reads a field of the object on top of the stack, or calls a method on it that takes no
arguments. -/
def Instruction.Dereferences (i : Instruction) : Prop :=
  i.opcode = .getField ∨
    (i.opcode = .invoke .virtual ∨ i.opcode = .invoke .interface) ∧
      ∃ r d, i.operand = .method r ∧ Descriptor.parse r.descriptor = .ok d ∧ d.params = []

/-- A jump to a label that the method declares. -/
def Instruction.JumpsWithin (i : Instruction) (method : Method) : Prop :=
  ∃ id, i.operand = .label id ∧ id ∈ labelsIn method.instructions

/-- **Which instructions are mutation points** of the operators without memory. -/
inductive Mutator.PointAt (method : Method) (i : Nat) : Mutator → Prop where
  | math {insn : Instruction} {op : ArithOp} {type : NumType} :
      method.instructions[i]? = some insn → insn.opcode = .arith op type →
      (type = .int ∨ type = .long) ∨ op ∈ [.add, .sub, .mul, .div, .rem] →
      PointAt method i .math
  | conditionalsBoundary {insn : Instruction} {cmp : CmpOp} :
      method.instructions[i]? = some insn → insn.opcode = .ifZero cmp ∨ insn.opcode = .ifCmp cmp →
      cmp ∈ [.lt, .le, .gt, .ge] → insn.JumpsWithin method →
      PointAt method i .conditionalsBoundary
  | negateConditionals {insn : Instruction} :
      method.instructions[i]? = some insn →
      (∃ cmp, insn.opcode = .ifZero cmp ∨ insn.opcode = .ifCmp cmp) ∨
        insn.opcode = .ifNull ∨ insn.opcode = .ifNonNull →
      insn.JumpsWithin method →
      PointAt method i .negateConditionals
  | returnVals {insn : Instruction} {kind : ValueKind} :
      method.instructions[i]? = some insn → insn.opcode = .ret (some kind) →
      PointAt method i .returnVals
  | checkNullObject {insn next : Instruction} {slot : UInt16} :
      method.instructions[i]? = some insn → insn.opcode = .load .ref → insn.operand = .var slot →
      (method.isStatic = true ∨ slot ≠ 0) →
      method.instructions[i + 1]? = some next → next.Dereferences →
      PointAt method i .checkNullObject

/-! ## One instruction by itself -/

theorem exitDepth_singleton {i : Instruction} {e : StackEffect} (he : i.stackEffect = .ok e)
    (hdeclares : i.declares? = none) :
    exitDepth [i] = .ok (if i.isTerminal then none else some e.delta) := by
  unfold exitDepth
  rw [Walk.run_cons, Walk.step_of_effect _ he, hdeclares]
  show Except.ok (Walk.start.pass i (0 + e.delta)).depth = _
  unfold Walk.pass
  rw [Int.zero_add]

theorem exists_stackEffect_of_exitDepth {i : Instruction} {d : Option Int}
    (h : exitDepth [i] = .ok d) : ∃ e, i.stackEffect = .ok e := by
  obtain ⟨w, hw, -⟩ := exists_run_of_exitDepth h
  exact Walk.exists_stackEffect_of_run hw i List.mem_cons_self

/-- A replacement that uses at most a label of its own is accepted if it has the depth of the region. -/
theorem check_of_ownLabels {method : Method} {region replacement : List Instruction} {d : Option Int}
    {fresh : UInt32} (hregion : exitDepth region = .ok d) (hreplacement : exitDepth replacement = .ok d)
    (hown : OwnLabels fresh replacement) : Substitution.check method region replacement = .ok () := by
  refine Substitution.check_eq_ok_iff.mpr ⟨d, hregion, hreplacement, ?_⟩
  refine Substitution.undeclaredTarget?_eq_none_iff.mpr fun i hi id hid => ?_
  have hused : id ∈ usedLabels replacement :=
    mem_usedLabels.mpr ⟨i, hi, Instruction.usedLabel?_of_target? hid⟩
  exact List.mem_append_right _ (hown.used id hused)

namespace Operator

variable {method : Method} {i : Nat} {header : MethodHeader}

/-! ## Arithmetic -/

theorem exists_swappedOn?_iff {op : ArithOp} {type : NumType} :
    (∃ new, op.swappedOn? type = some new) ↔
      (type = .int ∨ type = .long) ∨ op ∈ [.add, .sub, .mul, .div, .rem] := by
  cases op <;> cases type <;> simp [ArithOp.swappedOn?, ArithOp.swapped, NumType.isIntegral,
    ArithOp.isBitwise]

/-- Whatever operator stands in for another one, both are defined on the type. -/
theorem isBitwise_of_swappedOn? {op new : ArithOp} {type : NumType} (h : op.swappedOn? type = some new) :
    (op.isBitwise && !type.isIntegral) = false ∧ (new.isBitwise && !type.isIntegral) = false := by
  unfold ArithOp.swappedOn? at h
  split at h
  · rename_i hdefined
    cases h
    revert hdefined
    cases op <;> cases type <;> decide
  · cases h

theorem exitDepth_arith {insn : Instruction} {op : ArithOp} {type : NumType}
    (hop : insn.opcode = .arith op type) (hdefined : (op.isBitwise && !type.isIntegral) = false) :
    exitDepth [insn] = .ok (some (-1)) := by
  obtain ⟨opcode, operand, line⟩ := insn
  obtain rfl : opcode = .arith op type := hop
  have heffect : Instruction.stackEffect ⟨.arith op type, operand, line⟩ = .ok ⟨2, 1⟩ := by
    unfold Instruction.stackEffect
    dsimp only
    rw [hdefined]
    rfl
  exact exitDepth_singleton heffect rfl

theorem arithmetic_acceptedAt_iff :
    arithmeticVisitor.AcceptedAt method i ↔ Mutator.math.PointAt method i := by
  constructor
  · rintro ⟨_, sub, -, hvisit, -⟩
    obtain ⟨insn, op, type, new, hinsn, hop, hnew, -⟩ := arithmeticAnswer_eq_propose_iff.mp hvisit
    exact .math hinsn hop (exists_swappedOn?_iff.mp ⟨new, hnew⟩)
  · intro h
    cases h with
    | @math insn op type hinsn hop htype =>
      obtain ⟨new, hnew⟩ := exists_swappedOn?_iff.mpr htype
      obtain ⟨hold, hdefined⟩ := isBitwise_of_swappedOn? hnew
      have hproposal := arithmeticAnswer_eq_propose_iff.mpr ⟨insn, op, type, new, hinsn, hop, hnew, rfl⟩
      have hown : OwnLabels 0 [{ opcode := .arith new type }] := ownLabels_of_usedLabels_eq_nil rfl
      refine ⟨insn, _, hinsn, hproposal, ?_⟩
      exact check_of_ownLabels (exitDepth_arith hop hold) (exitDepth_arith rfl hdefined) hown

/-! ## Conditional jumps -/

/-- Another jump for a jump is accepted exactly if the target is a label of the method. -/
theorem check_jump_iff {insn : Instruction} {opcode : Opcode} (h : insn.opcode.SameJump opcode) :
    Substitution.check method [insn] [{ opcode, operand := insn.operand }] = .ok () ↔
      insn.JumpsWithin method := by
  obtain ⟨old, operand, line⟩ := insn
  have hnone : labelsIn [{ opcode, operand }] = [] := by cases h <;> rfl
  have hbranch : Instruction.isBranch { opcode, operand } = true := by cases h <;> rfl
  rw [Substitution.check_eq_ok_iff]
  dsimp only
  rw [hnone, List.append_nil]
  constructor
  · rintro ⟨d, -, hd, hdeclared⟩
    obtain ⟨e, he⟩ := exists_stackEffect_of_exitDepth hd
    obtain ⟨id, hid⟩ := Instruction.exists_label?_of_isBranch he hbranch
    have htarget := Instruction.target?_eq_some_iff.mpr ⟨hbranch, hid⟩
    have hmem := Substitution.undeclaredTarget?_eq_none_iff.mp hdeclared _ List.mem_cons_self id htarget
    obtain rfl : operand = .label id := by
      cases operand <;> cases hid
      rfl
    exact ⟨id, rfl, hmem⟩
  · rintro ⟨id, hoperand, hmem⟩
    obtain rfl : operand = .label id := hoperand
    have hdepths : ∃ d, exitDepth [⟨old, .label id, line⟩] = .ok d ∧
        exitDepth [{ opcode, operand := .label id }] = .ok d := by
      cases h with
      | ifZero c c' => exact ⟨some (-1), rfl, rfl⟩
      | ifCmp c c' => exact ⟨some (-2), rfl, rfl⟩
      | ifNull => exact ⟨some (-1), rfl, rfl⟩
      | ifNonNull => exact ⟨some (-1), rfl, rfl⟩
    obtain ⟨d, hregion, hreplacement⟩ := hdepths
    refine ⟨d, hregion, hreplacement, Substitution.undeclaredTarget?_eq_none_iff.mpr ?_⟩
    intro j hj id' hid'
    obtain rfl := List.mem_singleton.mp hj
    obtain ⟨-, hlabel⟩ := Instruction.target?_eq_some_iff.mp hid'
    obtain rfl : id = id' := Option.some.inj hlabel
    exact hmem

/-- An operator that gives jumps another opcode has a match wherever there is one for a jump within the
method. -/
theorem opcode_acceptedAt_iff {change : Opcode → Option Opcode} {description : String}
    (hchange : ∀ o o', change o = some o' → o.SameJump o') :
    (Visitor.stateless (opcodeAnswer change description)).AcceptedAt method i ↔
      ∃ insn opcode, method.instructions[i]? = some insn ∧ change insn.opcode = some opcode ∧
        insn.JumpsWithin method := by
  constructor
  · rintro ⟨insn, sub, hinsn, hvisit, hcheck⟩
    obtain ⟨insn', opcode, hinsn', hopcode, rfl⟩ := opcodeAnswer_eq_propose_iff.mp hvisit
    obtain rfl : insn = insn' := Option.some.inj (hinsn.symm.trans hinsn')
    exact ⟨insn, opcode, hinsn, hopcode, (check_jump_iff (hchange _ _ hopcode)).mp hcheck⟩
  · rintro ⟨insn, opcode, hinsn, hopcode, hwithin⟩
    exact ⟨insn, _, hinsn, opcodeAnswer_eq_propose_iff.mpr ⟨insn, opcode, hinsn, hopcode, rfl⟩,
      (check_jump_iff (hchange _ _ hopcode)).mpr hwithin⟩

theorem exists_shifted?_iff {cmp : CmpOp} :
    (∃ c, cmp.shifted? = some c) ↔ cmp ∈ [.lt, .le, .gt, .ge] := by
  cases cmp <;> simp [CmpOp.shifted?]

theorem boundary_acceptedAt_iff :
    boundaryVisitor.AcceptedAt method i ↔ Mutator.conditionalsBoundary.PointAt method i := by
  refine (opcode_acceptedAt_iff fun _ _ => Opcode.sameJump_of_shifted?).trans ?_
  constructor
  · rintro ⟨insn, opcode, hinsn, hopcode, hwithin⟩
    unfold Opcode.shifted? at hopcode
    split at hopcode
    · rename_i cmp hop
      obtain ⟨c, hc, -⟩ := Option.map_eq_some_iff.mp hopcode
      exact .conditionalsBoundary hinsn (Or.inl hop) (exists_shifted?_iff.mp ⟨c, hc⟩) hwithin
    · rename_i cmp hop
      obtain ⟨c, hc, -⟩ := Option.map_eq_some_iff.mp hopcode
      exact .conditionalsBoundary hinsn (Or.inr hop) (exists_shifted?_iff.mp ⟨c, hc⟩) hwithin
    · cases hopcode
  · intro h
    cases h with
    | @conditionalsBoundary insn cmp hinsn hop hcmp hwithin =>
      obtain ⟨c, hc⟩ := exists_shifted?_iff.mpr hcmp
      rcases hop with hop | hop
      · refine ⟨insn, .ifZero c, hinsn, ?_, hwithin⟩
        rw [hop, Opcode.shifted?, hc, Option.map_some]
      · refine ⟨insn, .ifCmp c, hinsn, ?_, hwithin⟩
        rw [hop, Opcode.shifted?, hc, Option.map_some]

theorem exists_negated?_iff {o : Opcode} :
    (∃ o', o.negated? = some o') ↔
      (∃ cmp, o = .ifZero cmp ∨ o = .ifCmp cmp) ∨ o = .ifNull ∨ o = .ifNonNull := by
  cases o <;> simp [Opcode.negated?]

theorem negation_acceptedAt_iff :
    negationVisitor.AcceptedAt method i ↔ Mutator.negateConditionals.PointAt method i := by
  refine (opcode_acceptedAt_iff fun _ _ => Opcode.sameJump_of_negated?).trans ?_
  constructor
  · rintro ⟨insn, opcode, hinsn, hopcode, hwithin⟩
    exact .negateConditionals hinsn (exists_negated?_iff.mp ⟨opcode, hopcode⟩) hwithin
  · intro h
    cases h with
    | @negateConditionals insn hinsn hop hwithin =>
      obtain ⟨opcode, hopcode⟩ := exists_negated?_iff.mpr hop
      exact ⟨insn, opcode, hinsn, hopcode, hwithin⟩

/-! ## Returns -/

theorem exitDepth_return {insn : Instruction} {kind : ValueKind} (hop : insn.opcode = .ret (some kind)) :
    exitDepth [insn] = .ok none := by
  obtain ⟨opcode, operand, line⟩ := insn
  obtain rfl : opcode = .ret (some kind) := hop
  have heffect : Instruction.stackEffect ⟨.ret (some kind), operand, line⟩ = .ok ⟨1, 0⟩ := rfl
  exact exitDepth_singleton heffect rfl

/-- The walk over the replacement of an integer return meets its label again behind the first return. -/
theorem exitDepth_changedReturn (fresh : UInt32) (kind : ValueKind) :
    exitDepth (changedReturn fresh kind).1 = .ok none := by
  cases kind with
  | int =>
    have hjump : (Walk.start.run (changedReturn fresh .int).1) =
        (Walk.run ⟨none, [(fresh, -1)]⟩
          [{ opcode := .label, operand := .label fresh }, { opcode := .const, operand := .int 1 },
           { opcode := .ret (some .int) }]) := rfl
    have hlookup : ([(fresh, (-1 : Int))] : LabelDepths).lookup fresh = some (-1) := List.lookup_cons_self
    unfold exitDepth
    rw [hjump, Walk.run_cons, Walk.step_of_effect _ (e := ⟨0, 0⟩) rfl]
    dsimp only [Instruction.declares?, Instruction.label?, Walk.atLabel]
    rw [hlookup]
    rfl
  | long => rfl
  | float => rfl
  | double => rfl
  | ref => rfl

theorem returns_acceptedAt_iff :
    (returnsVisitor header).AcceptedAt method i ↔ Mutator.returnVals.PointAt method i := by
  constructor
  · rintro ⟨_, sub, -, hvisit, -⟩
    obtain ⟨insn, kind, hinsn, hop, -⟩ := returnsVisitor_proposes_iff.mp hvisit
    exact .returnVals hinsn hop
  · intro h
    cases h with
    | @returnVals insn kind hinsn hop =>
      refine ⟨insn, _, hinsn, returnsVisitor_proposes_iff.mpr ⟨insn, kind, hinsn, hop, rfl⟩, ?_⟩
      exact check_of_ownLabels (exitDepth_return hop) (exitDepth_changedReturn _ kind)
        (ownLabels_changedReturn header.freshLabel kind)

/-! ## Null checks -/

theorem isDereference_iff {i : Instruction} : i.isDereference = true ↔ i.Dereferences := by
  obtain ⟨opcode, operand, line⟩ := i
  unfold Instruction.isDereference Instruction.Dereferences Instruction.method?
  cases opcode with
  | getField => simp
  | invoke kind =>
    cases kind <;> cases operand <;> simp <;> split <;> simp_all
  | _ => simp

theorem loadsSelf_eq_false_iff {insn : Instruction} {slot : UInt16} (hslot : insn.operand = .var slot) :
    loadsSelf header insn = false ↔ header.isStatic = true ∨ slot ≠ 0 := by
  unfold loadsSelf Instruction.slot?
  rw [hslot]
  cases header.isStatic <;> simp

theorem exitDepth_load {insn : Instruction} {slot : UInt16} (hop : insn.opcode = .load .ref)
    (hslot : insn.operand = .var slot) : exitDepth [insn] = .ok (some 1) := by
  obtain ⟨opcode, operand, line⟩ := insn
  obtain rfl : opcode = .load .ref := hop
  obtain rfl : operand = .var slot := hslot
  rfl

/-- The walk over a checked load leaves for the label before the early return and goes on behind it. -/
theorem exitDepth_checkedLoad (fresh : UInt32) (returns : Option ValueKind) {insn : Instruction}
    {slot : UInt16} (hop : insn.opcode = .load .ref) (hslot : insn.operand = .var slot) :
    exitDepth (checkedLoad fresh returns insn) = .ok (some 1) := by
  have hjump : Walk.start.run (checkedLoad fresh returns insn) =
      Walk.run ⟨none, [(fresh, 1)]⟩ [{ opcode := .label, operand := .label fresh }] := by
    unfold checkedLoad
    rw [hop, hslot]
    rcases returns with - | - | - | - | - | - <;> rfl
  have hlookup : ([(fresh, (1 : Int))] : LabelDepths).lookup fresh = some 1 := List.lookup_cons_self
  unfold exitDepth
  rw [hjump, Walk.run_cons, Walk.step_of_effect _ (e := ⟨0, 0⟩) rfl]
  dsimp only [Instruction.declares?, Instruction.label?, Walk.atLabel]
  rw [hlookup]
  rfl

/-- A load with an effect names a variable. -/
theorem exists_slot_of_load {insn : Instruction} {e : StackEffect} (hop : insn.opcode = .load .ref)
    (he : insn.stackEffect = .ok e) : ∃ slot, insn.operand = .var slot := by
  obtain ⟨opcode, operand, line⟩ := insn
  obtain rfl : opcode = .load .ref := hop
  cases operand with
  | var slot => exact ⟨slot, rfl⟩
  | _ => cases he

theorem nullCheck_acceptedAt_iff (hstatic : header.isStatic = method.isStatic) :
    (nullCheckVisitor header).AcceptedAt method i ↔ Mutator.checkNullObject.PointAt method i := by
  constructor
  · rintro ⟨insn, sub, hinsn, hvisit, hcheck⟩
    obtain ⟨insn', hinsn', hload, hself, hnext, -⟩ := nullCheckVisitor_proposes_iff.mp hvisit
    obtain rfl : insn = insn' := Option.some.inj (hinsn.symm.trans hinsn')
    have hop : insn.opcode = .load .ref := by simpa [Instruction.loadsObject] using hload
    obtain ⟨d, hregion, -, -⟩ := Substitution.check_eq_ok_iff.mp hcheck
    obtain ⟨e, he⟩ := exists_stackEffect_of_exitDepth hregion
    obtain ⟨slot, hslot⟩ := exists_slot_of_load hop he
    obtain ⟨next, hat, hderef⟩ := (Option.any_eq_true _ _).mp hnext
    rw [loadsSelf_eq_false_iff hslot, hstatic] at hself
    exact .checkNullObject hinsn hop hslot hself hat (isDereference_iff.mp hderef)
  · intro h
    cases h with
    | @checkNullObject insn next slot hinsn hop hslot hself hat hderef =>
      have hload : insn.loadsObject = true := by simp [Instruction.loadsObject, hop]
      rw [← hstatic, ← loadsSelf_eq_false_iff hslot] at hself
      have hnext : method.instructions[i + 1]?.any (·.isDereference) = true :=
        (Option.any_eq_true _ _).mpr ⟨next, hat, isDereference_iff.mpr hderef⟩
      have hproposal := nullCheckVisitor_proposes_iff.mpr ⟨insn, hinsn, hload, hself, hnext, rfl⟩
      refine ⟨insn, _, hinsn, hproposal, ?_⟩
      exact check_of_ownLabels (exitDepth_load hop hslot) (exitDepth_checkedLoad _ _ hop hslot)
        (ownLabels_checkedLoad header.freshLabel header.returnKind? hop)

end Operator

/-! ## Passes -/

namespace Mutator

theorem acceptedAt_iff {mutator : Mutator} (hmemory : mutator ≠ .constructorCalls) {m : Method}
    {owner : ClassName} {header : MethodHeader} (hheader : m.header? owner = some header) (i : Nat) :
    (mutator.visitor header).AcceptedAt m i ↔ mutator.PointAt m i := by
  cases mutator with
  | conditionalsBoundary => exact Operator.boundary_acceptedAt_iff
  | math => exact Operator.arithmetic_acceptedAt_iff
  | negateConditionals => exact Operator.negation_acceptedAt_iff
  | returnVals => exact Operator.returns_acceptedAt_iff
  | constructorCalls => exact absurd rfl hmemory
  | checkNullObject => exact Operator.nullCheck_acceptedAt_iff (Method.isStatic_of_header? hheader)

/-- The positions of the matches that a pass of the operator has accepted. -/
theorem mem_hits_iff (mutator : Mutator) (header : MethodHeader) (m : Method) (i : Nat) :
    i ∈ (mutator.operator.hits header m).map (·.position) ↔ (mutator.visitor header).AcceptedAt m i := by
  have hone : (mutator.visitor header).ReplacesOne := mutator.replacesOne header
  have hall := Visitor.mem_positions_iff hone (List.nil_append m.instructions).symm i
  rw [List.length_nil] at hall
  exact hall.trans (and_iff_right (Nat.zero_le i))

/-- **A pass enters the documented points, and each of them once.** -/
theorem runPass_points {mutator : Mutator} (hmemory : mutator ≠ .constructorCalls) {m : Method}
    (hspare : m.SparesLastLabel) (r : Register) :
    ∃ output r' points, (r.runPass mutator.operator m).outcome = .ok (output, r') ∧
      r'.found = r.found ∧ r'.pending.Perm (r.pending ++ points) ∧
      (points.map (·.1)).Pairwise (· < ·) ∧
      ∀ i, i ∈ points.map (·.1) ↔ mutator.PointAt m i := by
  obtain ⟨header, hheader⟩ := m.exists_header hspare r.owner
  have hrun := r.runPass_outcome hheader mutator.operator
  have hregister := Register.replay_register (o := mutator.operator)
    (mutator.operator.segments header m) (Method.owner_of_header? hheader)
  refine ⟨_, _, header.points mutator.id (r.count header.name header.descriptor mutator.id)
    (mutator.operator.hits header m), hrun, ?_, ?_, ?_, ?_⟩
  · rw [hregister]
  · rw [hregister]
    exact Register.sortIn_perm _ _
  · exact header.pairwise_fst_points mutator.operator m _
  · intro i
    rw [MethodHeader.map_fst_points, mem_hits_iff]
    exact acceptedAt_iff hmemory hheader i

end Mutator

/-- An instance method that reads a field of its argument and one of the object that it is called on. -/
def fieldReader : Method where
  name := "read"
  descriptor := "(LPair;)V"
  instructions :=
    [{ opcode := .load .ref, operand := .var 1 },
     { opcode := .getField, operand := .field ⟨⟨"Pair"⟩, "left", "I"⟩ },
     { opcode := .pop },
     { opcode := .load .ref, operand := .var 0 },
     { opcode := .getField, operand := .field ⟨⟨"Reader"⟩, "last", "I"⟩ },
     { opcode := .pop },
     { opcode := .ret none }]

theorem runPass_points_fieldReader :
    Mutator.checkNullObject ≠ .constructorCalls ∧ fieldReader.SparesLastLabel ∧
      Mutator.checkNullObject.PointAt fieldReader 0 ∧
      ∃ output r' points,
        ((Register.blank ⟨"Reader"⟩).runPass Mutator.checkNullObject.operator fieldReader).outcome =
          .ok (output, r') ∧
        r'.found = (Register.blank ⟨"Reader"⟩).found ∧
        r'.pending.Perm ((Register.blank ⟨"Reader"⟩).pending ++ points) ∧
        (points.map (·.1)).Pairwise (· < ·) ∧
        ∀ i, i ∈ points.map (·.1) ↔ Mutator.checkNullObject.PointAt fieldReader i := by
  have hmemory : Mutator.checkNullObject ≠ .constructorCalls := by decide
  have hspare : fieldReader.SparesLastLabel := by decide
  have hslot : fieldReader.isStatic = true ∨ (1 : UInt16) ≠ 0 := Or.inr (by decide)
  have hpoint : Mutator.checkNullObject.PointAt fieldReader 0 :=
    .checkNullObject rfl rfl rfl hslot rfl (Or.inl rfl)
  exact ⟨hmemory, hspare, hpoint, Mutator.runPass_points hmemory hspare (Register.blank ⟨"Reader"⟩)⟩

end StackMutants
