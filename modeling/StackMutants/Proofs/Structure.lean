import StackMutants.Proofs.Targets
import StackMutants.Proofs.Proposals
import StackMutants.Proofs.Walk

/-!
# Proofs.Structure — mutants keep the structure of a method

`KeepsStructure` says what a mutated stream has in common with the stream that it was made from: the exit
depth or the fault, the declared labels but for one that is new, and that branches go to declared labels.

Operators replace single instructions, so all of this comes down to one instruction and its replacement
(`StandsFor`).  A replacement is checked by itself, at depth 0 and without recorded labels; as it uses no
label but a fresh one, it is then walked in any context as the instruction is (`standsFor_of_ownLabels`).
Only conditional jumps keep the label of the instruction, and they differ from it in nothing that a walk
looks at (`standsFor_of_sameJump`).
-/

namespace StackMutants

/-! ## The fresh label -/

instance lawfulOrderMaxUInt32 : Std.LawfulOrderMax UInt32 where
  max_le_iff a b c := by
    show (if a ≤ b then b else a) ≤ c ↔ a ≤ c ∧ b ≤ c
    simp only [UInt32.le_iff_toNat_le]
    split <;> omega

/-- No instruction of the method mentions the fresh label of its header. -/
theorem Method.label?_ne_freshLabel {m : Method} {owner : ClassName} {header : MethodHeader}
    (h : m.header? owner = some header) : ∀ i ∈ m.instructions, i.label? ≠ some header.freshLabel := by
  obtain ⟨fresh, hfresh, rfl⟩ := Option.map_eq_some_iff.mp h
  intro i hi hlabel
  have hmem : fresh ∈ m.mentionedLabels := List.mem_filterMap.mpr ⟨i, hi, hlabel⟩
  unfold freshLabel? at hfresh
  cases hmax : m.mentionedLabels.max? with
  | none =>
    rw [List.max?_eq_none_iff.mp hmax] at hmem
    cases hmem
  | some greatest =>
    have hle : fresh ≤ greatest := (List.max?_eq_some_iff.mp hmax).2 _ hmem
    rw [hmax] at hfresh
    dsimp only at hfresh
    split at hfresh
    · cases hfresh
    · rename_i hne
      obtain rfl := Option.some.inj hfresh
      -- the successor of a word is below it only if it is zero
      have hzero : (greatest + 1).toNat ≠ 0 := fun h0 => hne (UInt32.toNat.inj h0)
      have hlt := greatest.toNat_lt
      rw [UInt32.le_iff_toNat_le] at hle
      rw [UInt32.toNat_add] at hle hzero
      simp only [UInt32.reduceToNat, Nat.reducePow] at hle hzero hlt
      omega

/-! ## What is kept -/

/-- Every branch of the stream goes to a label that the stream declares. -/
def BranchesDeclared (insns : List Instruction) : Prop :=
  ∀ i ∈ insns, i.isBranch = true → ∃ id ∈ labelsIn insns, i.label? = some id

/-- The second stream ends at the depth of the first one or is at the same fault, declares the same labels
but for one that the first one does not mention, and closes its branches if the first one does. -/
structure KeepsStructure (before after : List Instruction) : Prop where
  exitDepth_eq : exitDepth after = exitDepth before
  labels : (labelsIn after).Perm (labelsIn before) ∨
    ∃ new, (∀ i ∈ before, i.label? ≠ some new) ∧ (labelsIn after).Perm (new :: labelsIn before) ∧
      (labelsIn after).count new = 1
  branches : BranchesDeclared before → BranchesDeclared after

/-- In a method that does not mention the fresh label, the stream may stand for the instruction. -/
structure StandsFor (fresh : UInt32) (insn : Instruction) (replacement : List Instruction) : Prop where
  walks : ∀ w : Walk, w.labels.lookup fresh = none →
    Walk.TracksOutcome 0 (· ≠ fresh) (w.run [insn]) (w.run replacement)
  declares : insn.declares? = none
  labels : labelsIn replacement = [] ∨ labelsIn replacement = [fresh]
  branches : ∀ i ∈ replacement, i.isBranch = true →
    (∃ id ∈ labelsIn replacement, i.label? = some id) ∨ insn.isBranch = true ∧ i.label? = insn.label?

theorem labelsIn_append (a b : List Instruction) : labelsIn (a ++ b) = labelsIn a ++ labelsIn b :=
  List.filterMap_append

theorem labelsIn_map_onLine (insns : List Instruction) (line : UInt32) :
    labelsIn (insns.map (·.onLine line)) = labelsIn insns := by
  unfold labelsIn
  rw [List.filterMap_map]
  rfl

theorem StandsFor.map_onLine {fresh : UInt32} {insn : Instruction} {replacement : List Instruction}
    (h : StandsFor fresh insn replacement) (line : UInt32) :
    StandsFor fresh insn (replacement.map (·.onLine line)) where
  walks w hw := by
    rw [Walk.run_map_onLine]
    exact h.walks w hw
  declares := h.declares
  labels := by
    rw [labelsIn_map_onLine]
    exact h.labels
  branches := by
    rw [labelsIn_map_onLine]
    intro i hi hbranch
    obtain ⟨j, hj, rfl⟩ := List.mem_map.mp hi
    exact h.branches j hj hbranch

section Replaced

variable {fresh : UInt32} {insn : Instruction} {replacement pre post : List Instruction}

theorem StandsFor.labelsIn_before (h : StandsFor fresh insn replacement) :
    labelsIn (pre ++ [insn] ++ post) = labelsIn pre ++ labelsIn post := by
  rw [labelsIn_append, labelsIn_append]
  unfold labelsIn
  rw [List.filterMap_cons_none h.declares, List.filterMap_nil, List.append_nil]

/-- The labels around the instruction stay declared. -/
theorem StandsFor.mem_labelsIn_after (h : StandsFor fresh insn replacement) {id : UInt32}
    (hid : id ∈ labelsIn (pre ++ [insn] ++ post)) : id ∈ labelsIn (pre ++ replacement ++ post) := by
  rw [h.labelsIn_before] at hid
  rw [labelsIn_append, labelsIn_append]
  rcases List.mem_append.mp hid with hid | hid
  · exact List.mem_append_left _ (List.mem_append_left _ hid)
  · exact List.mem_append_right _ hid

theorem StandsFor.labelsIn_perm (h : StandsFor fresh insn replacement)
    (hfresh : fresh ∉ labelsIn pre ++ labelsIn post) :
    (labelsIn (pre ++ replacement ++ post)).Perm (labelsIn (pre ++ [insn] ++ post)) ∨
      (labelsIn (pre ++ replacement ++ post)).Perm (fresh :: labelsIn (pre ++ [insn] ++ post)) ∧
        (labelsIn (pre ++ replacement ++ post)).count fresh = 1 := by
  rw [h.labelsIn_before, labelsIn_append, labelsIn_append]
  rcases h.labels with hnil | hone
  · rw [hnil, List.append_nil]
    exact Or.inl (.refl _)
  · have hperm : (labelsIn pre ++ labelsIn replacement ++ labelsIn post).Perm
        (fresh :: (labelsIn pre ++ labelsIn post)) := by
      rw [hone, List.append_assoc]
      exact List.perm_middle
    refine Or.inr ⟨hperm, ?_⟩
    rw [hperm.count_eq, List.count_cons_self, List.count_eq_zero.mpr hfresh]

theorem StandsFor.branchesDeclared (h : StandsFor fresh insn replacement)
    (hclosed : BranchesDeclared (pre ++ [insn] ++ post)) :
    BranchesDeclared (pre ++ replacement ++ post) := by
  intro i hi hbranch
  by_cases hmem : i ∈ pre ++ [insn] ++ post
  · obtain ⟨id, hid, hlabel⟩ := hclosed i hmem hbranch
    exact ⟨id, h.mem_labelsIn_after hid, hlabel⟩
  · have hi : i ∈ replacement := by simp_all
    rcases h.branches i hi hbranch with ⟨id, hid, hlabel⟩ | ⟨hinsn, heq⟩
    · refine ⟨id, ?_, hlabel⟩
      rw [labelsIn_append, labelsIn_append]
      exact List.mem_append_left _ (List.mem_append_right _ hid)
    · obtain ⟨id, hid, hlabel⟩ := hclosed insn (by simp) hinsn
      exact ⟨id, h.mem_labelsIn_after hid, heq.trans hlabel⟩

/-- **One instruction replaced.** -/
theorem StandsFor.keepsStructure (h : StandsFor fresh insn replacement)
    (hfresh : ∀ i ∈ pre ++ [insn] ++ post, i.label? ≠ some fresh) :
    KeepsStructure (pre ++ [insn] ++ post) (pre ++ replacement ++ post) := by
  have hunused : ∀ part, (∀ i ∈ part, i ∈ pre ++ [insn] ++ post) → fresh ∉ usedLabels part :=
    fun part hpart => not_mem_usedLabels fun i hi => hfresh i (hpart i hi)
  have hpre := hunused pre (by simp_all)
  have hpost := hunused post (by simp_all)
  constructor
  · exact exitDepth_replace h.walks hpre hpost
  · have hnew : fresh ∉ labelsIn pre ++ labelsIn post := by
      intro hmem
      rcases List.mem_append.mp hmem with hmem | hmem
      · exact hpre (mem_usedLabels_of_mem_labelsIn hmem)
      · exact hpost (mem_usedLabels_of_mem_labelsIn hmem)
    rcases h.labelsIn_perm hnew with hperm | ⟨hperm, hcount⟩
    · exact Or.inl hperm
    · exact Or.inr ⟨fresh, hfresh, hperm, hcount⟩
  · exact h.branchesDeclared

end Replaced

/-! ## Replacements that may stand for their instruction -/

/-- A branch with an effect has a label. -/
theorem Instruction.exists_label?_of_isBranch {i : Instruction} {e : StackEffect}
    (h : i.stackEffect = .ok e) (hbranch : i.isBranch = true) : ∃ id, i.label? = some id := by
  obtain ⟨opcode, operand, line⟩ := i
  cases operand with
  | label id => exact ⟨id, rfl⟩
  | _ => cases opcode <;> cases hbranch <;> cases h

/-- The stream uses at most the fresh label, declares it if it uses it, and declares it once. -/
structure OwnLabels (fresh : UInt32) (insns : List Instruction) : Prop where
  declared : labelsIn insns = [] ∨ labelsIn insns = [fresh]
  used : ∀ id ∈ usedLabels insns, id ∈ labelsIn insns

theorem OwnLabels.eq_of_mem {fresh : UInt32} {insns : List Instruction} (h : OwnLabels fresh insns) :
    ∀ id ∈ usedLabels insns, id = fresh := by
  intro id hid
  have hmem := h.used id hid
  rcases h.declared with hnil | hone
  · rw [hnil] at hmem
    cases hmem
  · rw [hone] at hmem
    exact List.mem_singleton.mp hmem

/-- **A replacement with labels of its own.**  It was checked by itself and is walked so everywhere. -/
theorem standsFor_of_ownLabels {fresh : UInt32} {insn : Instruction} {replacement : List Instruction}
    {d : Option Int} (hinsn : insn.usedLabel? = none) (hd : exitDepth [insn] = .ok d)
    (hd' : exitDepth replacement = .ok d) (hown : OwnLabels fresh replacement) :
    StandsFor fresh insn replacement := by
  constructor
  · intro w hw
    have hnone : usedLabels [insn] = [] := List.filterMap_cons_none hinsn
    obtain ⟨v, hv, hvdepth, hvlookup⟩ := Walk.exists_run_of_new_labels w hd (by simp [hnone])
    obtain ⟨v', hv', hvdepth', hvlookup'⟩ := Walk.exists_run_of_new_labels w hd'
      fun id hid => hown.eq_of_mem id hid ▸ hw
    rw [hv, hv']
    refine .ok ⟨?_, fun id hid => ?_⟩
    · rw [hvdepth', ← hvdepth]
      cases v.depth <;> simp
    · rw [hvlookup id (by simp [hnone]), hvlookup' id fun hmem => hid (hown.eq_of_mem id hmem)]
      cases w.labels.lookup id <;> simp
  · cases hdeclares : insn.declares? with
    | none => rfl
    | some id =>
      rw [Instruction.usedLabel?_of_declares? hdeclares] at hinsn
      cases hinsn
  · exact hown.declared
  · intro i hi hbranch
    obtain ⟨v, hv, -⟩ := exists_run_of_exitDepth hd'
    obtain ⟨e, he⟩ := Walk.exists_stackEffect_of_run hv i hi
    obtain ⟨id, hid⟩ := Instruction.exists_label?_of_isBranch he hbranch
    have htarget : i.target? = some id := by
      unfold Instruction.target?
      rw [if_pos hbranch, hid]
    have hused := mem_usedLabels.mpr ⟨i, hi, Instruction.usedLabel?_of_target? htarget⟩
    exact Or.inl ⟨id, hown.used id hused, hid⟩

/-- Conditional jumps that take the same values from the stack. -/
inductive Opcode.SameJump : Opcode → Opcode → Prop where
  | ifZero (c d : CmpOp) : SameJump (.ifZero c) (.ifZero d)
  | ifCmp (c d : CmpOp) : SameJump (.ifCmp c) (.ifCmp d)
  | ifNull : SameJump .ifNull .ifNonNull
  | ifNonNull : SameJump .ifNonNull .ifNull

theorem Opcode.sameJump_of_shifted? {o o' : Opcode} (h : o.shifted? = some o') : o.SameJump o' := by
  unfold shifted? at h
  split at h
  · obtain ⟨d, -, rfl⟩ := Option.map_eq_some_iff.mp h
    exact .ifZero _ d
  · obtain ⟨d, -, rfl⟩ := Option.map_eq_some_iff.mp h
    exact .ifCmp _ d
  · cases h

theorem Opcode.sameJump_of_negated? {o o' : Opcode} (h : o.negated? = some o') : o.SameJump o' := by
  unfold negated? at h
  split at h <;> cases h
  · exact .ifZero _ _
  · exact .ifCmp _ _
  · exact .ifNull
  · exact .ifNonNull

/-- **Another jump to the same label.** -/
theorem standsFor_of_sameJump {fresh : UInt32} {insn : Instruction} {opcode : Opcode} {line : UInt32}
    {d : Option Int} (hd : exitDepth [insn] = .ok d) (h : insn.opcode.SameJump opcode) :
    StandsFor fresh insn [{ opcode, operand := insn.operand, line }] := by
  obtain ⟨v, hv, -⟩ := exists_run_of_exitDepth hd
  obtain ⟨e, he⟩ := Walk.exists_stackEffect_of_run hv insn List.mem_cons_self
  obtain ⟨opcode', operand, line'⟩ := insn
  have hbranch : Instruction.isBranch ⟨opcode', operand, line'⟩ = true := by cases h <;> rfl
  obtain ⟨id, hid⟩ := Instruction.exists_label?_of_isBranch he hbranch
  obtain rfl : operand = .label id := by
    cases operand <;> cases hid
    rfl
  constructor
  · intro w _
    have hsame : w.run [⟨opcode, .label id, line⟩] = w.run [⟨opcode', .label id, line'⟩] := by
      cases h <;> rfl
    rw [hsame]
    exact .refl _ _
  · cases h <;> rfl
  · left
    cases h <;> rfl
  · intro i hi _
    obtain rfl := List.mem_singleton.mp hi
    exact Or.inr ⟨hbranch, rfl⟩

/-! ## The replacements of the operators -/

theorem Instruction.usedLabel?_eq_none {i : Instruction} {opcode : Opcode} (h : i.opcode = opcode)
    (hopcode : ∀ operand line, usedLabel? ⟨opcode, operand, line⟩ = none) : i.usedLabel? = none := by
  subst h
  exact hopcode i.operand i.line

theorem ownLabels_of_usedLabels_eq_nil {fresh : UInt32} {insns : List Instruction}
    (h : usedLabels insns = []) : OwnLabels fresh insns := by
  constructor
  · refine Or.inl (List.eq_nil_iff_forall_not_mem.mpr fun id hid => ?_)
    have hused := mem_usedLabels_of_mem_labelsIn hid
    rw [h] at hused
    cases hused
  · rw [h]
    simp

theorem Operator.ownLabels_discardedCall (fresh : UInt32) (d : Descriptor) :
    OwnLabels fresh (discardedCall d) := by
  refine ownLabels_of_usedLabels_eq_nil (List.filterMap_eq_nil_iff.mpr fun i hi => ?_)
  rcases List.mem_append.mp hi with hi | hi
  · obtain ⟨-, rfl⟩ := List.mem_replicate.mp hi
    rfl
  · obtain rfl := List.mem_singleton.mp hi
    rfl

theorem Operator.ownLabels_changedReturn (fresh : UInt32) (kind : ValueKind) :
    OwnLabels fresh (changedReturn fresh kind).1 := by
  cases kind with
  | int =>
    refine ⟨Or.inr rfl, ?_⟩
    show ∀ id ∈ [fresh, fresh], id ∈ [fresh]
    simp
  | _ => exact ownLabels_of_usedLabels_eq_nil rfl

theorem Operator.ownLabels_checkedLoad (fresh : UInt32) (returns : Option ValueKind)
    {load : Instruction} (hload : load.opcode = .load .ref) :
    OwnLabels fresh (checkedLoad fresh returns load) := by
  have hdeclared : labelsIn (checkedLoad fresh returns load) = [fresh] := by
    unfold checkedLoad
    rw [hload]
    rcases returns with - | - | - | - | - | - <;> rfl
  have hused : usedLabels (checkedLoad fresh returns load) = [fresh, fresh] := by
    unfold checkedLoad
    rw [hload]
    rcases returns with - | - | - | - | - | - <;> rfl
  refine ⟨Or.inr hdeclared, ?_⟩
  rw [hused, hdeclared]
  simp

/-- **The proposals of the operators**: each is about one instruction, and if the check accepts it, it may
stand for the instruction. -/
theorem Mutator.standsFor_of_visit {m : Mutator} {header : MethodHeader}
    {t : (m.visitor header).State} {insns : List Instruction} {p : Nat} {sub : Substitution}
    (h : ((m.visitor header).visit t insns p).1 = .propose sub) :
    ∃ insn, insns[p]? = some insn ∧ sub.consumed = 1 ∧
      ∀ d, exitDepth [insn] = .ok d → exitDepth sub.replacement = .ok d →
        StandsFor header.freshLabel insn sub.replacement := by
  cases m with
  | conditionalsBoundary =>
    obtain ⟨insn, opcode, hinsn, hopcode, rfl⟩ := Operator.opcodeAnswer_eq_propose_iff.mp h
    exact ⟨insn, hinsn, rfl, fun d hd _ => standsFor_of_sameJump hd (Opcode.sameJump_of_shifted? hopcode)⟩
  | math =>
    obtain ⟨insn, op, type, new, hinsn, hopcode, -, rfl⟩ := Operator.arithmeticAnswer_eq_propose_iff.mp h
    have hused := Instruction.usedLabel?_eq_none hopcode fun _ _ => rfl
    exact ⟨insn, hinsn, rfl, fun d hd hd' =>
      standsFor_of_ownLabels hused hd hd' (ownLabels_of_usedLabels_eq_nil rfl)⟩
  | negateConditionals =>
    obtain ⟨insn, opcode, hinsn, hopcode, rfl⟩ := Operator.opcodeAnswer_eq_propose_iff.mp h
    exact ⟨insn, hinsn, rfl, fun d hd _ => standsFor_of_sameJump hd (Opcode.sameJump_of_negated? hopcode)⟩
  | returnVals =>
    obtain ⟨insn, kind, hinsn, hopcode, rfl⟩ := Operator.returnsVisitor_proposes_iff.mp h
    have hused := Instruction.usedLabel?_eq_none hopcode fun _ _ => rfl
    exact ⟨insn, hinsn, rfl, fun d hd hd' =>
      standsFor_of_ownLabels hused hd hd' (Operator.ownLabels_changedReturn _ kind)⟩
  | constructorCalls =>
    obtain ⟨insn, r, d, hinsn, hopcode, -, -, -, -, rfl⟩ := Operator.constructorVisitor_proposes_iff.mp h
    have hused := Instruction.usedLabel?_eq_none hopcode fun _ _ => rfl
    exact ⟨insn, hinsn, rfl, fun _ hd hd' =>
      standsFor_of_ownLabels hused hd hd' (Operator.ownLabels_discardedCall _ d)⟩
  | checkNullObject =>
    obtain ⟨insn, hinsn, hload, -, -, rfl⟩ := Operator.nullCheckVisitor_proposes_iff.mp h
    have hopcode : insn.opcode = .load .ref := by
      simpa [Instruction.loadsObject] using hload
    have hused := Instruction.usedLabel?_eq_none hopcode fun _ _ => rfl
    exact ⟨insn, hinsn, rfl, fun d hd hd' =>
      standsFor_of_ownLabels hused hd hd' (Operator.ownLabels_checkedLoad _ _ hopcode)⟩

/-! ## Mutants -/

theorem Substitution.check_eq_ok_iff {method : Method} {region replacement : List Instruction} :
    check method region replacement = .ok () ↔
      ∃ d, exitDepth region = .ok d ∧ exitDepth replacement = .ok d ∧
        undeclaredTarget? (labelsIn method.instructions ++ labelsIn replacement) replacement = none := by
  unfold check
  cases exitDepth region with
  | error fault => simp [Except.mapError, bind, Except.bind]
  | ok before =>
    cases exitDepth replacement with
    | error fault => simp [Except.mapError, bind, Except.bind]
    | ok after =>
      by_cases heq : before = after
      · cases hundeclared : undeclaredTarget? (labelsIn method.instructions ++ labelsIn replacement)
            replacement with
        | none => simp [Except.mapError, bind, Except.bind, heq, hundeclared, pure, Except.pure]
        | some id =>
          simp [Except.mapError, bind, Except.bind, heq, hundeclared, throw, throwThe,
            MonadExceptOf.throw]
      · simp [Except.mapError, bind, Except.bind, heq, Ne.symm heq, throw, throwThe, MonadExceptOf.throw]

/-- What a mutant is made from. -/
theorem ClassDef.exists_proposal_of_buildMutant {c : ClassDef} {ms : List Mutator} {id : MutationId}
    {m : Mutant} (h : (c.buildMutant (ms.map (·.operator)) id).outcome = .ok m) :
    ∃ mutator index method header p sub output,
      c.methods.findIdx? (·.isMethodOf id) = some index ∧ c.methods[index]? = some method ∧
      method.header? c.name = some header ∧
      (∃ t, ((Mutator.visitor mutator header).visit t method.instructions p).1 = .propose sub) ∧
      IsSplice method p sub output ∧ m.definition = c.withInstructions index output := by
  obtain ⟨mutator, index, method, header, p, -, -, sub, output, hindex, hmethod, hheader, -, -, hvisit, hsplice,
    hdef⟩ := ClassDef.exists_match_of_buildMutant h
  exact ⟨mutator, index, method, header, p, sub, output, hindex, hmethod, hheader, hvisit, hsplice, hdef⟩

/-- A splice of a substitution that may stand for one instruction keeps the structure of the method. -/
theorem IsSplice.keepsStructure {method : Method} {owner : ClassName} {header : MethodHeader} {p : Nat}
    {sub : Substitution} {output : List Instruction} {insn : Instruction}
    (h : IsSplice method p sub output) (hheader : method.header? owner = some header)
    (hinsn : method.instructions[p]? = some insn) (hconsumed : sub.consumed = 1)
    (hstands : ∀ d, exitDepth [insn] = .ok d → exitDepth sub.replacement = .ok d →
      StandsFor header.freshLabel insn sub.replacement) :
    KeepsStructure method.instructions output := by
  obtain ⟨first, hfirst, hout⟩ := h.stream
  obtain rfl : first = insn := Option.some.inj (hfirst.symm.trans hinsn)
  have hextent : sub.extent method p = 1 := Substitution.extent_of_consumed_one hconsumed
  have hregion : (method.instructions.drop p).take 1 = [first] := by
    rw [List.take_one, List.head?_drop, hinsn]
    rfl
  have hbefore : method.instructions =
      method.instructions.take p ++ [first] ++ method.instructions.drop (p + 1) := by
    rw [← hregion, ← List.drop_drop, List.append_assoc, List.take_append_drop, List.take_append_drop]
  obtain ⟨d, hd, hd', -⟩ := Substitution.check_eq_ok_iff.mp h.accepted
  rw [hextent, hregion] at hd
  have hkeeps := ((hstands d hd hd').map_onLine first.line).keepsStructure
    (hbefore ▸ Method.label?_ne_freshLabel hheader)
  rw [hextent] at hout
  rw [← hbefore, ← hout] at hkeeps
  exact hkeeps

/-- **Mutants are structurally sound.**  A mutant is the class with other instructions in one method, the
first of the name and descriptor of its identifier, and the new instructions keep the structure of the old
ones. -/
theorem ClassDef.buildMutant_keepsStructure {c : ClassDef} {ms : List Mutator} {id : MutationId}
    {m : Mutant} (h : (c.buildMutant (ms.map (·.operator)) id).outcome = .ok m) :
    ∃ index method output, c.methods.findIdx? (·.isMethodOf id) = some index ∧
      c.methods[index]? = some method ∧
      m.definition =
        { c with methods := c.methods.set index { method with instructions := output } } ∧
      KeepsStructure method.instructions output := by
  obtain ⟨mutator, index, method, header, p, sub, output, hindex, hmethod, hheader, ⟨t, hvisit⟩, hsplice,
    hdef⟩ := exists_proposal_of_buildMutant h
  obtain ⟨insn, hinsn, hconsumed, hstands⟩ := Mutator.standsFor_of_visit hvisit
  refine ⟨index, method, output, hindex, hmethod, ?_,
    hsplice.keepsStructure hheader hinsn hconsumed hstands⟩
  rw [hdef, withInstructions_eq hmethod]

/-- A method that says whether its argument is zero. -/
def zeroTest : Method :=
  { name := "isZero", descriptor := "(I)Z", isStatic := true
    instructions :=
      [{ opcode := .load .int, operand := .var 0, line := 3 },
       { opcode := .ifZero .eq, operand := .label 7, line := 3 },
       { opcode := .const, operand := .int 0, line := 4 },
       { opcode := .ret (some .int), line := 4 },
       { opcode := .label, operand := .label 7, line := 5 },
       { opcode := .const, operand := .int 1, line := 5 },
       { opcode := .ret (some .int), line := 5 }] }

def zeroTestClass : ClassDef := { name := ⟨"Calc"⟩, methods := [zeroTest] }

/-- The first return of `zeroTest`, over which a branch is pending. -/
def zeroTestReturn : Mutation where
  id :=
    { owner := ⟨"Calc"⟩, method := "isZero", descriptor := "(I)Z", operator := Mutator.returnVals.id
      index := 0 }
  line := 4
  description := "replaced return of integer sized value with (x == 0 ? 1 : 0)"

def zeroTestMutant : Mutant where
  mutation := zeroTestReturn
  definition := zeroTestClass.withInstructions 0
    (zeroTest.instructions.take 3 ++
      (Operator.changedReturn 8 .int).1.map (·.onLine 4) ++ zeroTest.instructions.drop 4)

theorem buildMutant_keepsStructure_zeroTest :
    (zeroTestClass.buildMutant ([.math, .returnVals].map Mutator.operator) zeroTestReturn.id).outcome =
        .ok zeroTestMutant ∧
      ∃ index method output, zeroTestClass.methods.findIdx? (·.isMethodOf zeroTestReturn.id) = some index ∧
        zeroTestClass.methods[index]? = some method ∧
        zeroTestMutant.definition = { zeroTestClass with
          methods := zeroTestClass.methods.set index { method with instructions := output } } ∧
        KeepsStructure method.instructions output := by
  have h : (zeroTestClass.buildMutant ([.math, .returnVals].map Mutator.operator)
      zeroTestReturn.id).outcome = .ok zeroTestMutant := rfl
  exact ⟨h, ClassDef.buildMutant_keepsStructure h⟩

end StackMutants
