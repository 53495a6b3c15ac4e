import StackMutants.Operator.Selection

/-!
# Proofs.Proposals — what each operator proposes

One equivalence for each operator: at which instruction it proposes a substitution, and which one.
-/

namespace StackMutants

theorem Instruction.callsConstructor_iff {insn : Instruction} :
    insn.callsConstructor = true ↔ insn.opcode = .invoke .special ∧
      ∃ r, insn.operand = .method r ∧ r.name = constructorName := by
  obtain ⟨opcode, operand, line⟩ := insn
  unfold callsConstructor method?
  cases operand <;> simp

namespace Operator

variable {insns : List Instruction} {i : Nat} {sub : Substitution}

theorem arithmeticAnswer_eq_propose_iff :
    arithmeticAnswer insns i = .propose sub ↔
      ∃ insn op type new, insns[i]? = some insn ∧ insn.opcode = .arith op type ∧
        op.swappedOn? type = some new ∧ sub = .single [{ opcode := .arith new type }]
          s!"Replaced {type.phrase} {op.phrase} with {new.phrase}" := by
  unfold arithmeticAnswer
  constructor
  · intro h
    split at h
    · rename_i op type hop
      obtain ⟨insn, hinsn, hopcode⟩ := Option.map_eq_some_iff.mp hop
      split at h
      · cases h
      · rename_i new hnew
        cases h
        exact ⟨insn, op, type, new, hinsn, hopcode, hnew, rfl⟩
    · cases h
  · rintro ⟨insn, op, type, new, hinsn, hopcode, hnew, rfl⟩
    rw [hinsn, Option.map_some, hopcode]
    dsimp only
    rw [hnew]

theorem opcodeAnswer_eq_propose_iff {change : Opcode → Option Opcode} {description : String} :
    opcodeAnswer change description insns i = .propose sub ↔
      ∃ insn opcode, insns[i]? = some insn ∧ change insn.opcode = some opcode ∧
        sub = .single [{ opcode, operand := insn.operand }] description := by
  unfold opcodeAnswer
  constructor
  · intro h
    split at h
    · cases h
    · rename_i insn hinsn
      split at h
      · cases h
      · rename_i opcode hopcode
        cases h
        exact ⟨insn, opcode, hinsn, hopcode, rfl⟩
  · rintro ⟨insn, opcode, hinsn, hopcode, rfl⟩
    rw [hinsn]
    dsimp only
    rw [hopcode]

theorem returnsVisitor_proposes_iff {header : MethodHeader} :
    ((returnsVisitor header).visit () insns i).1 = .propose sub ↔
      ∃ insn kind, insns[i]? = some insn ∧ insn.opcode = .ret (some kind) ∧
        sub = .single (changedReturn header.freshLabel kind).1
          (changedReturn header.freshLabel kind).2 := by
  unfold returnsVisitor Visitor.stateless
  dsimp only
  constructor
  · intro h
    split at h
    · cases h
    · rename_i kind hkind
      cases h
      obtain ⟨insn, hinsn, hreturned⟩ := Option.bind_eq_some_iff.mp hkind
      refine ⟨insn, kind, hinsn, ?_, rfl⟩
      unfold Instruction.returned? at hreturned
      split at hreturned
      · rename_i hopcode
        rw [hopcode, hreturned]
      · cases hreturned
  · rintro ⟨insn, kind, hinsn, hopcode, rfl⟩
    have hkind : insns[i]?.bind Instruction.returned? = some kind := by
      rw [hinsn, Option.bind_some]
      unfold Instruction.returned?
      rw [hopcode]
    rw [hkind]

theorem closingCallAnswer_eq_propose_iff {r : MemberRef} :
    closingCallAnswer r = .propose sub ↔
      ∃ d, Descriptor.parse r.descriptor = .ok d ∧
        sub = .single (discardedCall d) s!"removed call to {r.owner.text}::{r.name}" := by
  unfold closingCallAnswer
  cases Descriptor.parse r.descriptor with
  | error fault => simp
  | ok d => simp [eq_comm]

theorem constructorAnswer_eq_propose_iff {opened opened' : Nat} :
    constructorAnswer opened insns i = (.propose sub, opened') ↔
      ∃ insn r, insns[i]? = some insn ∧ insn.callsConstructor = true ∧ insn.method? = some r ∧
        opened = opened' + 1 ∧ closingCallAnswer r = .propose sub := by
  unfold constructorAnswer
  constructor
  · intro h
    split at h
    · cases h
    · rename_i insn hinsn
      split at h
      · cases h
      · split at h
        · cases h
        · rename_i hcall
          split at h
          · cases h
          · cases h
          · rename_i opened r hr
            obtain ⟨hanswer, rfl⟩ := Prod.mk.inj h
            exact ⟨insn, r, hinsn, by simpa using hcall, hr, rfl, hanswer⟩
  · rintro ⟨insn, r, hinsn, hcall, hr, rfl, hanswer⟩
    have hnew : insn.opcode ≠ .new := by
      intro hop
      unfold Instruction.callsConstructor at hcall
      rw [hop] at hcall
      cases hcall
    rw [hinsn]
    dsimp only
    rw [if_neg hnew, hcall, hr]
    show (closingCallAnswer r, opened') = _
    rw [hanswer]

theorem constructorVisitor_proposes_iff {opened : Nat} :
    (constructorVisitor.visit opened insns i).1 = .propose sub ↔
      ∃ insn r d, insns[i]? = some insn ∧ insn.opcode = .invoke .special ∧ insn.operand = .method r ∧
        r.name = constructorName ∧ Descriptor.parse r.descriptor = .ok d ∧ 0 < opened ∧
        sub = .single (discardedCall d) s!"removed call to {r.owner.text}::{r.name}" := by
  have hmethod : ∀ {insn : Instruction} {r}, insn.operand = .method r → insn.method? = some r := by
    intro insn r hoperand
    unfold Instruction.method?
    rw [hoperand]
  constructor
  · intro h
    obtain ⟨insn, r, hinsn, hcall, hr, hopened, hanswer⟩ :=
      constructorAnswer_eq_propose_iff.mp (Prod.ext h rfl)
    obtain ⟨d, hparse, hsub⟩ := closingCallAnswer_eq_propose_iff.mp hanswer
    obtain ⟨hop, r', hoperand, hname⟩ := Instruction.callsConstructor_iff.mp hcall
    obtain rfl : r' = r := Option.some.inj ((hmethod hoperand).symm.trans hr)
    exact ⟨insn, r', d, hinsn, hop, hoperand, hname, hparse, by omega, hsub⟩
  · rintro ⟨insn, r, d, hinsn, hop, hoperand, hname, hparse, hpos, rfl⟩
    obtain ⟨opened, rfl⟩ := Nat.exists_eq_add_one.mpr hpos
    have hcall := Instruction.callsConstructor_iff.mpr ⟨hop, r, hoperand, hname⟩
    have hanswer := closingCallAnswer_eq_propose_iff.mpr ⟨d, hparse, rfl⟩
    exact congrArg Prod.fst (constructorAnswer_eq_propose_iff.mpr
      ⟨insn, r, hinsn, hcall, hmethod hoperand, rfl, hanswer⟩)

theorem nullCheckVisitor_proposes_iff {header : MethodHeader} :
    ((nullCheckVisitor header).visit () insns i).1 = .propose sub ↔
      ∃ insn, insns[i]? = some insn ∧ insn.loadsObject = true ∧ loadsSelf header insn = false ∧
        insns[i + 1]?.any (·.isDereference) = true ∧
        sub = .single (checkedLoad header.freshLabel header.returnKind? insn)
          ("added null check returning default value before dereference of local " ++
            toString (insn.slot?.getD 0)) := by
  unfold nullCheckVisitor Visitor.stateless
  dsimp only
  cases hinsn : insns[i]? with
  | none => simp
  | some insn =>
    dsimp only
    by_cases hcond : (insn.loadsObject && !loadsSelf header insn &&
        insns[i + 1]?.any (·.isDereference)) = true
    · rw [if_pos hcond]
      simp only [Bool.and_eq_true, Bool.not_eq_true'] at hcond
      obtain ⟨⟨hload, hself⟩, hnext⟩ := hcond
      constructor
      · intro h
        cases h
        exact ⟨insn, rfl, hload, hself, hnext, rfl⟩
      · rintro ⟨insn', heq, -, -, -, rfl⟩
        cases heq
        rfl
    · rw [if_neg hcond]
      constructor
      · intro h
        cases h
      · rintro ⟨insn', heq, hload, hself, hnext, -⟩
        cases heq
        simp [hload, hself, hnext] at hcond

end Operator

end StackMutants
