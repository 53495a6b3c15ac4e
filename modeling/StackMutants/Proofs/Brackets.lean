import StackMutants.Proofs.Points
import StackMutants.Proofs.Targets
import StackMutants.Proofs.Partition

/-!
# Proofs.Brackets — which constructor calls are removed

An allocation and the constructor call that belongs to it are a pair of brackets around the arguments of the
call.  `AllocationOpen` says in the way of brackets that some allocation in front of an instruction still waits
for its call: from some position on there are more allocations than constructor calls.  The operator keeps a
count instead, which goes up at an allocation and down at a constructor call, and stays at zero where there is
nothing to close.

* `OpenedBefore`: that count is the greatest surplus of allocations behind any position.  One instruction keeps
  this (`OpenedBefore.step`), so it holds all along the stream (`Operator.openedBefore_stateAt`), and the count
  is positive exactly where an allocation is open.
* The check rejects a removed call exactly if the call returns something (`Operator.check_discardedCall_iff`),
  as null takes the place of the new object only.  What is left are the calls that close an allocation
  (`Method.ClosesAllocation`).
-/

namespace StackMutants

/-! ## Brackets -/

/-- How many instructions from the position `j` up to `i` satisfy the predicate. -/
def countBetween (q : Instruction → Bool) (insns : List Instruction) (j i : Nat) : Nat :=
  ((insns.take i).drop j).countP q

theorem countBetween_self (q : Instruction → Bool) (insns : List Instruction) (i : Nat) :
    countBetween q insns i i = 0 := by
  unfold countBetween
  rw [List.drop_eq_nil_of_le (List.length_take_le i insns), List.countP_nil]

theorem countBetween_succ {q : Instruction → Bool} {insns : List Instruction} {i j : Nat}
    {insn : Instruction} (hinsn : insns[i]? = some insn) (hj : j ≤ i) :
    countBetween q insns j (i + 1) = countBetween q insns j i + (q insn).toNat := by
  have hi : i < insns.length := (List.getElem?_eq_some_iff.mp hinsn).1
  have hlength : (insns.take i).length = i := List.length_take_of_le (Nat.le_of_lt hi)
  unfold countBetween
  rw [List.take_add_one, hinsn, Option.toList_some, List.drop_append_of_le_length (hlength.symm ▸ hj),
    List.countP_append, List.countP_singleton]
  cases q insn <;> rfl

/-- The number of allocations between two positions. -/
def allocationsIn (insns : List Instruction) (j i : Nat) : Nat := countBetween (·.opcode == .new) insns j i

/-- The number of constructor calls between two positions. -/
def constructorCallsIn (insns : List Instruction) (j i : Nat) : Nat :=
  countBetween (·.callsConstructor) insns j i

/-- **An allocation is open** in front of the position: with allocations as opening and constructor calls as
closing brackets, a bracket at the position would be matched. -/
def AllocationOpen (insns : List Instruction) (i : Nat) : Prop :=
  ∃ j ≤ i, constructorCallsIn insns j i < allocationsIn insns j i

instance (insns : List Instruction) (i : Nat) : Decidable (AllocationOpen insns i) :=
  inferInstanceAs (Decidable (∃ j ≤ i, constructorCallsIn insns j i < allocationsIn insns j i))

/-- **What the count stands for**: the greatest surplus of allocations from any position on. -/
structure OpenedBefore (insns : List Instruction) (i opened : Nat) : Prop where
  bound : ∀ j ≤ i, allocationsIn insns j i ≤ constructorCallsIn insns j i + opened
  attained : ∃ j ≤ i, allocationsIn insns j i = constructorCallsIn insns j i + opened

namespace OpenedBefore

variable {insns : List Instruction} {i opened : Nat}

theorem zero (insns : List Instruction) : OpenedBefore insns 0 0 := by
  have hnews : allocationsIn insns 0 0 = 0 := countBetween_self _ _ _
  constructor
  · intro j hj
    rw [Nat.le_zero.mp hj, hnews]
    exact Nat.zero_le _
  · exact ⟨0, Nat.le_refl _, hnews.trans (countBetween_self _ _ _).symm⟩

theorem allocationOpen_iff (h : OpenedBefore insns i opened) : AllocationOpen insns i ↔ 0 < opened := by
  constructor
  · rintro ⟨j, hj, hlt⟩
    have := h.bound j hj
    omega
  · intro hpos
    obtain ⟨j, hj, heq⟩ := h.attained
    exact ⟨j, hj, by omega⟩

end OpenedBefore

/-- The number of open allocations behind an instruction. -/
def Instruction.openedAfter (insn : Instruction) (opened : Nat) : Nat :=
  opened + (insn.opcode == .new).toNat - insn.callsConstructor.toNat

/-- An allocation is no call. -/
theorem Instruction.callsConstructor_of_new {insn : Instruction} (h : insn.opcode = .new) :
    insn.callsConstructor = false := by
  unfold callsConstructor
  rw [h]
  rfl

/-- **One instruction** changes the greatest surplus as the count says. -/
theorem OpenedBefore.step {insns : List Instruction} {i opened : Nat} {insn : Instruction}
    (h : OpenedBefore insns i opened) (hinsn : insns[i]? = some insn) :
    OpenedBefore insns (i + 1) (insn.openedAfter opened) := by
  have hnews : ∀ j ≤ i, allocationsIn insns j (i + 1) =
      allocationsIn insns j i + (insn.opcode == .new).toNat := fun j hj => countBetween_succ hinsn hj
  have hcalls : ∀ j ≤ i, constructorCallsIn insns j (i + 1) =
      constructorCallsIn insns j i + insn.callsConstructor.toNat := fun j hj => countBetween_succ hinsn hj
  have hnewsEnd : allocationsIn insns (i + 1) (i + 1) = 0 := countBetween_self _ _ _
  have hcallsEnd : constructorCallsIn insns (i + 1) (i + 1) = 0 := countBetween_self _ _ _
  have hle := Bool.toNat_le insn.callsConstructor
  unfold Instruction.openedAfter
  constructor
  · intro j hj
    rcases Nat.lt_or_eq_of_le hj with hlt | rfl
    · have hbound := h.bound j (Nat.le_of_lt_succ hlt)
      rw [hnews j (Nat.le_of_lt_succ hlt), hcalls j (Nat.le_of_lt_succ hlt)]
      omega
    · rw [hnewsEnd]
      exact Nat.zero_le _
  · obtain ⟨j, hj, heq⟩ := h.attained
    by_cases hclamped : opened + (insn.opcode == .new).toNat < insn.callsConstructor.toNat
    · -- a call that closes nothing: the surplus begins anew behind it
      refine ⟨i + 1, Nat.le_refl _, ?_⟩
      rw [hnewsEnd, hcallsEnd]
      omega
    · refine ⟨j, Nat.le_succ_of_le hj, ?_⟩
      rw [hnews j hj, hcalls j hj]
      omega

namespace Operator

variable {method : Method} {insns : List Instruction} {i : Nat} {insn : Instruction} {r : MemberRef}
variable {d : Descriptor}

/-! ## The count of the operator -/

theorem constructorAnswer_snd (opened : Nat) (hinsn : insns[i]? = some insn) :
    (constructorAnswer opened insns i).2 = insn.openedAfter opened := by
  unfold constructorAnswer Instruction.openedAfter
  rw [hinsn]
  dsimp only
  by_cases hnew : insn.opcode = .new
  · rw [if_pos hnew, Instruction.callsConstructor_of_new hnew, hnew]
    rfl
  · rw [if_neg hnew, beq_eq_false_iff_ne.mpr hnew]
    cases hcall : insn.callsConstructor with
    | false => rfl
    | true =>
      cases opened with
      | zero => rfl
      | succ opened => cases insn.method? <;> rfl

/-- **The operator counts open allocations** as brackets do. -/
theorem openedBefore_stateAt (insns : List Instruction) (hi : i ≤ insns.length) :
    OpenedBefore insns i (constructorVisitor.stateAt insns i) := by
  induction i with
  | zero => exact .zero insns
  | succ i ih =>
    have hinsn : insns[i]? = some insns[i] := List.getElem?_eq_getElem hi
    have hstate : constructorVisitor.stateAt insns (i + 1) =
        insns[i].openedAfter (constructorVisitor.stateAt insns i) := constructorAnswer_snd _ hinsn
    rw [hstate]
    exact (ih (Nat.le_of_succ_le hi)).step hinsn

/-! ## The check of a removed call -/

theorem run_pops (n : Nat) (depth : Int) (rest : List Instruction) :
    Walk.run ⟨some depth, []⟩ (List.replicate n { opcode := .pop } ++ rest) =
      Walk.run ⟨some (depth - n), []⟩ rest := by
  induction n generalizing depth with
  | zero => simp
  | succ n ih =>
    have hstep : Walk.step ⟨some depth, []⟩ { opcode := .pop } = .ok ⟨some (depth + -1), []⟩ := rfl
    rw [List.replicate_succ, List.cons_append, Walk.run_cons, hstep]
    show Walk.run ⟨some (depth + -1), []⟩ _ = _
    rw [ih]
    congr 3
    omega

theorem exitDepth_discardedCall (d : Descriptor) :
    exitDepth (discardedCall d) = .ok (some (-(d.params.length + 1))) := by
  unfold exitDepth discardedCall Walk.start
  rw [run_pops]
  have hdepth : (0 : Int) - (d.params.length + 2 : Nat) + 1 = -(d.params.length + 1) := by omega
  exact congrArg (fun depth => Except.ok (some depth)) hdepth

theorem exitDepth_specialCall (hop : insn.opcode = .invoke .special) (hoperand : insn.operand = .method r)
    (hparse : Descriptor.parse r.descriptor = .ok d) :
    exitDepth [insn] = .ok (some (d.returns.isSome.toNat - (d.params.length + 1))) := by
  obtain ⟨opcode, operand, line⟩ := insn
  obtain rfl : opcode = .invoke .special := hop
  obtain rfl : operand = .method r := hoperand
  have heffect : Instruction.stackEffect ⟨.invoke .special, .method r, line⟩ =
      .ok (d.callEffect .special) := by
    show (Descriptor.parse r.descriptor).map _ = _
    rw [hparse]
    rfl
  rw [exitDepth_singleton heffect rfl]
  show Except.ok (some (d.callEffect .special).delta) = _
  congr 2
  unfold Descriptor.callEffect StackEffect.delta
  cases d.returns <;> rfl

/-- A removed call is accepted exactly if the call returns nothing. -/
theorem check_discardedCall_iff (hop : insn.opcode = .invoke .special) (hoperand : insn.operand = .method r)
    (hparse : Descriptor.parse r.descriptor = .ok d) :
    Substitution.check method [insn] (discardedCall d) = .ok () ↔ d.returns = none := by
  have hregion := exitDepth_specialCall hop hoperand hparse
  have hreplacement := exitDepth_discardedCall d
  constructor
  · intro hcheck
    obtain ⟨depth, hbefore, hafter, -⟩ := Substitution.check_eq_ok_iff.mp hcheck
    have hsame := Except.ok.inj (hregion.symm.trans (hbefore.trans (hafter.symm.trans hreplacement)))
    have hdepths := Option.some.inj hsame
    cases hreturns : d.returns with
    | none => rfl
    | some kind =>
      rw [hreturns, Option.isSome_some, Bool.toNat_true] at hdepths
      omega
  · intro hreturns
    rw [hreturns, Option.isSome_none, Bool.toNat_false] at hregion
    have hdepth : ((0 : Nat) : Int) - (d.params.length + 1) = -(d.params.length + 1) := by omega
    rw [hdepth] at hregion
    exact check_of_ownLabels hregion hreplacement (ownLabels_discardedCall 0 d)

end Operator

/-! ## The calls that are removed -/

/-- **The call that closes an allocation**: the instruction calls a constructor that returns nothing, and an
allocation is open in front of it. -/
structure Method.ClosesAllocation (m : Method) (i : Nat) (insn : Instruction) (r : MemberRef)
    (d : Descriptor) : Prop where
  instruction : m.instructions[i]? = some insn
  opcode : insn.opcode = .invoke .special
  operand : insn.operand = .method r
  name : r.name = constructorName
  descriptor : Descriptor.parse r.descriptor = .ok d
  returns : d.returns = none
  allocated : AllocationOpen m.instructions i

namespace Operator

variable {method : Method} {i : Nat}

theorem constructor_acceptedAt_iff :
    constructorVisitor.AcceptedAt method i ↔ ∃ insn r d, method.ClosesAllocation i insn r d := by
  constructor
  · rintro ⟨insn, sub, hinsn, hvisit, hcheck⟩
    have hi : i < method.instructions.length := (List.getElem?_eq_some_iff.mp hinsn).1
    have hcount := openedBefore_stateAt method.instructions (Nat.le_of_lt hi)
    obtain ⟨insn', r, d, hinsn', hop, hoperand, hname, hparse, hopened, rfl⟩ :=
      constructorVisitor_proposes_iff.mp hvisit
    obtain rfl : insn = insn' := Option.some.inj (hinsn.symm.trans hinsn')
    exact ⟨insn, r, d, hinsn, hop, hoperand, hname, hparse,
      (check_discardedCall_iff hop hoperand hparse).mp hcheck, hcount.allocationOpen_iff.mpr hopened⟩
  · rintro ⟨insn, r, d, h⟩
    have hi : i < method.instructions.length := (List.getElem?_eq_some_iff.mp h.instruction).1
    have hcount := openedBefore_stateAt method.instructions (Nat.le_of_lt hi)
    have hopened := hcount.allocationOpen_iff.mp h.allocated
    have hproposal := constructorVisitor_proposes_iff.mpr
      ⟨insn, r, d, h.instruction, h.opcode, h.operand, h.name, h.descriptor, hopened, rfl⟩
    exact ⟨insn, _, h.instruction, hproposal,
      (check_discardedCall_iff h.opcode h.operand h.descriptor).mpr h.returns⟩

end Operator

/-- A splice of one instruction. -/
theorem IsSplice.eq_of_consumed_one {method : Method} {p : Nat} {sub : Substitution}
    {output : List Instruction} (h : IsSplice method p sub output) (hconsumed : sub.consumed = 1)
    {insn : Instruction} (hinsn : method.instructions[p]? = some insn) :
    output = method.instructions.take p ++ sub.replacement.map (·.onLine insn.line) ++
      method.instructions.drop (p + 1) := by
  obtain ⟨first, hfirst, hout⟩ := h.stream
  obtain rfl : first = insn := Option.some.inj (hfirst.symm.trans hinsn)
  rwa [Substitution.extent_of_consumed_one hconsumed] at hout

/-- **The constructor calls that are removed** are those that close an allocation.  A pass enters each of them
once, with the class whose constructor is called, and a pass that is aimed at one of the points replaces the
call with pops of the arguments, the receiver and the reference below it, and with null. -/
theorem Register.runPass_constructorCalls {m : Method} (hspare : m.SparesLastLabel) (r : Register) :
    ∃ output points,
      (r.runPass Mutator.constructorCalls.operator m).outcome = .ok (output, r.withPoints points) ∧
      (points.map (·.1)).Pairwise (· < ·) ∧
      (∀ i, i ∈ points.map (·.1) ↔ ∃ insn ref d, m.ClosesAllocation i insn ref d) ∧
      ∀ e ∈ points, ∀ insn ref d, m.ClosesAllocation e.1 insn ref d →
        e.2.line = insn.line ∧ e.2.description = s!"removed call to {ref.owner.text}::<init>" ∧
        ∃ r', ({ r with target := some e.2.id }.runPass Mutator.constructorCalls.operator m).outcome =
          .ok (m.instructions.take e.1 ++
            (List.replicate (d.params.length + 2) { opcode := .pop } ++
              [{ opcode := .nullConst }] : List Instruction).map (·.onLine insn.line) ++
            m.instructions.drop (e.1 + 1), r') := by
  obtain ⟨header, hheader⟩ := m.exists_header hspare r.owner
  obtain ⟨output, hrun⟩ := runPass_withPoints hheader Mutator.constructorCalls.operator
  refine ⟨output, _, hrun, header.pairwise_fst_points Mutator.constructorCalls.operator m _, ?_, ?_⟩
  · intro i
    rw [MethodHeader.map_fst_points, Mutator.mem_hits_iff]
    exact Operator.constructor_acceptedAt_iff
  · intro e he insn ref d h
    rw [← Method.name_of_header? hheader, ← Method.descriptor_of_header? hheader] at he
    obtain ⟨first, sub, output, r', hfirst, ⟨t, hvisit⟩, hline, hdescription, hrun', hsplice⟩ :=
      exists_splice_of_mem_points hheader he
    obtain ⟨insn', ref', d', hinsn', -, hoperand, -, hparse, -, rfl⟩ :=
      Operator.constructorVisitor_proposes_iff.mp hvisit
    obtain rfl : first = insn := Option.some.inj (hfirst.symm.trans h.instruction)
    obtain rfl : first = insn' := Option.some.inj (hfirst.symm.trans hinsn')
    obtain rfl : ref = ref' := Operand.method.inj (h.operand.symm.trans hoperand)
    obtain rfl : d = d' := Except.ok.inj (h.descriptor.symm.trans hparse)
    obtain rfl := hsplice.eq_of_consumed_one rfl hfirst
    refine ⟨hline, ?_, r', hrun'⟩
    rw [hdescription]
    show s!"removed call to {ref.owner.text}::{ref.name}" = _
    rw [h.name, String.append_assoc]
    rfl

/-- A call of a constructor of the class. -/
def constructorCall (owner descriptor : String) (line : UInt32) : Instruction :=
  { opcode := .invoke .special, operand := .method ⟨⟨owner⟩, constructorName, descriptor⟩, line }

/-- A constructor that calls the one that it extends, makes a box with a pair in it, and then what is neither:
an object whose constructor returns a number, and the same constructor again with nothing left to close. -/
def boxMaker : Method where
  name := constructorName
  descriptor := "()V"
  instructions :=
    [{ opcode := .load .ref, operand := .var 0 },
     constructorCall "Object" "()V" 2,
     { opcode := .new, operand := .type ⟨"Box"⟩ }, { opcode := .dup },
     { opcode := .new, operand := .type ⟨"Pair"⟩ }, { opcode := .dup },
     { opcode := .const, operand := .int 1 },
     constructorCall "Pair" "(I)V" 3,
     constructorCall "Box" "(LPair;)V" 3,
     { opcode := .pop },
     { opcode := .new, operand := .type ⟨"Odd"⟩ }, { opcode := .dup },
     constructorCall "Odd" "()I" 4,
     constructorCall "Odd" "()V" 4,
     { opcode := .ret none }]

theorem runPass_constructorCalls_boxMaker :
    boxMaker.SparesLastLabel ∧
      boxMaker.ClosesAllocation 7 (constructorCall "Pair" "(I)V" 3) ⟨⟨"Pair"⟩, constructorName, "(I)V"⟩
        ⟨[.int], none⟩ ∧
      (List.range 15).filter (fun i => AllocationOpen boxMaker.instructions i) =
        [3, 4, 5, 6, 7, 8, 11, 12] ∧
      ∃ output points,
        ((Register.blank ⟨"Maker"⟩).runPass Mutator.constructorCalls.operator boxMaker).outcome =
          .ok (output, (Register.blank ⟨"Maker"⟩).withPoints points) ∧
        (points.map (·.1)).Pairwise (· < ·) ∧
        (∀ i, i ∈ points.map (·.1) ↔ ∃ insn ref d, boxMaker.ClosesAllocation i insn ref d) ∧
        ∀ e ∈ points, ∀ insn ref d, boxMaker.ClosesAllocation e.1 insn ref d →
          e.2.line = insn.line ∧ e.2.description = s!"removed call to {ref.owner.text}::<init>" ∧
          ∃ r', ({ Register.blank ⟨"Maker"⟩ with target := some e.2.id }.runPass
              Mutator.constructorCalls.operator boxMaker).outcome =
            .ok (boxMaker.instructions.take e.1 ++
              (List.replicate (d.params.length + 2) { opcode := .pop } ++
                [{ opcode := .nullConst }] : List Instruction).map (·.onLine insn.line) ++
              boxMaker.instructions.drop (e.1 + 1), r') := by
  have hspare : boxMaker.SparesLastLabel := by decide
  have hopen : AllocationOpen boxMaker.instructions 7 := by decide
  have hparse : Descriptor.parse "(I)V" = .ok ⟨[.int], none⟩ := by decide +kernel
  have hcloses : boxMaker.ClosesAllocation 7 (constructorCall "Pair" "(I)V" 3)
      ⟨⟨"Pair"⟩, constructorName, "(I)V"⟩ ⟨[.int], none⟩ := ⟨rfl, rfl, rfl, rfl, hparse, rfl, hopen⟩
  exact ⟨hspare, hcloses, by decide, Register.runPass_constructorCalls hspare (.blank ⟨"Maker"⟩)⟩

/-- The call at 1 has nothing to close, the one at 12 returns something, and the one at 13 has nothing left. -/
example : ((Register.blank ⟨"Maker"⟩).runPass Mutator.constructorCalls.operator
    boxMaker).outcome.toOption.map (fun result => result.2.pending.map (·.1)) = some [7, 8] := by
  decide +kernel

end StackMutants
