import StackMutants.Proofs.Brackets
import Mathlib.Data.List.Forall2

/-!
# Proofs.Involution — conditional jumps that are changed twice

Moving the boundary of a comparison makes another jump of a jump, and a second time the original one; so does
inverting a jump (`Opcode.Flips`).  An operator of this kind takes its mutant back if it finds the same point
under the same identifier there.

* A method and its mutant are the same up to flipped jumps (`Instruction.SameUpTo`).  They mention and declare
  the same labels, so they have the same header, and whether the check accepts a match does not depend on
  which of them it is in.  Hence the operator enters the same points in both (`Method.points_congr`).
* A pass that is aimed at a point flips the jump there and changes nothing else (`Register.runPass_flips`), so
  two such passes restore the stream (`Register.runPass_of_flipped`).
-/

namespace StackMutants

/-! ## Changes that are their own inverses -/

/-- The change makes other jumps of jumps, and takes each of them back. -/
structure Opcode.Flips (change : Opcode → Option Opcode) : Prop where
  sameJump : ∀ o o', change o = some o' → o.SameJump o'
  back : ∀ o o', change o = some o' → change o' = some o

theorem Opcode.flips_shifted? : Flips (·.shifted?) where
  sameJump _ _ h := sameJump_of_shifted? h
  back o o' h := by
    cases o with
    | ifZero c =>
      obtain ⟨d, hd, rfl⟩ := Option.map_eq_some_iff.mp h
      exact congrArg (Option.map ifZero) (CmpOp.shifted?_shifted? hd)
    | ifCmp c =>
      obtain ⟨d, hd, rfl⟩ := Option.map_eq_some_iff.mp h
      exact congrArg (Option.map ifCmp) (CmpOp.shifted?_shifted? hd)
    | _ => cases h

theorem Opcode.flips_negated? : Flips (·.negated?) where
  sameJump _ _ h := sameJump_of_negated? h
  back o o' h := by
    cases o with
    | ifZero c | ifCmp c =>
      cases h
      simp [negated?]
    | ifNull | ifNonNull =>
      cases h
      rfl
    | _ => cases h

variable {change : Opcode → Option Opcode} {description : String}

/-- The same instruction, up to a jump that the change may have flipped. -/
inductive Instruction.SameUpTo (change : Opcode → Option Opcode) : Instruction → Instruction → Prop where
  | same (insn : Instruction) : SameUpTo change insn insn
  | flipped {insn : Instruction} {opcode : Opcode} :
      change insn.opcode = some opcode → SameUpTo change insn { insn with opcode }

namespace Instruction.SameUpTo

variable {insn insn' : Instruction}

theorem operand_eq (h : SameUpTo change insn insn') : insn'.operand = insn.operand := by
  cases h <;> rfl

theorem line_eq (h : SameUpTo change insn insn') : insn'.line = insn.line := by
  cases h <;> rfl

theorem label?_eq (h : SameUpTo change insn insn') : insn'.label? = insn.label? := by
  unfold label?
  rw [h.operand_eq]

/-- Jumps declare no labels. -/
theorem declares?_eq (hflips : Opcode.Flips change) (h : SameUpTo change insn insn') :
    insn'.declares? = insn.declares? := by
  cases h with
  | same => rfl
  | @flipped opcode hopcode =>
    have hjump := hflips.sameJump _ _ hopcode
    obtain ⟨old, operand, line⟩ := insn
    cases hjump <;> rfl

/-- What was flipped can be flipped back. -/
theorem isSome_change (hflips : Opcode.Flips change) (h : SameUpTo change insn insn') :
    (change insn'.opcode).isSome = (change insn.opcode).isSome := by
  cases h with
  | same => rfl
  | flipped hopcode => rw [hopcode, hflips.back _ _ hopcode, Option.isSome_some, Option.isSome_some]

end Instruction.SameUpTo

/-! ## Streams with flipped jumps -/

section Streams

variable {insns insns' : List Instruction}

/-- The stream with one jump flipped. -/
theorem forall₂_sameUpTo_set {p : Nat} {insn : Instruction} {opcode : Opcode} (hinsn : insns[p]? = some insn)
    (hopcode : change insn.opcode = some opcode) :
    List.Forall₂ (Instruction.SameUpTo change) insns (insns.set p { insn with opcode }) := by
  induction insns generalizing p with
  | nil => cases hinsn
  | cons first insns ih =>
    cases p with
    | zero =>
      obtain rfl : first = insn := Option.some.inj hinsn
      exact .cons (.flipped hopcode) (List.forall₂_same.mpr fun insn _ => .same insn)
    | succ p => exact .cons (.same first) (ih hinsn)

/-- What instructions have in common with their flipped ones, streams have too. -/
theorem filterMap_congr_of_sameUpTo {α : Type} {f : Instruction → Option α}
    (hf : ∀ insn insn', Instruction.SameUpTo change insn insn' → f insn' = f insn)
    (h : List.Forall₂ (Instruction.SameUpTo change) insns insns') :
    insns'.filterMap f = insns.filterMap f := by
  induction h with
  | nil => rfl
  | cons hinsn _ ih => rw [List.filterMap_cons, List.filterMap_cons, hf _ _ hinsn, ih]

end Streams

/-! ## What a pass finds in them -/

namespace Visitor

theorem segments_of_decline {v : Visitor} {method : Method} {s s' : v.State} {p : Nat} (insn : Instruction)
    (rest : List Instruction) (h : v.visit s method.instructions p = (.decline, s')) :
    v.segments method s p 0 (insn :: rest) =
      .declined p insn none :: v.segments method s' (p + 1) 0 rest := by
  rw [segments, h]

theorem segments_of_propose_single {v : Visitor} {method : Method} {s s' : v.State} {p : Nat}
    {replacement : List Instruction} {text : String} (insn : Instruction) (rest : List Instruction)
    (h : v.visit s method.instructions p = (.propose (.single replacement text), s')) :
    v.segments method s p 0 (insn :: rest) =
      .matched p insn [] (.single replacement text)
          ((Substitution.single replacement text).fault? method [insn]) ::
        v.segments method s' (p + 1) 0 rest := by
  rw [segments, h]
  rfl

/-- What a pass finds at an instruction: the jumps within the method that the change applies to. -/
theorem segments_cons_opcodeAnswer (description : String) (hflips : Opcode.Flips change) {method : Method}
    {p : Nat} {insn : Instruction} (rest : List Instruction) (hinsn : method.instructions[p]? = some insn) :
    let v : Visitor := .stateless (Operator.opcodeAnswer change description)
    ∃ seg, v.segments method () p 0 (insn :: rest) = seg :: v.segments method () (p + 1) 0 rest ∧
      ∀ hit, seg.hit? = some hit ↔
        (change insn.opcode).isSome ∧ insn.JumpsWithin method ∧ hit = ⟨p, insn.line, description⟩ := by
  intro v
  cases hopcode : change insn.opcode with
  | none =>
    have hvisit : v.visit () method.instructions p = (.decline, ()) := by
      simp [v, stateless, Operator.opcodeAnswer, hinsn, hopcode]
    exact ⟨_, segments_of_decline insn rest hvisit, fun hit => by simp [Segment.hit?]⟩
  | some opcode =>
    have hvisit : v.visit () method.instructions p =
        (.propose (.single [{ opcode, operand := insn.operand }] description), ()) := by
      simp [v, stateless, Operator.opcodeAnswer, hinsn, hopcode]
    refine ⟨_, segments_of_propose_single insn rest hvisit, fun hit => ?_⟩
    rw [← Operator.check_jump_iff (hflips.sameJump _ _ hopcode)]
    unfold Substitution.fault? Substitution.single
    dsimp only
    cases hverdict : Substitution.check method [insn] [{ opcode, operand := insn.operand }] with
    | ok _ => simp [eq_comm]
    | error fault => simp [Segment.hit?]

/-- The same matches are accepted in both streams, as long as the methods declare the same labels. -/
theorem hits_congr (hflips : Opcode.Flips change) {m m' : Method}
    (hlabels : labelsIn m'.instructions = labelsIn m.instructions) {rest rest' : List Instruction} {p : Nat}
    (hdrop : m.instructions.drop p = rest) (hdrop' : m'.instructions.drop p = rest')
    (h : List.Forall₂ (Instruction.SameUpTo change) rest rest') :
    let v : Visitor := .stateless (Operator.opcodeAnswer change description)
    (v.segments m' () p 0 rest').filterMap (·.hit?) = (v.segments m () p 0 rest).filterMap (·.hit?) := by
  intro v
  induction h generalizing p with
  | nil => rfl
  | @cons insn insn' rest rest' hinsn _ ih =>
    have hat : m.instructions[p]? = some insn := by rw [← List.head?_drop, hdrop, List.head?_cons]
    have hat' : m'.instructions[p]? = some insn' := by rw [← List.head?_drop, hdrop', List.head?_cons]
    obtain ⟨seg, hseg, hhit⟩ := segments_cons_opcodeAnswer description hflips rest hat
    obtain ⟨seg', hseg', hhit'⟩ := segments_cons_opcodeAnswer description hflips rest' hat'
    have hwithin : insn'.JumpsWithin m' ↔ insn.JumpsWithin m := by
      unfold Instruction.JumpsWithin
      rw [hinsn.operand_eq, hlabels]
    have hsame : seg'.hit? = seg.hit? := by
      apply Option.ext
      intro hit
      rw [hhit, hhit', hinsn.isSome_change hflips, hwithin, hinsn.line_eq]
    have htail : m.instructions.drop (p + 1) = rest := by
      rw [← List.tail_drop, hdrop, List.tail_cons]
    have htail' : m'.instructions.drop (p + 1) = rest' := by
      rw [← List.tail_drop, hdrop', List.tail_cons]
    rw [hseg, hseg', List.filterMap_cons, List.filterMap_cons, hsame, ih htail htail']

end Visitor

section Points

variable {o : Operator}

/-- **Flipped jumps do not move the points** of an operator that flips jumps. -/
theorem Method.points_congr (hflips : Opcode.Flips change)
    (hvisitor : ∀ header, o.visitor header = .stateless (Operator.opcodeAnswer change description))
    {m : Method} {insns : List Instruction}
    (h : List.Forall₂ (Instruction.SameUpTo change) m.instructions insns) (owner : ClassName) :
    { m with instructions := insns }.points owner o = m.points owner o := by
  have hmentioned : { m with instructions := insns }.mentionedLabels = m.mentionedLabels :=
    filterMap_congr_of_sameUpTo (fun _ _ hinsn => hinsn.label?_eq) h
  have hdeclared : labelsIn insns = labelsIn m.instructions :=
    filterMap_congr_of_sameUpTo (fun _ _ hinsn => hinsn.declares?_eq hflips) h
  have hheader : { m with instructions := insns }.header? owner = m.header? owner := by
    unfold header? freshLabel?
    rw [hmentioned]
  have hhits : ∀ header, o.hits header { m with instructions := insns } = o.hits header m := by
    intro header
    unfold Operator.hits Operator.segments
    rw [hvisitor]
    exact Visitor.hits_congr hflips hdeclared List.drop_zero List.drop_zero h
  unfold points
  rw [hheader]
  simp only [hhits]

/-- **A pass that is aimed at a point** flips the jump there, and leaves everything else as it is. -/
theorem Register.runPass_flips
    (hvisitor : ∀ header, o.visitor header = .stateless (Operator.opcodeAnswer change description))
    {m : Method} {p : Nat} {d : Mutation} (hd : (p, d) ∈ m.points d.id.owner o) :
    ∃ insn opcode r, m.instructions[p]? = some insn ∧ change insn.opcode = some opcode ∧
      ((seeking d.id).runPass o m).outcome = .ok (m.instructions.set p { insn with opcode }, r) := by
  cases hheader : m.header? d.id.owner with
  | none =>
    unfold Method.points at hd
    rw [hheader] at hd
    cases hd
  | some header =>
    rw [Method.points_of_header? hheader] at hd
    obtain ⟨insn, sub, output, r, hinsn, ⟨t, hvisit⟩, -, -, hrun, hsplice⟩ :=
      exists_splice_of_mem_points (r := seeking d.id) hheader hd
    have hanswer : Operator.opcodeAnswer change description m.instructions p = .propose sub := by
      revert t
      rw [hvisitor]
      exact fun _ hvisit => hvisit
    obtain ⟨insn', opcode, hinsn', hopcode, rfl⟩ := Operator.opcodeAnswer_eq_propose_iff.mp hanswer
    obtain rfl : insn = insn' := Option.some.inj (hinsn.symm.trans hinsn')
    have hp : p < m.instructions.length := (List.getElem?_eq_some_iff.mp hinsn).1
    have houtput : output = m.instructions.set p { insn with opcode } := by
      rw [hsplice.eq_of_consumed_one rfl hinsn, List.set_eq_take_append_cons_drop, if_pos hp,
        List.append_assoc]
      rfl
    rw [houtput] at hrun
    exact ⟨insn, opcode, r, hinsn, hopcode, hrun⟩

/-- **There and back**: the same pass over the stream that a pass has made makes the original stream. -/
theorem Register.runPass_of_flipped (hflips : Opcode.Flips change)
    (hvisitor : ∀ header, o.visitor header = .stateless (Operator.opcodeAnswer change description))
    {m : Method} {d : Mutation} (hd : d ∈ (m.points d.id.owner o).map (·.2)) {insns : List Instruction}
    {r : Register} (hrun : ((seeking d.id).runPass o m).outcome = .ok (insns, r)) :
    ∃ r', ((seeking d.id).runPass o { m with instructions := insns }).outcome = .ok (m.instructions, r') ∧
      r'.applied = true ∧ r'.mutations.find? (·.id == d.id) = some d := by
  obtain ⟨⟨p, d'⟩, hpoint, hd'⟩ := List.mem_map.mp hd
  obtain rfl : d' = d := hd'
  obtain ⟨insn, opcode, r₁, hinsn, hopcode, hrun₁⟩ := runPass_flips hvisitor hpoint
  obtain ⟨rfl, -⟩ : insns = m.instructions.set p { insn with opcode } ∧ r = r₁ := by
    simpa using hrun.symm.trans hrun₁
  have hpoints := Method.points_congr hflips hvisitor (forall₂_sameUpTo_set hinsn hopcode) d'.id.owner
  rw [← hpoints] at hpoint
  obtain ⟨insn', opcode', r', hinsn', hopcode', hrun'⟩ := runPass_flips hvisitor hpoint
  -- the point is that of the flipped jump, which goes back to the original one
  have hp : p < m.instructions.length := (List.getElem?_eq_some_iff.mp hinsn).1
  obtain rfl : { insn with opcode } = insn' :=
    Option.some.inj ((List.getElem?_set_self hp).symm.trans hinsn')
  obtain rfl : insn.opcode = opcode' :=
    Option.some.inj ((hflips.back _ _ hopcode).symm.trans hopcode')
  have hback : (m.instructions.set p { insn with opcode }).set p insn = m.instructions := by
    rw [List.set_set, ← (List.getElem?_eq_some_iff.mp hinsn).2, List.set_getElem_self]
  obtain ⟨happlied, hfind⟩ := find?_of_seeking_runPass hrun' (List.mem_map_of_mem hpoint)
  exact ⟨r', hrun'.trans (congrArg (fun out => Except.ok (out, r')) hback), happlied, hfind⟩

end Points

/-! ## Mutants of mutants -/

namespace ClassDef

variable {c : ClassDef} {id : MutationId} {mutant : Mutant}

theorem withInstructions_self {index : Nat} {method : Method} (hmethod : c.methods[index]? = some method) :
    c.withInstructions index method.instructions = c := by
  obtain ⟨hlt, rfl⟩ := List.getElem?_eq_some_iff.mp hmethod
  rw [withInstructions_eq hmethod]
  exact congrArg (fun methods => { c with methods }) (List.set_getElem_self hlt)

theorem withInstructions_withInstructions (index : Nat) (insns insns' : List Instruction) :
    (c.withInstructions index insns).withInstructions index insns' = c.withInstructions index insns' := by
  unfold withInstructions
  dsimp only
  rw [List.modify_modify_eq]
  rfl

/-- Other instructions do not change which method an identifier means. -/
theorem findIdx?_withInstructions {index : Nat} {method : Method} (hmethod : c.methods[index]? = some method)
    (insns : List Instruction) (id : MutationId) :
    (c.withInstructions index insns).methods.findIdx? (·.isMethodOf id) =
      c.methods.findIdx? (·.isMethodOf id) := by
  obtain ⟨hlt, rfl⟩ := List.getElem?_eq_some_iff.mp hmethod
  have hkeep : (c.methods.map (·.isMethodOf id)).set index (c.methods[index].isMethodOf id) =
      c.methods.map (·.isMethodOf id) := by
    rw [← List.map_set, List.set_getElem_self]
  have hkeys : (c.withInstructions index insns).methods.map (·.isMethodOf id) =
      c.methods.map (·.isMethodOf id) := by
    rw [withInstructions_eq hmethod, List.map_set]
    exact hkeep
  have hfind := congrArg (List.findIdx? fun b => b) hkeys
  rw [List.findIdx?_map, List.findIdx?_map] at hfind
  exact hfind

/-- **An operator that flips jumps takes its mutants back.** -/
theorem buildMutant_of_flips {os : List Operator} {o : Operator} (hflips : Opcode.Flips change)
    (hvisitor : ∀ header, o.visitor header = .stateless (Operator.opcodeAnswer change description))
    (ho : os.find? (·.id == id.operator) = some o) (h : (c.buildMutant os id).outcome = .ok mutant) :
    (mutant.definition.buildMutant os id).outcome = .ok ⟨mutant.mutation, c⟩ := by
  obtain ⟨howner, o', index, m, output, r, ho', hindex, hmethod, hrun, -, hfind, hdefinition⟩ :=
    buildMutant_eq_ok_iff.mp h
  obtain rfl : o = o' := Option.some.inj (ho.symm.trans ho')
  obtain ⟨d, definition⟩ := mutant
  dsimp only at hfind hdefinition ⊢
  subst hdefinition
  obtain rfl : d.id = id := by simpa using List.find?_some hfind
  have hpoint : d ∈ (m.points d.id.owner o).map (·.2) :=
    (Register.seeking_runPass hrun).1.mem_iff.mp (List.mem_of_find?_eq_some hfind)
  obtain ⟨r', hrun', happlied', hfind'⟩ := Register.runPass_of_flipped hflips hvisitor hpoint hrun
  have hindex' := (findIdx?_withInstructions hmethod output d.id).trans hindex
  have hmethod' : (c.withInstructions index output).methods[index]? =
      some { m with instructions := output } := by
    have hlt : index < c.methods.length := (List.getElem?_eq_some_iff.mp hmethod).1
    rw [withInstructions_eq hmethod, List.getElem?_set_self hlt]
  have hback : c = (c.withInstructions index output).withInstructions index m.instructions := by
    rw [withInstructions_withInstructions, withInstructions_self hmethod]
  exact buildMutant_eq_ok_iff.mpr ⟨howner, o, index, _, m.instructions, r', ho, hindex', hmethod', hrun',
    happlied', hfind', hback⟩

/-- **Conditional mutations are involutions**: the mutant of a mutant under the same identifier is the class
itself, and the mutation is the same one in all its data. -/
theorem buildMutant_involutive {ms : List Mutator}
    (hoperator : id.operator = Mutator.negateConditionals.id ∨ id.operator = Mutator.conditionalsBoundary.id)
    (h : (c.buildMutant (ms.map (·.operator)) id).outcome = .ok mutant) :
    (mutant.definition.buildMutant (ms.map (·.operator)) id).outcome = .ok ⟨mutant.mutation, c⟩ := by
  obtain ⟨-, o, -, -, -, -, ho, -⟩ := buildMutant_eq_ok_iff.mp h
  obtain ⟨mutator, -, rfl⟩ := List.mem_map.mp (List.mem_of_find?_eq_some ho)
  have hid : mutator.id = id.operator := by simpa [Mutator.operator] using List.find?_some ho
  rcases hoperator with hoperator | hoperator
  · obtain rfl := Mutator.id_injective (hid.trans hoperator)
    exact buildMutant_of_flips Opcode.flips_negated? (fun _ => rfl) ho h
  · obtain rfl := Mutator.id_injective (hid.trans hoperator)
    exact buildMutant_of_flips Opcode.flips_shifted? (fun _ => rfl) ho h

end ClassDef

/-- A method that raises its argument to zero and lowers it to nine. -/
def clamp : Method where
  name := "clamp"
  descriptor := "(I)I"
  isStatic := true
  instructions :=
    [{ opcode := .load .int, operand := .var 0, line := 3 },
     { opcode := .ifZero .ge, operand := .label 0, line := 3 },
     { opcode := .const, operand := .int 0, line := 3 },
     { opcode := .ret (some .int), line := 3 },
     { opcode := .label, operand := .label 0, line := 4 },
     { opcode := .load .int, operand := .var 0, line := 4 },
     { opcode := .const, operand := .int 9, line := 4 },
     { opcode := .ifCmp .le, operand := .label 1, line := 4 },
     { opcode := .const, operand := .int 9, line := 5 },
     { opcode := .ret (some .int), line := 5 },
     { opcode := .label, operand := .label 1, line := 6 },
     { opcode := .load .int, operand := .var 0, line := 6 },
     { opcode := .ret (some .int), line := 6 }]

def clampClass : ClassDef := { name := ⟨"Clamp"⟩, methods := [clamp] }

/-- The second comparison of `clamp` with its boundary moved. -/
def clampMutant : Mutant where
  mutation :=
    { id :=
        { owner := ⟨"Clamp"⟩, method := "clamp", descriptor := "(I)I"
          operator := Mutator.conditionalsBoundary.id, index := 1 }
      line := 4
      description := "changed conditional boundary" }
  definition := clampClass.withInstructions 0
    (clamp.instructions.set 7 { opcode := .ifCmp .lt, operand := .label 1, line := 4 })

theorem buildMutant_involutive_clamp :
    let operators := [Mutator.negateConditionals, .conditionalsBoundary].map (·.operator)
    let id := clampMutant.mutation.id
    (id.operator = Mutator.negateConditionals.id ∨ id.operator = Mutator.conditionalsBoundary.id) ∧
      (clampClass.buildMutant operators id).outcome = .ok clampMutant ∧
      (clampMutant.definition.buildMutant operators id).outcome =
        .ok ⟨clampMutant.mutation, clampClass⟩ := by
  intro operators id
  have hoperator : id.operator = Mutator.negateConditionals.id ∨
      id.operator = Mutator.conditionalsBoundary.id := Or.inr rfl
  have hbuilt : (clampClass.buildMutant operators id).outcome = .ok clampMutant := by decide +kernel
  exact ⟨hoperator, hbuilt, ClassDef.buildMutant_involutive hoperator hbuilt⟩

end StackMutants
