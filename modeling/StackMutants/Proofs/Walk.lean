import StackMutants.Code.Depth
import Mathlib.Data.List.Basic

/-!
# Proofs.Walk — walks over streams in a context

`Walk.step_of_effect` says once what a walk does at an instruction; nothing else unfolds `Walk.step`.

`Walk.Tracks off shared w w'` relates two walks that stand at the same point, the second one `off` deeper,
and agree about the labels that `shared` names.  Two such walks go on alike over a stream that declares
shared labels only (`Tracks.run`), and a walk at a point that is never reached stays there over a stream
whose labels are not recorded (`run_of_unreached`).  So a stream can be walked in any context that does not
know its labels as it is walked by itself (`Walk.exists_run_in_context`), and what it leaves behind is its
exit depth and the records that it makes by itself (`labelDepth?`).
-/

namespace StackMutants

namespace Instruction

variable {i : Instruction} {id : UInt32}

/-- The label that the instruction declares or may branch to. -/
def usedLabel? (i : Instruction) : Option UInt32 := i.declares?.or i.target?

theorem usedLabel?_of_declares? (h : i.declares? = some id) : i.usedLabel? = some id := by
  unfold usedLabel?
  rw [h, Option.some_or]

theorem usedLabel?_of_target? (h : i.target? = some id) : i.usedLabel? = some id := by
  unfold target? at h
  split at h
  · rename_i hbranch
    have hnone : i.declares? = none := by
      unfold declares?
      unfold isBranch at hbranch
      split at hbranch <;> simp_all
    unfold usedLabel? target?
    rw [hnone, Option.none_or, if_pos hbranch, h]
  · cases h

theorem label?_of_usedLabel? (h : i.usedLabel? = some id) : i.label? = some id := by
  unfold usedLabel? declares? target? at h
  split at h
  · cases hlabel : i.label? <;> simp_all
  · rw [Option.none_or] at h
    split at h
    · exact h
    · cases h

/-- An instruction with an effect declares a label exactly if it is one. -/
theorem declares?_eq_none_iff {e : StackEffect} (h : i.stackEffect = .ok e) :
    i.declares? = none ↔ i.opcode ≠ .label := by
  obtain ⟨opcode, operand, line⟩ := i
  cases opcode <;> cases operand <;> simp_all [declares?, label?, stackEffect]

end Instruction

/-- The labels that a stream declares or branches to. -/
def usedLabels (insns : List Instruction) : List UInt32 := insns.filterMap (·.usedLabel?)

theorem mem_usedLabels {insns : List Instruction} {id : UInt32} :
    id ∈ usedLabels insns ↔ ∃ i ∈ insns, i.usedLabel? = some id := List.mem_filterMap

theorem mem_usedLabels_of_mem_labelsIn {insns : List Instruction} {id : UInt32}
    (h : id ∈ labelsIn insns) : id ∈ usedLabels insns := by
  obtain ⟨i, hi, hdeclares⟩ := List.mem_filterMap.mp h
  exact mem_usedLabels.mpr ⟨i, hi, Instruction.usedLabel?_of_declares? hdeclares⟩

theorem not_mem_usedLabels {insns : List Instruction} {id : UInt32}
    (h : ∀ i ∈ insns, i.label? ≠ some id) : id ∉ usedLabels insns := by
  intro hmem
  obtain ⟨i, hi, hused⟩ := mem_usedLabels.mp hmem
  exact h i hi (Instruction.label?_of_usedLabel? hused)

/-- What holds of all labels of a stream, those that `f` picks, holds of its first one and of the rest. -/
theorem forall_filterMap_cons {f : Instruction → Option UInt32} {i : Instruction}
    {rest : List Instruction} {P : UInt32 → Prop} :
    (∀ id ∈ (i :: rest).filterMap f, P id) ↔
      (∀ id, f i = some id → P id) ∧ ∀ id ∈ rest.filterMap f, P id := by
  simp only [List.forall_mem_filterMap, List.forall_mem_cons]

namespace Walk

variable {w w' : Walk} {i : Instruction}

/-! ## One step -/

@[simp] theorem depth_record (w : Walk) (id : UInt32) (d : Int) : (w.record id d).depth = w.depth := by
  unfold record
  split <;> rfl

theorem lookup_record (w : Walk) (id id' : UInt32) (d : Int) :
    (w.record id d).labels.lookup id' =
      (w.labels.lookup id').or (if id' = id then some d else none) := by
  unfold record
  cases h : w.labels.lookup id with
  | some d' =>
    dsimp only
    by_cases hid : id' = id
    · rw [hid, h]
      rfl
    · rw [if_neg hid, Option.or_none]
  | none =>
    dsimp only
    rw [List.lookup_append]
    congr 1
    by_cases hid : id' = id
    · simp [hid]
    · have hne : (id' == id) = false := beq_false_of_ne hid
      simp [hid, List.lookup_cons, hne]

/-- Passes an instruction that is no label and leaves the depth `after`. -/
def pass (w : Walk) (i : Instruction) (after : Int) : Walk where
  depth := if i.isTerminal then none else some after
  labels :=
    match i.target? with
    | some id => (w.record id after).labels
    | none => w.labels

theorem step_of_fault {fault : CodeFault} (w : Walk) (h : i.stackEffect = .error fault) :
    w.step i = .error fault := by
  unfold step
  rw [h]
  rfl

theorem exists_stackEffect_of_step (h : w.step i = .ok w') : ∃ e, i.stackEffect = .ok e := by
  cases heffect : i.stackEffect with
  | error fault =>
    rw [step_of_fault w heffect] at h
    cases h
  | ok e => exact ⟨e, rfl⟩

/-- **What a walk does at an instruction.** -/
theorem step_of_effect {e : StackEffect} (w : Walk) (h : i.stackEffect = .ok e) :
    w.step i =
      match i.declares? with
      | some id => (w.atLabel id).mapError (.instruction .label)
      | none =>
        match w.depth with
        | none => .ok w
        | some current => .ok (w.pass i (current + e.delta)) := by
  by_cases hop : i.opcode = .label
  · cases hd : i.declares? with
    | none => exact absurd hop ((Instruction.declares?_eq_none_iff h).mp hd)
    | some id =>
      have hid : i.label? = some id := by
        rw [← hd]
        unfold Instruction.declares?
        rw [hop]
      unfold step
      rw [h, hop, hid]
      rfl
  · rw [(Instruction.declares?_eq_none_iff h).mpr hop]
    unfold step
    rw [h]
    -- no other instruction looks at its label before it passes
    cases hopcode : i.opcode
    case label => exact absurd hopcode hop
    all_goals
      cases w.depth with
      | none => rfl
      | some current =>
        unfold pass
        cases i.target? <;> rfl

theorem lookup_atLabel {id declared : UInt32} (h : w.atLabel declared = .ok w') (hid : id ≠ declared) :
    w'.labels.lookup id = w.labels.lookup id := by
  unfold atLabel at h
  split at h
  · split at h
    · cases h
      rfl
    · cases h
  · cases h
    rfl
  · cases h
    rw [lookup_record, if_neg hid, Option.or_none]
  · cases h
    rfl

theorem lookup_pass {id : UInt32} (w : Walk) (after : Int) (hid : i.target? ≠ some id) :
    (w.pass i after).labels.lookup id = w.labels.lookup id := by
  unfold pass
  dsimp only
  split
  · rename_i target ht
    rw [lookup_record, if_neg (by rintro rfl; exact hid ht), Option.or_none]
  · rfl

/-- A label that the instruction does not mention keeps its record. -/
theorem lookup_step {id : UInt32} (h : w.step i = .ok w') (hid : i.usedLabel? ≠ some id) :
    w'.labels.lookup id = w.labels.lookup id := by
  obtain ⟨e, heffect⟩ := exists_stackEffect_of_step h
  rw [step_of_effect w heffect] at h
  cases hd : i.declares? with
  | some declared =>
    have hne : id ≠ declared := by
      rintro rfl
      exact hid (Instruction.usedLabel?_of_declares? hd)
    rw [hd] at h
    dsimp only at h
    cases hat : w.atLabel declared with
    | error fault =>
      rw [hat] at h
      cases h
    | ok v =>
      rw [hat] at h
      cases h
      exact lookup_atLabel hat hne
  | none =>
    rw [hd] at h
    dsimp only at h
    split at h
    · cases h
      rfl
    · cases h
      exact lookup_pass w _ fun ht => hid (Instruction.usedLabel?_of_target? ht)

/-- A record is never changed. -/
theorem lookup_step_of_some {id : UInt32} {d : Int} (h : w.step i = .ok w')
    (hid : w.labels.lookup id = some d) : w'.labels.lookup id = some d := by
  obtain ⟨e, heffect⟩ := exists_stackEffect_of_step h
  rw [step_of_effect w heffect] at h
  cases hd : i.declares? with
  | some declared =>
    rw [hd] at h
    dsimp only at h
    cases hat : w.atLabel declared with
    | error fault =>
      rw [hat] at h
      cases h
    | ok v =>
      rw [hat] at h
      cases h
      by_cases heq : id = declared
      · subst heq
        unfold atLabel at hat
        rw [hid] at hat
        split at hat
        · split at hat <;> cases hat
          exact hid
        · cases hat
          exact hid
        · rename_i hnone
          cases hnone
        · rename_i hnone
          cases hnone
      · rw [lookup_atLabel hat heq, hid]
  | none =>
    rw [hd] at h
    dsimp only at h
    split at h
    · cases h
      exact hid
    · cases h
      unfold pass
      dsimp only
      split
      · rw [lookup_record, hid, Option.some_or]
      · exact hid

/-- At a point that is never reached, an instruction with an effect does nothing unless it declares a label
that is recorded. -/
theorem step_of_unreached {e : StackEffect} (hdepth : w.depth = none) (heffect : i.stackEffect = .ok e)
    (hnew : ∀ id, i.declares? = some id → w.labels.lookup id = none) : w.step i = .ok w := by
  rw [step_of_effect w heffect]
  cases hd : i.declares? with
  | some id =>
    dsimp only [atLabel]
    rw [hdepth, hnew id hd]
    rfl
  | none =>
    rw [hdepth]

/-! ## Streams -/

theorem run_cons (w : Walk) (i : Instruction) (rest : List Instruction) :
    w.run (i :: rest) = (w.step i).bind fun w' => w'.run rest := rfl

theorem exists_step_of_run {rest : List Instruction} (h : w.run (i :: rest) = .ok w') :
    ∃ v, w.step i = .ok v ∧ v.run rest = .ok w' := by
  rw [run_cons] at h
  cases hstep : w.step i with
  | error fault =>
    rw [hstep] at h
    cases h
  | ok v =>
    rw [hstep] at h
    exact ⟨v, rfl, h⟩

theorem run_append (w : Walk) (a b : List Instruction) :
    w.run (a ++ b) = (w.run a).bind fun w' => w'.run b := by
  induction a generalizing w with
  | nil => rfl
  | cons i a ih =>
    rw [List.cons_append, run_cons, run_cons]
    cases w.step i with
    | error fault => rfl
    | ok w' => exact ih w'

theorem lookup_run {insns : List Instruction} {id : UInt32} (h : w.run insns = .ok w')
    (hid : id ∉ usedLabels insns) : w'.labels.lookup id = w.labels.lookup id := by
  induction insns generalizing w with
  | nil =>
    cases h
    rfl
  | cons i rest ih =>
    have hne : ∀ id' ∈ usedLabels (i :: rest), id' ≠ id := fun id' hid' heq => hid (heq ▸ hid')
    obtain ⟨hi, hrest⟩ := forall_filterMap_cons.mp hne
    obtain ⟨v, hstep, hrun⟩ := exists_step_of_run h
    rw [ih hrun fun hmem => hrest id hmem rfl]
    exact lookup_step hstep fun hlabel => hi id hlabel rfl

theorem lookup_run_of_some {insns : List Instruction} {id : UInt32} {d : Int} (h : w.run insns = .ok w')
    (hid : w.labels.lookup id = some d) : w'.labels.lookup id = some d := by
  induction insns generalizing w with
  | nil =>
    cases h
    exact hid
  | cons i rest ih =>
    obtain ⟨v, hstep, hrun⟩ := exists_step_of_run h
    exact ih hrun (lookup_step_of_some hstep hid)

/-- Every instruction that a walk passes has an effect. -/
theorem exists_stackEffect_of_run {insns : List Instruction} (h : w.run insns = .ok w') :
    ∀ i ∈ insns, ∃ e, i.stackEffect = .ok e := by
  induction insns generalizing w with
  | nil => simp
  | cons i rest ih =>
    obtain ⟨v, hstep, hrun⟩ := exists_step_of_run h
    exact List.forall_mem_cons.mpr ⟨exists_stackEffect_of_step hstep, ih hrun⟩

theorem run_of_unreached {insns : List Instruction} (hdepth : w.depth = none)
    (heffect : ∀ i ∈ insns, ∃ e, i.stackEffect = .ok e)
    (hnew : ∀ id ∈ labelsIn insns, w.labels.lookup id = none) : w.run insns = .ok w := by
  induction insns with
  | nil => rfl
  | cons i rest ih =>
    obtain ⟨⟨e, he⟩, hrest⟩ := List.forall_mem_cons.mp heffect
    obtain ⟨hi, hnew⟩ := forall_filterMap_cons.mp hnew
    rw [run_cons, step_of_unreached hdepth he hi]
    exact ih hrest hnew

end Walk

theorem exists_run_of_exitDepth {insns : List Instruction} {d : Option Int}
    (h : exitDepth insns = .ok d) : ∃ w, Walk.start.run insns = .ok w ∧ w.depth = d := by
  unfold exitDepth at h
  cases hw : Walk.start.run insns with
  | error fault =>
    rw [hw] at h
    cases h
  | ok w =>
    rw [hw] at h
    exact ⟨w, rfl, Except.ok.inj h⟩

/-- Walks do not look at source lines. -/
theorem Walk.run_map_onLine (w : Walk) (insns : List Instruction) (line : UInt32) :
    w.run (insns.map (·.onLine line)) = w.run insns := by
  induction insns generalizing w with
  | nil => rfl
  | cons i rest ih =>
    rw [List.map_cons, run_cons, run_cons]
    show (w.step i).bind _ = _
    simp only [ih]

/-! ## Walks at different depths -/

/-- The fault with the depths that it names raised. -/
def CodeFault.raised (off : Int) : CodeFault → CodeFault
  | .instruction opcode (.unevenLabel id current expected) =>
    .instruction opcode (.unevenLabel id (current + off) (expected + off))
  | fault => fault

@[simp] theorem CodeFault.raised_zero (fault : CodeFault) : fault.raised 0 = fault := by
  unfold raised
  split
  · rw [Int.add_zero, Int.add_zero]
  · rfl

theorem Descriptor.exists_of_parse_error {text : String} {fault : CodeFault}
    (h : parse text = .error fault) : ∃ cause, fault = .descriptor text cause := by
  unfold parse at h
  cases hread : read text.toList with
  | error cause =>
    rw [hread] at h
    cases h
    exact ⟨cause, rfl⟩
  | ok d =>
    rw [hread] at h
    cases h

/-- The fault of an instruction without an effect names no depth. -/
theorem Instruction.raised_stackEffect {i : Instruction} {fault : CodeFault}
    (h : i.stackEffect = .error fault) (off : Int) : fault.raised off = fault := by
  unfold stackEffect at h
  split at h
  any_goals cases h
  -- what is left: a bitwise operator, a call and an operand of another shape
  · split at h
    · cases h
      rfl
    · cases h
  · rename_i r _ _
    cases hparse : Descriptor.parse r.descriptor with
    | error fault' =>
      rw [hparse] at h
      obtain ⟨cause, rfl⟩ := Descriptor.exists_of_parse_error hparse
      cases h
      rfl
    | ok d =>
      rw [hparse] at h
      cases h
  · rfl

namespace Walk

variable {w w' : Walk} {i : Instruction}

/-- The second walk stands where the first one does, `off` deeper, and has the records of the first one for
the shared labels. -/
structure Tracks (off : Int) (shared : UInt32 → Prop) (w w' : Walk) : Prop where
  depth : w'.depth = w.depth.map (· + off)
  lookup : ∀ id, shared id → w'.labels.lookup id = (w.labels.lookup id).map (· + off)

/-- A walk that begins here shares the labels without a record. -/
theorem tracks_start {current : Int} (hdepth : w.depth = some current) :
    Tracks current (fun id => w.labels.lookup id = none) start w := by
  refine ⟨?_, fun id hid => ?_⟩
  · rw [hdepth]
    simp [start]
  · rw [hid]
    rfl

/-- Either both walks go on, or both are at the same fault. -/
inductive TracksOutcome (off : Int) (shared : UInt32 → Prop) :
    Except CodeFault Walk → Except CodeFault Walk → Prop where
  | ok {w w' : Walk} (h : Tracks off shared w w') : TracksOutcome off shared (.ok w) (.ok w')
  | error (fault : CodeFault) : TracksOutcome off shared (.error fault) (.error (fault.raised off))

variable {off : Int} {shared : UInt32 → Prop}

theorem Tracks.refl (shared : UInt32 → Prop) (w : Walk) : Tracks 0 shared w w := by
  constructor
  · cases w.depth <;> simp
  · intro id _
    cases w.labels.lookup id <;> simp

theorem TracksOutcome.refl (shared : UInt32 → Prop) (x : Except CodeFault Walk) :
    TracksOutcome 0 shared x x := by
  cases x with
  | ok w => exact .ok (.refl shared w)
  | error fault =>
    have h : TracksOutcome 0 shared (.error fault) (.error (fault.raised 0)) := .error fault
    rwa [CodeFault.raised_zero] at h

/-- Walks at the same depth end at the same depth. -/
theorem TracksOutcome.map_depth {x x' : Except CodeFault Walk} (h : TracksOutcome 0 shared x x') :
    x'.map (·.depth) = x.map (·.depth) := by
  cases h with
  | @ok w w' h =>
    show Except.ok w'.depth = Except.ok w.depth
    rw [h.depth]
    cases w.depth <;> simp
  | error fault => rw [CodeFault.raised_zero]

theorem TracksOutcome.bind {x x' : Except CodeFault Walk} {f : Walk → Except CodeFault Walk}
    (h : TracksOutcome off shared x x')
    (hf : ∀ w w', Tracks off shared w w' → TracksOutcome off shared (f w) (f w')) :
    TracksOutcome off shared (x.bind f) (x'.bind f) := by
  cases h with
  | ok h => exact hf _ _ h
  | error fault => exact .error fault

theorem Tracks.record (h : Tracks off shared w w') (id : UInt32) (d : Int) :
    ∀ id', shared id' → (w'.record id (d + off)).labels.lookup id' =
      ((w.record id d).labels.lookup id').map (· + off) := by
  intro id' hid'
  rw [lookup_record, lookup_record, h.lookup id' hid']
  cases w.labels.lookup id' with
  | some d' => rfl
  | none =>
    by_cases hid : id' = id
    · simp [hid]
    · simp [hid]

theorem Tracks.pass (h : Tracks off shared w w') (i : Instruction) (after : Int) :
    Tracks off shared (w.pass i after) (w'.pass i (after + off)) := by
  unfold Walk.pass
  constructor
  · dsimp only
    split <;> rfl
  · cases i.target? with
    | none => exact h.lookup
    | some id => exact h.record id after

theorem Tracks.atLabel (h : Tracks off shared w w') {id : UInt32} (hid : shared id) :
    TracksOutcome off shared ((w.atLabel id).mapError (.instruction .label))
      ((w'.atLabel id).mapError (.instruction .label)) := by
  have hlookup := h.lookup id hid
  have hdepth := h.depth
  unfold Walk.atLabel
  cases hw : w.depth with
  | none =>
    rw [hw] at hdepth
    rw [hdepth, hlookup]
    cases w.labels.lookup id with
    | none => exact .ok h
    | some expected => exact .ok ⟨rfl, h.lookup⟩
  | some current =>
    rw [hw] at hdepth
    rw [hdepth, hlookup]
    cases w.labels.lookup id with
    | none =>
      refine .ok ⟨?_, h.record id current⟩
      rw [depth_record, depth_record]
      exact h.depth
    | some expected =>
      dsimp only [Option.map_some]
      by_cases heq : current = expected
      · rw [if_pos heq, if_pos (congrArg (· + off) heq)]
        exact .ok h
      · rw [if_neg heq, if_neg (by omega)]
        exact .error (.instruction .label (.unevenLabel id current expected))

theorem Tracks.step (h : Tracks off shared w w') (hi : ∀ id, i.declares? = some id → shared id) :
    TracksOutcome off shared (w.step i) (w'.step i) := by
  cases heffect : i.stackEffect with
  | error fault =>
    rw [step_of_fault w heffect, step_of_fault w' heffect]
    have h : TracksOutcome off shared (.error fault) (.error (fault.raised off)) := .error fault
    rwa [Instruction.raised_stackEffect heffect] at h
  | ok e =>
    rw [step_of_effect w heffect, step_of_effect w' heffect]
    cases hd : i.declares? with
    | some id => exact h.atLabel (hi id hd)
    | none =>
      rw [h.depth]
      cases hw : w.depth with
      | none =>
        exact .ok h
      | some current =>
        refine .ok ?_
        rw [show current + off + e.delta = current + e.delta + off by omega]
        exact h.pass i _

/-- A walk looks at the record of a label only where the label is declared, so it is enough that the walks
agree about these. -/
theorem Tracks.run {insns : List Instruction} (h : Tracks off shared w w')
    (hinsns : ∀ id ∈ labelsIn insns, shared id) :
    TracksOutcome off shared (w.run insns) (w'.run insns) := by
  induction insns generalizing w w' with
  | nil => exact .ok h
  | cons i rest ih =>
    obtain ⟨hi, hrest⟩ := forall_filterMap_cons.mp hinsns
    exact (h.step hi).bind fun v v' hv => ih hv hrest

end Walk

/-! ## Streams in context -/

/-- The depth that a stream, walked by itself, records for a label. -/
def labelDepth? (insns : List Instruction) (id : UInt32) : Option Int :=
  match Walk.start.run insns with
  | .ok w => w.labels.lookup id
  | .error _ => none

theorem labelDepth?_of_run {insns : List Instruction} {w : Walk} (h : Walk.start.run insns = .ok w)
    (id : UInt32) : labelDepth? insns id = w.labels.lookup id := by
  unfold labelDepth?
  rw [h]

/-- **A stream in context.**  Where the walk is reached, a stream whose labels have no records yet changes
the depth and makes records as it does by itself; where it is not, the stream leaves it so.  Older records
stay. -/
theorem Walk.exists_run_in_context {insns : List Instruction} {d : Option Int} (w : Walk)
    (h : exitDepth insns = .ok d) (hnew : ∀ id ∈ labelsIn insns, w.labels.lookup id = none) :
    ∃ w', w.run insns = .ok w' ∧ w'.depth = w.depth.bind (fun current => d.map (· + current)) ∧
      ∀ id, w'.labels.lookup id =
        (w.labels.lookup id).or (w.depth.bind fun current => (labelDepth? insns id).map (· + current)) := by
  obtain ⟨v, hv, rfl⟩ := exists_run_of_exitDepth h
  cases hw : w.depth with
  | none =>
    have hrun := run_of_unreached hw (exists_stackEffect_of_run hv) hnew
    exact ⟨w, hrun, hw, fun id => Option.or_none.symm⟩
  | some current =>
    have hrun := (tracks_start hw).run hnew
    rw [hv] at hrun
    cases hw' : w.run insns with
    | error fault =>
      rw [hw'] at hrun
      cases hrun
    | ok w' =>
      rw [hw'] at hrun
      cases hrun with
      | ok hrun =>
        refine ⟨w', rfl, hrun.depth, fun id => ?_⟩
        rw [labelDepth?_of_run hv]
        cases hid : w.labels.lookup id with
        | some d => exact lookup_run_of_some hw' hid
        | none => exact hrun.lookup id hid

/-- A stream leaves the records of all labels that it does not use. -/
theorem Walk.exists_run_of_new_labels {insns : List Instruction} {d : Option Int} (w : Walk)
    (h : exitDepth insns = .ok d) (hnew : ∀ id ∈ usedLabels insns, w.labels.lookup id = none) :
    ∃ w', w.run insns = .ok w' ∧ w'.depth = w.depth.bind (fun current => d.map (· + current)) ∧
      ∀ id ∉ usedLabels insns, w'.labels.lookup id = w.labels.lookup id := by
  obtain ⟨w', hrun, hdepth, -⟩ :=
    w.exists_run_in_context h fun id hid => hnew id (mem_usedLabels_of_mem_labelsIn hid)
  exact ⟨w', hrun, hdepth, fun id hid => lookup_run hrun hid⟩

/-! ## Replacing a part of a stream -/

/-- **Replacing a part in context.**  If walks behind the two parts differ in no record that the rest of the
stream looks at, the streams have the same exit depth or the same fault. -/
theorem exitDepth_replace_of_tracks {pre part part' post : List Instruction} {shared : UInt32 → Prop}
    (hpart : ∀ w : Walk, Walk.start.run pre = .ok w →
      Walk.TracksOutcome 0 shared (w.run part) (w.run part'))
    (hpost : ∀ id ∈ labelsIn post, shared id) :
    exitDepth (pre ++ part' ++ post) = exitDepth (pre ++ part ++ post) := by
  unfold exitDepth
  rw [Walk.run_append, Walk.run_append, Walk.run_append, Walk.run_append]
  cases hv : Walk.start.run pre with
  | error fault => rfl
  | ok v => exact ((hpart v hv).bind fun u u' hu => hu.run hpost).map_depth

/-- A label that the first part of a stream does not use has no record behind it. -/
theorem Walk.lookup_run_start {insns : List Instruction} {w : Walk} {id : UInt32}
    (h : start.run insns = .ok w) (hid : id ∉ usedLabels insns) : w.labels.lookup id = none :=
  lookup_run h hid

/-- The two parts may differ in the record of a label that the rest of the stream does not use. -/
theorem exitDepth_replace {pre part part' post : List Instruction} {fresh : UInt32}
    (hpart : ∀ w : Walk, w.labels.lookup fresh = none →
      Walk.TracksOutcome 0 (· ≠ fresh) (w.run part) (w.run part'))
    (hpre : fresh ∉ usedLabels pre) (hpost : fresh ∉ usedLabels post) :
    exitDepth (pre ++ part' ++ post) = exitDepth (pre ++ part ++ post) := by
  refine exitDepth_replace_of_tracks (fun w hw => hpart w (Walk.lookup_run_start hw hpre)) ?_
  rintro id hid rfl
  exact hpost (mem_usedLabels_of_mem_labelsIn hid)

end StackMutants
