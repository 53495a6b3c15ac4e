import StackMutants.Proofs.Walk

/-!
# Proofs.Composition — the exit depth of two streams, one behind the other

The walk over the second stream begins where the first one ended.  If that point is reached, at a depth `d`,
and nothing is recorded for the labels of the second stream, it is walked as it is by itself, only `d` deeper
(`Walk.run_from_depth`).  If the point is never reached, the second stream stays unreached, and nothing but a
missing stack effect is noticed in it (`Walk.run_from_unreached`).  So `exitDepth_append` gives the exit depth
of the whole from those of the parts, faults included.
-/

namespace StackMutants

/-- The exit of a stream that is entered `off` deeper: the exit depth is raised, and so are the depths that a
fault names. -/
def raisedExit (off : Int) : Except CodeFault (Option Int) → Except CodeFault (Option Int)
  | .ok d => .ok (d.map (· + off))
  | .error fault => .error (fault.raised off)

/-- The exit of a stream at a point that is never reached: an instruction without a stack effect is a fault
there too. -/
def unreachedExit : List Instruction → Except CodeFault (Option Int)
  | [] => .ok none
  | i :: rest => i.stackEffect.bind fun _ => unreachedExit rest

theorem unreachedExit_of_effects {insns : List Instruction}
    (h : ∀ i ∈ insns, ∃ e, i.stackEffect = .ok e) : unreachedExit insns = .ok none := by
  induction insns with
  | nil => rfl
  | cons i rest ih =>
    obtain ⟨⟨e, he⟩, hrest⟩ := List.forall_mem_cons.mp h
    unfold unreachedExit
    rw [he]
    exact ih hrest

theorem unreachedExit_of_fault {before behind : List Instruction} {i : Instruction} {fault : CodeFault}
    (hbefore : ∀ j ∈ before, ∃ e, j.stackEffect = .ok e) (hi : i.stackEffect = .error fault) :
    unreachedExit (before ++ i :: behind) = .error fault := by
  induction before with
  | nil =>
    show i.stackEffect.bind _ = _
    rw [hi]
    rfl
  | cons j before ih =>
    obtain ⟨⟨e, he⟩, hbefore⟩ := List.forall_mem_cons.mp hbefore
    show j.stackEffect.bind (fun _ => unreachedExit (before ++ i :: behind)) = _
    rw [he]
    exact ih hbefore

namespace Walk

variable {w : Walk} {insns : List Instruction}

/-- Walks at different depths come to exits at different depths, or to the same fault. -/
theorem TracksOutcome.exit_eq {off : Int} {shared : UInt32 → Prop} {x x' : Except CodeFault Walk}
    (h : TracksOutcome off shared x x') : x'.map (·.depth) = raisedExit off (x.map (·.depth)) := by
  cases h with
  | ok h => exact congrArg Except.ok h.depth
  | error fault => rfl

theorem run_from_depth {d : Int} (hdepth : w.depth = some d)
    (hnew : ∀ id ∈ labelsIn insns, w.labels.lookup id = none) :
    (w.run insns).map (·.depth) = raisedExit d (exitDepth insns) :=
  ((tracks_start hdepth).run hnew).exit_eq

theorem run_from_unreached (hdepth : w.depth = none)
    (hnew : ∀ id ∈ labelsIn insns, w.labels.lookup id = none) :
    (w.run insns).map (·.depth) = unreachedExit insns := by
  induction insns with
  | nil => exact congrArg Except.ok hdepth
  | cons i rest ih =>
    obtain ⟨hi, hrest⟩ := forall_filterMap_cons.mp hnew
    rw [run_cons, unreachedExit]
    cases heffect : i.stackEffect with
    | error fault =>
      rw [step_of_fault w heffect]
      rfl
    | ok e =>
      rw [step_of_unreached hdepth heffect hi]
      exact ih hrest

end Walk

/-- **The exit of two streams in a row.**  It is enough that the second one declares no label that the first
one uses. -/
theorem exitDepth_append {a b : List Instruction} (hnew : ∀ id ∈ labelsIn b, id ∉ usedLabels a) :
    exitDepth (a ++ b) = (exitDepth a).bind fun
      | some d => raisedExit d (exitDepth b)
      | none => unreachedExit b := by
  have hlookup : ∀ w, Walk.start.run a = .ok w → ∀ id ∈ labelsIn b, w.labels.lookup id = none :=
    fun w hw id hid => Walk.lookup_run_start hw (hnew id hid)
  rw [exitDepth, exitDepth, Walk.run_append]
  cases hw : Walk.start.run a with
  | error fault => rfl
  | ok w =>
    show (w.run b).map (·.depth) = _
    cases hdepth : w.depth with
    | some d =>
      rw [Walk.run_from_depth hdepth (hlookup w hw)]
      simp [Except.map, Except.bind, hdepth]
    | none =>
      rw [Walk.run_from_unreached hdepth (hlookup w hw)]
      simp [Except.map, Except.bind, hdepth]

/-- **Exit depths compose** for streams without a common label.  A fault of the first stream is a fault of both
together; where the first one falls through, the second one is entered at that depth; where it does not, the
second one changes nothing, but its first instruction without a stack effect is a fault. -/
theorem exitDepth_composes {a b : List Instruction}
    (hlabels : ∀ id ∈ usedLabels a, id ∉ usedLabels b) :
    (∀ fault, exitDepth a = .error fault → exitDepth (a ++ b) = .error fault) ∧
    (∀ d r, exitDepth a = .ok (some d) → exitDepth b = .ok r →
      exitDepth (a ++ b) = .ok (r.map (· + d))) ∧
    (∀ d fault, exitDepth a = .ok (some d) → exitDepth b = .error fault →
      exitDepth (a ++ b) = .error (fault.raised d)) ∧
    (exitDepth a = .ok none →
      ((∀ i ∈ b, ∃ e, i.stackEffect = .ok e) → exitDepth (a ++ b) = .ok none) ∧
      ∀ before i behind fault, b = before ++ i :: behind →
        (∀ j ∈ before, ∃ e, j.stackEffect = .ok e) → i.stackEffect = .error fault →
        exitDepth (a ++ b) = .error fault) := by
  have hnew : ∀ id ∈ labelsIn b, id ∉ usedLabels a :=
    fun id hb ha => hlabels id ha (mem_usedLabels_of_mem_labelsIn hb)
  have happend := exitDepth_append hnew
  refine ⟨fun fault ha => ?_, fun d r ha hb => ?_, fun d fault ha hb => ?_, fun ha => ⟨?_, ?_⟩⟩
  · rw [happend, ha]
    rfl
  · rw [happend, ha, hb]
    rfl
  · rw [happend, ha, hb]
    rfl
  · intro heffect
    rw [happend, ha]
    exact unreachedExit_of_effects heffect
  · rintro before i behind fault rfl heffect hi
    rw [happend, ha]
    exact unreachedExit_of_fault heffect hi

/-- Pushes an argument that is made positive first. -/
def pushMagnitude : List Instruction :=
  [{ opcode := .load .int, operand := .var 0 },
   { opcode := .ifZero .ge, operand := .label 1 },
   { opcode := .load .int, operand := .var 0 },
   { opcode := .neg .int },
   { opcode := .store .int, operand := .var 0 },
   { opcode := .label, operand := .label 1 },
   { opcode := .load .int, operand := .var 0 }]

/-- Skips a loop if the top of the stack is zero. -/
def skipIfZero : List Instruction :=
  [{ opcode := .ifZero .eq, operand := .label 2 },
   { opcode := .label, operand := .label 3 },
   { opcode := .goto, operand := .label 3 },
   { opcode := .label, operand := .label 2 }]

/-- Comes to a label at two depths. -/
def unevenSkip : List Instruction :=
  [{ opcode := .dup }, { opcode := .ifZero .eq, operand := .label 2 }, { opcode := .pop },
   { opcode := .label, operand := .label 2 }]

theorem exitDepth_composes_pushMagnitude :
    ((∀ id ∈ usedLabels pushMagnitude, id ∉ usedLabels skipIfZero) ∧
      exitDepth pushMagnitude = .ok (some 1) ∧ exitDepth skipIfZero = .ok (some (-1)) ∧
      exitDepth (pushMagnitude ++ skipIfZero) = .ok (some 0)) ∧
    ((∀ id ∈ usedLabels pushMagnitude, id ∉ usedLabels unevenSkip) ∧
      exitDepth unevenSkip = .error (.instruction .label (.unevenLabel 2 (-1) 0)) ∧
      exitDepth (pushMagnitude ++ unevenSkip) = .error (.instruction .label (.unevenLabel 2 0 1))) ∧
    ((∀ id ∈ usedLabels [{ opcode := .throw }], id ∉ usedLabels pushMagnitude) ∧
      exitDepth [{ opcode := .throw }] = .ok none ∧
      exitDepth ({ opcode := .throw } :: pushMagnitude) = .ok none) := by
  have hused : usedLabels pushMagnitude = [1, 1] := rfl
  have hskip : ∀ id ∈ usedLabels pushMagnitude, id ∉ usedLabels skipIfZero := by
    rw [hused, show usedLabels skipIfZero = [2, 3, 3, 2] from rfl]
    simp
  have huneven : ∀ id ∈ usedLabels pushMagnitude, id ∉ usedLabels unevenSkip := by
    rw [hused, show usedLabels unevenSkip = [2, 2] from rfl]
    simp
  have hthrow : ∀ id ∈ usedLabels [{ opcode := .throw }], id ∉ usedLabels pushMagnitude :=
    List.forall_mem_nil _
  have hmagnitude : exitDepth pushMagnitude = .ok (some 1) := rfl
  have hzero : exitDepth skipIfZero = .ok (some (-1)) := rfl
  have hfault : exitDepth unevenSkip = .error (.instruction .label (.unevenLabel 2 (-1) 0)) := rfl
  have hnone : exitDepth [{ opcode := .throw }] = .ok none := rfl
  obtain ⟨w, hw, -⟩ := exists_run_of_exitDepth hmagnitude
  exact ⟨⟨hskip, hmagnitude, hzero, (exitDepth_composes hskip).2.1 _ _ hmagnitude hzero⟩,
    ⟨huneven, hfault, (exitDepth_composes huneven).2.2.1 _ _ hmagnitude hfault⟩,
    ⟨hthrow, hnone, ((exitDepth_composes hthrow).2.2.2 hnone).1 (Walk.exists_stackEffect_of_run hw)⟩⟩

end StackMutants
