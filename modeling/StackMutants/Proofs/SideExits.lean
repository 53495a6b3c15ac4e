import StackMutants.Proofs.Closure

/-!
# Proofs.SideExits — accepted substitutions and the depth of the stack

The check of a substitution compares the depths at which region and replacement fall through.  A stream can
also be left by its branches; `labelDepth?` is the depth at which it first leaves for a label.  Region and
replacement are interchangeable in every stream that does not branch into them exactly if they leave for
every label at the same depth (`interchangeable_iff_labelDepth?_eq`), and the check does not look at that
(`not_exitDepth_eq_of_check`).
-/

namespace StackMutants

/-- Nothing in the stream uses a label that one of the two parts declares. -/
def SparesLabels (insns part part' : List Instruction) : Prop :=
  ∀ id ∈ labelsIn part ++ labelsIn part', id ∉ usedLabels insns

/-- A landing for the branches to a label: nothing falls through to it. -/
def landing (id : UInt32) : List Instruction :=
  [{ opcode := .ret none }, { opcode := .label, operand := .label id }]

theorem mem_usedLabels_landing {id id' : UInt32} : id' ∈ usedLabels (landing id) ↔ id' = id :=
  List.mem_singleton

/-- The depth behind a landing is the one recorded for its label. -/
theorem Walk.run_landing (w : Walk) (id : UInt32) :
    (w.run (landing id)).map (·.depth) = .ok (w.labels.lookup id) := by
  have hreturn : w.step { opcode := .ret none } = .ok { w with depth := none } := by
    rw [step_of_effect w (e := ⟨0, 0⟩) rfl]
    dsimp only [Instruction.declares?]
    cases hdepth : w.depth with
    | none =>
      have hsame : w = { w with depth := none } := by rw [← hdepth]
      exact congrArg Except.ok hsame
    | some current => rfl
  have hlabel : ({ w with depth := none } : Walk).step { opcode := .label, operand := .label id } =
      .ok { w with depth := w.labels.lookup id } := by
    rw [step_of_effect _ (e := ⟨0, 0⟩) rfl]
    dsimp only [Instruction.declares?, Instruction.label?, atLabel]
    cases w.labels.lookup id <;> rfl
  unfold landing
  rw [run_cons, hreturn, Except.bind, run_cons, hlabel]
  rfl

section Exits

variable {region replacement : List Instruction} {d : Option Int}

theorem exitDepth_append_landing (h : exitDepth region = .ok d) (id : UInt32) :
    exitDepth (region ++ landing id) = .ok (labelDepth? region id) := by
  obtain ⟨w, hw, -⟩ := exists_run_of_exitDepth h
  unfold exitDepth
  rw [Walk.run_append, hw, labelDepth?_of_run hw]
  exact w.run_landing id

theorem exitDepth_replace_of_labelDepth?_eq {pre post : List Instruction}
    (hregion : exitDepth region = .ok d) (hreplacement : exitDepth replacement = .ok d)
    (hpre : SparesLabels pre region replacement)
    (hexits : ∀ id ∈ labelsIn post, labelDepth? region id = labelDepth? replacement id) :
    exitDepth (pre ++ replacement ++ post) = exitDepth (pre ++ region ++ post) := by
  have hpart : ∀ w : Walk, Walk.start.run pre = .ok w →
      Walk.TracksOutcome 0 (· ∈ labelsIn post) (w.run region) (w.run replacement) := by
    intro w hw
    have hnew : ∀ id ∈ labelsIn region ++ labelsIn replacement, w.labels.lookup id = none :=
      fun id hid => Walk.lookup_run_start hw (hpre id hid)
    obtain ⟨u, hu, hdepth, hlookup⟩ :=
      w.exists_run_in_context hregion fun id hid => hnew id (List.mem_append_left _ hid)
    obtain ⟨u', hu', hdepth', hlookup'⟩ :=
      w.exists_run_in_context hreplacement fun id hid => hnew id (List.mem_append_right _ hid)
    rw [hu, hu']
    refine .ok ⟨?_, fun id hid => ?_⟩
    · rw [hdepth', ← hdepth]
      simp
    · rw [hlookup', ← hexits id hid, ← hlookup]
      simp
  exact exitDepth_replace_of_tracks hpart fun _ hid => hid

/-- **Which streams of one exit depth are interchangeable**: those that leave for every label at the same
depth. -/
theorem interchangeable_iff_labelDepth?_eq (hregion : exitDepth region = .ok d)
    (hreplacement : exitDepth replacement = .ok d) :
    (∀ pre post, SparesLabels pre region replacement →
      (∀ id ∈ labelsIn replacement, id ∉ usedLabels post) →
      exitDepth (pre ++ replacement ++ post) = exitDepth (pre ++ region ++ post)) ↔
    ∀ id ∉ labelsIn replacement, labelDepth? region id = labelDepth? replacement id := by
  constructor
  · intro h id hid
    have hspares : SparesLabels [] region replacement := fun _ _ => List.not_mem_nil
    have hpost : ∀ id' ∈ labelsIn replacement, id' ∉ usedLabels (landing id) := by
      rintro id' hid' hused
      exact hid (mem_usedLabels_landing.mp hused ▸ hid')
    have hland := h [] (landing id) hspares hpost
    rw [List.nil_append, List.nil_append, exitDepth_append_landing hregion,
      exitDepth_append_landing hreplacement] at hland
    exact (Except.ok.inj hland).symm
  · intro h pre post hpre hpost
    refine exitDepth_replace_of_labelDepth?_eq hregion hreplacement hpre fun id hid => h id fun hmem => ?_
    exact hpost id hmem (mem_usedLabels_of_mem_labelsIn hid)

end Exits

section Accepted

variable {method : Method} {pre region post replacement : List Instruction} {r : Option Int}

/-- **What an accepted substitution leaves of the exit depth.**  If nothing before the region branches into
it, the method keeps its exit depth as long as region and replacement leave for the labels behind them at
the same depths.  Less is not enough: they are interchangeable in every stream only if they leave for every
label at the same depth. -/
theorem exitDepth_eq_of_check (hmethod : method.instructions = pre ++ region ++ post)
    (hr : exitDepth method.instructions = .ok r)
    (h : Substitution.check method region replacement = .ok ())
    (hown : ∀ id ∈ labelsIn replacement, id ∉ usedLabels method.instructions)
    (hentry : ∀ id ∈ labelsIn region, id ∉ usedLabels pre) :
    ((∀ id ∈ labelsIn post, labelDepth? region id = labelDepth? replacement id) →
      exitDepth (pre ++ replacement ++ post) = .ok r) ∧
    ((∀ before behind, SparesLabels before region replacement →
        (∀ id ∈ labelsIn replacement, id ∉ usedLabels behind) →
        exitDepth (before ++ replacement ++ behind) = exitDepth (before ++ region ++ behind)) ↔
      ∀ id ∉ labelsIn replacement, labelDepth? region id = labelDepth? replacement id) := by
  obtain ⟨d, hregion, hreplacement, -⟩ := Substitution.check_eq_ok_iff.mp h
  refine ⟨fun hexits => ?_, interchangeable_iff_labelDepth?_eq hregion hreplacement⟩
  have hspares : SparesLabels pre region replacement := by
    intro id hid hused
    rcases List.mem_append.mp hid with hid | hid
    · exact hentry id hid hused
    · refine hown id hid ?_
      rw [hmethod]
      unfold usedLabels at hused ⊢
      rw [List.filterMap_append, List.filterMap_append]
      exact List.mem_append_left _ (List.mem_append_left _ hused)
  rw [exitDepth_replace_of_labelDepth?_eq hregion hreplacement hspares hexits, ← hmethod, hr]

end Accepted

/-- A method that makes its argument positive and goes on. -/
def absoluteValue : Method :=
  { name := "abs", descriptor := "(I)V", isStatic := true
    instructions :=
      [{ opcode := .load .int, operand := .var 0 },
       { opcode := .ifZero .ge, operand := .label 1 },
       { opcode := .load .int, operand := .var 0 },
       { opcode := .neg .int },
       { opcode := .store .int, operand := .var 0 },
       { opcode := .label, operand := .label 1 }] }

/-- The test of `absoluteValue`. -/
def signTest : Instruction := { opcode := .ifZero .ge, operand := .label 1 }

/-- The same test on the negated argument. -/
def negatedTest : List Instruction :=
  [{ opcode := .neg .int }, { opcode := .ifZero .le, operand := .label 1 }]

theorem exitDepth_eq_of_check_absoluteValue :
    absoluteValue.instructions =
        absoluteValue.instructions.take 1 ++ [signTest] ++ absoluteValue.instructions.drop 2 ∧
      exitDepth absoluteValue.instructions = .ok (some 0) ∧
      Substitution.check absoluteValue [signTest] negatedTest = .ok () ∧
      (∀ id ∈ labelsIn negatedTest, id ∉ usedLabels absoluteValue.instructions) ∧
      (∀ id ∈ labelsIn [signTest], id ∉ usedLabels (absoluteValue.instructions.take 1)) ∧
      (∀ id ∈ labelsIn (absoluteValue.instructions.drop 2),
        labelDepth? [signTest] id = labelDepth? negatedTest id) ∧
      exitDepth (absoluteValue.instructions.take 1 ++ negatedTest ++ absoluteValue.instructions.drop 2) =
        .ok (some 0) := by
  have hmethod : absoluteValue.instructions =
      absoluteValue.instructions.take 1 ++ [signTest] ++ absoluteValue.instructions.drop 2 := rfl
  have hexit : exitDepth absoluteValue.instructions = .ok (some 0) := rfl
  have haccepted : Substitution.check absoluteValue [signTest] negatedTest = .ok () := rfl
  have hown : ∀ id ∈ labelsIn negatedTest, id ∉ usedLabels absoluteValue.instructions :=
    fun _ hid => absurd hid List.not_mem_nil
  have hentry : ∀ id ∈ labelsIn [signTest], id ∉ usedLabels (absoluteValue.instructions.take 1) :=
    fun _ hid => absurd hid List.not_mem_nil
  have hexits : ∀ id ∈ labelsIn (absoluteValue.instructions.drop 2),
      labelDepth? [signTest] id = labelDepth? negatedTest id := by
    intro id hid
    obtain rfl : id = 1 := List.mem_singleton.mp hid
    rfl
  exact ⟨hmethod, hexit, haccepted, hown, hentry, hexits,
    (exitDepth_eq_of_check hmethod hexit haccepted hown hentry).1 hexits⟩

/-- A method that does nothing, with a label on its way. -/
def labelledNop : Method :=
  { name := "run", descriptor := "()V"
    instructions :=
      [{ opcode := .nop }, { opcode := .label, operand := .label 0 }, { opcode := .ret none }] }

/-- Falls through at the depth that it began at, but branches one value deeper. -/
def deepBranch : List Instruction :=
  [{ opcode := .const, operand := .int 1 }, { opcode := .dup },
   { opcode := .ifZero .eq, operand := .label 0 }, { opcode := .pop }]

/-- **The depth of a branch goes unseen**: an accepted replacement may branch out at a depth that its label
is not reached with. -/
theorem not_exitDepth_eq_of_check :
    ¬ ∀ (method : Method) (pre region post replacement : List Instruction) (r : Option Int),
      method.instructions = pre ++ region ++ post → region ≠ [] →
      exitDepth method.instructions = .ok r →
      Substitution.check method region replacement = .ok () →
      (∀ id ∈ labelsIn replacement, id ∉ usedLabels method.instructions) →
      exitDepth (pre ++ replacement ++ post) = .ok r := by
  intro h
  have hown : ∀ id ∈ labelsIn deepBranch, id ∉ usedLabels labelledNop.instructions :=
    fun _ hid => absurd hid List.not_mem_nil
  have hafter : exitDepth (deepBranch ++ labelledNop.instructions.drop 1) = .ok none :=
    h labelledNop [] [{ opcode := .nop }] (labelledNop.instructions.drop 1) deepBranch none
      rfl (List.cons_ne_nil _ _) rfl rfl hown
  have huneven : exitDepth (deepBranch ++ labelledNop.instructions.drop 1) =
      .error (.instruction .label (.unevenLabel 0 0 1)) := rfl
  rw [huneven] at hafter
  cases hafter

end StackMutants
