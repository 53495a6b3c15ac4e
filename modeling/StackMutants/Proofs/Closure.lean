import StackMutants.Proofs.Structure

/-!
# Proofs.Closure — accepted substitutions and the targets of branches

The check of a substitution looks for the targets of the replacement among the labels of the method and of
the replacement.  The labels of the method are those before the replacement, the ones that the region
itself declares among them, and branches outside the region are not looked at.  So an accepted substitution
can leave a branch without its label in one way only: the region declared it
(`declared_or_in_region_of_check`).  `branchesDeclared_replace_iff` says exactly when that happens, and
`not_branchesDeclared_of_check` that it can.
-/

namespace StackMutants

instance decidableBranchesDeclared (insns : List Instruction) : Decidable (BranchesDeclared insns) :=
  inferInstanceAs <| Decidable <|
    ∀ i ∈ insns, i.isBranch = true → ∃ id ∈ labelsIn insns, i.label? = some id

theorem Instruction.target?_eq_some_iff {i : Instruction} {id : UInt32} :
    i.target? = some id ↔ i.isBranch = true ∧ i.label? = some id := by
  unfold target?
  split
  · rename_i hbranch
    simp [hbranch]
  · rename_i hbranch
    simp [hbranch]

theorem Substitution.undeclaredTarget?_eq_none_iff {labels : List UInt32} {insns : List Instruction} :
    undeclaredTarget? labels insns = none ↔
      ∀ i ∈ insns, ∀ id, i.target? = some id → id ∈ labels := by
  unfold undeclaredTarget?
  simp only [List.find?_eq_none, List.mem_filterMap, Bool.not_eq_true, Bool.not_eq_false',
    List.contains_iff_mem]
  constructor
  · intro h i hi id hid
    exact h id ⟨i, hi, hid⟩
  · rintro h id ⟨i, hi, hid⟩
    exact h i hi id hid

/-- Every branch of an accepted replacement goes to a label of the method or of the replacement. -/
theorem Substitution.exists_label_of_check {method : Method} {region replacement : List Instruction}
    (h : check method region replacement = .ok ()) {i : Instruction} (hi : i ∈ replacement)
    (hbranch : i.isBranch = true) :
    ∃ id, i.label? = some id ∧ (id ∈ labelsIn method.instructions ∨ id ∈ labelsIn replacement) := by
  obtain ⟨d, -, hd, hdeclared⟩ := check_eq_ok_iff.mp h
  obtain ⟨w, hw, -⟩ := exists_run_of_exitDepth hd
  obtain ⟨e, he⟩ := Walk.exists_stackEffect_of_run hw i hi
  obtain ⟨id, hid⟩ := Instruction.exists_label?_of_isBranch he hbranch
  have htarget : i.target? = some id := Instruction.target?_eq_some_iff.mpr ⟨hbranch, hid⟩
  have hmem := undeclaredTarget?_eq_none_iff.mp hdeclared i hi id htarget
  exact ⟨id, hid, List.mem_append.mp hmem⟩

section Replaced

variable {method : Method} {pre region post replacement : List Instruction}

/-- A label of the stream is one of the replaced stream or one of the region. -/
theorem mem_labelsIn_replace {id : UInt32} (h : id ∈ labelsIn (pre ++ region ++ post)) :
    id ∈ labelsIn (pre ++ replacement ++ post) ∨ id ∈ labelsIn region := by
  simp only [labelsIn_append, List.mem_append] at h ⊢
  rcases h with (hpre | hregion) | hpost
  · exact Or.inl (Or.inl (Or.inl hpre))
  · exact Or.inr hregion
  · exact Or.inl (Or.inr hpost)

/-- **Only labels of the region can go missing.** -/
theorem declared_or_in_region_of_check (hmethod : method.instructions = pre ++ region ++ post)
    (hclosed : BranchesDeclared method.instructions)
    (h : Substitution.check method region replacement = .ok ()) {i : Instruction}
    (hi : i ∈ pre ++ replacement ++ post) (hbranch : i.isBranch = true) :
    ∃ id, i.label? = some id ∧
      (id ∈ labelsIn (pre ++ replacement ++ post) ∨ id ∈ labelsIn region) := by
  by_cases hreplacement : i ∈ replacement
  · obtain ⟨id, hid, hlabel⟩ := Substitution.exists_label_of_check h hreplacement hbranch
    refine ⟨id, hid, ?_⟩
    rcases hlabel with hold | hnew
    · rw [hmethod] at hold
      exact mem_labelsIn_replace hold
    · left
      rw [labelsIn_append, labelsIn_append]
      exact List.mem_append_left _ (List.mem_append_right _ hnew)
  · have houtside : i ∈ method.instructions := by
      rw [hmethod]
      simp only [List.mem_append] at hi ⊢
      tauto
    obtain ⟨id, hmem, hid⟩ := hclosed i houtside hbranch
    rw [hmethod] at hmem
    exact ⟨id, hid, mem_labelsIn_replace hmem⟩

/-- **When an accepted substitution keeps the branches of a method closed**: if and only if nothing branches
to a label that the region declared and that is declared no longer. -/
theorem branchesDeclared_replace_iff (hmethod : method.instructions = pre ++ region ++ post)
    (hclosed : BranchesDeclared method.instructions)
    (h : Substitution.check method region replacement = .ok ()) :
    BranchesDeclared (pre ++ replacement ++ post) ↔
      ∀ id ∈ labelsIn region, id ∈ labelsIn (pre ++ replacement ++ post) ∨
        ∀ i ∈ pre ++ replacement ++ post, i.target? ≠ some id := by
  constructor
  · intro hafter id _
    by_cases hdeclared : id ∈ labelsIn (pre ++ replacement ++ post)
    · exact Or.inl hdeclared
    · right
      intro i hi htarget
      obtain ⟨hbranch, hid⟩ := Instruction.target?_eq_some_iff.mp htarget
      obtain ⟨id', hmem, hid'⟩ := hafter i hi hbranch
      obtain rfl : id' = id := Option.some.inj (hid'.symm.trans hid)
      exact hdeclared hmem
  · intro hregion i hi hbranch
    obtain ⟨id, hid, hdeclared | hconsumed⟩ :=
      declared_or_in_region_of_check hmethod hclosed h hi hbranch
    · exact ⟨id, hdeclared, hid⟩
    · rcases hregion id hconsumed with hdeclared | hunused
      · exact ⟨id, hdeclared, hid⟩
      · exact absurd (Instruction.target?_eq_some_iff.mpr ⟨hbranch, hid⟩) (hunused i hi)

end Replaced

/-- The label of `zeroTest`, to which its branch goes. -/
def zeroTestLabel : Instruction := { opcode := .label, operand := .label 7, line := 5 }

/-- A stream that may stand for `zeroTestLabel`: it declares the label again. -/
def paddedLabel : List Instruction := [{ opcode := .nop }, { opcode := .label, operand := .label 7 }]

theorem branchesDeclared_replace_iff_zeroTest :
    zeroTest.instructions =
        zeroTest.instructions.take 4 ++ [zeroTestLabel] ++ zeroTest.instructions.drop 5 ∧
      BranchesDeclared zeroTest.instructions ∧
      Substitution.check zeroTest [zeroTestLabel] paddedLabel = .ok () ∧
      (BranchesDeclared (zeroTest.instructions.take 4 ++ paddedLabel ++ zeroTest.instructions.drop 5) ↔
        ∀ id ∈ labelsIn [zeroTestLabel],
          id ∈ labelsIn (zeroTest.instructions.take 4 ++ paddedLabel ++ zeroTest.instructions.drop 5) ∨
          ∀ i ∈ zeroTest.instructions.take 4 ++ paddedLabel ++ zeroTest.instructions.drop 5,
            i.target? ≠ some id) := by
  have hclosed : BranchesDeclared zeroTest.instructions := by decide
  have haccepted : Substitution.check zeroTest [zeroTestLabel] paddedLabel = .ok () := rfl
  exact ⟨rfl, hclosed, haccepted, branchesDeclared_replace_iff rfl hclosed haccepted⟩

/-- A method that returns behind its one label. -/
def labelledReturn : Method :=
  { name := "run", descriptor := "()V"
    instructions := [{ opcode := .label, operand := .label 0 }, { opcode := .ret none }] }

/-- **An accepted replacement may branch to a label that it consumes.** -/
theorem not_branchesDeclared_of_check :
    ¬ ∀ (method : Method) (pre region post replacement : List Instruction),
      method.instructions = pre ++ region ++ post → region ≠ [] →
      BranchesDeclared method.instructions →
      Substitution.check method region replacement = .ok () →
      BranchesDeclared (pre ++ replacement ++ post) := by
  intro h
  have hafter : BranchesDeclared
      [{ opcode := .const, operand := .int 1 }, { opcode := .ifZero .eq, operand := .label 0 },
       { opcode := .ret none }] :=
    h labelledReturn [] [{ opcode := .label, operand := .label 0 }] [{ opcode := .ret none }]
      [{ opcode := .const, operand := .int 1 }, { opcode := .ifZero .eq, operand := .label 0 }]
      rfl (by decide) (by decide) rfl
  exact absurd hafter (by decide)

end StackMutants
