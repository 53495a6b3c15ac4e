import StackMutants.Proofs.Ranges
import StackMutants.Proofs.Scan
import StackMutants.Proofs.Structure

/-!
# Proofs.Completion — finding and building mutants ends in an answer

A pass needs the fresh label of its method, whether or not its operator does, and the label after the greatest
one does not exist (`Method.header?_eq_none_iff`).  Nothing else stops a scan (`Program.scan_completes`), and
nothing but this and an identifier that there is no mutant of stops the building of a mutant
(`Program.build_completes`).  Whether the program is valid makes no difference to that
(`not_generation_completes_of_valid`).
-/

namespace StackMutants

/-! ## Methods without a fresh label -/

theorem eq_lastLabel_of_le {id : UInt32} (h : lastLabel ≤ id) : id = lastLabel := by
  have hle : (4294967295 : Nat) ≤ id.toNat := UInt32.le_iff_toNat_le.mp h
  have hlt : id.toNat < 4294967296 := id.toNat_lt
  refine UInt32.toNat.inj ?_
  show id.toNat = 4294967295
  omega

/-- A method has no header exactly if it mentions the greatest label. -/
theorem Method.header?_eq_none_iff {m : Method} {owner : ClassName} :
    m.header? owner = none ↔ ¬ m.SparesLastLabel := by
  constructor
  · intro hnone hspare
    obtain ⟨header, hheader⟩ := m.exists_header hspare owner
    rw [hnone] at hheader
    cases hheader
  · intro hspare
    have hmem : lastLabel ∈ m.mentionedLabels := not_not.mp hspare
    unfold header? freshLabel?
    cases hmax : m.mentionedLabels.max? with
    | none =>
      rw [List.max?_eq_none_iff.mp hmax] at hmem
      cases hmem
    | some greatest =>
      have hle : lastLabel ≤ greatest := (List.max?_eq_some_iff.mp hmax).2 _ hmem
      rw [eq_lastLabel_of_le hle]
      rfl

namespace Register

variable {r : Register} {m : Method}

theorem runPass_exhausted (r : Register) (o : Operator) (h : ¬ m.SparesLastLabel) :
    (r.runPass o m).outcome = .error .labelsExhausted := by
  unfold runPass
  rw [Method.header?_eq_none_iff.mpr h]
  rfl

/-- An operator that is run over a method without a fresh label stops the scan. -/
theorem visitMethod_exhausted (r : Register) {os : List Operator} (hos : os ≠ [])
    (h : ¬ m.SparesLastLabel) : (r.visitMethod m os).outcome = .error .labelsExhausted := by
  cases os with
  | nil => exact absurd rfl hos
  | cons o os =>
    unfold visitMethod
    rw [Journaled.outcome_bind, r.runPass_exhausted o h]
    rfl

theorem Numbered.visitMethod (h : r.Numbered) {os : List Operator} (hspare : m.SparesLastLabel ∨ os = []) :
    ∃ r', (r.visitMethod m os).outcome = .ok r' ∧ r'.Numbered := by
  induction os generalizing r with
  | nil => exact ⟨r.closeMethod, rfl, h.closeMethod⟩
  | cons o os ih =>
    have hspare' : m.SparesLastLabel := hspare.resolve_right (List.cons_ne_nil o os)
    obtain ⟨output, q, hrun⟩ := r.exists_runPass o hspare'
    have hq : q.Numbered := (h.runPass hrun).1
    obtain ⟨r', hr', hnumbered⟩ := ih hq (Or.inl hspare')
    refine ⟨r', ?_, hnumbered⟩
    unfold Register.visitMethod
    rw [Journaled.outcome_bind, hrun]
    exact hr'

/-- Either no method stops the scan or the first one that does. -/
theorem Numbered.visitMethods (h : r.Numbered) (os : List Operator) (ms : List Method) :
    (∃ r', (r.visitMethods os ms).outcome = .ok r' ∧ r'.Numbered) ∧
        (os = [] ∨ ∀ m ∈ ms, m.SparesLastLabel) ∨
      (r.visitMethods os ms).outcome = .error .labelsExhausted ∧
        os ≠ [] ∧ ∃ m ∈ ms, ¬ m.SparesLastLabel := by
  induction ms generalizing r with
  | nil => exact Or.inl ⟨⟨r, rfl, h⟩, Or.inr (by simp)⟩
  | cons m ms ih =>
    unfold Register.visitMethods
    rw [Journaled.outcome_bind]
    by_cases hspare : m.SparesLastLabel ∨ os = []
    · obtain ⟨q, hq, hnumbered⟩ := h.visitMethod hspare
      rw [hq]
      rcases ih hnumbered with ⟨hdone, hfree⟩ | ⟨hstopped, hos, m', hm', hlast⟩
      · refine Or.inl ⟨hdone, ?_⟩
        by_cases hos : os = []
        · exact Or.inl hos
        · have hm : m.SparesLastLabel := hspare.resolve_right hos
          exact Or.inr (List.forall_mem_cons.mpr ⟨hm, hfree.resolve_left hos⟩)
      · exact Or.inr ⟨hstopped, hos, m', List.mem_cons_of_mem _ hm', hlast⟩
    · obtain ⟨hlast, hos⟩ := not_or.mp hspare
      rw [r.visitMethod_exhausted hos hlast]
      exact Or.inr ⟨rfl, hos, m, List.mem_cons_self, hlast⟩

/-- An index counts mutations of the register, so it is less than their number. -/
theorem Numbered.index_lt_length (h : r.Numbered) {d : Mutation} (hd : d ∈ r.mutations) :
    d.id.index < r.mutations.length := by
  have hlt := h.index_lt d hd
  have hle : r.count d.id.method d.id.descriptor d.id.operator ≤ r.entered.length :=
    List.countP_le_length
  rw [mutations_eq_entered]
  omega

end Register

/-! ## Scans -/

namespace Program

variable {p : Program} {os : List Operator}

/-- A scan of the class comes to a method without a fresh label. -/
def ScanExhausts (p : Program) (os : List Operator) (name : ClassName) : Prop :=
  ∃ c, p.class? name = some c ∧ os ≠ [] ∧ ∃ m ∈ c.methods, ¬ m.SparesLastLabel

/-- The operator and the method of the identifier exist, and the method has no fresh label. -/
def BuildExhausts (p : Program) (os : List Operator) (id : MutationId) : Prop :=
  ∃ c o index m, p.class? id.owner = some c ∧ os.find? (·.id == id.operator) = some o ∧
    c.methods.findIdx? (·.isMethodOf id) = some index ∧ c.methods[index]? = some m ∧
    ¬ m.SparesLastLabel

theorem mutations_exhausted {name : ClassName} (h : p.ScanExhausts os name) :
    (p.mutations os name).outcome = .error .labelsExhausted := by
  obtain ⟨c, hclass, hos, m, hm, hlast⟩ := h
  unfold mutations ClassDef.mutationPoints
  rw [hclass]
  dsimp only
  rw [Journaled.outcome_bind, Journaled.outcome_bind]
  rcases (Register.numbered_blank c.name).visitMethods os c.methods with ⟨-, hfree⟩ | ⟨hstopped, -⟩
  · have hspare := hfree.resolve_left hos m hm
    exact absurd hspare hlast
  · rw [hstopped]
    rfl

theorem exists_mutations {name : ClassName} (h : ¬ p.ScanExhausts os name) :
    ∃ found, (p.mutations os name).outcome = .ok found ∧ ∀ d ∈ found, d.id.index < found.length := by
  cases hclass : p.class? name with
  | none =>
    refine ⟨[], ?_, by simp⟩
    unfold mutations
    rw [hclass]
    rfl
  | some c =>
    rcases (Register.numbered_blank c.name).visitMethods os c.methods with
      ⟨⟨r, hr, hnumbered⟩, -⟩ | ⟨-, hexhausts⟩
    · have hpoints : (c.mutationPoints os).outcome = .ok r.mutations := by
        unfold ClassDef.mutationPoints
        rw [Journaled.outcome_bind, hr]
        rfl
      refine ⟨_, mutations_outcome hclass hpoints, ?_⟩
      rw [List.length_map, List.forall_mem_map]
      intro d hd
      have hlt : d.id.index < r.mutations.length := hnumbered.index_lt_length hd
      exact hlt
    · exact absurd ⟨c, hclass, hexhausts⟩ h

/-- **A scan completes** unless an operator is run over a method that mentions the greatest label. -/
theorem scan_completes (p : Program) (os : List Operator) (name : ClassName) :
    ((p.mutations os name).outcome = .error .labelsExhausted ↔ p.ScanExhausts os name) ∧
      (¬ p.ScanExhausts os name → ∃ found, (p.mutations os name).outcome = .ok found ∧
        ∀ d ∈ found, d.id.index < found.length) := by
  refine ⟨⟨?_, mutations_exhausted⟩, exists_mutations⟩
  intro hstopped
  by_contra hnot
  obtain ⟨found, hfound, -⟩ := exists_mutations hnot
  rw [hstopped] at hfound
  cases hfound

/-! ## Mutants -/

theorem mutant_exhausted {id : MutationId} (h : p.BuildExhausts os id) :
    (p.mutant os id).outcome = .error .labelsExhausted := by
  obtain ⟨c, o, index, m, hclass, ho, hindex, hm, hlast⟩ := h
  have hname : c.name = id.owner := (class?_eq_some hclass).2
  unfold mutant ClassDef.buildMutant
  rw [hclass]
  dsimp only
  rw [if_neg (not_not.mpr hname), ho, hindex]
  dsimp only
  rw [hm]
  dsimp only
  rw [Journaled.outcome_bind, Journaled.outcome_bind, (Register.seeking id).runPass_exhausted o hlast]
  rfl

/-- A class that has a fresh label for the identifier has a mutant or does not find it. -/
theorem buildMutant_answers {c : ClassDef} {id : MutationId}
    (h : ∀ o index m, os.find? (·.id == id.operator) = some o →
      c.methods.findIdx? (·.isMethodOf id) = some index → c.methods[index]? = some m → m.SparesLastLabel) :
    (∃ m, (c.buildMutant os id).outcome = .ok m) ∨
      (c.buildMutant os id).outcome = .error (.mutationNotFound id) := by
  unfold ClassDef.buildMutant
  split
  · exact Or.inr rfl
  · split
    · rename_i o index ho hindex
      split
      · exact Or.inr rfl
      · rename_i m hm
        have hspare : m.SparesLastLabel := h o index m ho hindex hm
        obtain ⟨output, r, hrun⟩ := (Register.seeking id).exists_runPass o hspare
        rw [Journaled.outcome_bind, hrun]
        dsimp only [Except.bind]
        split
        · exact Or.inl ⟨_, rfl⟩
        · exact Or.inr rfl
    · exact Or.inr rfl

theorem mutant_answers {id : MutationId} (h : ¬ p.BuildExhausts os id) :
    (∃ m, (p.mutant os id).outcome = .ok m) ∨
      (p.mutant os id).outcome = .error (.classNotFound id.owner) ∨
      (p.mutant os id).outcome = .error (.mutationNotFound id) := by
  unfold mutant
  cases hclass : p.class? id.owner with
  | none => exact Or.inr (Or.inl rfl)
  | some c =>
    dsimp only
    rw [Journaled.outcome_bind]
    have hspare : ∀ o index m, os.find? (·.id == id.operator) = some o →
        c.methods.findIdx? (·.isMethodOf id) = some index → c.methods[index]? = some m →
        m.SparesLastLabel := by
      intro o index m ho hindex hm
      by_contra hlast
      exact h ⟨c, o, index, m, hclass, ho, hindex, hm, hlast⟩
    rcases buildMutant_answers hspare with ⟨m, hm⟩ | hnone
    · rw [hm]
      exact Or.inl ⟨_, rfl⟩
    · rw [hnone]
      exact Or.inr (Or.inr rfl)

/-- **Building a mutant completes** unless the operator is run over a method that mentions the greatest
label. -/
theorem build_completes (p : Program) (os : List Operator) (id : MutationId) :
    ((p.mutant os id).outcome = .error .labelsExhausted ↔ p.BuildExhausts os id) ∧
      (¬ p.BuildExhausts os id →
        (∃ m, (p.mutant os id).outcome = .ok m) ∨
          (p.mutant os id).outcome = .error (.classNotFound id.owner) ∨
          (p.mutant os id).outcome = .error (.mutationNotFound id)) := by
  refine ⟨⟨?_, mutant_exhausted⟩, mutant_answers⟩
  intro hstopped
  by_contra hnot
  rcases mutant_answers hnot with ⟨m, hm⟩ | hclass | hid
  · rw [hstopped] at hm
    cases hm
  · rw [hstopped] at hclass
    cases hclass
  · rw [hstopped] at hid
    cases hid

/-- **Generation completes** unless it comes to a method that mentions the greatest label: scans return a
list, and identifiers have a mutant or are not found.  On the way, positions, ranges and regions are within the
stream, an index is less than the number of mutations, and a depth is no further from zero than the
instructions move values. -/
theorem generation_completes (p : Program) (os : List Operator) :
    (∀ name, ((p.mutations os name).outcome = .error .labelsExhausted ↔ p.ScanExhausts os name) ∧
      (¬ p.ScanExhausts os name → ∃ found, (p.mutations os name).outcome = .ok found ∧
        ∀ d ∈ found, d.id.index < found.length)) ∧
    (∀ id, ((p.mutant os id).outcome = .error .labelsExhausted ↔ p.BuildExhausts os id) ∧
      (¬ p.BuildExhausts os id →
        (∃ m, (p.mutant os id).outcome = .ok m) ∨
          (p.mutant os id).outcome = .error (.classNotFound id.owner) ∨
          (p.mutant os id).outcome = .error (.mutationNotFound id))) ∧
    (∀ (o : Operator) (header : MethodHeader) (m : Method),
      (o.visitor header).checkedSegments m (o.visitor header).start 0 = some (o.segments header m)) ∧
    ∀ (insns : List Instruction) (d : Int), exitDepth insns = .ok (some d) → d.natAbs ≤ moved insns := by
  refine ⟨p.scan_completes os, p.build_completes os, ?_, fun insns d h => natAbs_le_of_exitDepth h⟩
  intro o header m
  exact (o.visitor header).checkedSegments_eq m _ (Nat.zero_le _)

end Program

/-- A program with one method, in which the greatest label is declared. -/
def lastLabelProgram : Program where
  classes :=
    [{ name := ⟨"Foo"⟩
       methods :=
        [{ name := "run", descriptor := "()V"
           instructions := [{ opcode := .label, operand := .label 4294967295 }, { opcode := .ret none }] }] }]

/-- **A valid program is not enough**: it may mention the greatest label. -/
theorem not_generation_completes_of_valid :
    ¬ ∀ (p : Program) (names : List String) (ms : List Mutator), p.validate = .ok () →
      Mutator.select names = .ok ms → ∀ name : ClassName,
        ∃ found, (p.mutations (ms.map (·.operator)) name).outcome = .ok found := by
  intro h
  have hvalid : lastLabelProgram.validate = .ok () := rfl
  have hselect : Mutator.select ["MATH"] = .ok [.math] := rfl
  obtain ⟨found, hfound⟩ := h lastLabelProgram ["MATH"] [.math] hvalid hselect ⟨"Foo"⟩
  have hstopped : (lastLabelProgram.mutations [Mutator.math.operator] ⟨"Foo"⟩).outcome =
      .error .labelsExhausted := rfl
  rw [List.map_singleton, hstopped] at hfound
  cases hfound

end StackMutants
