import StackMutants.Proofs.Selection
import StackMutants.Proofs.Splice
import StackMutants.Program

/-!
# Proofs.Scan — a scan of a class and its mutants agree

`mutationPoints_outcome` says what a scan finds in a class whose methods have different names or
descriptors, if the operators have different identifiers: method by method the points of all operators,
sorted by position, where the points of an operator in a method (`Method.points`) are numbered from zero
whatever else is in the class or among the operators.  A mutant is made from the points of one operator in
one method alone, so an identifier has a mutant if and only if the scan finds it
(`exists_buildMutant_iff`).

The hypotheses are what `Program.validate` checks and what `Mutator.select` returns.
-/

namespace StackMutants

/-! ## What a scan finds -/

/-- The entries that an operator makes in a method of a class, if nothing was entered for it before. -/
def Method.points (m : Method) (owner : ClassName) (o : Operator) : List (Nat × Mutation) :=
  match m.header? owner with
  | none => []
  | some header => header.points o.id 0 (o.hits header m)

theorem Method.points_of_header? {m : Method} {owner : ClassName} {header : MethodHeader}
    (h : m.header? owner = some header) (o : Operator) :
    m.points owner o = header.points o.id 0 (o.hits header m) := by
  unfold points
  rw [h]

/-- What operators find in a method. -/
def Method.scan (m : Method) (owner : ClassName) (os : List Operator) : List Mutation :=
  (Register.sortIn [] (os.flatMap (m.points owner))).map (·.2)

namespace Register

variable {r : Register} {o : Operator} {header : MethodHeader}

theorem sortIn_append (pending es es' : List (Nat × Mutation)) :
    sortIn pending (es ++ es') = sortIn (sortIn pending es) es' := List.foldl_append

theorem sortIn_perm (pending es : List (Nat × Mutation)) : (sortIn pending es).Perm (pending ++ es) := by
  induction es generalizing pending with
  | nil => rw [List.append_nil]; exact .refl _
  | cons e es ih =>
    refine (ih (insertByPosition e pending)).trans ?_
    exact ((Sequence.insertStable_perm e pending).append_right es).trans List.perm_middle.symm

theorem entered_replay (ss : List Segment) (howner : header.owner = r.owner) :
    (r.replay o header ss).2.entered.Perm (r.entered ++
      (header.points o.id (r.count header.name header.descriptor o.id)
        (ss.filterMap (·.hit?))).map (·.2)) := by
  rw [replay_register ss howner]
  unfold entered
  dsimp only
  rw [List.append_assoc, ← List.map_append]
  exact ((sortIn_perm _ _).map _).append_left _

/-- A pass counts nothing for other operators or other methods. -/
theorem count_replay_of_ne (ss : List Segment) (howner : header.owner = r.owner)
    {name descriptor operator : String}
    (hne : ¬ (header.name = name ∧ header.descriptor = descriptor ∧ o.id = operator)) :
    (r.replay o header ss).2.count name descriptor operator = r.count name descriptor operator := by
  unfold count
  rw [(entered_replay ss howner).countP_eq, List.countP_append]
  refine Nat.add_eq_left.mpr (List.countP_eq_zero.mpr fun m hm => ?_)
  obtain ⟨e, he, rfl⟩ := List.mem_map.mp hm
  obtain ⟨-, h2, h3, h4, -⟩ := MethodHeader.id_of_mem_points he
  simp only [isOf, h2, h3, h4, Bool.and_eq_true, beq_iff_eq, and_assoc]
  exact hne

/-- **One method of a scan.**  Its points are found behind those of the methods before it, and nothing is
counted for methods with another name or descriptor. -/
theorem visitMethod_outcome {m : Method} (hm : m.SparesLastLabel) {os : List Operator}
    (hos : (os.map (·.id)).Nodup) (hcount : ∀ o ∈ os, r.count m.name m.descriptor o.id = 0) :
    ∃ r', (r.visitMethod m os).outcome = .ok r' ∧ r'.owner = r.owner ∧ r'.pending = [] ∧
      r'.found = r.found ++ (sortIn r.pending (os.flatMap (m.points r.owner))).map (·.2) ∧
      ∀ name descriptor operator, (m.name, m.descriptor) ≠ (name, descriptor) →
        r'.count name descriptor operator = r.count name descriptor operator := by
  induction os generalizing r with
  | nil => exact ⟨r.closeMethod, rfl, rfl, rfl, rfl, fun _ _ _ _ => count_closeMethod r _ _ _⟩
  | cons o os ih =>
    obtain ⟨header, hheader⟩ := m.exists_header hm r.owner
    have howner := Method.owner_of_header? hheader
    have hname := Method.name_of_header? hheader
    have hdescriptor := Method.descriptor_of_header? hheader
    obtain ⟨hid, hos⟩ := List.nodup_cons.mp hos
    set q := (r.replay o header (o.segments header m)).2 with hq
    -- the operators to come have other identifiers, so nothing has been counted for them yet
    have hqcount : ∀ o' ∈ os, q.count m.name m.descriptor o'.id = 0 := by
      intro o' ho'
      rw [hq, count_replay_of_ne _ howner]
      · exact hcount o' (List.mem_cons_of_mem _ ho')
      · rintro ⟨-, -, heq⟩
        exact hid (List.mem_map.mpr ⟨o', ho', heq.symm⟩)
    obtain ⟨r', hr', howner', hpending, hfound, hother⟩ := ih hos hqcount
    have hreg := replay_register (o := o) (o.segments header m) howner
    rw [← hq, hname, hdescriptor, hcount o List.mem_cons_self] at hreg
    refine ⟨r', ?_, ?_, hpending, ?_, ?_⟩
    · unfold visitMethod
      rw [Journaled.outcome_bind, runPass_outcome hheader]
      exact hr'
    · rw [howner', hreg]
    · rw [hfound, hreg, List.flatMap_cons, sortIn_append, Method.points_of_header? hheader]
      rfl
    · intro name descriptor operator hne
      rw [hother name descriptor operator hne, hq, count_replay_of_ne _ howner]
      rintro ⟨h1, h2, -⟩
      exact hne (by rw [← hname, ← hdescriptor, h1, h2])

theorem visitMethods_outcome {ms : List Method} {os : List Operator}
    (hms : ∀ m ∈ ms, m.SparesLastLabel) (hsig : (ms.map fun m => (m.name, m.descriptor)).Nodup)
    (hos : (os.map (·.id)).Nodup) (hpending : r.pending = [])
    (hcount : ∀ m ∈ ms, ∀ o ∈ os, r.count m.name m.descriptor o.id = 0) :
    ∃ r', (r.visitMethods os ms).outcome = .ok r' ∧ r'.pending = [] ∧
      r'.found = r.found ++ ms.flatMap fun m => m.scan r.owner os := by
  induction ms generalizing r with
  | nil => exact ⟨r, rfl, hpending, by simp⟩
  | cons m ms ih =>
    obtain ⟨hnotin, hsig⟩ := List.nodup_cons.mp hsig
    obtain ⟨q, hq, howner, hqpending, hfound, hother⟩ :=
      visitMethod_outcome (hms m List.mem_cons_self) hos (hcount m List.mem_cons_self)
    have hqcount : ∀ m' ∈ ms, ∀ o ∈ os, q.count m'.name m'.descriptor o.id = 0 := by
      intro m' hm' o ho
      rw [hother]
      · exact hcount m' (List.mem_cons_of_mem _ hm') o ho
      · intro heq
        exact hnotin (List.mem_map.mpr ⟨m', hm', heq.symm⟩)
    obtain ⟨r', hr', hpending', hfound'⟩ :=
      ih (fun m' hm' => hms m' (List.mem_cons_of_mem _ hm')) hsig hqpending hqcount
    refine ⟨r', ?_, hpending', ?_⟩
    · unfold visitMethods
      rw [Journaled.outcome_bind, hq]
      exact hr'
    · rw [hfound', hfound, howner, hpending, List.flatMap_cons, List.append_assoc]
      rfl

end Register

section Class

variable {c : ClassDef} {os : List Operator}

/-- **What a scan finds**, method by method. -/
theorem ClassDef.mutationPoints_outcome (hc : ∀ m ∈ c.methods, m.SparesLastLabel)
    (hsig : (c.methods.map fun m => (m.name, m.descriptor)).Nodup) (hos : (os.map (·.id)).Nodup) :
    (c.mutationPoints os).outcome = .ok (c.methods.flatMap fun m => m.scan c.name os) := by
  obtain ⟨r, hr, hpending, hfound⟩ :=
    Register.visitMethods_outcome (r := .blank c.name) hc hsig hos rfl (fun _ _ _ _ => rfl)
  unfold mutationPoints
  rw [Journaled.outcome_bind, hr]
  show Except.ok r.mutations = _
  rw [Register.mutations_eq_entered, Register.entered, hpending, hfound]
  simp [Register.blank]

theorem Method.mem_scan_iff {m : Method} {owner : ClassName} {d : Mutation} :
    d ∈ m.scan owner os ↔ ∃ o ∈ os, d ∈ (m.points owner o).map (·.2) := by
  unfold scan
  rw [((Register.sortIn_perm [] _).map _).mem_iff, List.nil_append, List.map_flatMap, List.mem_flatMap]

theorem Method.id_of_mem_points {m : Method} {owner : ClassName} {o : Operator} {d : Mutation}
    (h : d ∈ (m.points owner o).map (·.2)) : d.id.owner = owner ∧ d.id.method = m.name ∧
      d.id.descriptor = m.descriptor ∧ d.id.operator = o.id := by
  obtain ⟨e, he, rfl⟩ := List.mem_map.mp h
  unfold points at he
  split at he
  · cases he
  · rename_i header hheader
    obtain ⟨h1, h2, h3, h4, -⟩ := MethodHeader.id_of_mem_points he
    exact ⟨h1.trans (owner_of_header? hheader), h2.trans (name_of_header? hheader),
      h3.trans (descriptor_of_header? hheader), h4⟩

/-! ## Mutants -/

/-- The pass that looks for a mutation enters the points that a scan enters for its operator. -/
theorem Register.seeking_runPass {id : MutationId} {o : Operator} {method : Method}
    {output : List Instruction} {r : Register}
    (h : ((seeking id).runPass o method).outcome = .ok (output, r)) :
    r.mutations.Perm ((method.points id.owner o).map (·.2)) ∧
      (r.applied = true ↔ ∃ d ∈ (method.points id.owner o).map (·.2), d.id = id) := by
  obtain ⟨header, hheader, hreplay⟩ := exists_header_of_runPass h
  have hreg := replay_register (o := o) (o.segments header method) (Method.owner_of_header? hheader)
  rw [show (seeking id).count header.name header.descriptor o.id = 0 from rfl] at hreg
  have hpoints : method.points id.owner o = header.points o.id 0 (o.hits header method) :=
    Method.points_of_header? hheader o
  rw [hreplay] at hreg
  dsimp only at hreg
  rw [hpoints]
  constructor
  · rw [hreg, mutations_eq_entered]
    exact (sortIn_perm [] _).map _
  · rw [hreg]
    show (false || List.any _ _) = true ↔ _
    rw [Bool.false_or, List.any_eq_true]
    constructor
    · rintro ⟨e, he, ht⟩
      exact ⟨e.2, List.mem_map_of_mem he, (Option.some.inj (of_decide_eq_true ht)).symm⟩
    · rintro ⟨d, hd, hid⟩
      obtain ⟨e, he, rfl⟩ := List.mem_map.mp hd
      exact ⟨e, he, decide_eq_true (congrArg some hid.symm)⟩

theorem Method.eq_of_mem_points {m : Method} {owner : ClassName} {o : Operator} {d d' : Mutation}
    (h : d ∈ (m.points owner o).map (·.2)) (h' : d' ∈ (m.points owner o).map (·.2))
    (hid : d.id = d'.id) : d = d' := by
  obtain ⟨e, he, rfl⟩ := List.mem_map.mp h
  obtain ⟨e', he', rfl⟩ := List.mem_map.mp h'
  unfold points at he he'
  split at he
  · cases he
  · rename_i header hheader
    rw [hheader] at he'
    rw [MethodHeader.eq_of_mem_points he he' (congrArg (·.index) hid)]

/-- The pass that looks for a point meets it. -/
theorem Register.find?_of_seeking_runPass {d : Mutation} {o : Operator} {method : Method}
    {output : List Instruction} {r : Register}
    (h : ((seeking d.id).runPass o method).outcome = .ok (output, r))
    (hd : d ∈ (method.points d.id.owner o).map (·.2)) :
    r.applied = true ∧ r.mutations.find? (·.id == d.id) = some d := by
  obtain ⟨hperm, happlied⟩ := seeking_runPass h
  refine ⟨happlied.mpr ⟨d, hd, rfl⟩, ?_⟩
  cases hfind : r.mutations.find? (·.id == d.id) with
  | none =>
    have := List.find?_eq_none.mp hfind d (hperm.mem_iff.mpr hd)
    simp at this
  | some d' =>
    have hd' := hperm.mem_iff.mp (List.mem_of_find?_eq_some hfind)
    have hid : d'.id = d.id := by simpa using List.find?_some hfind
    rw [Method.eq_of_mem_points hd' hd hid]

theorem ClassDef.find?_isMethodOf (hsig : (c.methods.map fun m => (m.name, m.descriptor)).Nodup)
    {id : MutationId} {m : Method} (hm : m ∈ c.methods) (hname : id.method = m.name)
    (hdescriptor : id.descriptor = m.descriptor) : c.methods.find? (·.isMethodOf id) = some m := by
  have hfind := (Sequence.find?_key_eq_some_iff hsig).mpr ⟨hm, rfl⟩
  rw [← hfind]
  congr 1
  funext m'
  rw [Bool.eq_iff_iff]
  simp [Method.isMethodOf, hname, hdescriptor]

/-- **An identifier has a mutant exactly if the scan finds it**, and then the mutant is of the mutation that
the scan found. -/
theorem ClassDef.exists_buildMutant_iff (hc : ∀ m ∈ c.methods, m.SparesLastLabel)
    (hsig : (c.methods.map fun m => (m.name, m.descriptor)).Nodup) (hos : (os.map (·.id)).Nodup)
    {id : MutationId} {d : Mutation} :
    (∃ m, (c.buildMutant os id).outcome = .ok m ∧ m.mutation = d) ↔
      d ∈ (c.methods.flatMap fun m => m.scan c.name os) ∧ d.id = id := by
  constructor
  · rintro ⟨m, h, rfl⟩
    obtain ⟨hname, o, index, method, output, r, ho, -, hmethod, hrun, -, hfind, -⟩ :=
      buildMutant_eq_ok_iff.mp h
    have hmem := (Register.seeking_runPass hrun).1.mem_iff.mp (List.mem_of_find?_eq_some hfind)
    refine ⟨List.mem_flatMap.mpr ⟨method, List.mem_of_getElem? hmethod, ?_⟩, ?_⟩
    · exact Method.mem_scan_iff.mpr ⟨o, List.mem_of_find?_eq_some ho, hname ▸ hmem⟩
    · simpa using List.find?_some hfind
  · rintro ⟨hmem, rfl⟩
    obtain ⟨method, hmethod, hscan⟩ := List.mem_flatMap.mp hmem
    obtain ⟨o, ho, hpoint⟩ := Method.mem_scan_iff.mp hscan
    obtain ⟨howner, hm, hdescriptor, hoperator⟩ := Method.id_of_mem_points hpoint
    -- operator and method of `d` are found again, for each is the only one with its key
    have hfindo : os.find? (·.id == d.id.operator) = some o :=
      (Sequence.find?_key_eq_some_iff hos).mpr ⟨ho, hoperator.symm⟩
    have hfindm := ClassDef.find?_isMethodOf hsig hmethod hm hdescriptor
    obtain ⟨index, hindex, hget⟩ := Option.bind_eq_some_iff.mp
      (List.find?_eq_bind_findIdx?_getElem?.symm.trans hfindm)
    obtain ⟨output, r, hrun⟩ := (Register.seeking d.id).exists_runPass o (hc method hmethod)
    rw [← howner] at hpoint
    obtain ⟨happlied, hfind⟩ := Register.find?_of_seeking_runPass hrun hpoint
    exact ⟨⟨d, c.withInstructions index output⟩, buildMutant_eq_ok_iff.mpr ⟨howner.symm, o, index,
      method, output, r, hfindo, hindex, hget, hrun, happlied, hfind, rfl⟩, rfl⟩

end Class

/-! ## Programs that are accepted -/

theorem nodup_of_repeatedSignature? {seen : List (String × String)} {ms : List Method}
    (h : repeatedSignature? seen ms = none) :
    (ms.map fun m => (m.name, m.descriptor)).Nodup ∧ ∀ m ∈ ms, (m.name, m.descriptor) ∉ seen := by
  induction ms generalizing seen with
  | nil => exact ⟨List.nodup_nil, by simp⟩
  | cons m ms ih =>
    unfold repeatedSignature? at h
    split at h
    · cases h
    · rename_i hm
      obtain ⟨hnodup, hseen⟩ := ih h
      constructor
      · refine List.nodup_cons.mpr ⟨fun hmem => ?_, hnodup⟩
        obtain ⟨m', hm', heq⟩ := List.mem_map.mp hmem
        exact hseen m' hm' (heq ▸ List.mem_cons_self)
      · intro m' hm'
        rcases List.mem_cons.mp hm' with rfl | hm'
        · exact hm
        · exact fun hc => hseen m' hm' (List.mem_cons_of_mem _ hc)

namespace Program

variable {p : Program}

theorem nodup_of_validateClasses {seen : List ClassName} {cs : List ClassDef}
    (h : validateClasses seen cs = .ok ()) :
    ∀ c ∈ cs, (c.methods.map fun m => (m.name, m.descriptor)).Nodup := by
  induction cs generalizing seen with
  | nil => simp
  | cons c cs ih =>
    unfold validateClasses at h
    split at h
    · cases h
    · split at h
      · cases h
      · rename_i hc
        exact List.forall_mem_cons.mpr ⟨(nodup_of_repeatedSignature? hc).1, ih h⟩

/-- The classes that pass have different names, none of which was seen before. -/
theorem nodup_names_of_validateClasses {seen : List ClassName} {cs : List ClassDef}
    (h : validateClasses seen cs = .ok ()) : (cs.map (·.name)).Nodup ∧ ∀ c ∈ cs, c.name ∉ seen := by
  induction cs generalizing seen with
  | nil => exact ⟨List.nodup_nil, by simp⟩
  | cons c cs ih =>
    unfold validateClasses at h
    split at h
    · cases h
    · rename_i hc
      split at h
      · cases h
      · obtain ⟨hnodup, hseen⟩ := ih h
        constructor
        · refine List.nodup_cons.mpr ⟨fun hmem => ?_, hnodup⟩
          obtain ⟨c', hc', heq⟩ := List.mem_map.mp hmem
          exact hseen c' hc' (heq ▸ List.mem_cons_self)
        · intro c' hc'
          rcases List.mem_cons.mp hc' with rfl | hc'
          · exact hc
          · exact fun hmem => hseen c' hc' (List.mem_cons_of_mem _ hmem)

theorem nodup_classNames (h : p.validate = .ok ()) : p.classNames.Nodup :=
  (nodup_names_of_validateClasses h).1

theorem class?_eq_some {name : ClassName} {c : ClassDef} (h : p.class? name = some c) :
    c ∈ p.classes ∧ c.name = name :=
  ⟨List.mem_of_find?_eq_some h, by simpa using List.find?_some h⟩

theorem mutations_outcome {os : List Operator} {name : ClassName} {c : ClassDef} {scanned : List Mutation}
    (hclass : p.class? name = some c) (h : (c.mutationPoints os).outcome = .ok scanned) :
    (p.mutations os name).outcome =
      .ok (scanned.map fun d => { d with tests := p.coveringTests name d.line }) := by
  unfold mutations
  rw [hclass]
  dsimp only
  rw [Journaled.outcome_bind, h]
  rfl

theorem mutant_eq_ok_iff {os : List Operator} {id : MutationId} {m : Mutant} :
    (p.mutant os id).outcome = .ok m ↔
      ∃ c m', p.class? id.owner = some c ∧ (c.buildMutant os id).outcome = .ok m' ∧
        m = { m' with mutation :=
          { m'.mutation with tests := p.coveringTests id.owner m'.mutation.line } } := by
  unfold mutant
  cases p.class? id.owner with
  | none => simp
  | some c =>
    dsimp only
    rw [Journaled.outcome_bind]
    cases hm : (c.buildMutant os id).outcome with
    | error e => simp [Except.bind, hm]
    | ok m' => simp [Except.bind, hm, eq_comm]

/-- **Scan and mutants agree**: what a scan finds has a mutant, of the same mutation in every field, and
whatever has a mutant is found by the scan. -/
theorem mutant_iff_mem_mutations {names : List String} {ms : List Mutator}
    (hp : p.validate = .ok ()) (hl : ∀ c ∈ p.classes, ∀ m ∈ c.methods, m.SparesLastLabel)
    (hms : Mutator.select names = .ok ms) (name : ClassName) :
    ∃ found, (p.mutations (ms.map (·.operator)) name).outcome = .ok found ∧
      (∀ d ∈ found, ∃ m, (p.mutant (ms.map (·.operator)) d.id).outcome = .ok m ∧ m.mutation = d) ∧
      ∀ id m, id.owner = name → (p.mutant (ms.map (·.operator)) id).outcome = .ok m →
        ∃ d ∈ found, d.id = id := by
  have hos := Mutator.nodup_id_of_select hms
  set os := ms.map (·.operator)
  cases hclass : p.class? name with
  | none =>
    refine ⟨[], ?_, by simp, ?_⟩
    · unfold mutations
      rw [hclass]
      rfl
    · rintro id m rfl h
      obtain ⟨c, m', hc, -⟩ := mutant_eq_ok_iff.mp h
      rw [hclass] at hc
      cases hc
  | some c =>
    obtain ⟨hmem, hname⟩ := class?_eq_some hclass
    have hsig := nodup_of_validateClasses hp c hmem
    refine ⟨_, mutations_outcome hclass (ClassDef.mutationPoints_outcome (hl c hmem) hsig hos), ?_, ?_⟩
    · intro d hd
      obtain ⟨d', hd', rfl⟩ := List.mem_map.mp hd
      obtain ⟨m', hm', rfl⟩ := (ClassDef.exists_buildMutant_iff (hl c hmem) hsig hos).mpr ⟨hd', rfl⟩
      have howner : m'.mutation.id.owner = name := by
        obtain ⟨method, -, hscan⟩ := List.mem_flatMap.mp hd'
        obtain ⟨o, -, hpoint⟩ := Method.mem_scan_iff.mp hscan
        exact (Method.id_of_mem_points hpoint).1.trans hname
      refine ⟨_, mutant_eq_ok_iff.mpr ⟨c, m', howner ▸ hclass, hm', rfl⟩, ?_⟩
      dsimp only
      rw [howner]
    · rintro id m rfl h
      obtain ⟨c', m', hc', hm', rfl⟩ := mutant_eq_ok_iff.mp h
      obtain rfl : c = c' := Option.some.inj (hclass.symm.trans hc')
      obtain ⟨hfound, hid⟩ :=
        (ClassDef.exists_buildMutant_iff (hl c hmem) hsig hos).mp ⟨m', hm', rfl⟩
      exact ⟨_, List.mem_map_of_mem hfound, hid⟩

/-- `sumClass` and a test that covers its addition. -/
def sumProgram : Program :=
  { classes := [sumClass]
    coverage := [⟨⟨"Calc"⟩, 3, [⟨"adds", ⟨"CalcTest"⟩, 5⟩]⟩] }

theorem mutant_iff_mem_mutations_sumProgram :
    sumProgram.validate = .ok () ∧
    (∀ c ∈ sumProgram.classes, ∀ m ∈ c.methods, m.SparesLastLabel) ∧
    Mutator.select ["MATH", "RETURN_VALS"] = .ok [.math, .returnVals] ∧
    ∃ found, (sumProgram.mutations [Mutator.math.operator, Mutator.returnVals.operator]
        ⟨"Calc"⟩).outcome = .ok found ∧
      (∀ d ∈ found, ∃ m, (sumProgram.mutant [Mutator.math.operator, Mutator.returnVals.operator]
        d.id).outcome = .ok m ∧ m.mutation = d) ∧
      ∀ id m, id.owner = ⟨"Calc"⟩ →
        (sumProgram.mutant [Mutator.math.operator, Mutator.returnVals.operator] id).outcome = .ok m →
        ∃ d ∈ found, d.id = id := by
  have hp : sumProgram.validate = .ok () := rfl
  have hl : ∀ c ∈ sumProgram.classes, ∀ m ∈ c.methods, m.SparesLastLabel := by decide
  have hms : Mutator.select ["MATH", "RETURN_VALS"] = .ok [.math, .returnVals] := rfl
  exact ⟨hp, hl, hms, mutant_iff_mem_mutations hp hl hms ⟨"Calc"⟩⟩

end Program

end StackMutants
