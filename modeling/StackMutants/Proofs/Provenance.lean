import StackMutants.Proofs.Grouping

/-!
# Proofs.Provenance — where the mutations of a unit come from

An answer about a group is matched with the group by identifier and line, and what is matched goes into the
unit as it was answered, with the description and the tests of the answer.  So a unit holds the mutations
that were found, unchanged, exactly if the answer repeats them (`unitFor_holds_iff`).  The analysers that
know nothing and that recall stored outcomes do (`faithful_unknowing`, `Recall.faithful_analyser`), but an
analyser need not (`not_held_of_every_analyser`).
-/

namespace StackMutants

/-- The mutations that a unit holds, with outcomes or to be run. -/
def WorkUnit.held (u : WorkUnit) : List Mutation := u.knownOutcomes.map (·.mutation) ++ u.freshMutations

/-- The unit holds the mutations of the group, unchanged in every field and in order on either side. -/
structure WorkUnit.Holds (u : WorkUnit) (group : List Mutation) : Prop where
  perm : u.held.Perm group
  known_order : (u.knownOutcomes.map (·.mutation)).Sublist group
  fresh_order : u.freshMutations.Sublist group

/-- If the answer is taken, it repeats the mutations of the group in every field. -/
def Repeats (group : List Mutation) (answer : Except Fault (List Outcome)) : Prop :=
  ∀ outcomes, answer = .ok outcomes → Answers group outcomes → ∀ o ∈ outcomes, o.mutation ∈ group

/-- All answers repeat the mutations that they are about. -/
def Analyser.Faithful (a : Analyser) : Prop := ∀ s group, Repeats group (a.answer s group).1

/-! ## Faithful analysers -/

/-- Outcomes that are made for the mutations repeat them. -/
theorem repeats_map {f : Mutation → Outcome} (hf : ∀ m, (f m).mutation = m) (group : List Mutation) :
    Repeats group (.ok (group.map f)) := by
  rintro _ ⟨⟩ - o ho
  obtain ⟨m, hm, rfl⟩ := List.mem_map.mp ho
  rw [hf m]
  exact hm

theorem faithful_unknowing : Analyser.unknowing.Faithful :=
  fun _ group => repeats_map (fun _ => rfl) group

theorem Recall.faithful_analyser (r : Recall) : r.analyser.Faithful :=
  fun _ group => repeats_map (fun _ => rfl) group

/-! ## Units of faithful answers -/

section Units

variable {group : List Mutation} {outcomes : List Outcome} {answer : Except Fault (List Outcome)}

theorem Answers.map_mutation_alignedWith (h : Answers group outcomes)
    (hrepeats : ∀ o ∈ outcomes, o.mutation ∈ group) :
    (alignedWith group outcomes).map (·.mutation) = group := by
  have hfound : ∀ m ∈ group,
      (outcomes.find? (·.key == m.key)).map (·.mutation) = some m := by
    intro m hm
    obtain ⟨o, ho, hkey⟩ := List.mem_map.mp (h.perm.mem_iff.mpr (List.mem_map_of_mem hm))
    -- two mutations of the group with one key are the same
    have hsame : o.mutation = m := List.inj_on_of_nodup_map h.nodup (hrepeats o ho) hm hkey
    rw [h.find?_eq_some_iff.mpr ⟨ho, hkey⟩, Option.map_some, hsame]
  unfold alignedWith
  rw [List.map_filterMap, List.filterMap_congr hfound, List.filterMap_some]

/-- A faithful answer leaves the group as it is. -/
theorem Repeats.map_mutation_reviewAnswer (h : Repeats group answer) :
    (reviewAnswer group answer).1.map (·.mutation) = group := by
  by_cases hanswers : ∃ outcomes, answer = .ok outcomes ∧ Answers group outcomes
  · obtain ⟨outcomes, rfl, hanswers⟩ := hanswers
    rw [reviewAnswer_of_answers hanswers]
    exact hanswers.map_mutation_alignedWith (h outcomes rfl hanswers)
  · rw [reviewAnswer_of_not_answers fun outcomes ho ha => hanswers ⟨outcomes, ho, ha⟩, List.map_map]
    exact List.map_id group

variable (mutators : List String) (settings : Settings)

/-- The unit for outcomes holds their mutations. -/
theorem held_unitOf_perm (os : List Outcome) :
    (unitOf mutators settings os).held.Perm (os.map (·.mutation)) := by
  unfold WorkUnit.held
  rw [knownOutcomes_unitOf, freshMutations_unitOf, ← List.map_append]
  exact (settledIn_append_notStartedIn_perm os).map _

/-- **A unit holds what was found exactly if the answer repeats it.** -/
theorem unitFor_holds_iff (group : List Mutation) (answer : Except Fault (List Outcome)) :
    (unitFor mutators settings group answer).Holds group ↔ Repeats group answer := by
  have hheld := held_unitOf_perm mutators settings (reviewAnswer group answer).1
  constructor
  · rintro h outcomes rfl hanswers o ho
    rw [reviewAnswer_of_answers hanswers] at hheld
    have hmem : o.mutation ∈ (alignedWith group outcomes).map (·.mutation) :=
      List.mem_map_of_mem (hanswers.alignedWith_perm.mem_iff.mpr ho)
    have hin := hheld.mem_iff.mpr hmem
    rw [← reviewAnswer_of_answers hanswers] at hin
    exact h.perm.mem_iff.mp hin
  · intro h
    have hgroup := h.map_mutation_reviewAnswer
    rw [hgroup] at hheld
    have hfilter : ∀ p : Outcome → Bool,
        (((reviewAnswer group answer).1.filter p).map (·.mutation)).Sublist group := by
      intro p
      have hsub := (List.filter_sublist (p := p) (l := (reviewAnswer group answer).1)).map (·.mutation)
      rwa [hgroup] at hsub
    refine ⟨hheld, ?_, ?_⟩
    · unfold unitFor
      rw [knownOutcomes_unitOf]
      exact hfilter _
    · unfold unitFor
      rw [freshMutations_unitOf]
      exact hfilter _

end Units

/-! ## Builds -/

section Batch

variable {source : ClassName → Journaled Fault (List Mutation)} {ms : ClassName → List Mutation}
  {classes : List ClassName} (a : Analyser) (settings : Settings)

/-- **Which mutations the units of a build hold.**  Each unit is that of its group, given the answer about
the group, and holds the mutations of the group unchanged exactly if the answer repeats them.  With a faithful
analyser the units hold together what was found, field by field. -/
theorem buildUnits_holds_iff {os : List Mutator} (hsettings : settings.validate = .ok os)
    (hsource : ∀ c ∈ classes, (source c).outcome = .ok (ms c)) :
    ∃ segments : List (List WorkUnit),
      (buildUnits settings source a classes).outcome = .ok segments.flatten ∧
      List.Forall₂ (fun c units => List.Forall₂ (fun group u =>
          ∃ s, u = unitFor (os.map (·.name)) settings group (a.answer s group).1 ∧
            (u.Holds group ↔ Repeats group (a.answer s group).1))
        (groupsOf settings.unitSize (ms c)) units) classes segments ∧
      (a.Faithful →
        List.Forall₂ (fun c units => List.Forall₂ (fun group u => u.Holds group)
          (groupsOf settings.unitSize (ms c)) units) classes segments ∧
        (segments.flatten.flatMap WorkUnit.held).Perm (classes.flatMap ms)) := by
  obtain ⟨segments, hsegments, hall⟩ := buildUnits_answered a settings hsettings hsource
  refine ⟨segments, hsegments, ?_, fun hfaithful => ?_⟩
  · refine hall.imp fun c units hunits => hunits.imp ?_
    rintro group _ ⟨s, rfl⟩
    exact ⟨s, rfl, unitFor_holds_iff _ settings group _⟩
  · have hholds : List.Forall₂ (fun c units => List.Forall₂ (fun group u => u.Holds group)
        (groupsOf settings.unitSize (ms c)) units) classes segments := by
      refine hall.imp fun c units hunits => hunits.imp ?_
      rintro group _ ⟨s, rfl⟩
      exact (unitFor_holds_iff _ settings group _).mpr (hfaithful s group)
    refine ⟨hholds, ?_⟩
    have hperm := flatMap_perm_of_segments (f := WorkUnit.held) (g := id)
      (hholds.imp fun _ _ hunits => hunits.imp fun group _ h => (List.map_id group).symm ▸ h.perm)
    rwa [List.map_id] at hperm

end Batch

/-- A point that a test covers, in a class of its own. -/
def coveredPoint : Mutation :=
  { id := ⟨⟨"Calc"⟩, "sum", "(II)I", "MATH", 0⟩, line := 3, description := "addition"
    tests := [⟨"adds", ⟨"CalcTest"⟩, 5⟩] }

/-- The outcome of `coveredPoint` as it was stored when the test had another time. -/
def storedOutcome : Outcome :=
  ⟨{ coveredPoint with description := "stored", tests := [⟨"adds", ⟨"CalcTest"⟩, 9⟩] },
    { status := .killed, testsRun := 1, note := some "adds" }⟩

theorem buildUnits_holds_iff_coveredPoint :
    singly.validate = .ok [.math] ∧
    (Recall.ofOutcomes [storedOutcome]).analyser.Faithful ∧
    ∃ segments : List (List WorkUnit),
      (buildUnits singly (fun _ => pure [coveredPoint]) (Recall.ofOutcomes [storedOutcome]).analyser
        [⟨"Calc"⟩]).outcome = .ok segments.flatten ∧
      List.Forall₂ (fun _ units => List.Forall₂ (fun group u => u.Holds group)
        (groupsOf 1 [coveredPoint]) units) [(⟨"Calc"⟩ : ClassName)] segments ∧
      (segments.flatten.flatMap WorkUnit.held).Perm [coveredPoint] := by
  have hsettings : singly.validate = .ok [.math] := rfl
  have hfaithful := (Recall.ofOutcomes [storedOutcome]).faithful_analyser
  have hsource : ∀ c ∈ [(⟨"Calc"⟩ : ClassName)],
      (pure [coveredPoint] : Journaled Fault (List Mutation)).outcome = .ok ((fun _ => [coveredPoint]) c) :=
    fun _ _ => rfl
  obtain ⟨segments, hsegments, -, hholds⟩ := buildUnits_holds_iff
    (Recall.ofOutcomes [storedOutcome]).analyser singly hsettings hsource
  exact ⟨hsettings, hfaithful, segments, hsegments, hholds hfaithful⟩

/-- Knows nothing of the mutations that it is asked about, and forgets their tests. -/
def forgetful : Analyser := .steady fun group => .ok (group.map fun m => .notStarted { m with tests := [] })

/-- **A unit may hold what was answered instead of what was found**: the tests that are to be run are then
those of the answer. -/
theorem not_held_of_every_analyser :
    ¬ ∀ (settings : Settings) (os : List Mutator) (source : ClassName → Journaled Fault (List Mutation))
        (ms : ClassName → List Mutation) (a : Analyser) (classes : List ClassName) (units : List WorkUnit),
      settings.validate = .ok os → (∀ c ∈ classes, (source c).outcome = .ok (ms c)) →
      (buildUnits settings source a classes).outcome = .ok units →
      ∀ u ∈ units, ∀ m ∈ u.held, ∃ c ∈ classes, m ∈ ms c := by
  intro h
  have hheld := h singly [.math] (fun _ => pure [coveredPoint]) (fun _ => [coveredPoint]) forgetful
    [⟨"Calc"⟩]
    [unitFor ["MATH"] singly [coveredPoint] (.ok [.notStarted { coveredPoint with tests := [] }])]
    rfl (fun _ _ => rfl) rfl _ List.mem_cons_self
  obtain ⟨-, -, hmem⟩ := hheld { coveredPoint with tests := [] } (by decide)
  exact absurd hmem (by decide)

end StackMutants
