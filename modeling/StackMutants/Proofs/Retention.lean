import StackMutants.Proofs.Convergence
import StackMutants.Proofs.Planning

/-!
# Proofs.Retention — a plan can be made again from what it replays

A plan replays the outcomes that its units know (`outcomes_replayKnown`), and these can take the place of
the outcomes that it was made with.  Outcomes that were superseded, that had lapsed or that belong to no
mutation of the batch are gone then, and so are those of groups in which a mutation occurs twice.  But all
that is left is vouched for by the recall of before, and each outcome that the plan used is left; so the new
recall answers as the old one did wherever the answer is taken (`Recall.outcome_ofOutcomes_of_vouches`), and
the plan comes out the same (`buildUnits_replayKnown`).
-/

namespace StackMutants

/-! ## Recalls of outcomes that a recall vouches for -/

namespace Recall

/-- The recall has each of the verdicts, and all of them are knowledge. -/
def Vouches (r : Recall) (rs : List Outcome) : Prop :=
  ∀ o ∈ rs, o.status ≠ .notStarted ∧ r.verdict? o.key = some o.verdict

variable {r : Recall} {rs history : List Outcome} {m : Mutation}

/-- A recall of what is vouched for has no verdicts of its own. -/
theorem Vouches.verdict?_ofOutcomes (h : r.Vouches rs) (key : Mutation.Key) :
    (ofOutcomes rs).verdict? key = none ∨ (ofOutcomes rs).verdict? key = r.verdict? key := by
  cases hfind : (ofOutcomes rs).outcomes.reverse.find? (·.key = key) with
  | none =>
    left
    unfold verdict?
    rw [hfind]
    rfl
  | some o =>
    right
    have hkey : o.key = key := by simpa using List.find?_some hfind
    have ho : o ∈ rs := (List.mem_filter.mp (List.mem_reverse.mp (List.mem_of_find?_eq_some hfind))).1
    rw [← hkey, (h o ho).2, hkey]
    unfold verdict?
    rw [hfind]
    rfl

theorem Vouches.verdict?_ofOutcomes_of_mem (h : r.Vouches rs) {o : Outcome} (ho : o ∈ rs) :
    (ofOutcomes rs).verdict? o.key = r.verdict? o.key := by
  refine (h.verdict?_ofOutcomes o.key).resolve_left fun hnone => ?_
  have hstored : o ∈ (ofOutcomes rs).outcomes.reverse :=
    List.mem_reverse.mpr (List.mem_filter.mpr ⟨ho, by simpa using (h o ho).1⟩)
  unfold verdict? at hnone
  simpa using List.find?_eq_none.mp (Option.map_eq_none_iff.mp hnone) o hstored

/-- A mutation has the outcome that it had, if the verdict that was current for it is among those kept. -/
theorem outcome_ofOutcomes_of_vouches (h : r.Vouches rs)
    (hkept : ∀ v, r.current? m = some v → ⟨m, v⟩ ∈ rs) : (ofOutcomes rs).outcome m = r.outcome m := by
  have hcurrent : (ofOutcomes rs).current? m = r.current? m := by
    rcases h.verdict?_ofOutcomes m.key with hnone | hsame
    · have hlost : (ofOutcomes rs).current? m = none := by
        unfold current?
        rw [hnone]
        rfl
      cases hv : r.current? m with
      | none => exact hlost
      | some v =>
        -- it would be kept, and then the new recall knew of it
        have hkeptVerdict : (ofOutcomes rs).verdict? m.key = some v :=
          (h.verdict?_ofOutcomes_of_mem (hkept v hv)).trans (h _ (hkept v hv)).2
        rw [hnone] at hkeptVerdict
        cases hkeptVerdict
    · unfold current?
      rw [hsame]
  unfold outcome
  rw [hcurrent]

theorem verdict?_of_current? {v : Verdict} (h : r.current? m = some v) : r.verdict? m.key = some v := by
  unfold current? at h
  exact (Option.filter_eq_some_iff.mp h).1

theorem status_of_verdict? {key : Mutation.Key} {v : Verdict}
    (h : (ofOutcomes history).verdict? key = some v) : v.status ≠ .notStarted := by
  unfold verdict? at h
  obtain ⟨o, hfind, rfl⟩ := Option.map_eq_some_iff.mp h
  have ho := List.mem_reverse.mp (List.mem_of_find?_eq_some hfind)
  exact of_decide_eq_true (List.mem_filter.mp ho).2

/-- An outcome is settled exactly if it repeats a current verdict. -/
theorem outcome_settled_iff {o : Outcome} :
    (ofOutcomes history).outcome m = o ∧ o.status ≠ .notStarted ↔
      ∃ v, (ofOutcomes history).current? m = some v ∧ o = ⟨m, v⟩ := by
  unfold outcome
  cases hv : (ofOutcomes history).current? m with
  | none =>
    constructor
    · rintro ⟨rfl, hstatus⟩
      exact absurd rfl hstatus
    · rintro ⟨_, ⟨⟩, _⟩
  | some v =>
    constructor
    · rintro ⟨rfl, -⟩
      exact ⟨v, rfl, rfl⟩
    · rintro ⟨_, ⟨⟩, rfl⟩
      exact ⟨rfl, status_of_verdict? (verdict?_of_current? hv)⟩

end Recall

/-! ## Groups and their units -/

section Groups

variable {group : List Mutation} {history rs : List Outcome} (mutators : List String) (settings : Settings)

/-- The unit for a group, given what a recall has of its mutations. -/
abbrev recalledUnit (r : Recall) (group : List Mutation) : WorkUnit :=
  unitFor mutators settings group (.ok (group.map r.outcome))

theorem mem_knownOutcomes_recalledUnit_iff (hnodup : (group.map (·.key)).Nodup) {o : Outcome} :
    o ∈ (recalledUnit mutators settings (.ofOutcomes history) group).knownOutcomes ↔
      ∃ m ∈ group, ∃ v, (Recall.ofOutcomes history).current? m = some v ∧ o = ⟨m, v⟩ := by
  unfold recalledUnit unitFor
  rw [knownOutcomes_unitOf, reviewAnswer_map (fun _ => rfl) hnodup]
  unfold settledIn
  rw [List.mem_filter, List.mem_map, decide_eq_true_iff]
  constructor
  · rintro ⟨⟨m, hm, hmo⟩, hstatus⟩
    exact ⟨m, hm, Recall.outcome_settled_iff.mp ⟨hmo, hstatus⟩⟩
  · rintro ⟨m, hm, hv⟩
    obtain ⟨hmo, hstatus⟩ := Recall.outcome_settled_iff.mpr hv
    exact ⟨⟨m, hm, hmo⟩, hstatus⟩

theorem knownOutcomes_recalledUnit_of_not_nodup (hnodup : ¬(group.map (·.key)).Nodup) (r : Recall) :
    (recalledUnit mutators settings r group).knownOutcomes = [] := by
  unfold recalledUnit unitFor
  rw [knownOutcomes_unitOf, reviewAnswer_of_not_nodup hnodup, settledIn_map_notStarted]

/-- What the units know is vouched for. -/
theorem vouches_knownOutcomes (groups : List (List Mutation)) :
    (Recall.ofOutcomes history).Vouches
      ((groups.map (recalledUnit mutators settings (.ofOutcomes history))).flatMap
        WorkUnit.knownOutcomes) := by
  intro o ho
  obtain ⟨u, hu, ho⟩ := List.mem_flatMap.mp ho
  obtain ⟨group, -, rfl⟩ := List.mem_map.mp hu
  by_cases hnodup : (group.map (·.key)).Nodup
  · obtain ⟨m, -, v, hv, rfl⟩ := (mem_knownOutcomes_recalledUnit_iff mutators settings hnodup).mp ho
    have hverdict := Recall.verdict?_of_current? hv
    exact ⟨Recall.status_of_verdict? hverdict, hverdict⟩
  · rw [knownOutcomes_recalledUnit_of_not_nodup mutators settings hnodup] at ho
    cases ho

/-- A group gets the same unit of two recalls that have the same of its mutations, and of any two if a
mutation occurs in it twice. -/
theorem recalledUnit_congr {r r' : Recall}
    (h : (group.map (·.key)).Nodup → ∀ m ∈ group, r.outcome m = r'.outcome m) :
    recalledUnit mutators settings r group = recalledUnit mutators settings r' group := by
  unfold recalledUnit unitFor
  by_cases hnodup : (group.map (·.key)).Nodup
  · rw [List.map_congr_left (h hnodup)]
  · rw [reviewAnswer_of_not_nodup hnodup, reviewAnswer_of_not_nodup hnodup]

end Groups

/-! ## The plan made again -/

section Plan

variable {source : ClassName → Journaled Fault (List Mutation)} {ms : ClassName → List Mutation}
  {classes : List ClassName} {settings : Settings} {os : List Mutator}

/-- **A plan can be made again from what it replays.**  Whatever outcomes a plan was made with, a build with
those alone that its known units replay gives the same units. -/
theorem buildUnits_replayKnown (history : List Outcome) (hsettings : settings.validate = .ok os)
    (hsource : ∀ c ∈ classes, (source c).outcome = .ok (ms c)) :
    ∃ units, (buildUnits settings source (Recall.ofOutcomes history).analyser classes).outcome = .ok units ∧
      (buildUnits settings source
        (Recall.ofOutcomes (replayKnown units).execution.outcomes).analyser classes).outcome = .ok units := by
  set groups := groupsOfBatch settings.unitSize ms classes with hgroups
  set unit := recalledUnit (os.map (·.name)) settings (.ofOutcomes history)
  refine ⟨groups.map unit, buildUnits_steady _ hsettings hsource, ?_⟩
  rw [outcomes_replayKnown]
  set rs := (groups.map unit).flatMap WorkUnit.knownOutcomes
  have hvouches : (Recall.ofOutcomes history).Vouches rs := vouches_knownOutcomes _ settings groups
  have hsame : ∀ group ∈ groups,
      recalledUnit (os.map (·.name)) settings (.ofOutcomes rs) group = unit group := by
    intro group hgroup
    refine recalledUnit_congr _ settings fun hnodup m hm => ?_
    refine Recall.outcome_ofOutcomes_of_vouches hvouches fun v hv => ?_
    refine List.mem_flatMap.mpr ⟨unit group, List.mem_map_of_mem hgroup, ?_⟩
    exact (mem_knownOutcomes_recalledUnit_iff _ settings hnodup).mpr ⟨m, hm, v, hv, rfl⟩
  refine (buildUnits_steady _ hsettings hsource).trans ?_
  rw [← hgroups]
  exact congrArg Except.ok (List.map_congr_left hsame)

end Plan

/-- An archive with more than a plan can use: a verdict that has lapsed, one that is superseded, an outcome
that was not started and one of a mutation that is not there. -/
def clutteredArchive : List Outcome :=
  [⟨coveredPoint, { status := .noCoverage }⟩,
   ⟨{ coveredPoint with line := 9 }, { status := .survived, testsRun := 1 }⟩] ++
  twoOutcomes ++ [⟨twoPoints[1], { status := .survived, testsRun := 2 }⟩, .notStarted twoPoints[1]]

theorem buildUnits_replayKnown_clutteredArchive :
    ({ unitSize := 2, mutators := ["MATH"] } : Settings).validate = .ok [.math] ∧
    ∃ units, (buildUnits { unitSize := 2, mutators := ["MATH"] } (fun _ => pure mixedPoints)
        (Recall.ofOutcomes clutteredArchive).analyser [⟨"Calc"⟩]).outcome = .ok units ∧
      (buildUnits { unitSize := 2, mutators := ["MATH"] } (fun _ => pure mixedPoints)
        (Recall.ofOutcomes (replayKnown units).execution.outcomes).analyser [⟨"Calc"⟩]).outcome =
        .ok units := by
  have hsettings : ({ unitSize := 2, mutators := ["MATH"] } : Settings).validate = .ok [.math] := rfl
  have hsource : ∀ c ∈ [(⟨"Calc"⟩ : ClassName)],
      (pure mixedPoints : Journaled Fault (List Mutation)).outcome = .ok ((fun _ => mixedPoints) c) :=
    fun _ _ => rfl
  exact ⟨hsettings, buildUnits_replayKnown clutteredArchive hsettings hsource⟩

end StackMutants
