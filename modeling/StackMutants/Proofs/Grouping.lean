import StackMutants.Proofs.Review
import Mathlib.Data.List.Forall2

/-!
# Proofs.Grouping — building units loses no mutation and adds none

Whatever is answered about a group, its unit covers the group: it has the same mutations, first the known
ones and then the fresh ones, both in the order of the group (`unitFor_covers`).  The groups of a class are
its mutations cut at multiples of the size (`length_groupsOf`, `getElem?_groupsOf`), and the units of a batch
are those of its classes, one class after the other (`unitsOfClasses_outcome`).
-/

namespace StackMutants

/-! ## What a unit covers -/

namespace WorkUnit

/-- What makes the mutations of a unit, known ones first. -/
def keys (u : WorkUnit) : List Mutation.Key :=
  u.knownOutcomes.map (·.key) ++ u.freshMutations.map (·.key)

/-- The unit has the mutations of the group: first known ones and then fresh ones, both in the order of the
group. -/
structure Covers (u : WorkUnit) (group : List Mutation) : Prop where
  ids_eq : u.ids = u.knownOutcomes.map (·.mutation.id) ++ u.freshMutations.map (·.id)
  ids_perm : u.ids.Perm (group.map (·.id))
  known_order : (u.knownOutcomes.map (·.key)).Sublist (group.map (·.key))
  fresh_order : (u.freshMutations.map (·.key)).Sublist (group.map (·.key))
  keys_perm : u.keys.Perm (group.map (·.key))

mutual

theorem length_ids : ∀ u : WorkUnit, u.ids.length = u.count
  | known _ => List.length_map _
  | fresh _ => List.length_map _
  | bundle us => length_idsOfAll us

theorem length_idsOfAll : ∀ us : List WorkUnit, (idsOfAll us).length = countOfAll us
  | [] => rfl
  | u :: us => by
    unfold idsOfAll countOfAll
    rw [List.length_append, length_ids u, length_idsOfAll us]

end

theorem Covers.count_eq {u : WorkUnit} {group : List Mutation} (h : u.Covers group) :
    u.count = group.length := by
  rw [← length_ids, h.ids_perm.length_eq, List.length_map]

end WorkUnit

theorem settledIn_append_notStartedIn_perm (os : List Outcome) :
    (settledIn os ++ notStartedIn os).Perm os := by
  have h := List.filter_append_perm (fun o : Outcome => decide (o.status = .notStarted)) os
  have hsettled : settledIn os = os.filter fun o => !decide (o.status = .notStarted) := by
    unfold settledIn
    simp
  rw [hsettled]
  exact List.perm_append_comm.trans h

section Unit

variable (mutators : List String) (settings : Settings)

theorem ids_unitOf (os : List Outcome) : (unitOf mutators settings os).ids =
    (settledIn os).map (·.mutation.id) ++ (notStartedIn os).map (·.mutation.id) := by
  rcases unitOf_cases mutators settings os with ⟨hf, k, h, hk⟩ | ⟨-, hk, f, h, hf⟩ | ⟨-, -, k, f, h, hk, hf⟩
  · rw [h, hf, ← hk]
    simp [WorkUnit.ids]
  · rw [h, hk]
    simp [WorkUnit.ids, hf]
  · rw [h, ← hk]
    simp [WorkUnit.ids, WorkUnit.idsOfAll, hf]

/-- **Whatever is answered, the unit covers the group.** -/
theorem unitFor_covers (group : List Mutation) (answer : Except Fault (List Outcome)) :
    (unitFor mutators settings group answer).Covers group := by
  have hkeys : (unitFor mutators settings group answer).keys.Perm (group.map (·.key)) := by
    unfold WorkUnit.keys unitFor
    rw [knownOutcomes_unitOf, freshMutations_unitOf, List.map_map, ← map_key_reviewAnswer group answer]
    have hperm := (settledIn_append_notStartedIn_perm (reviewAnswer group answer).1).map (·.key)
    rw [List.map_append] at hperm
    exact hperm
  have hids : (unitFor mutators settings group answer).ids =
      (unitFor mutators settings group answer).knownOutcomes.map (·.mutation.id) ++
      (unitFor mutators settings group answer).freshMutations.map (·.id) := by
    unfold unitFor
    rw [ids_unitOf, knownOutcomes_unitOf, freshMutations_unitOf, List.map_map]
    rfl
  refine ⟨hids, ?_, map_key_knownOutcomes_sublist mutators settings group answer,
    map_key_freshMutations_sublist mutators settings group answer, hkeys⟩
  have hfst := hkeys.map Prod.fst
  rw [List.map_map] at hfst
  unfold WorkUnit.keys at hfst
  rw [List.map_append, List.map_map, List.map_map] at hfst
  rw [hids]
  exact hfst

end Unit

/-! ## Groups -/

/-- The number of groups of `n` mutations. -/
def groupCount (size n : Nat) : Nat :=
  if n = 0 then 0 else if size = 0 then 1 else (n + size - 1) / size

/-- The `i`-th group of mutations. -/
def groupAt (size i : Nat) (ms : List Mutation) : List Mutation :=
  if size = 0 then ms else (ms.drop (i * size)).take size

section Groups

variable {size : Nat} {ms : List Mutation}

theorem groupsOf_zero (hms : ms ≠ []) : groupsOf 0 ms = [ms] := by
  unfold groupsOf
  rw [if_neg (by simpa using hms), if_pos rfl]

theorem groupsOf_pos (hsize : 0 < size) : groupsOf size ms = Sequence.chunks size ms := by
  unfold groupsOf
  split
  · rename_i h
    rw [List.isEmpty_iff.mp h, Sequence.chunks_nil]
  · rw [if_neg (by omega)]

theorem flatten_groupsOf (size : Nat) (ms : List Mutation) : (groupsOf size ms).flatten = ms := by
  rcases Nat.eq_zero_or_pos size with rfl | hsize
  · by_cases hms : ms = []
    · rw [hms]
      rfl
    · rw [groupsOf_zero hms, List.flatten_singleton]
  · rw [groupsOf_pos hsize, Sequence.flatten_chunks]

theorem length_groupsOf (size : Nat) (ms : List Mutation) :
    (groupsOf size ms).length = groupCount size ms.length := by
  unfold groupCount
  split
  · rename_i h
    rw [List.length_eq_zero_iff.mp h]
    rfl
  · rename_i h
    have hms : ms ≠ [] := fun hnil => h (by rw [hnil]; rfl)
    split
    · rename_i hsize
      rw [hsize, groupsOf_zero hms]
      rfl
    · rename_i hsize
      have hpos : 0 < size := by omega
      rw [groupsOf_pos hpos, Sequence.length_chunks hpos]

theorem getElem?_groupsOf {i : Nat} (hi : i < (groupsOf size ms).length) :
    (groupsOf size ms)[i]? = some (groupAt size i ms) := by
  unfold groupAt
  split
  · rename_i hsize
    subst hsize
    have hms : ms ≠ [] := by
      rintro rfl
      exact Nat.not_lt_zero i hi
    rw [groupsOf_zero hms] at hi ⊢
    obtain rfl : i = 0 := by
      simp only [List.length_singleton] at hi
      omega
    rfl
  · rename_i hsize
    have hpos : 0 < size := by omega
    rw [groupsOf_pos hpos] at hi ⊢
    exact Sequence.getElem?_chunks hpos ms hi

theorem length_groupAt_le (hsize : 0 < size) (i : Nat) (ms : List Mutation) :
    (groupAt size i ms).length ≤ size := by
  unfold groupAt
  rw [if_neg (by omega)]
  exact List.length_take_le _ _

end Groups

/-! ## Units of classes and of batches -/

/-- Units for the mutations of one class: one for each group, which it covers. -/
structure CoverInGroups (size : Nat) (ms : List Mutation) (units : List WorkUnit) : Prop where
  length_eq : units.length = groupCount size ms.length
  covers : ∀ (i : Nat) (u : WorkUnit), units[i]? = some u → u.Covers (groupAt size i ms)

section Groups

variable {size : Nat} {found : List Mutation} {units : List WorkUnit} {groups : List (List Mutation)}

/-- What each unit has in common with its group, the units have in common with the groups. -/
theorem flatMap_perm_of_groups {β : Type} {f : WorkUnit → List β} {g : Mutation → β}
    (h : List.Forall₂ (fun group u => (f u).Perm (group.map g)) groups units) :
    (units.flatMap f).Perm (groups.flatten.map g) := by
  induction h with
  | nil => exact .refl _
  | cons hunit _ ih =>
    rw [List.flatMap_cons, List.flatten_cons, List.map_append]
    exact hunit.append ih

theorem coverInGroups_of_covers
    (h : List.Forall₂ (fun group u => u.Covers group) (groupsOf size found) units) :
    CoverInGroups size found units where
  length_eq := h.length_eq.symm.trans (length_groupsOf size found)
  covers := by
    intro i u hu
    obtain ⟨hi, rfl⟩ := List.getElem?_eq_some_iff.mp hu
    have hi' : i < (groupsOf size found).length := h.length_eq ▸ hi
    have hgroup := getElem?_groupsOf hi'
    rw [List.getElem?_eq_getElem hi'] at hgroup
    rw [← Option.some.inj hgroup]
    exact h.get hi' hi

/-- No unit exceeds the size, unless the size is zero. -/
theorem CoverInGroups.count_le (h : CoverInGroups size found units) (hsize : 0 < size) :
    ∀ u ∈ units, u.count ≤ size := by
  intro u hu
  obtain ⟨i, hi⟩ := List.getElem?_of_mem hu
  rw [(h.covers i u hi).count_eq]
  exact length_groupAt_le hsize i found

end Groups

section Batch

variable {source : ClassName → Journaled Fault (List Mutation)} {ms : ClassName → List Mutation}
  {classes : List ClassName} {segments : List (List WorkUnit)}

theorem count_le_of_coverInGroups {size : Nat}
    (h : List.Forall₂ (fun c units => CoverInGroups size (ms c) units) classes segments)
    (hsize : 0 < size) : ∀ u ∈ segments.flatten, u.count ≤ size := by
  induction h with
  | nil => simp
  | cons hunits _ ih =>
    intro u hu
    rcases List.mem_append.mp hu with hu | hu
    · exact hunits.count_le hsize u hu
    · exact ih u hu

theorem flatMap_perm_of_segments {size : Nat} {β : Type} {f : WorkUnit → List β} {g : Mutation → β}
    (h : List.Forall₂ (fun c units => List.Forall₂ (fun group u => (f u).Perm (group.map g))
      (groupsOf size (ms c)) units) classes segments) :
    (segments.flatten.flatMap f).Perm ((classes.flatMap ms).map g) := by
  induction h with
  | nil => exact .refl _
  | cons hunits _ ih =>
    rw [List.flatten_cons, List.flatMap_append, List.flatMap_cons, List.map_append]
    have hclass := flatMap_perm_of_groups hunits
    rw [flatten_groupsOf] at hclass
    exact hclass.append ih

theorem keys_perm_of_segments {size : Nat}
    (h : List.Forall₂ (fun c units => List.Forall₂ (fun group u => u.Covers group)
      (groupsOf size (ms c)) units) classes segments) :
    (segments.flatten.flatMap WorkUnit.keys).Perm ((classes.flatMap ms).map (·.key)) :=
  flatMap_perm_of_segments (h.imp fun _ _ hunits => hunits.imp fun _ _ hcovers => hcovers.keys_perm)

variable (a : Analyser) (mutators : List String) (settings : Settings)

/-- The unit is that of the group, given what the analyser answers about it in some state. -/
def IsAnswered (group : List Mutation) (u : WorkUnit) : Prop :=
  ∃ s, u = unitFor mutators settings group (a.answer s group).1

/-- The analyser is asked about one group after the other, and each group becomes one unit. -/
theorem unitsOfGroups_answered (s : a.State) (groups : List (List Mutation)) :
    ∃ units s', (unitsOfGroups a mutators settings s groups).outcome = .ok (units, s') ∧
      List.Forall₂ (IsAnswered a mutators settings) groups units := by
  -- an answer may depend on every question before it, so the state is arbitrary
  induction groups generalizing s with
  | nil => exact ⟨[], s, rfl, .nil⟩
  | cons group groups ih =>
    obtain ⟨units, s', hunits, hall⟩ := ih (a.answer s group).2
    refine ⟨unitFor mutators settings group (a.answer s group).1 :: units, s', ?_, .cons ⟨_, rfl⟩ hall⟩
    unfold unitsOfGroups
    simp only [Journaled.outcome_bind, Journaled.outcome_write, Except.bind, hunits]
    rfl

theorem unitsOfClasses_answered (hsource : ∀ c ∈ classes, (source c).outcome = .ok (ms c))
    (s : a.State) :
    ∃ segments, (unitsOfClasses source a mutators settings s classes).outcome = .ok segments.flatten ∧
      List.Forall₂ (fun c units => List.Forall₂ (IsAnswered a mutators settings)
        (groupsOf settings.unitSize (ms c)) units) classes segments := by
  induction classes generalizing s with
  | nil => exact ⟨[], rfl, .nil⟩
  | cons c cs ih =>
    obtain ⟨units, s', hunits, hall⟩ :=
      unitsOfGroups_answered a mutators settings s (groupsOf settings.unitSize (ms c))
    obtain ⟨segments, hsegments, hrest⟩ := ih (fun c' hc' => hsource c' (List.mem_cons_of_mem _ hc')) s'
    refine ⟨units :: segments, ?_, .cons hall hrest⟩
    unfold unitsOfClasses
    simp only [Journaled.outcome_bind, hsource c List.mem_cons_self, Journaled.outcome_debug, Except.bind,
      hunits, hsegments]
    rfl

theorem unitsOfClasses_outcome (hsource : ∀ c ∈ classes, (source c).outcome = .ok (ms c))
    (s : a.State) :
    ∃ segments, (unitsOfClasses source a mutators settings s classes).outcome = .ok segments.flatten ∧
      List.Forall₂ (fun c units => List.Forall₂
        (fun group u => ∃ answer, u = unitFor mutators settings group answer)
        (groupsOf settings.unitSize (ms c)) units) classes segments := by
  obtain ⟨segments, hsegments, hall⟩ := unitsOfClasses_answered a mutators settings hsource s
  refine ⟨segments, hsegments, hall.imp fun c units hunits => hunits.imp ?_⟩
  rintro group u ⟨s, hu⟩
  exact ⟨_, hu⟩

/-- Building succeeds with valid settings; what it builds are the units of the groups of the classes. -/
theorem buildUnits_answered {os : List Mutator} (hsettings : settings.validate = .ok os)
    (hsource : ∀ c ∈ classes, (source c).outcome = .ok (ms c)) :
    ∃ segments : List (List WorkUnit),
      (buildUnits settings source a classes).outcome = .ok segments.flatten ∧
      List.Forall₂ (fun c units => List.Forall₂ (IsAnswered a (os.map (·.name)) settings)
        (groupsOf settings.unitSize (ms c)) units) classes segments := by
  obtain ⟨segments, hsegments, hall⟩ :=
    unitsOfClasses_answered a (os.map (·.name)) settings hsource a.start
  refine ⟨segments, ?_, hall⟩
  unfold buildUnits
  rw [Journaled.outcome_bind, Journaled.outcome_ofExcept, hsettings]
  exact hsegments

/-- **Building units loses no mutation and adds none**, whatever the analyser answers.  The units of a batch
are those of its classes one after the other; those of a class cover its groups one after the other; and
together they have the mutations that were found, as often as they were found. -/
theorem buildUnits_covers {os : List Mutator} (hsettings : settings.validate = .ok os)
    (hsource : ∀ c ∈ classes, (source c).outcome = .ok (ms c)) :
    ∃ segments : List (List WorkUnit),
      (buildUnits settings source a classes).outcome = .ok segments.flatten ∧
      List.Forall₂ (fun c units => CoverInGroups settings.unitSize (ms c) units) classes segments ∧
      (0 < settings.unitSize → ∀ u ∈ segments.flatten, u.count ≤ settings.unitSize) ∧
      (segments.flatten.flatMap WorkUnit.keys).Perm ((classes.flatMap ms).map (·.key)) := by
  obtain ⟨segments, hsegments, hall⟩ :=
    unitsOfClasses_outcome a (os.map (·.name)) settings hsource a.start
  have hcovers : List.Forall₂ (fun c units => List.Forall₂ (fun group u => u.Covers group)
      (groupsOf settings.unitSize (ms c)) units) classes segments := by
    refine hall.imp fun c units h => h.imp ?_
    rintro group u ⟨answer, rfl⟩
    exact unitFor_covers _ settings group answer
  have hgroups : List.Forall₂ (fun c units => CoverInGroups settings.unitSize (ms c) units) classes
      segments := hcovers.imp fun _ _ h => coverInGroups_of_covers h
  refine ⟨segments, ?_, hgroups, count_le_of_coverInGroups hgroups, keys_perm_of_segments hcovers⟩
  unfold buildUnits
  rw [Journaled.outcome_bind, Journaled.outcome_ofExcept, hsettings]
  exact hsegments

end Batch

/-- Fails at the first question and then finds every mutation killed, the last one first. -/
def lateAnalyser : Analyser where
  State := Bool
  start := false
  answer asked group :=
    (if asked then .ok (group.reverse.map fun m => ⟨m, { status := .killed, testsRun := 1 }⟩)
     else .error (.classNotFound ⟨"Calc"⟩), true)

/-- The settings of one mutation a unit. -/
def singly : Settings := { unitSize := 1, mutators := ["MATH"] }

theorem buildUnits_covers_twoPoints :
    singly.validate = .ok [.math] ∧
    ∃ segments : List (List WorkUnit),
      (buildUnits singly (fun _ => pure twoPoints) lateAnalyser
        [⟨"Calc"⟩, ⟨"Calc"⟩]).outcome = .ok segments.flatten ∧
      List.Forall₂ (fun _ units => CoverInGroups 1 twoPoints units)
        [(⟨"Calc"⟩ : ClassName), ⟨"Calc"⟩] segments ∧
      (0 < singly.unitSize → ∀ u ∈ segments.flatten, u.count ≤ singly.unitSize) ∧
      (segments.flatten.flatMap WorkUnit.keys).Perm ((twoPoints ++ twoPoints).map (·.key)) := by
  have hsettings : singly.validate = .ok [.math] := rfl
  have hsource : ∀ c ∈ [(⟨"Calc"⟩ : ClassName), ⟨"Calc"⟩],
      (pure twoPoints : Journaled Fault (List Mutation)).outcome = .ok ((fun _ => twoPoints) c) :=
    fun _ _ => rfl
  exact ⟨hsettings, buildUnits_covers lateAnalyser singly hsettings hsource⟩

end StackMutants
