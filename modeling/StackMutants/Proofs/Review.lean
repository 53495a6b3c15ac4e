import StackMutants.Plan.Build
import StackMutants.Proofs.Sequence

/-!
# Proofs.Review — an answer about a group decides its unit as a set

`matchesEach` compares lengths and sets of distinct keys; `matchesEach_iff` says that this finds out whether
the outcomes are those of the group in some order, each mutation once (`Answers`).  If so, lining them up
restores the order of the group, and it loses and changes no outcome (`map_key_alignedWith`,
`alignedWith_perm`); if not, the whole group is left to run.  Hence a unit depends on the outcomes that were
answered, but not on their order.
-/

namespace StackMutants

namespace WorkUnit

/-- The outcomes that a unit repeats. -/
def knownOutcomes (u : WorkUnit) : List Outcome := u.knownParts.flatMap (·.outcomes)

/-- The mutations that a unit has to run. -/
def freshMutations (u : WorkUnit) : List Mutation := u.freshParts.flatMap (·.mutations)

section Parts

variable (k : KnownUnit) (f : FreshUnit) (us : List WorkUnit)

@[simp] theorem knownOutcomes_known : (known k).knownOutcomes = k.outcomes := by
  simp [knownOutcomes, knownParts]

@[simp] theorem knownOutcomes_fresh : (fresh f).knownOutcomes = [] := rfl

theorem knownPartsOfAll_eq_flatMap : knownPartsOfAll us = us.flatMap knownParts := by
  induction us with
  | nil => rfl
  | cons u us ih =>
    unfold knownPartsOfAll
    rw [ih, List.flatMap_cons]

@[simp] theorem knownOutcomes_bundle : (bundle us).knownOutcomes = us.flatMap knownOutcomes := by
  show (knownPartsOfAll us).flatMap _ = _
  rw [knownPartsOfAll_eq_flatMap, List.flatMap_assoc]
  rfl

@[simp] theorem freshMutations_known : (known k).freshMutations = [] := rfl

@[simp] theorem freshMutations_fresh : (fresh f).freshMutations = f.mutations := by
  simp [freshMutations, freshParts]

theorem freshPartsOfAll_eq_flatMap : freshPartsOfAll us = us.flatMap freshParts := by
  induction us with
  | nil => rfl
  | cons u us ih =>
    unfold freshPartsOfAll
    rw [ih, List.flatMap_cons]

@[simp] theorem freshMutations_bundle : (bundle us).freshMutations = us.flatMap freshMutations := by
  show (freshPartsOfAll us).flatMap _ = _
  rw [freshPartsOfAll_eq_flatMap, List.flatMap_assoc]
  rfl

end Parts

end WorkUnit

/-! ## Answers -/

/-- The outcomes are those of the group in some order, and no mutation is in the group twice. -/
structure Answers (group : List Mutation) (outcomes : List Outcome) : Prop where
  perm : (outcomes.map (·.key)).Perm (group.map (·.key))
  nodup : (group.map (·.key)).Nodup

section Answers

variable {group : List Mutation} {outcomes outcomes' : List Outcome}

theorem Answers.nodup_outcomes (h : Answers group outcomes) : (outcomes.map (·.key)).Nodup :=
  h.perm.nodup_iff.mpr h.nodup

theorem Answers.length_eq (h : Answers group outcomes) : outcomes.length = group.length := by
  simpa using h.perm.length_eq

theorem Answers.of_perm (hp : outcomes.Perm outcomes') (h : Answers group outcomes) :
    Answers group outcomes' :=
  ⟨(hp.symm.map _).trans h.perm, h.nodup⟩

theorem matchesEach_iff : matchesEach group outcomes = true ↔ Answers group outcomes := by
  have hcount := Sequence.perm_nodup_iff_distinct (outcomes.map (·.key)) (group.map (·.key))
  rw [List.length_map, List.length_map] at hcount
  unfold matchesEach
  simp only [Bool.and_eq_true, beq_iff_eq, List.all_eq_true, List.contains_iff_mem, Sequence.mem_distinct,
    and_assoc]
  constructor
  · rintro ⟨hlen, hdistinct, hexpected, hreturned⟩
    obtain ⟨hperm, hnodup⟩ := hcount.mpr ⟨hlen, hdistinct, fun k => ⟨hexpected k, hreturned k⟩⟩
    exact ⟨hperm, hnodup⟩
  · rintro ⟨hperm, hnodup⟩
    obtain ⟨hlen, hdistinct, hmem⟩ := hcount.mp ⟨hperm, hnodup⟩
    exact ⟨hlen, hdistinct, fun k => (hmem k).mp, fun k => (hmem k).mpr⟩

theorem Answers.find?_eq_some_iff (h : Answers group outcomes) {k : Mutation.Key} {o : Outcome} :
    outcomes.find? (·.key == k) = some o ↔ o ∈ outcomes ∧ o.key = k :=
  Sequence.find?_key_eq_some_iff h.nodup_outcomes

/-- Each mutation of the group gets its own outcome. -/
theorem Answers.map_key_alignedWith (h : Answers group outcomes) :
    (alignedWith group outcomes).map (·.key) = group.map (·.key) := by
  unfold alignedWith
  rw [List.map_filterMap, ← List.filterMap_eq_map]
  refine List.filterMap_congr fun m hm => ?_
  obtain ⟨o, ho, hkey⟩ := List.mem_map.mp (h.perm.mem_iff.mpr (List.mem_map_of_mem hm))
  rw [h.find?_eq_some_iff.mpr ⟨ho, hkey⟩]
  exact congrArg some hkey

/-- Lining up outcomes loses none and changes none. -/
theorem Answers.alignedWith_perm (h : Answers group outcomes) :
    (alignedWith group outcomes).Perm outcomes := by
  have hkeys := h.map_key_alignedWith
  have hnodup : (alignedWith group outcomes).Nodup := List.Nodup.of_map _ (hkeys ▸ h.nodup)
  have hlen : (alignedWith group outcomes).length = group.length := by
    simpa using congrArg List.length hkeys
  -- no repetitions and as many outcomes, so it is enough that each is one of the given
  refine (hnodup.subperm fun o ho => ?_).perm_of_length_le (Nat.le_of_eq (h.length_eq.trans hlen.symm))
  obtain ⟨m, -, hfind⟩ := List.mem_filterMap.mp ho
  exact List.mem_of_find?_eq_some hfind

/-- The order of the outcomes does not show once they are lined up. -/
theorem Answers.alignedWith_eq_of_perm (h : Answers group outcomes) (hp : outcomes.Perm outcomes') :
    alignedWith group outcomes = alignedWith group outcomes' := by
  unfold alignedWith
  refine List.filterMap_congr fun m _ => Option.ext fun o => ?_
  rw [h.find?_eq_some_iff, (h.of_perm hp).find?_eq_some_iff, hp.mem_iff]

end Answers

/-! ## Reviews -/

section Review

variable {group : List Mutation} {outcomes outcomes' : List Outcome} {answer : Except Fault (List Outcome)}

theorem reviewAnswer_of_answers (h : Answers group outcomes) :
    (reviewAnswer group (.ok outcomes)).1 = alignedWith group outcomes := by
  unfold reviewAnswer
  dsimp only
  rw [if_pos (matchesEach_iff.mpr h)]

/-- Whatever is not an answer leaves the whole group to run. -/
theorem reviewAnswer_of_not_answers (h : ∀ outcomes, answer = .ok outcomes → ¬ Answers group outcomes) :
    (reviewAnswer group answer).1 = group.map .notStarted := by
  unfold reviewAnswer
  cases answer with
  | error fault => rfl
  | ok outcomes =>
    dsimp only
    rw [if_neg fun hm => h outcomes rfl (matchesEach_iff.mp hm)]

/-- **A review keeps the group**: whatever is answered, it has one outcome for each mutation, in order. -/
theorem map_key_reviewAnswer (group : List Mutation) (answer : Except Fault (List Outcome)) :
    (reviewAnswer group answer).1.map (·.key) = group.map (·.key) := by
  by_cases h : ∃ outcomes, answer = .ok outcomes ∧ Answers group outcomes
  · obtain ⟨outcomes, rfl, h⟩ := h
    rw [reviewAnswer_of_answers h, h.map_key_alignedWith]
  · rw [reviewAnswer_of_not_answers fun outcomes ho ha => h ⟨outcomes, ho, ha⟩, List.map_map]
    rfl

theorem reviewAnswer_eq_of_perm (hp : outcomes.Perm outcomes') :
    (reviewAnswer group (.ok outcomes)).1 = (reviewAnswer group (.ok outcomes')).1 := by
  by_cases h : Answers group outcomes
  · rw [reviewAnswer_of_answers h, reviewAnswer_of_answers (h.of_perm hp), h.alignedWith_eq_of_perm hp]
  · have h' : ¬ Answers group outcomes' := fun h' => h (h'.of_perm hp.symm)
    rw [reviewAnswer_of_not_answers, reviewAnswer_of_not_answers]
    · rintro _ ⟨⟩
      exact h'
    · rintro _ ⟨⟩
      exact h

end Review

/-! ## Units -/

/-- The outcomes that leave a mutation to run. -/
def notStartedIn (os : List Outcome) : List Outcome := os.filter (·.status = .notStarted)

/-- The outcomes that are settled. -/
def settledIn (os : List Outcome) : List Outcome := os.filter (·.status ≠ .notStarted)

theorem notStartedIn_map_notStarted (ms : List Mutation) :
    notStartedIn (ms.map .notStarted) = ms.map .notStarted := by
  refine List.filter_eq_self.mpr fun o ho => ?_
  obtain ⟨m, -, rfl⟩ := List.mem_map.mp ho
  rfl

theorem settledIn_map_notStarted (ms : List Mutation) : settledIn (ms.map .notStarted) = [] := by
  refine List.filter_eq_nil_iff.mpr fun o ho => ?_
  obtain ⟨m, -, rfl⟩ := List.mem_map.mp ho
  exact Bool.false_ne_true

section Units

variable (mutators : List String) (settings : Settings) (os : List Outcome)

/-- A unit for outcomes is known, fresh, or a bundle of both, and its parts are the two halves of the
outcomes. -/
theorem unitOf_cases :
    (notStartedIn os = [] ∧ ∃ k, unitOf mutators settings os = .known k ∧ k.outcomes = settledIn os) ∨
    (notStartedIn os ≠ [] ∧ settledIn os = [] ∧ ∃ f, unitOf mutators settings os = .fresh f ∧
      f.mutations = (notStartedIn os).map (·.mutation)) ∨
    (notStartedIn os ≠ [] ∧ settledIn os ≠ [] ∧ ∃ k f,
      unitOf mutators settings os = .bundle [.known k, .fresh f] ∧ k.outcomes = settledIn os ∧
      f.mutations = (notStartedIn os).map (·.mutation)) := by
  unfold unitOf
  dsimp only
  split
  · rename_i h
    exact Or.inl ⟨List.map_eq_nil_iff.mp (List.isEmpty_iff.mp h), _, rfl, rfl⟩
  · rename_i h
    have hrun : notStartedIn os ≠ [] := by
      intro hnil
      exact h (List.isEmpty_iff.mpr (List.map_eq_nil_iff.mpr hnil))
    split
    · rename_i hknown
      exact Or.inr (Or.inl ⟨hrun, List.isEmpty_iff.mp hknown, _, rfl, rfl⟩)
    · rename_i hknown
      exact Or.inr (Or.inr ⟨hrun, fun hnil => hknown (List.isEmpty_iff.mpr hnil), _, _, rfl, rfl, rfl⟩)

theorem knownOutcomes_unitOf : (unitOf mutators settings os).knownOutcomes = settledIn os := by
  rcases unitOf_cases mutators settings os with ⟨-, k, h, hk⟩ | ⟨-, hk, f, h, -⟩ | ⟨-, -, k, f, h, hk, -⟩
  · rw [h, WorkUnit.knownOutcomes_known, hk]
  · rw [h, WorkUnit.knownOutcomes_fresh, hk]
  · simp [h, hk]

theorem freshMutations_unitOf :
    (unitOf mutators settings os).freshMutations = (notStartedIn os).map (·.mutation) := by
  rcases unitOf_cases mutators settings os with ⟨hf, k, h, -⟩ | ⟨-, -, f, h, hf⟩ | ⟨-, -, k, f, h, -, hf⟩
  · rw [h, hf, WorkUnit.freshMutations_known, List.map_nil]
  · rw [h, WorkUnit.freshMutations_fresh, hf]
  · simp [h, hf]

theorem unitOf_eq_known_iff :
    (∃ k, unitOf mutators settings os = .known k) ↔ notStartedIn os = [] := by
  rcases unitOf_cases mutators settings os with ⟨hf, k, h, -⟩ | ⟨hf, -, f, h, -⟩ | ⟨hf, -, k, f, h, -⟩ <;>
    simp [h, hf]

/-- Without any outcomes the unit counts as known. -/
theorem unitOf_eq_fresh_iff (hos : os ≠ []) :
    (∃ f, unitOf mutators settings os = .fresh f) ↔ settledIn os = [] := by
  rcases unitOf_cases mutators settings os with ⟨hf, k, h, -⟩ | ⟨-, hk, f, h, -⟩ | ⟨-, hk, k, f, h, -⟩
  · have hk : settledIn os ≠ [] := by
      intro hk
      obtain ⟨o, ho⟩ := List.exists_mem_of_ne_nil _ hos
      have h1 := List.filter_eq_nil_iff.mp hf o ho
      have h2 := List.filter_eq_nil_iff.mp hk o ho
      simp only [decide_eq_true_eq] at h1 h2
      exact h2 h1
    simp [h, hk]
  · simp [h, hk]
  · simp [h, hk]

theorem unitOf_eq_bundle (hf : notStartedIn os ≠ []) (hk : settledIn os ≠ []) :
    ∃ k f, unitOf mutators settings os = .bundle [.known k, .fresh f] := by
  rcases unitOf_cases mutators settings os with ⟨hf', -⟩ | ⟨-, hk', -⟩ | ⟨-, -, k, f, h, -⟩
  · exact absurd hf' hf
  · exact absurd hk' hk
  · exact ⟨k, f, h⟩

end Units

/-! ## Groups and their units -/

/-- The unit for a group, given the answer about it. -/
def unitFor (mutators : List String) (settings : Settings) (group : List Mutation)
    (answer : Except Fault (List Outcome)) : WorkUnit :=
  unitOf mutators settings (reviewAnswer group answer).1

/-- The unit runs exactly the mutations whose outcome is not started and knows exactly the other outcomes,
both in the order of the group. -/
structure WorkUnit.Classifies (u : WorkUnit) (group : List Mutation) (outcomes : List Outcome) : Prop where
  fresh_perm : u.freshMutations.Perm ((notStartedIn outcomes).map (·.mutation))
  fresh_order : (u.freshMutations.map (·.key)).Sublist (group.map (·.key))
  known_perm : u.knownOutcomes.Perm (settledIn outcomes)
  known_order : (u.knownOutcomes.map (·.key)).Sublist (group.map (·.key))

/-- The kind of the unit tells which of its parts are empty. -/
structure WorkUnit.KindTellsParts (u : WorkUnit) : Prop where
  known_iff : (∃ k, u = .known k) ↔ u.freshMutations = []
  fresh_iff : (∃ f, u = .fresh f) ↔ u.knownOutcomes = []
  bundle : u.freshMutations ≠ [] → u.knownOutcomes ≠ [] → ∃ k f, u = .bundle [.known k, .fresh f]

section Groups

variable {size : Nat} {ms group : List Mutation}

/-- Nothing is split into groups of nothing. -/
theorem ne_nil_of_mem_groupsOf (h : group ∈ groupsOf size ms) : group ≠ [] := by
  unfold groupsOf at h
  split at h
  · cases h
  · rename_i hms
    split at h
    · rw [List.mem_singleton.mp h]
      rintro rfl
      exact hms rfl
    · exact Sequence.ne_nil_of_mem_chunks h

/-- The two halves of a reviewed group keep its order. -/
theorem map_key_freshMutations_sublist (mutators : List String) (settings : Settings)
    (group : List Mutation) (answer : Except Fault (List Outcome)) :
    ((unitFor mutators settings group answer).freshMutations.map (·.key)).Sublist
      (group.map (·.key)) := by
  unfold unitFor
  rw [freshMutations_unitOf, List.map_map, ← map_key_reviewAnswer group answer]
  exact List.filter_sublist.map _

theorem map_key_knownOutcomes_sublist (mutators : List String) (settings : Settings)
    (group : List Mutation) (answer : Except Fault (List Outcome)) :
    ((unitFor mutators settings group answer).knownOutcomes.map (·.key)).Sublist
      (group.map (·.key)) := by
  unfold unitFor
  rw [knownOutcomes_unitOf, ← map_key_reviewAnswer group answer]
  exact List.filter_sublist.map _

theorem Answers.classifies {outcomes : List Outcome} (h : Answers group outcomes)
    (mutators : List String) (settings : Settings) :
    (unitFor mutators settings group (.ok outcomes)).Classifies group outcomes where
  fresh_perm := by
    unfold unitFor
    rw [freshMutations_unitOf, reviewAnswer_of_answers h]
    exact (h.alignedWith_perm.filter _).map _
  fresh_order := map_key_freshMutations_sublist mutators settings group _
  known_perm := by
    unfold unitFor
    rw [knownOutcomes_unitOf, reviewAnswer_of_answers h]
    exact h.alignedWith_perm.filter _
  known_order := map_key_knownOutcomes_sublist mutators settings group _

theorem reviewAnswer_ne_nil (hgroup : group ≠ []) (answer : Except Fault (List Outcome)) :
    (reviewAnswer group answer).1 ≠ [] := by
  intro hnil
  have hkeys := map_key_reviewAnswer group answer
  rw [hnil] at hkeys
  exact hgroup (List.map_eq_nil_iff.mp hkeys.symm)

theorem unitFor_kindTellsParts (hgroup : group ≠ []) (mutators : List String) (settings : Settings)
    (answer : Except Fault (List Outcome)) :
    (unitFor mutators settings group answer).KindTellsParts := by
  unfold unitFor
  constructor
  · rw [freshMutations_unitOf, List.map_eq_nil_iff]
    exact unitOf_eq_known_iff mutators settings _
  · rw [knownOutcomes_unitOf]
    exact unitOf_eq_fresh_iff mutators settings _ (reviewAnswer_ne_nil hgroup answer)
  · rw [freshMutations_unitOf, knownOutcomes_unitOf, Ne, List.map_eq_nil_iff]
    exact unitOf_eq_bundle mutators settings _

/-- If all of the group is left to run, the unit runs it. -/
theorem unitFor_of_review_notStarted {answer : Except Fault (List Outcome)} (hgroup : group ≠ [])
    (h : (reviewAnswer group answer).1 = group.map .notStarted) (mutators : List String)
    (settings : Settings) :
    ∃ f, unitFor mutators settings group answer = .fresh f ∧ f.mutations = group := by
  have hknown : (unitFor mutators settings group answer).knownOutcomes = [] := by
    unfold unitFor
    rw [knownOutcomes_unitOf, h, settledIn_map_notStarted]
  have hfresh : (unitFor mutators settings group answer).freshMutations = group := by
    unfold unitFor
    rw [freshMutations_unitOf, h, notStartedIn_map_notStarted, List.map_map]
    exact List.map_id group
  obtain ⟨f, hf⟩ := (unitFor_kindTellsParts hgroup mutators settings answer).fresh_iff.mpr hknown
  refine ⟨f, hf, ?_⟩
  rw [← hfresh, hf, WorkUnit.freshMutations_fresh]

/-- Without an answer the whole group is left to run. -/
theorem unitFor_of_not_answers {answer : Except Fault (List Outcome)} (hgroup : group ≠ [])
    (h : ∀ outcomes, answer = .ok outcomes → ¬ Answers group outcomes)
    (mutators : List String) (settings : Settings) :
    ∃ f, unitFor mutators settings group answer = .fresh f ∧ f.mutations = group :=
  unitFor_of_review_notStarted hgroup (reviewAnswer_of_not_answers h) mutators settings

/-- **A unit depends on the answer as a set.**  If the outcomes are those of the group in some order, the
unit classifies the group by them; if not, or if there are none, the unit runs the whole group.  The order
of the outcomes does not matter. -/
theorem unitFor_classifies (hgroup : group ∈ groupsOf size ms) (mutators : List String)
    (settings : Settings) :
    (∀ outcomes, Answers group outcomes →
      (unitFor mutators settings group (.ok outcomes)).Classifies group outcomes) ∧
    (∀ answer, (∀ outcomes, answer = .ok outcomes → ¬ Answers group outcomes) →
      ∃ f, unitFor mutators settings group answer = .fresh f ∧ f.mutations = group) ∧
    (∀ answer, (unitFor mutators settings group answer).KindTellsParts) ∧
    ∀ outcomes outcomes', outcomes.Perm outcomes' →
      unitFor mutators settings group (.ok outcomes) =
        unitFor mutators settings group (.ok outcomes') := by
  have hne := ne_nil_of_mem_groupsOf hgroup
  refine ⟨fun outcomes h => h.classifies mutators settings, ?_, ?_, ?_⟩
  · intro answer h
    exact unitFor_of_not_answers hne h mutators settings
  · exact unitFor_kindTellsParts hne mutators settings
  · intro outcomes outcomes' hp
    unfold unitFor
    rw [reviewAnswer_eq_of_perm hp]

end Groups

/-- Two points in a method. -/
def twoPoints : List Mutation :=
  [{ id := ⟨⟨"Calc"⟩, "sum", "(II)I", "MATH", 0⟩, line := 3, description := "addition" },
   { id := ⟨⟨"Calc"⟩, "sum", "(II)I", "RETURN_VALS", 0⟩, line := 4, description := "return value" }]

/-- The second of `twoPoints` was killed, and the first is still to be run. -/
def twoOutcomes : List Outcome :=
  [⟨{ id := ⟨⟨"Calc"⟩, "sum", "(II)I", "RETURN_VALS", 0⟩, line := 4, description := "killed" },
    { status := .killed, testsRun := 1, note := some "adds" }⟩,
   ⟨{ id := ⟨⟨"Calc"⟩, "sum", "(II)I", "MATH", 0⟩, line := 3, description := "to run" }, .notStarted⟩]

theorem unitFor_classifies_twoPoints :
    twoPoints ∈ groupsOf 5 twoPoints ∧ Answers twoPoints twoOutcomes ∧
    (unitFor ["MATH"] {} twoPoints (.ok twoOutcomes)).Classifies twoPoints twoOutcomes ∧
    (∃ f, unitFor ["MATH"] {} twoPoints (.ok (twoOutcomes.take 1)) = .fresh f ∧ f.mutations = twoPoints) ∧
    unitFor ["MATH"] {} twoPoints (.ok twoOutcomes) =
      unitFor ["MATH"] {} twoPoints (.ok twoOutcomes.reverse) := by
  have hgroup : twoPoints ∈ groupsOf 5 twoPoints := List.mem_singleton.mpr rfl
  have hanswers : Answers twoPoints twoOutcomes := matchesEach_iff.mp rfl
  have hshort : ∀ outcomes, (.ok (twoOutcomes.take 1) : Except Fault (List Outcome)) = .ok outcomes →
      ¬ Answers twoPoints outcomes := by
    rintro _ ⟨⟩ h
    exact absurd h.length_eq (by decide)
  obtain ⟨h1, h2, -, h4⟩ := unitFor_classifies hgroup ["MATH"] {}
  exact ⟨hgroup, hanswers, h1 _ hanswers, h2 _ hshort, h4 _ _ (List.reverse_perm _).symm⟩

end StackMutants
