import StackMutants.Plan.Analyser
import Mathlib.Data.Finset.Card
import Mathlib.Data.List.Forall2
import Mathlib.Data.List.Induction
import Mathlib.Logic.Function.Basic

/-!
# Proofs.Recall — what a recall answers

A recall is made from a history of outcomes, oldest first.  `Recall.learn` says what one more outcome adds to
what is known: an outcome that was started replaces the verdict of its mutation, and one that was not changes
nothing.

* `Recall.verdict?_concat` is the step, and `Recall.verdict?_eq_foldl_learn` the whole history.
* So the verdict of a mutation is that of its latest outcome that was started (`Recall.verdict?_of_latest`).
  The analyser repeats it, unless there was no coverage and there is now (`Recall.analyser_replays`).
-/

namespace StackMutants

namespace Recall

variable {history : List Outcome} {key : Mutation.Key} {o last : Outcome} {m : Mutation} {v : Verdict}

/-! ## What is learned from outcomes -/

/-- What is known once an outcome has been added. -/
def learn (known : Mutation.Key → Option Verdict) (o : Outcome) : Mutation.Key → Option Verdict :=
  if o.status = .notStarted then known else Function.update known o.key (some o.verdict)

/-- **One more outcome.** -/
theorem verdict?_concat (history : List Outcome) (o : Outcome) :
    (ofOutcomes (history ++ [o])).verdict? = learn (ofOutcomes history).verdict? o := by
  funext key
  unfold learn
  by_cases hstatus : o.status = .notStarted
  · rw [if_pos hstatus]
    simp [verdict?, ofOutcomes, List.filter_append, hstatus]
  · rw [if_neg hstatus]
    by_cases hkey : key = o.key
    · subst hkey
      rw [Function.update_self]
      simp [verdict?, ofOutcomes, List.filter_append, hstatus]
    · rw [Function.update_of_ne hkey]
      simp [verdict?, ofOutcomes, List.filter_append, hstatus, Ne.symm hkey]

/-- **What a recall knows is learned from its history.** -/
theorem verdict?_eq_foldl_learn (history : List Outcome) :
    (ofOutcomes history).verdict? = history.foldl learn fun _ => none := by
  induction history using List.reverseRecOn with
  | nil => rfl
  | append_singleton history o ih =>
    rw [verdict?_concat, ih, List.foldl_append]
    rfl

theorem verdict?_concat_of_other (h : o.key = key → o.status = .notStarted) :
    (ofOutcomes (history ++ [o])).verdict? key = (ofOutcomes history).verdict? key := by
  rw [verdict?_concat]
  unfold learn
  by_cases hstatus : o.status = .notStarted
  · rw [if_pos hstatus]
  · have hkey : key ≠ o.key := by
      intro heq
      exact hstatus (h heq.symm)
    rw [if_neg hstatus, Function.update_of_ne hkey]

/-! ## The latest outcome -/

/-- The outcome is the last one of the mutation that was started. -/
def Latest (history : List Outcome) (key : Mutation.Key) (last : Outcome) : Prop :=
  ∃ before after, history = before ++ last :: after ∧ last.key = key ∧ last.status ≠ .notStarted ∧
    ∀ o ∈ after, o.key = key → o.status = .notStarted

theorem verdict?_of_latest (h : Latest history key last) :
    (ofOutcomes history).verdict? key = some last.verdict := by
  obtain ⟨before, after, rfl, rfl, hstatus, hafter⟩ := h
  -- what comes behind the latest outcome adds nothing about its mutation
  induction after using List.reverseRecOn with
  | nil =>
    rw [verdict?_concat]
    unfold learn
    rw [if_neg hstatus, Function.update_self]
  | append_singleton after o ih =>
    have hother : o.key = last.key → o.status = .notStarted := hafter o (by simp)
    have hrest : ∀ o ∈ after, o.key = last.key → o.status = .notStarted := by
      intro o ho
      exact hafter o (List.mem_append_left _ ho)
    have hsplit : before ++ last :: (after ++ [o]) = (before ++ last :: after) ++ [o] := by simp
    rw [hsplit, verdict?_concat_of_other hother]
    exact ih hrest

/-- Either there is a latest outcome of the mutation, or none of its outcomes was started. -/
theorem latest_or_unknown (history : List Outcome) (key : Mutation.Key) :
    (∃ last, Latest history key last) ∨ ∀ o ∈ history, o.key = key → o.status = .notStarted := by
  induction history using List.reverseRecOn with
  | nil =>
    right
    intro o ho
    cases ho
  | append_singleton history o ih =>
    by_cases ho : o.key = key → o.status = .notStarted
    · rcases ih with ⟨last, before, after, rfl, hkey, hstatus, hafter⟩ | hunknown
      · refine Or.inl ⟨last, before, after ++ [o], by simp, hkey, hstatus, ?_⟩
        intro o' ho'
        rcases List.mem_append.mp ho' with ho' | ho'
        · exact hafter o' ho'
        · obtain rfl := List.mem_singleton.mp ho'
          exact ho
      · right
        intro o' ho'
        rcases List.mem_append.mp ho' with ho' | ho'
        · exact hunknown o' ho'
        · obtain rfl := List.mem_singleton.mp ho'
          exact ho
    · obtain ⟨hkey, hstatus⟩ := Classical.not_imp.mp ho
      exact Or.inl ⟨o, history, [], rfl, hkey, hstatus, by simp⟩

theorem verdict?_of_unknown (h : ∀ o ∈ history, o.key = key → o.status = .notStarted) :
    (ofOutcomes history).verdict? key = none := by
  induction history using List.reverseRecOn with
  | nil => rfl
  | append_singleton history o ih =>
    rw [verdict?_concat_of_other (h o (by simp))]
    exact ih fun o ho => h o (List.mem_append_left _ ho)

/-! ## Answers -/

/-- What the analyser is to say about a mutation, given what became of mutations before. -/
inductive Replays (history : List Outcome) (m : Mutation) : Outcome → Prop where
  | repeated {last : Outcome} : Latest history m.key last → (last.status = .noCoverage → m.tests = []) →
      Replays history m ⟨m, last.verdict⟩
  /-- There was no coverage, and now there is. -/
  | lapsed {last : Outcome} : Latest history m.key last → last.status = .noCoverage → m.tests ≠ [] →
      Replays history m (.notStarted m)
  | unknown : (∀ o ∈ history, o.key = m.key → o.status = .notStarted) → Replays history m (.notStarted m)

theorem outcome_of_verdict?_eq_none (h : (ofOutcomes history).verdict? m.key = none) :
    (ofOutcomes history).outcome m = .notStarted m := by
  unfold outcome current?
  rw [h]
  rfl

theorem outcome_of_verdict?_eq_some (h : (ofOutcomes history).verdict? m.key = some v) :
    (ofOutcomes history).outcome m =
      if v.status = .noCoverage ∧ m.tests ≠ [] then .notStarted m else ⟨m, v⟩ := by
  unfold outcome current?
  rw [h, Option.filter_some]
  by_cases hstatus : v.status = .noCoverage
  · by_cases htests : m.tests = []
    · simp [hstatus, htests, Mutation.isCovered]
    · simp [hstatus, htests, Mutation.isCovered, Outcome.notStarted]
  · simp [hstatus]

theorem Replays.outcome_eq (h : Replays history m o) : (ofOutcomes history).outcome m = o := by
  cases h with
  | @repeated last hlast htests =>
    rw [outcome_of_verdict?_eq_some (verdict?_of_latest hlast), if_neg]
    rintro ⟨hstatus, hcovered⟩
    exact hcovered (htests hstatus)
  | @lapsed last hlast hstatus htests =>
    rw [outcome_of_verdict?_eq_some (verdict?_of_latest hlast), if_pos ⟨hstatus, htests⟩]
  | unknown h => exact outcome_of_verdict?_eq_none (verdict?_of_unknown h)

theorem replays_outcome (history : List Outcome) (m : Mutation) :
    Replays history m ((ofOutcomes history).outcome m) := by
  rcases latest_or_unknown history m.key with ⟨last, hlast⟩ | hunknown
  · rw [outcome_of_verdict?_eq_some (verdict?_of_latest hlast)]
    split
    · rename_i hlapsed
      exact .lapsed hlast hlapsed.1 hlapsed.2
    · rename_i hcurrent
      refine .repeated hlast fun hstatus => ?_
      by_contra htests
      exact hcurrent ⟨hstatus, htests⟩
  · rw [outcome_of_verdict?_eq_none (verdict?_of_unknown hunknown)]
    exact .unknown hunknown

/-- **A recall repeats the latest outcomes.**  Asked about mutations it answers with one outcome for each, in
order and with the mutation as it was asked about, and `Replays` allows no other answer.  Its size is the number
of different mutations among the outcomes that were started. -/
theorem analyser_replays (history : List Outcome) (ms : List Mutation) :
    (∀ s, ∃ outcomes, ((ofOutcomes history).analyser.answer s ms).1 = .ok outcomes ∧
      ∀ outcomes', List.Forall₂ (Replays history) ms outcomes' ↔ outcomes' = outcomes) ∧
    (ofOutcomes history).size =
      ((history.filter fun o => o.status ≠ .notStarted).map Outcome.key).toFinset.card := by
  constructor
  · intro s
    refine ⟨ms.map (ofOutcomes history).outcome, rfl, fun outcomes' => ?_⟩
    have hreplays : ∀ m o, Replays history m o ↔ (ofOutcomes history).outcome m = o := by
      intro m o
      constructor
      · exact Replays.outcome_eq
      · rintro rfl
        exact replays_outcome history m
    rw [eq_comm, ← List.forall₂_eq_eq_eq, List.forall₂_map_left_iff]
    exact ⟨fun h => h.imp fun m o => (hreplays m o).mp, fun h => h.imp fun m o => (hreplays m o).mpr⟩
  · unfold size ofOutcomes
    rw [← List.toFinset_card_of_nodup (Sequence.nodup_distinct _)]
    congr 1
    ext key
    simp only [List.mem_toFinset, Sequence.mem_distinct]

end Recall

end StackMutants
