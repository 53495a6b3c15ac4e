import StackMutants.Proofs.Grouping
import StackMutants.Run.Execution
import Mathlib.Algebra.GroupWithZero.Nat

/-!
# Proofs.Planning — what a plan replays and what it leaves to run

Replaying units, however they are bundled, executes their parts that repeat outcomes, in order, and sets aside
the others, in order (`Replay.addUnits_eq`).  Every mutation of a unit is in a part of the one or of the other
kind (`WorkUnit.ids_perm`).  So what is replayed and what awaits execution are together the mutations of the
units (`replayKnown_splits`).
-/

namespace StackMutants

/-! ## Units and their parts -/

namespace WorkUnit

theorem idsOfAll_eq_flatMap (us : List WorkUnit) : idsOfAll us = us.flatMap ids := by
  induction us with
  | nil => rfl
  | cons u us ih =>
    unfold idsOfAll
    rw [ih, List.flatMap_cons]

theorem countOfAll_eq_sum (us : List WorkUnit) : countOfAll us = (us.map count).sum := by
  induction us with
  | nil => rfl
  | cons u us ih =>
    unfold countOfAll
    rw [ih, List.map_cons, List.sum_cons]

/-- The identifiers of what the parts repeat, and of what the others are to run. -/
def splitIds (known : List KnownUnit) (fresh : List FreshUnit) : List MutationId :=
  (known.flatMap (·.outcomes)).map (·.mutation.id) ++ fresh.flatMap fun u => u.mutations.map (·.id)

theorem splitIds_append (known known' : List KnownUnit) (fresh fresh' : List FreshUnit) :
    (splitIds (known ++ known') (fresh ++ fresh')).Perm (splitIds known fresh ++ splitIds known' fresh') := by
  unfold splitIds
  rw [List.flatMap_append, List.flatMap_append, List.map_append, List.append_assoc, List.append_assoc]
  exact (List.perm_append_comm_assoc _ _ _).append_left _

mutual

/-- The parts of a unit have its mutations. -/
theorem ids_perm : ∀ u : WorkUnit, (splitIds u.knownParts u.freshParts).Perm u.ids
  | known u => by simp [splitIds, knownParts, freshParts, ids]
  | fresh u => by simp [splitIds, knownParts, freshParts, ids]
  | bundle us => idsOfAll_perm us

theorem idsOfAll_perm :
    ∀ us : List WorkUnit, (splitIds (knownPartsOfAll us) (freshPartsOfAll us)).Perm (idsOfAll us)
  | [] => .refl _
  | u :: us => by
    unfold knownPartsOfAll freshPartsOfAll idsOfAll
    exact (splitIds_append _ _ _ _).trans ((ids_perm u).append (idsOfAll_perm us))

end

end WorkUnit

/-! ## Replaying -/

/-- What is announced of a unit that repeats outcomes. -/
def KnownUnit.report (u : KnownUnit) : UnitReport := ⟨u.mutators, u.outcomes⟩

theorem Execution.foldl_addKnown (e : Execution) (us : List KnownUnit) :
    us.foldl addKnown e =
      { e with notices := e.notices ++ us.flatMap fun u => [.started u.label, .finished u.label u.report] } := by
  induction us generalizing e with
  | nil =>
    rw [List.foldl_nil, List.flatMap_nil, List.append_nil]
  | cons u us ih =>
    rw [List.foldl_cons, ih, List.flatMap_cons, ← List.append_assoc]
    simp [addKnown, addPart, KnownUnit.report]

namespace Replay

mutual

/-- Replaying a unit executes its parts that repeat outcomes and sets aside the others. -/
theorem addUnit_eq (r : Replay) : ∀ u : WorkUnit,
    r.addUnit u = ⟨u.knownParts.foldl Execution.addKnown r.execution, r.awaiting ++ u.freshParts⟩
  | .known u => by simp [addUnit, WorkUnit.knownParts, WorkUnit.freshParts]
  | .fresh u => by simp [addUnit, WorkUnit.knownParts, WorkUnit.freshParts]
  | .bundle us => addUnits_eq r us

theorem addUnits_eq (r : Replay) : ∀ us : List WorkUnit,
    r.addUnits us = ⟨(WorkUnit.knownPartsOfAll us).foldl Execution.addKnown r.execution,
      r.awaiting ++ WorkUnit.freshPartsOfAll us⟩
  | [] => by simp [addUnits, WorkUnit.knownPartsOfAll, WorkUnit.freshPartsOfAll]
  | u :: us => by
    unfold addUnits WorkUnit.knownPartsOfAll WorkUnit.freshPartsOfAll
    rw [addUnits_eq (r.addUnit u) us, addUnit_eq r u, List.foldl_append, List.append_assoc]

end

theorem addUnits_eq_foldl (r : Replay) (us : List WorkUnit) : r.addUnits us = us.foldl addUnit r := by
  induction us generalizing r with
  | nil => rfl
  | cons u us ih => exact ih (r.addUnit u)

end Replay

section Units

variable (us : List WorkUnit)

theorem finished_replayKnown : (replayKnown us).execution.finished =
    (us.flatMap (·.knownParts)).map fun u => (u.label, u.report) := by
  unfold replayKnown
  rw [Replay.addUnits_eq, Execution.foldl_addKnown, WorkUnit.knownPartsOfAll_eq_flatMap]
  unfold Execution.finished
  rw [List.nil_append, List.filterMap_flatMap, List.map_eq_flatMap]
  rfl

/-- A plan replays the outcomes of the parts that repeat outcomes, in order. -/
theorem outcomes_replayKnown_parts :
    (replayKnown us).execution.outcomes = (us.flatMap (·.knownParts)).flatMap (·.outcomes) := by
  unfold Execution.outcomes
  rw [finished_replayKnown, List.flatMap_map]
  rfl

/-- A plan replays the outcomes that its units know, in order. -/
theorem outcomes_replayKnown :
    (replayKnown us).execution.outcomes = us.flatMap WorkUnit.knownOutcomes := by
  rw [outcomes_replayKnown_parts, List.flatMap_assoc]
  rfl

theorem awaiting_replayKnown : (replayKnown us).awaiting = us.flatMap (·.freshParts) := by
  unfold replayKnown
  rw [Replay.addUnits_eq, WorkUnit.freshPartsOfAll_eq_flatMap]
  exact List.nil_append _

/-- What is replayed and what awaits execution have the mutations of the units. -/
theorem ids_replayKnown_perm :
    ((replayKnown us).execution.outcomes.map (·.mutation.id) ++
      (replayKnown us).awaiting.flatMap fun u => u.mutations.map (·.id)).Perm (us.flatMap (·.ids)) := by
  have hperm := WorkUnit.idsOfAll_perm us
  rw [WorkUnit.knownPartsOfAll_eq_flatMap, WorkUnit.freshPartsOfAll_eq_flatMap,
    WorkUnit.idsOfAll_eq_flatMap] at hperm
  rw [outcomes_replayKnown_parts, awaiting_replayKnown]
  exact hperm

theorem length_replayKnown : (replayKnown us).execution.outcomes.length +
    ((replayKnown us).awaiting.flatMap (·.mutations)).length = (us.map (·.count)).sum := by
  have hlength := (ids_replayKnown_perm us).length_eq
  rw [← WorkUnit.idsOfAll_eq_flatMap, WorkUnit.length_idsOfAll, WorkUnit.countOfAll_eq_sum,
    ← List.map_flatMap, List.length_append, List.length_map, List.length_map] at hlength
  exact hlength

/-- **Planning splits units without loss.**  What a plan replays are the outcomes of the parts that repeat
outcomes, unchanged and in order; what awaits execution are the other parts, in order; and together they have
the mutations of the units, however these are bundled. -/
theorem replayKnown_splits :
    replayKnown us = us.foldl Replay.addUnit {} ∧
    (replayKnown us).execution.finished =
      (us.flatMap (·.knownParts)).map (fun u => (u.label, u.report)) ∧
    (replayKnown us).execution.outcomes = (us.flatMap (·.knownParts)).flatMap (·.outcomes) ∧
    (replayKnown us).awaiting = us.flatMap (·.freshParts) ∧
    ((replayKnown us).execution.outcomes.map (·.mutation.id) ++
      (replayKnown us).awaiting.flatMap fun u => u.mutations.map (·.id)).Perm (us.flatMap (·.ids)) ∧
    (replayKnown us).execution.outcomes.length + ((replayKnown us).awaiting.flatMap (·.mutations)).length =
      (us.map (·.count)).sum :=
  ⟨Replay.addUnits_eq_foldl {} us, finished_replayKnown us, outcomes_replayKnown_parts us,
    awaiting_replayKnown us, ids_replayKnown_perm us, length_replayKnown us⟩

end Units

end StackMutants
