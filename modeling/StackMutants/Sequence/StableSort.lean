/-!
# Sequence.StableSort — sorting that keeps the order of equals

An element is inserted behind everything that it does not have to precede.  Inserting the elements of a
list one after the other therefore sorts it, and elements of which neither has to precede the other stay
in their order.
-/

namespace StackMutants.Sequence

variable {α : Type} (precedes : α → α → Bool)

/-- Puts an element in front of the first one that it has to precede. -/
def insertStable (x : α) : List α → List α
  | [] => [x]
  | y :: ys => if precedes x y then x :: y :: ys else y :: insertStable x ys

def sortStable (xs : List α) : List α := xs.foldl (fun sorted x => insertStable precedes x sorted) []

variable {precedes}

theorem insertStable_perm (x : α) (ys : List α) : (insertStable precedes x ys).Perm (x :: ys) := by
  induction ys with
  | nil => exact .refl _
  | cons y ys ih =>
    unfold insertStable
    split
    · exact .refl _
    · exact (ih.cons y).trans (.swap x y ys)

theorem mem_insertStable {a x : α} {ys : List α} :
    a ∈ insertStable precedes x ys ↔ a = x ∨ a ∈ ys := by
  simp [(insertStable_perm x ys).mem_iff]

theorem sortStable_perm (xs : List α) : (sortStable precedes xs).Perm xs := by
  have hinsert : ∀ (ys sorted : List α),
      (ys.foldl (fun sorted x => insertStable precedes x sorted) sorted).Perm (sorted ++ ys) := by
    intro ys
    induction ys with
    | nil => exact fun sorted => .of_eq (List.append_nil sorted).symm
    | cons y ys ih =>
      intro sorted
      refine (ih (insertStable precedes y sorted)).trans ?_
      exact ((insertStable_perm y sorted).append_right ys).trans List.perm_middle.symm
  exact hinsert xs []

end StackMutants.Sequence
