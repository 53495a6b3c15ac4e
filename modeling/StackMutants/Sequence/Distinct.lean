/-!
# Sequence.Distinct — lists without repetitions

`appendNew` appends what a list does not contain yet, so each element stands where it first occurs.
The result has no repetitions if the list had none.
-/

namespace StackMutants.Sequence

variable {α : Type} [DecidableEq α]

/-- Appends the elements of the second list that are not there yet, each of them once. -/
def appendNew (xs : List α) : List α → List α
  | [] => xs
  | y :: ys => if y ∈ xs then appendNew xs ys else appendNew (xs ++ [y]) ys

/-- The elements of a list in the order of their first occurrence. -/
def distinct (ys : List α) : List α := appendNew [] ys

theorem mem_appendNew {a : α} {xs ys : List α} : a ∈ appendNew xs ys ↔ a ∈ xs ∨ a ∈ ys := by
  induction ys generalizing xs with
  | nil => simp [appendNew]
  | cons y ys ih =>
    unfold appendNew
    split <;> grind

theorem nodup_appendNew {xs : List α} (ys : List α) (h : xs.Nodup) : (appendNew xs ys).Nodup := by
  induction ys generalizing xs with
  | nil => simpa [appendNew]
  | cons y ys ih =>
    unfold appendNew
    split
    · exact ih h
    · exact ih (List.nodup_append.2 ⟨h, by simp, by grind⟩)

theorem mem_distinct {a : α} {ys : List α} : a ∈ distinct ys ↔ a ∈ ys := by
  simp [distinct, mem_appendNew]

theorem nodup_distinct (ys : List α) : (distinct ys).Nodup := nodup_appendNew ys List.nodup_nil

end StackMutants.Sequence
