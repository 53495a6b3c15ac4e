/-!
# Sequence.Chunks — cutting a list into groups

`chunks n` cuts a list into consecutive groups of `n`, the last of which may be shorter.  Groups of no
elements make no sense, so `n` is at least one.
-/

namespace StackMutants.Sequence

variable {α : Type}

/-- The rest of the group that is being filled, with room for `room` more, and the groups after it. -/
def chunksFrom (size : Nat) : (room : Nat) → List α → List α × List (List α)
  | _, [] => ([], [])
  | 0, x :: xs =>
    let (group, groups) := chunksFrom size (size - 1) xs
    ([], (x :: group) :: groups)
  | room + 1, x :: xs =>
    let (group, groups) := chunksFrom size room xs
    (x :: group, groups)

def chunks (size : Nat) (xs : List α) : List (List α) := (chunksFrom size 0 xs).2

theorem chunksFrom_eq (size room : Nat) (xs : List α) :
    chunksFrom size room xs = (xs.take room, chunks size (xs.drop room)) := by
  induction xs generalizing room with
  | nil => cases room <;> simp [chunksFrom, chunks]
  | cons x xs ih => cases room <;> simp [chunksFrom, chunks, ih]

@[simp] theorem chunks_nil (size : Nat) : chunks size ([] : List α) = [] := rfl

/-- A list that is not empty begins with a full group, or is the only group. -/
theorem chunks_cons (size : Nat) (x : α) (xs : List α) :
    chunks size (x :: xs) = (x :: xs.take (size - 1)) :: chunks size (xs.drop (size - 1)) := by
  simp [chunks, chunksFrom, chunksFrom_eq size (size - 1) xs]

end StackMutants.Sequence
