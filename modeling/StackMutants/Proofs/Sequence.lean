import StackMutants.Sequence.Chunks
import StackMutants.Sequence.Distinct
import StackMutants.Sequence.StableSort
import Mathlib.Data.List.Induction
import Mathlib.Data.List.Nodup
import Mathlib.Data.List.Perm.Subperm

/-!
# Proofs.Sequence — lists with keys, and groups of a list

An element is found by its key if no two elements have the same one (`find?_key_eq_some_iff`).  What
elements give has repetitions only where the elements have (`nodup_flatMap_iff`).  Two lists are
permutations of each other and without repetitions exactly if counting their distinct elements says so
(`perm_nodup_iff_distinct`), and `distinct` keeps the first occurrences of a list, which determines it
(`firstOccurrences_iff`).  The groups that a list is cut into are as many as needed
(`length_chunks`), and the `i`-th of them stands at `i * size` (`getElem?_chunks`).  Inserting keeps a list
sorted (`pairwise_insertStable`), so that inserting element by element sorts one (`pairwise_sortStable`), and
commutes with renaming and with filtering (`insertStable_map`, `filter_insertStable`).
-/

namespace StackMutants.Sequence

/-! ## Keys and distinct elements -/

section Keys

variable {α : Type*} {κ : Type}

theorem find?_key_eq_some_iff [BEq κ] [LawfulBEq κ] {key : α → κ} {xs : List α} (h : (xs.map key).Nodup)
    {k : κ} {a : α} : xs.find? (fun x => key x == k) = some a ↔ a ∈ xs ∧ key a = k := by
  constructor
  · intro hfind
    exact ⟨List.mem_of_find?_eq_some hfind, by simpa using List.find?_some hfind⟩
  · rintro ⟨ha, rfl⟩
    cases hfind : xs.find? (fun x => key x == key a) with
    | none =>
      have := List.find?_eq_none.mp hfind a ha
      simp at this
    | some b =>
      have hb : key b = key a := by simpa using List.find?_some hfind
      rw [List.inj_on_of_nodup_map h (List.mem_of_find?_eq_some hfind) ha hb]

/-- If only one key gives anything, the element of that key gives everything. -/
theorem flatMap_eq_of_key {β : Type*} {key : α → κ} {xs : List α} (h : (xs.map key).Nodup) {a : α}
    (ha : a ∈ xs) {f : α → List β} (hf : ∀ b ∈ xs, key b ≠ key a → f b = []) : xs.flatMap f = f a := by
  induction xs with
  | nil => cases ha
  | cons x xs ih =>
    obtain ⟨hx, hxs⟩ := List.nodup_cons.mp h
    rw [List.flatMap_cons]
    rcases List.mem_cons.mp ha with rfl | ha
    · have hrest : xs.flatMap f = [] := by
        refine List.flatMap_eq_nil_iff.mpr fun b hb => hf b (List.mem_cons_of_mem _ hb) fun heq => ?_
        exact hx (List.mem_map.mpr ⟨b, hb, heq⟩)
      rw [hrest, List.append_nil]
    · have hne : key x ≠ key a := fun heq => hx (List.mem_map.mpr ⟨a, ha, heq.symm⟩)
      rw [hf x List.mem_cons_self hne, List.nil_append]
      exact ih hxs ha fun b hb => hf b (List.mem_cons_of_mem _ hb)

/-- If different elements give different things, a thing is given twice only by an element that is there
twice. -/
theorem nodup_flatMap_iff {β : Type*} {f : α → List β} {xs : List α} (hnodup : ∀ x ∈ xs, (f x).Nodup)
    (hdisjoint : ∀ x ∈ xs, ∀ y ∈ xs, x ≠ y → (f x).Disjoint (f y)) :
    (xs.flatMap f).Nodup ↔ (xs.filter fun x => !(f x).isEmpty).Nodup := by
  rw [List.nodup_flatMap, and_iff_right hnodup]
  unfold List.Nodup
  rw [List.pairwise_filter]
  refine List.Pairwise.iff_of_mem fun {x y} hx hy => ?_
  constructor
  · rintro h hnonempty - rfl
    obtain ⟨b, hb⟩ := List.exists_mem_of_ne_nil (f x) (by simpa using hnonempty)
    exact h hb hb
  · intro h b hb hb'
    have hnonempty : (!(f x).isEmpty) = true := by simpa using List.ne_nil_of_mem hb
    have hnonempty' : (!(f y).isEmpty) = true := by simpa using List.ne_nil_of_mem hb'
    exact hdisjoint x hx y hy (h hnonempty hnonempty') hb hb'

variable [DecidableEq κ]

theorem distinct_subperm (xs : List κ) : (distinct xs).Subperm xs :=
  (nodup_distinct xs).subperm fun _ h => mem_distinct.mp h

/-- A list has as many distinct elements as elements if and only if it has no repetitions. -/
theorem length_distinct_eq_iff {xs : List κ} : (distinct xs).length = xs.length ↔ xs.Nodup := by
  constructor
  · intro h
    exact ((distinct_subperm xs).perm_of_length_le (Nat.le_of_eq h.symm)).nodup_iff.mp (nodup_distinct xs)
  · intro h
    have hsub : xs.Subperm (distinct xs) := h.subperm fun _ hx => mem_distinct.mpr hx
    exact Nat.le_antisymm (distinct_subperm xs).length_le hsub.length_le

/-- Counting distinct elements tells the permutations of a list without repetitions. -/
theorem perm_nodup_iff_distinct (xs ys : List κ) :
    xs.Perm ys ∧ ys.Nodup ↔
      xs.length = ys.length ∧ (distinct xs).length = xs.length ∧ ∀ a, a ∈ ys ↔ a ∈ xs := by
  constructor
  · rintro ⟨hperm, hnodup⟩
    exact ⟨hperm.length_eq, length_distinct_eq_iff.mpr (hperm.nodup_iff.mpr hnodup),
      fun a => hperm.mem_iff.symm⟩
  · rintro ⟨hlen, hdistinct, hmem⟩
    have hxs := length_distinct_eq_iff.mp hdistinct
    have hperm : xs.Perm ys :=
      (hxs.subperm fun a ha => (hmem a).mpr ha).perm_of_length_le (Nat.le_of_eq hlen.symm)
    exact ⟨hperm, hperm.nodup_iff.mp hxs⟩

end Keys

/-! ## First occurrences -/

/-- The elements of a list, each of them once, in the order in which they first occur. -/
structure FirstOccurrences {α : Type} [DecidableEq α] (xs ys : List α) : Prop where
  mem_iff : ∀ a, a ∈ ys ↔ a ∈ xs
  order : ys.Pairwise fun a b => xs.idxOf a < xs.idxOf b

section Occurrences

variable {α : Type}

theorem nodup_of_pairwise {R : α → α → Prop} (hasymm : ∀ a b, R a b → ¬ R b a) {xs : List α}
    (h : xs.Pairwise R) : xs.Nodup := by
  refine h.imp ?_
  rintro a _ hR rfl
  exact hasymm a a hR hR

/-- Two lists that are ordered alike and have the same elements are the same. -/
theorem eq_of_pairwise {R : α → α → Prop} (hasymm : ∀ a b, R a b → ¬ R b a) {xs ys : List α}
    (hxs : xs.Pairwise R) (hys : ys.Pairwise R) (hmem : ∀ a, a ∈ xs ↔ a ∈ ys) : xs = ys := by
  have hperm : xs.Perm ys :=
    (List.perm_ext_iff_of_nodup (nodup_of_pairwise hasymm hxs) (nodup_of_pairwise hasymm hys)).mpr hmem
  exact hperm.eq_of_pairwise (fun a b _ _ hab hba => absurd hba (hasymm a b hab)) hxs hys

variable [DecidableEq α]

theorem appendNew_append (xs ys zs : List α) :
    appendNew xs (ys ++ zs) = appendNew (appendNew xs ys) zs := by
  induction ys generalizing xs with
  | nil => rfl
  | cons y ys ih =>
    rw [List.cons_append, appendNew, appendNew]
    split
    · exact ih xs
    · exact ih (xs ++ [y])

theorem appendNew_singleton (xs : List α) (y : α) :
    appendNew xs [y] = if y ∈ xs then xs else xs ++ [y] := rfl

theorem distinct_concat (xs : List α) (y : α) :
    distinct (xs ++ [y]) = if y ∈ xs then distinct xs else distinct xs ++ [y] := by
  unfold distinct
  rw [appendNew_append, appendNew_singleton]
  simp only [mem_appendNew, List.not_mem_nil, false_or]

/-- Appending what is new is appending the first occurrences that are new. -/
theorem appendNew_eq (xs ys : List α) :
    appendNew xs ys = xs ++ (distinct ys).filter (· ∉ xs) := by
  induction ys using List.reverseRecOn with
  | nil => exact (List.append_nil xs).symm
  | append_singleton ys y ih =>
    rw [appendNew_append, appendNew_singleton, distinct_concat, ih]
    by_cases hys : y ∈ ys
    · rw [if_pos hys, if_pos]
      rw [← ih]
      exact mem_appendNew.mpr (.inr hys)
    · rw [if_neg hys, List.filter_append, ← ih]
      by_cases hxs : y ∈ xs
      · rw [if_pos (mem_appendNew.mpr (.inl hxs)), ih]
        simp [hxs]
      · rw [if_neg fun hmem => (mem_appendNew.mp hmem).elim hxs hys, ih]
        simp [hxs]

theorem distinct_append (xs ys : List α) :
    distinct (xs ++ ys) = distinct xs ++ (distinct ys).filter (· ∉ distinct xs) := by
  rw [distinct, appendNew_append]
  exact appendNew_eq (distinct xs) ys

theorem distinct_of_nodup {xs : List α} (h : xs.Nodup) : distinct xs = xs := by
  induction xs using List.reverseRecOn with
  | nil => rfl
  | append_singleton xs x ih =>
    obtain ⟨hxs, -, hne⟩ := List.nodup_append.mp h
    rw [distinct_concat, if_neg fun hx => hne x hx x List.mem_cons_self rfl, ih hxs]

theorem distinct_perm_distinct {xs ys : List α} (h : ∀ a, a ∈ xs ↔ a ∈ ys) :
    (distinct xs).Perm (distinct ys) := by
  refine (List.perm_ext_iff_of_nodup (nodup_distinct xs) (nodup_distinct ys)).mpr fun a => ?_
  rw [mem_distinct, mem_distinct, h a]

theorem pairwise_idxOf_distinct (xs : List α) :
    (distinct xs).Pairwise fun a b => xs.idxOf a < xs.idxOf b := by
  induction xs using List.reverseRecOn with
  | nil => exact .nil
  | append_singleton xs x ih =>
    -- a further element does not move the first occurrences of the others
    have hold : (distinct xs).Pairwise fun a b => (xs ++ [x]).idxOf a < (xs ++ [x]).idxOf b := by
      refine ih.imp_of_mem fun ha hb hab => ?_
      rwa [List.idxOf_append_of_mem (mem_distinct.mp ha), List.idxOf_append_of_mem (mem_distinct.mp hb)]
    rw [distinct_concat]
    split
    · exact hold
    · rename_i hx
      refine List.pairwise_append.mpr ⟨hold, List.pairwise_singleton _ x, fun a ha b hb => ?_⟩
      obtain rfl := List.mem_singleton.mp hb
      rw [List.idxOf_append_of_mem (mem_distinct.mp ha), List.idxOf_append_of_notMem hx]
      exact Nat.lt_add_right _ (List.idxOf_lt_length_of_mem (mem_distinct.mp ha))

/-- A list has exactly one list of first occurrences. -/
theorem firstOccurrences_iff {xs ys : List α} : FirstOccurrences xs ys ↔ ys = distinct xs := by
  constructor
  · intro h
    have hasymm : ∀ a b, xs.idxOf a < xs.idxOf b → ¬ xs.idxOf b < xs.idxOf a := fun _ _ => Nat.lt_asymm
    exact eq_of_pairwise hasymm h.order (pairwise_idxOf_distinct xs) fun a =>
      (h.mem_iff a).trans mem_distinct.symm
  · rintro rfl
    exact ⟨fun _ => mem_distinct, pairwise_idxOf_distinct xs⟩

end Occurrences

/-! ## Stable insertion -/

section Insert

variable {α : Type} {precedes : α → α → Bool}

theorem insertStable_cons (x y : α) (ys : List α) :
    insertStable precedes x (y :: ys) =
      if precedes x y then x :: y :: ys else y :: insertStable precedes x ys := rfl

theorem insertStable_of_forall {x : α} {ys : List α} (h : ∀ y ∈ ys, precedes x y = true) :
    insertStable precedes x ys = x :: ys := by
  cases ys with
  | nil => rfl
  | cons y ys =>
    rw [insertStable_cons, if_pos (h y List.mem_cons_self)]

theorem insertStable_of_forall_not {x : α} {ys : List α} (h : ∀ y ∈ ys, precedes x y = false) :
    insertStable precedes x ys = ys ++ [x] := by
  induction ys with
  | nil => rfl
  | cons y ys ih =>
    have hxy : ¬ precedes x y = true := Bool.eq_false_iff.mp (h y List.mem_cons_self)
    rw [insertStable_cons, if_neg hxy, ih fun z hz => h z (List.mem_cons_of_mem _ hz)]
    rfl

theorem insertStable_map {β : Type} (f : α → β) (before : β → β → Bool) (x : α) (ys : List α) :
    insertStable before (f x) (ys.map f) =
      (insertStable (fun a b => before (f a) (f b)) x ys).map f := by
  induction ys with
  | nil => rfl
  | cons y ys ih =>
    rw [List.map_cons, insertStable_cons, insertStable_cons, ih]
    split <;> rfl

/-- Inserting keeps a list sorted: the new element comes before those that it precedes and behind the
others. -/
theorem pairwise_insertStable {R : α → α → Prop} (htrans : ∀ a b c, R a b → R b c → R a c) {x : α}
    {ys : List α} (h : ys.Pairwise R) (hbefore : ∀ y ∈ ys, precedes x y = true → R x y)
    (hbehind : ∀ y ∈ ys, precedes x y = false → R y x) :
    (insertStable precedes x ys).Pairwise R := by
  induction ys with
  | nil => exact List.pairwise_singleton R x
  | cons y ys ih =>
    obtain ⟨hy, hys⟩ := List.pairwise_cons.mp h
    rw [insertStable_cons]
    split
    · rename_i hxy
      have hRxy := hbefore y List.mem_cons_self hxy
      refine List.pairwise_cons.mpr ⟨fun z hz => ?_, h⟩
      rcases List.mem_cons.mp hz with rfl | hz
      · exact hRxy
      · exact htrans x y z hRxy (hy z hz)
    · rename_i hxy
      refine List.pairwise_cons.mpr ⟨fun z hz => ?_, ?_⟩
      · rcases mem_insertStable.mp hz with rfl | hz
        · exact hbehind y List.mem_cons_self (Bool.eq_false_iff.mpr hxy)
        · exact hy z hz
      · exact ih hys (fun z hz => hbefore z (List.mem_cons_of_mem _ hz))
          fun z hz => hbehind z (List.mem_cons_of_mem _ hz)

theorem sortStable_concat (xs : List α) (y : α) :
    sortStable precedes (xs ++ [y]) = insertStable precedes y (sortStable precedes xs) := by
  unfold sortStable
  rw [List.foldl_append]
  rfl

/-- Elements are sorted if each of them, where it comes behind another one or has to precede it, is rightly so
related to it. -/
theorem pairwise_sortStable {R : α → α → Prop} (htrans : ∀ a b c, R a b → R b c → R a c) {xs : List α}
    (h : xs.Pairwise fun x y => (precedes y x = true → R y x) ∧ (precedes y x = false → R x y)) :
    (sortStable precedes xs).Pairwise R := by
  induction xs using List.reverseRecOn with
  | nil => exact .nil
  | append_singleton xs y ih =>
    obtain ⟨hxs, -, hlast⟩ := List.pairwise_append.mp h
    have hy : ∀ x ∈ sortStable precedes xs,
        (precedes y x = true → R y x) ∧ (precedes y x = false → R x y) :=
      fun x hx => hlast x ((sortStable_perm xs).mem_iff.mp hx) y List.mem_cons_self
    rw [sortStable_concat]
    exact pairwise_insertStable htrans (ih hxs) (fun x hx => (hy x hx).1) fun x hx => (hy x hx).2

/-- Whether the others are filtered out before or after an element is inserted is the same, if the element
precedes everything behind what it precedes. -/
theorem filter_insertStable (p : α → Bool) {x : α} {ys : List α}
    (h : ys.Pairwise fun a b => precedes x a = true → precedes x b = true) :
    (insertStable precedes x ys).filter p =
      if p x then insertStable precedes x (ys.filter p) else ys.filter p := by
  induction ys with
  | nil => exact List.filter_cons
  | cons y ys ih =>
    obtain ⟨hy, hys⟩ := List.pairwise_cons.mp h
    rw [insertStable_cons]
    split
    · rename_i hxy
      -- `x` precedes all of the list, so it stays in front of whatever is kept
      have hall : ∀ z ∈ (y :: ys).filter p, precedes x z = true := by
        intro z hz
        rcases List.mem_cons.mp (List.mem_of_mem_filter hz) with rfl | hz
        · exact hxy
        · exact hy z hz hxy
      rw [List.filter_cons]
      split
      · exact (insertStable_of_forall hall).symm
      · rfl
    · rename_i hxy
      rw [List.filter_cons, List.filter_cons, ih hys]
      by_cases hpx : p x = true <;> by_cases hpy : p y = true <;>
        simp [insertStable_cons, hpx, hpy, hxy]

end Insert

/-! ## Groups -/

section Chunks

variable {α : Type} {size : Nat}

/-- Cutting off a group leaves the rest of the list to cut. -/
theorem chunks_induction (size : Nat) {P : List α → Prop} (nil : P [])
    (cons : ∀ x xs, P (xs.drop (size - 1)) → P (x :: xs)) : ∀ xs, P xs
  | [] => nil
  | x :: xs => cons x xs (chunks_induction size nil cons (xs.drop (size - 1)))
termination_by xs => xs.length
decreasing_by
  rw [List.length_drop, List.length_cons]
  omega

theorem flatten_chunks (size : Nat) (xs : List α) : (chunks size xs).flatten = xs := by
  induction xs using chunks_induction size with
  | nil => rfl
  | cons x xs ih =>
    rw [chunks_cons, List.flatten_cons, ih, List.cons_append, List.take_append_drop]

theorem ne_nil_of_mem_chunks {xs group : List α} (h : group ∈ chunks size xs) : group ≠ [] := by
  induction xs using chunks_induction size with
  | nil => simp at h
  | cons x xs ih =>
    rw [chunks_cons] at h
    rcases List.mem_cons.mp h with rfl | h
    · exact List.cons_ne_nil _ _
    · exact ih h

theorem length_chunks (hsize : 0 < size) (xs : List α) :
    (chunks size xs).length = (xs.length + size - 1) / size := by
  induction xs using chunks_induction size with
  | nil =>
    simp only [chunks_nil, List.length_nil, Nat.zero_add]
    exact (Nat.div_eq_of_lt (by omega)).symm
  | cons x xs ih =>
    rw [chunks_cons, List.length_cons, ih, List.length_drop, List.length_cons]
    rcases Nat.lt_or_ge xs.length size with hlt | hge
    · rw [show xs.length - (size - 1) + size - 1 = size - 1 by omega,
        Nat.div_eq_of_lt (by omega : size - 1 < size)]
      exact (Nat.div_eq_of_lt_le (by omega) (by omega)).symm
    · rw [show xs.length + 1 + size - 1 = xs.length - (size - 1) + size - 1 + size by omega,
        Nat.add_div_right _ hsize]

theorem getElem?_chunks (hsize : 0 < size) (xs : List α) {i : Nat}
    (hi : i < (chunks size xs).length) :
    (chunks size xs)[i]? = some ((xs.drop (i * size)).take size) := by
  induction i generalizing xs with
  | zero =>
    cases xs with
    | nil => simp at hi
    | cons x xs =>
      rw [chunks_cons, Nat.zero_mul, List.drop_zero, List.getElem?_cons_zero]
      obtain ⟨size, rfl⟩ := Nat.exists_eq_add_of_lt hsize
      simp
  | succ i ih =>
    cases xs with
    | nil => simp at hi
    | cons x xs =>
      rw [chunks_cons, List.length_cons] at hi
      rw [chunks_cons, List.getElem?_cons_succ, ih _ (by omega), List.drop_drop,
        show (i + 1) * size = (size - 1 + i * size) + 1 by rw [Nat.succ_mul]; omega,
        List.drop_succ_cons]

end Chunks

end StackMutants.Sequence
