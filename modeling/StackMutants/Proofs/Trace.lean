import StackMutants.Proofs.Numbering
import StackMutants.Proofs.Sequence

/-!
# Proofs.Trace — runs of a register

`Register.Trace` is a register with a record of what was entered into it: each entry with the number of
entries before it, the number of methods that were closed before it, and its position.  A trace goes on by
single steps in any order (`Trace.step`).

Two invariants carry over every step.  `Trace.Counted`: the identifiers of an operator in a method have the
indices from zero on, so no two entries have the same identifier.  `Trace.Arranged`: what the register holds
is the record, arranged by closed methods, then by position, then by number.
-/

namespace StackMutants.Register

/-- What can be done with a register between its creation and its end. -/
inductive Step where
  | enter (name descriptor operator : String) (hit : Hit)
  | ask (id : MutationId)
  | close

/-- A point as it was entered. -/
structure Entry where
  /-- How many points were entered before. -/
  number : Nat
  /-- How many methods were closed before. -/
  interval : Nat
  position : Nat
  mutation : Mutation

/-- The order of points: by closed methods, then by position, then as they were entered. -/
def Entry.Precedes (a b : Entry) : Prop :=
  a.interval < b.interval ∨ a.interval = b.interval ∧
    (a.position < b.position ∨ a.position = b.position ∧ a.number < b.number)

theorem Entry.Precedes.trans {a b c : Entry} (h : a.Precedes b) (h' : b.Precedes c) : a.Precedes c := by
  unfold Precedes at *
  omega

/-- Whether an entry is of the operator in a method of the name and descriptor. -/
def Entry.isOf (name descriptor operator : String) (e : Entry) : Bool :=
  Register.isOf name descriptor operator e.mutation

structure Trace where
  register : Register
  /-- What was entered, in order. -/
  record : List Entry
  /-- How many methods were closed. -/
  closed : Nat

namespace Trace

def start (r : Register) : Trace := ⟨r, [], 0⟩

/-- The entry of a point that is entered next. -/
def nextEntry (t : Trace) (name descriptor operator : String) (hit : Hit) : Entry where
  number := t.record.length
  interval := t.closed
  position := hit.position
  mutation :=
    { id := (t.register.enter name descriptor operator hit.position hit.line hit.description).1
      line := hit.line
      description := hit.description }

def step (t : Trace) : Step → Trace
  | .enter name descriptor operator hit =>
    { t with
      register := (t.register.enter name descriptor operator hit.position hit.line hit.description).2
      record := t.record ++ [t.nextEntry name descriptor operator hit] }
  | .ask id => { t with register := (t.register.meets id).2 }
  | .close => { t with register := t.register.closeMethod, closed := t.closed + 1 }

def run (t : Trace) (steps : List Step) : Trace := steps.foldl step t

/-! ## Identifiers -/

/-- The entries of an operator in a method are numbered from zero, and no identifier is used twice. -/
structure Counted (owner : ClassName) (t : Trace) : Prop where
  owner_eq : t.register.owner = owner
  owners : ∀ e ∈ t.record, e.mutation.id.owner = owner
  indices : ∀ name descriptor operator,
    (t.record.filter (·.isOf name descriptor operator)).map (·.mutation.id.index) =
      List.range (t.register.count name descriptor operator)
  nodup : (t.record.map (·.mutation.id)).Nodup

variable {t : Trace} {owner : ClassName}

theorem isOf_nextEntry (t : Trace) (name descriptor operator : String) (hit : Hit)
    (name' descriptor' operator' : String) :
    (t.nextEntry name descriptor operator hit).isOf name' descriptor' operator' =
      decide (name = name' ∧ descriptor = descriptor' ∧ operator = operator') := by
  rw [Bool.eq_iff_iff]
  simp [Entry.isOf, Register.isOf, nextEntry, enter_fst, nextId, and_assoc]

theorem Counted.enter (h : t.Counted owner) (name descriptor operator : String) (hit : Hit) :
    (t.step (.enter name descriptor operator hit)).Counted owner := by
  constructor
  · exact h.owner_eq
  · intro e he
    rcases List.mem_append.mp he with he | he
    · exact h.owners e he
    · obtain rfl := List.mem_singleton.mp he
      exact h.owner_eq
  · intro name' descriptor' operator'
    show ((t.record ++ [_]).filter _).map _ = List.range ((t.register.enter ..).2.count _ _ _)
    rw [count_enter, List.filter_append, List.map_append, h.indices, List.filter_singleton,
      isOf_nextEntry]
    by_cases hkey : name = name' ∧ descriptor = descriptor' ∧ operator = operator'
    · obtain ⟨rfl, rfl, rfl⟩ := hkey
      rw [if_pos ⟨rfl, rfl, rfl⟩, List.range_succ]
      simp [nextEntry, enter_fst, nextId]
    · simp [hkey]
  · show ((t.record ++ [_]).map _).Nodup
    rw [List.map_append]
    refine List.nodup_append.mpr ⟨h.nodup, List.nodup_singleton _, ?_⟩
    intro id hid id' hid' heq
    obtain ⟨e, he, rfl⟩ := List.mem_map.mp hid
    obtain rfl := List.mem_singleton.mp hid'
    -- the indices in use lie below the count, which is the index of the new entry
    have hof : e.isOf name descriptor operator = true := by
      unfold Entry.isOf Register.isOf
      rw [heq]
      simp [nextEntry, enter_fst, nextId]
    have hmem : e.mutation.id.index ∈ List.range (t.register.count name descriptor operator) := by
      rw [← h.indices]
      exact List.mem_map.mpr ⟨e, List.mem_filter.mpr ⟨he, hof⟩, rfl⟩
    rw [heq] at hmem
    exact Nat.lt_irrefl _ (List.mem_range.mp hmem)

theorem Counted.step (h : t.Counted owner) (s : Step) : (t.step s).Counted owner := by
  cases s with
  | enter name descriptor operator hit => exact h.enter name descriptor operator hit
  | ask id =>
    have hregister : (t.step (.ask id)).register =
        { t.register with applied := t.register.applied || decide (t.register.target = some id) } :=
      meets_snd t.register id
    refine ⟨?_, h.owners, ?_, h.nodup⟩
    · rw [hregister]
      exact h.owner_eq
    · rw [hregister]
      exact h.indices
  | close =>
    refine ⟨h.owner_eq, h.owners, ?_, h.nodup⟩
    intro name descriptor operator
    show _ = List.range (t.register.closeMethod.count _ _ _)
    rw [count_closeMethod]
    exact h.indices name descriptor operator

/-! ## Order -/

/-- The register holds the record, arranged in the order of points. -/
structure Arranged (t : Trace) (done now : List Entry) : Prop where
  found : t.register.found = done.map (·.mutation)
  pending : t.register.pending = now.map fun e => (e.position, e.mutation)
  perm : (done ++ now).Perm t.record
  sorted : (done ++ now).Pairwise Entry.Precedes
  interval_lt : ∀ e ∈ done, e.interval < t.closed
  interval_eq : ∀ e ∈ now, e.interval = t.closed
  number_lt : ∀ e ∈ t.record, e.number < t.record.length

variable {done now : List Entry}

theorem Arranged.enter (h : t.Arranged done now) (name descriptor operator : String) (hit : Hit) :
    ∃ now', (t.step (.enter name descriptor operator hit)).Arranged done now' := by
  set e := t.nextEntry name descriptor operator hit with he
  obtain ⟨hdone, hnow, hcross⟩ := List.pairwise_append.mp h.sorted
  have hnumber : ∀ x ∈ now, x.number < e.number := fun x hx =>
    h.number_lt x (h.perm.mem_iff.mp (List.mem_append_right _ hx))
  refine ⟨Sequence.insertStable (fun a b => decide (a.position < b.position)) e now, ?_⟩
  constructor
  · exact h.found
  · show insertByPosition (hit.position, _) t.register.pending = _
    rw [h.pending]
    exact Sequence.insertStable_map (fun e : Entry => (e.position, e.mutation)) _ e now
  · calc done ++ Sequence.insertStable _ e now
      _ |>.Perm (done ++ e :: now) := (Sequence.insertStable_perm e now).append_left done
      _ |>.Perm (e :: (done ++ now)) := List.perm_middle
      _ |>.Perm (e :: t.record) := h.perm.cons e
      _ |>.Perm (t.record ++ [e]) := (List.perm_append_singleton e t.record).symm
  · refine List.pairwise_append.mpr ⟨hdone, ?_, ?_⟩
    · refine Sequence.pairwise_insertStable (R := Entry.Precedes) (fun _ _ _ => .trans) hnow ?_ ?_
      · intro x hx hlt
        have := h.interval_eq x hx
        exact Or.inr ⟨this.symm, Or.inl (of_decide_eq_true hlt)⟩
      · intro x hx hge
        have hle := Nat.le_of_not_lt (of_decide_eq_false hge)
        refine Or.inr ⟨h.interval_eq x hx, ?_⟩
        rcases Nat.lt_or_eq_of_le hle with hlt | heq
        · exact Or.inl hlt
        · exact Or.inr ⟨heq, hnumber x hx⟩
    · intro x hx y hy
      rcases Sequence.mem_insertStable.mp hy with rfl | hy
      · exact Or.inl (h.interval_lt x hx)
      · exact hcross x hx y hy
  · exact h.interval_lt
  · intro x hx
    rcases Sequence.mem_insertStable.mp hx with rfl | hx
    · rfl
    · exact h.interval_eq x hx
  · intro x hx
    show x.number < (t.record ++ [e]).length
    rw [List.length_append, List.length_singleton]
    rcases List.mem_append.mp hx with hx | hx
    · exact Nat.lt_succ_of_lt (h.number_lt x hx)
    · obtain rfl := List.mem_singleton.mp hx
      exact Nat.lt_succ_self _

theorem Arranged.close (h : t.Arranged done now) : (t.step .close).Arranged (done ++ now) [] := by
  constructor
  · show t.register.entered = _
    unfold entered
    rw [h.found, h.pending, List.map_append, List.map_map]
    rfl
  · rfl
  · rw [List.append_nil]
    exact h.perm
  · rw [List.append_nil]
    exact h.sorted
  · intro x hx
    show x.interval < t.closed + 1
    rcases List.mem_append.mp hx with hx | hx
    · exact Nat.lt_succ_of_lt (h.interval_lt x hx)
    · exact Nat.lt_succ_of_le (Nat.le_of_eq (h.interval_eq x hx))
  · simp
  · exact h.number_lt

theorem Arranged.step (h : t.Arranged done now) (s : Step) : ∃ done' now', (t.step s).Arranged done' now' := by
  cases s with
  | enter name descriptor operator hit => exact ⟨done, h.enter name descriptor operator hit⟩
  | ask id =>
    have hregister : (t.step (.ask id)).register =
        { t.register with applied := t.register.applied || decide (t.register.target = some id) } :=
      meets_snd t.register id
    refine ⟨done, now, ?_, ?_, h.perm, h.sorted, h.interval_lt, h.interval_eq, h.number_lt⟩
    · rw [hregister]
      exact h.found
    · rw [hregister]
      exact h.pending
  | close => exact ⟨done ++ now, [], h.close⟩

/-! ## Whole runs -/

theorem run_cons (t : Trace) (s : Step) (steps : List Step) :
    t.run (s :: steps) = (t.step s).run steps := rfl

theorem Counted.run (h : t.Counted owner) (steps : List Step) : (t.run steps).Counted owner := by
  induction steps generalizing t with
  | nil => exact h
  | cons s steps ih => exact ih (h.step s)

theorem Arranged.run (h : t.Arranged done now) (steps : List Step) :
    ∃ done' now', (t.run steps).Arranged done' now' := by
  induction steps generalizing t done now with
  | nil => exact ⟨done, now, h⟩
  | cons s steps ih =>
    obtain ⟨done', now', h'⟩ := h.step s
    exact ih h'

theorem counted_start {r : Register} (hr : r.entered = []) : (start r).Counted r.owner := by
  refine ⟨rfl, by simp [start], fun name descriptor operator => ?_, by simp [start]⟩
  show [] = List.range (r.count name descriptor operator)
  rw [count, hr]
  rfl

theorem arranged_start {r : Register} (hr : r.entered = []) : (start r).Arranged [] [] := by
  obtain ⟨hfound, hpending⟩ := List.append_eq_nil_iff.mp hr
  exact ⟨hfound, List.map_eq_nil_iff.mp hpending, .refl _, .nil, by simp, by simp, by simp [start]⟩

/-- **Runs of a register.**  Whatever is done with a new register, in whatever order: the identifiers that it
hands out are different and of its class; those of an operator in a method have the indices from zero on, in
the order of entering; and at the end the register holds what was entered, each point once, by closed
methods, then by position, then as it was entered. -/
theorem run_numbers_and_arranges (steps : List Step) (r : Register)
    (hr : (∃ owner, r = blank owner) ∨ ∃ target, r = seeking target) :
    let t := (start r).run steps
    (t.record.map (·.mutation.id)).Nodup ∧
    (∀ e ∈ t.record, e.mutation.id.owner = r.owner) ∧
    (∀ name descriptor operator,
      (t.record.filter (·.isOf name descriptor operator)).map (·.mutation.id.index) =
        List.range (t.record.filter (·.isOf name descriptor operator)).length) ∧
    ∃ arranged : List Entry, arranged.Perm t.record ∧ arranged.Pairwise Entry.Precedes ∧
      t.register.mutations = arranged.map (·.mutation) := by
  have hentered : r.entered = [] := by
    rcases hr with ⟨owner, rfl⟩ | ⟨target, rfl⟩ <;> rfl
  have hcounted := (counted_start hentered).run steps
  obtain ⟨done, now, harranged⟩ := (arranged_start hentered).run steps
  refine ⟨hcounted.nodup, hcounted.owners, fun name descriptor operator => ?_, done ++ now,
    harranged.perm, harranged.sorted, harranged.close.found⟩
  have hindices := hcounted.indices name descriptor operator
  have hlength := congrArg List.length hindices
  rw [List.length_map, List.length_range] at hlength
  rw [hindices, hlength]

/-- Three points of two operators in a method, two of them at one position, and one more of them when a
method of the same name is visited again. -/
def revisitSteps : List Step :=
  [.enter "a" "()V" "MATH" ⟨5, 2, "late"⟩,
   .enter "a" "()V" "NEGATE" ⟨1, 1, "early"⟩,
   .enter "a" "()V" "MATH" ⟨5, 2, "tied"⟩,
   .close,
   .ask { owner := ⟨"Calc"⟩, method := "a", descriptor := "()V", operator := "MATH", index := 1 },
   .enter "a" "()V" "MATH" ⟨0, 9, "again"⟩]

theorem run_numbers_and_arranges_revisit :
    ((∃ owner, blank ⟨"Calc"⟩ = blank owner) ∨ ∃ target, blank ⟨"Calc"⟩ = seeking target) ∧
    let t := (start (blank ⟨"Calc"⟩)).run revisitSteps
    t.register.mutations.map (fun m => (m.description, m.id.index)) =
      [("early", 0), ("late", 0), ("tied", 1), ("again", 2)] ∧
    (t.record.map (·.mutation.id)).Nodup ∧
    (∀ e ∈ t.record, e.mutation.id.owner = ⟨"Calc"⟩) ∧
    (∀ name descriptor operator,
      (t.record.filter (·.isOf name descriptor operator)).map (·.mutation.id.index) =
        List.range (t.record.filter (·.isOf name descriptor operator)).length) ∧
    ∃ arranged : List Entry, arranged.Perm t.record ∧ arranged.Pairwise Entry.Precedes ∧
      t.register.mutations = arranged.map (·.mutation) :=
  ⟨Or.inl ⟨_, rfl⟩, rfl, run_numbers_and_arranges revisitSteps (blank ⟨"Calc"⟩) (Or.inl ⟨_, rfl⟩)⟩

end Trace

end StackMutants.Register
