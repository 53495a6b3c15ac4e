import StackMutants.Operator.Selection
import StackMutants.Proofs.Sequence

/-!
# Proofs.Selection — names of operators and what they stand for

Names resolve exactly if each of them is the name of a group or of an operator; the result is what they stand
for, one name after the other, without what is there already (`Mutator.select_eq_ok_iff`).  The first other
name is the one that the fault complains about (`Mutator.select_eq_error_iff`).  So a list of operators is a
normal form of the names that it came from: its own names resolve to it again.
-/

namespace StackMutants.Mutator

/-- Whether a configuration may use the name. -/
def IsName (s : String) : Prop := s = defaultsGroup ∨ s = allGroup ∨ ∃ m : Mutator, m.name = s

/-- What a name stands for, which is nothing unless it is the name of a group or of an operator. -/
def expansion (s : String) : List Mutator := (expand? s).getD []

theorem name_injective : Function.Injective name := by
  intro a b h
  revert h
  cases a <;> cases b <;> decide

theorem id_injective : Function.Injective id := by
  intro a b h
  revert h
  cases a <;> cases b <;> decide

theorem mem_all (m : Mutator) : m ∈ all := by
  cases m <;> decide

theorem find?_all_name (m : Mutator) : all.find? (·.name == m.name) = some m := by
  have hkeys : (all.map name).Nodup := (by decide : all.Nodup).map name_injective
  exact (Sequence.find?_key_eq_some_iff hkeys).mpr ⟨mem_all m, rfl⟩

/-- An operator is not called like a group. -/
theorem expand?_name (m : Mutator) : expand? m.name = some [m] := by
  have hdefaults : m.name ≠ defaultsGroup := by cases m <;> decide
  have hall : m.name ≠ allGroup := by cases m <;> decide
  unfold expand?
  rw [if_neg hdefaults, if_neg hall, find?_all_name]
  rfl

theorem expand?_eq_none_iff {s : String} : expand? s = none ↔ ¬ IsName s := by
  constructor
  · rintro h (rfl | rfl | ⟨m, rfl⟩)
    · cases h
    · cases h
    · rw [expand?_name] at h
      cases h
  · intro h
    unfold expand?
    rw [if_neg fun hs => h (.inl hs), if_neg fun hs => h (.inr (.inl hs)), Option.map_eq_none_iff,
      List.find?_eq_none]
    intro m _ hm
    exact h (.inr (.inr ⟨m, by simpa using hm⟩))

theorem isName_of_expand? {s : String} {ms : List Mutator} (h : expand? s = some ms) : IsName s := by
  by_contra hs
  rw [expand?_eq_none_iff.mpr hs] at h
  cases h

theorem isName_name (m : Mutator) : IsName m.name := isName_of_expand? (expand?_name m)

theorem expansion_of_expand? {s : String} {ms : List Mutator} (h : expand? s = some ms) :
    expansion s = ms := by
  unfold expansion
  rw [h]
  rfl

section Resolve

variable {selected ms : List Mutator} {names : List String} {fault : Fault}

theorem selectOnto_cons_none {s : String} (h : expand? s = none) :
    selectOnto selected (s :: names) = .error (.config (.unknownMutator s available)) := by
  unfold selectOnto
  rw [h]

theorem selectOnto_cons_some {s : String} (h : expand? s = some ms) :
    selectOnto selected (s :: names) = selectOnto (Sequence.appendNew selected ms) names := by
  rw [selectOnto, h]

theorem selectOnto_eq_ok_iff : selectOnto selected names = .ok ms ↔
    (∀ s ∈ names, IsName s) ∧ ms = Sequence.appendNew selected (names.flatMap expansion) := by
  induction names generalizing selected with
  | nil =>
    unfold selectOnto
    simp [Sequence.appendNew, eq_comm]
  | cons s names ih =>
    rw [List.forall_mem_cons]
    cases hs : expand? s with
    | none =>
      rw [selectOnto_cons_none hs]
      simp [expand?_eq_none_iff.mp hs]
    | some new =>
      rw [selectOnto_cons_some hs, ih, List.flatMap_cons, expansion_of_expand? hs,
        Sequence.appendNew_append]
      simp [isName_of_expand? hs]

theorem selectOnto_eq_error_iff : selectOnto selected names = .error fault ↔
    ∃ before s behind, names = before ++ s :: behind ∧ (∀ t ∈ before, IsName t) ∧ ¬ IsName s ∧
      fault = .config (.unknownMutator s available) := by
  constructor
  · intro h
    induction names generalizing selected with
    | nil => cases h
    | cons s names ih =>
      cases hs : expand? s with
      | none =>
        rw [selectOnto_cons_none hs] at h
        cases h
        exact ⟨[], s, names, rfl, by simp, expand?_eq_none_iff.mp hs, rfl⟩
      | some new =>
        rw [selectOnto_cons_some hs] at h
        obtain ⟨before, s', behind, rfl, hbefore, hs', hfault⟩ := ih h
        exact ⟨s :: before, s', behind, rfl,
          List.forall_mem_cons.mpr ⟨isName_of_expand? hs, hbefore⟩, hs', hfault⟩
  · rintro ⟨before, s, behind, rfl, hbefore, hs, rfl⟩
    induction before generalizing selected with
    | nil => exact selectOnto_cons_none (expand?_eq_none_iff.mpr hs)
    | cons t before ih =>
      obtain ⟨ht, hbefore⟩ := List.forall_mem_cons.mp hbefore
      cases htexpand : expand? t with
      | none => exact absurd ht (expand?_eq_none_iff.mp htexpand)
      | some new =>
        rw [List.cons_append, selectOnto_cons_some htexpand]
        exact ih hbefore

theorem select_eq_ok_iff : select names = .ok ms ↔
    (∀ s ∈ names, IsName s) ∧ ms = Sequence.distinct (names.flatMap expansion) :=
  selectOnto_eq_ok_iff

theorem select_eq_error_iff : select names = .error fault ↔
    ∃ before s behind, names = before ++ s :: behind ∧ (∀ t ∈ before, IsName t) ∧ ¬ IsName s ∧
      fault = .config (.unknownMutator s available) :=
  selectOnto_eq_error_iff

/-- The operators that names stand for have different identifiers. -/
theorem nodup_id_of_select (h : select names = .ok ms) : ((ms.map (·.operator)).map (·.id)).Nodup := by
  obtain ⟨-, rfl⟩ := select_eq_ok_iff.mp h
  rw [List.map_map]
  exact (Sequence.nodup_distinct _).map id_injective

theorem flatMap_expansion_name (ms : List Mutator) : (ms.map name).flatMap expansion = ms := by
  rw [List.flatMap_map]
  calc ms.flatMap (fun m => expansion m.name)
      = ms.flatMap fun m => [m] := by
        congr 1
        funext m
        exact expansion_of_expand? (expand?_name m)
    _ = ms := List.flatMap_singleton' ms

/-- Operators that are all different are what their names stand for. -/
theorem select_map_name (h : ms.Nodup) : select (ms.map name) = .ok ms := by
  refine select_eq_ok_iff.mpr ⟨?_, ?_⟩
  · intro s hs
    obtain ⟨m, -, rfl⟩ := List.mem_map.mp hs
    exact isName_name m
  · rw [flatMap_expansion_name, Sequence.distinct_of_nodup h]

end Resolve

/-- **Selecting operators is a normal form.**  Names are refused exactly if one of them is neither that of a
group nor that of an operator.  Otherwise they give what they stand for, each operator where it first occurs,
so that no two of them have the same identifier; the names of these operators give the same again; and more
names append what they give and what is not there yet. -/
theorem select_normalizes (names : List String) :
    ((∃ fault, select names = .error fault) ↔ ∃ s ∈ names, ¬ IsName s) ∧
    ((∀ s ∈ names, IsName s) →
      ∃ ms, select names = .ok ms ∧ Sequence.FirstOccurrences (names.flatMap expansion) ms ∧
        (ms.map id).Nodup ∧ select (ms.map name) = .ok ms) ∧
    ∀ names' ms ms', select names = .ok ms → select names' = .ok ms' →
      select (names ++ names') = .ok (ms ++ ms'.filter (· ∉ ms)) := by
  refine ⟨⟨?_, ?_⟩, fun hnames => ?_, fun names' ms ms' h h' => ?_⟩
  · rintro ⟨fault, h⟩
    obtain ⟨before, s, behind, rfl, -, hs, -⟩ := select_eq_error_iff.mp h
    exact ⟨s, by simp, hs⟩
  · rintro ⟨s, hs, hname⟩
    cases h : select names with
    | error fault => exact ⟨fault, rfl⟩
    | ok ms => exact absurd ((select_eq_ok_iff.mp h).1 s hs) hname
  · have hnodup : (Sequence.distinct (names.flatMap expansion)).Nodup := Sequence.nodup_distinct _
    exact ⟨_, select_eq_ok_iff.mpr ⟨hnames, rfl⟩, Sequence.firstOccurrences_iff.mpr rfl,
      hnodup.map id_injective, select_map_name hnodup⟩
  · obtain ⟨hnames, rfl⟩ := select_eq_ok_iff.mp h
    obtain ⟨hnames', rfl⟩ := select_eq_ok_iff.mp h'
    refine select_eq_ok_iff.mpr ⟨List.forall_mem_append.mpr ⟨hnames, hnames'⟩, ?_⟩
    rw [List.flatMap_append, Sequence.distinct_append]

/-- A name, a group that holds it too, and a group that holds both. -/
theorem select_normalizes_overlapping :
    (∀ s ∈ ["MATH", "DEFAULTS"], IsName s) ∧
    (∃ ms, select ["MATH", "DEFAULTS"] = .ok ms ∧
      Sequence.FirstOccurrences (["MATH", "DEFAULTS"].flatMap expansion) ms ∧
      (ms.map id).Nodup ∧ select (ms.map name) = .ok ms) ∧
    select ["MATH", "DEFAULTS"] = .ok [math, conditionalsBoundary, negateConditionals, returnVals] ∧
    select ["RETURN_VALS", "ALL"] =
      .ok [returnVals, conditionalsBoundary, math, negateConditionals, constructorCalls, checkNullObject] ∧
    select (["MATH", "DEFAULTS"] ++ ["RETURN_VALS", "ALL"]) =
      .ok [math, conditionalsBoundary, negateConditionals, returnVals, constructorCalls, checkNullObject] ∧
    (∃ s ∈ ["MATH", "math"], ¬ IsName s) ∧ ∃ fault, select ["MATH", "math"] = .error fault := by
  have hfirst : select ["MATH", "DEFAULTS"] =
      .ok [math, conditionalsBoundary, negateConditionals, returnVals] := rfl
  have hsecond : select ["RETURN_VALS", "ALL"] =
      .ok [returnVals, conditionalsBoundary, math, negateConditionals, constructorCalls, checkNullObject] :=
    rfl
  have hnames : ∀ s ∈ ["MATH", "DEFAULTS"], IsName s := (select_eq_ok_iff.mp hfirst).1
  have hunknown : ∃ s ∈ ["MATH", "math"], ¬ IsName s := ⟨"math", by simp, expand?_eq_none_iff.mp rfl⟩
  exact ⟨hnames, (select_normalizes _).2.1 hnames, hfirst, hsecond,
    (select_normalizes _).2.2 _ _ _ hfirst hsecond, hunknown, (select_normalizes _).1.mpr hunknown⟩

end StackMutants.Mutator
