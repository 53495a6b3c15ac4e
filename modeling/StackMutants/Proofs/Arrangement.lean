import StackMutants.Proofs.Targets
import Mathlib.Data.List.Induction

/-!
# Proofs.Arrangement — the order of what a scan finds

A match of a scan has a site: the method in the class, the position in the method and the operator in the
list.  `ClassDef.AcceptedAt` says at which sites passes have accepted matches, and `ClassDef.Finds` what a
mutation says about the match at its site.  No two methods need have different signatures and no two operators
different identifiers, since neither sites nor the arrangement of the register look at them.

The operators enter their matches one operator after the other, each by position (`ClassDef.Enters`).  The
register sorts them by position as they come, so that what it holds at the end of a method is in the order of
the sites (`ClassDef.Enters.pairwise_sortStable`), and the methods follow each other (`ClassDef.Arranges`).
-/

namespace StackMutants

/-! ## Sites -/

/-- Where a match stands: indices of a method of the class, of an instruction and of an operator in the
list. -/
structure Site where
  method : Nat
  position : Nat
  operator : Nat
deriving DecidableEq, Repr

/-- By methods, then by positions, then by operators. -/
def Site.Precedes (a b : Site) : Prop :=
  a.method < b.method ∨ a.method = b.method ∧
    (a.position < b.position ∨ a.position = b.position ∧ a.operator < b.operator)

theorem Site.Precedes.trans {a b c : Site} (h : a.Precedes b) (h' : b.Precedes c) : a.Precedes c := by
  unfold Precedes at *
  omega

theorem Site.Precedes.ne {a b : Site} (h : a.Precedes b) : a ≠ b := by
  rintro rfl
  unfold Precedes at h
  omega

namespace ClassDef

variable {c : ClassDef} {os : List Operator}

/-- The pass of the operator over the method has an accepted match at the position. -/
def AcceptedAt (c : ClassDef) (os : List Operator) (a : Site) : Prop :=
  ∃ m o header, c.methods[a.method]? = some m ∧ os[a.operator]? = some o ∧
    m.header? c.name = some header ∧ a.position ∈ (o.hits header m).map (·.position)

/-- The mutation is of the accepted match at the site: it names the class, the method and the operator, and
has line and description of the match. -/
def Finds (c : ClassDef) (os : List Operator) (a : Site) (d : Mutation) : Prop :=
  ∃ m o header, c.methods[a.method]? = some m ∧ os[a.operator]? = some o ∧
    m.header? c.name = some header ∧
    (∃ hit ∈ o.hits header m, hit.position = a.position ∧ d.line = hit.line ∧
      d.description = hit.description) ∧
    d.id.owner = c.name ∧ d.id.method = m.name ∧ d.id.descriptor = m.descriptor ∧ d.id.operator = o.id

theorem Finds.acceptedAt {a : Site} {d : Mutation} (h : c.Finds os a d) : c.AcceptedAt os a := by
  obtain ⟨m, o, header, hm, ho, hheader, ⟨hit, hhit, hposition, -⟩, -⟩ := h
  exact ⟨m, o, header, hm, ho, hheader, List.mem_map.mpr ⟨hit, hhit, hposition⟩⟩

end ClassDef

/-! ## One method -/

/-- A mutation with its site. -/
abbrev Sited := Site × Mutation

/-- The entry that a register makes of a mutation. -/
def Sited.entry (e : Sited) : Nat × Mutation := (e.1.position, e.2)

/-- Entries that the operator with the index `k` made in the method with the index `j`, with their sites. -/
def Sited.ofEntries (j k : Nat) (es : List (Nat × Mutation)) : List Sited :=
  es.map fun e => (⟨j, e.1, k⟩, e.2)

@[simp] theorem Sited.map_entry_ofEntries (j k : Nat) (es : List (Nat × Mutation)) :
    (ofEntries j k es).map entry = es := by
  unfold ofEntries
  rw [List.map_map]
  exact List.map_id es

/-- Whether an entry has to precede another one in a register. -/
def Sited.before (e e' : Sited) : Bool := e.1.position < e'.1.position

theorem Register.sortIn_map_entry (es : List Sited) :
    sortIn [] (es.map Sited.entry) = (Sequence.sortStable Sited.before es).map Sited.entry := by
  induction es using List.reverseRecOn with
  | nil => rfl
  | append_singleton es e ih =>
    rw [List.map_append, sortIn_append, ih, Sequence.sortStable_concat]
    exact Sequence.insertStable_map Sited.entry (fun a b => decide (a.1 < b.1)) e _

theorem MethodHeader.exists_hit_of_mem_points {header : MethodHeader} {operator : String} {index : Nat}
    {hits : List Hit} {e : Nat × Mutation} (he : e ∈ header.points operator index hits) :
    ∃ hit ∈ hits, hit.position = e.1 ∧ e.2.line = hit.line ∧ e.2.description = hit.description := by
  obtain ⟨k, hit, hat, hposition, hmutation⟩ := exists_getElem?_of_mem_points he
  rw [hmutation]
  exact ⟨hit, List.mem_of_getElem? hat, hposition.symm, rfl, rfl⟩

namespace ClassDef

variable {c : ClassDef} {os : List Operator}

/-- What the operators from `first` on enter in the method with the index `j`, in the order of entering: one
operator after the other, and each by position. -/
structure Enters (c : ClassDef) (os : List Operator) (j first : Nat) (es : List Sited) : Prop where
  order : es.Pairwise fun e e' => e.1.operator < e'.1.operator ∨
    e.1.operator = e'.1.operator ∧ e.1.position < e'.1.position
  finds : ∀ e ∈ es, e.1.method = j ∧ first ≤ e.1.operator ∧ c.Finds os e.1 e.2
  complete : ∀ a : Site, a.method = j → first ≤ a.operator → c.AcceptedAt os a → a ∈ es.map (·.1)

theorem enters_nil (c : ClassDef) (os : List Operator) (j : Nat) : c.Enters os j os.length [] := by
  constructor
  · exact .nil
  · simp
  · intro a _ hle haccepted
    obtain ⟨m, o, header, -, ho, -⟩ := haccepted
    have hlt : a.operator < os.length := (List.getElem?_eq_some_iff.mp ho).1
    omega

section OneOperator

variable {j k : Nat} {m : Method} {o : Operator} {header : MethodHeader}

theorem finds_of_mem_ofEntries (hm : c.methods[j]? = some m) (ho : os[k]? = some o)
    (hheader : m.header? c.name = some header) {index : Nat} {e : Sited}
    (he : e ∈ Sited.ofEntries j k (header.points o.id index (o.hits header m))) :
    e.1.method = j ∧ e.1.operator = k ∧ c.Finds os e.1 e.2 := by
  obtain ⟨point, hpoint, rfl⟩ := List.mem_map.mp he
  obtain ⟨howner, hname, hdescriptor, hoperator, -⟩ := MethodHeader.id_of_mem_points hpoint
  have hhit := MethodHeader.exists_hit_of_mem_points hpoint
  exact ⟨rfl, rfl, m, o, header, hm, ho, hheader, hhit, howner.trans (Method.owner_of_header? hheader),
    hname.trans (Method.name_of_header? hheader),
    hdescriptor.trans (Method.descriptor_of_header? hheader), hoperator⟩

theorem mem_ofEntries_of_acceptedAt (hm : c.methods[j]? = some m) (ho : os[k]? = some o)
    (hheader : m.header? c.name = some header) (index : Nat) {a : Site} (hj : a.method = j)
    (hk : a.operator = k) (h : c.AcceptedAt os a) :
    a ∈ (Sited.ofEntries j k (header.points o.id index (o.hits header m))).map (·.1) := by
  obtain ⟨m', o', header', hm', ho', hheader', hposition⟩ := h
  rw [hj, hm] at hm'
  rw [hk, ho] at ho'
  obtain rfl := Option.some.inj hm'
  obtain rfl := Option.some.inj ho'
  obtain rfl : header = header' := Option.some.inj (hheader.symm.trans hheader')
  rw [← MethodHeader.map_fst_points header o.id index, List.mem_map] at hposition
  obtain ⟨point, hpoint, hat⟩ := hposition
  have hsite : (⟨j, point.1, k⟩ : Site) = a := by
    rw [hat, ← hj, ← hk]
  exact List.mem_map.mpr ⟨(⟨j, point.1, k⟩, point.2), List.mem_map.mpr ⟨point, hpoint, rfl⟩, hsite⟩

/-- The points of one operator come in front of those of the operators behind it. -/
theorem Enters.cons {es : List Sited} (h : c.Enters os j (k + 1) es) (hm : c.methods[j]? = some m)
    (ho : os[k]? = some o) (hheader : m.header? c.name = some header) (index : Nat) :
    c.Enters os j k (Sited.ofEntries j k (header.points o.id index (o.hits header m)) ++ es) := by
  constructor
  · refine List.pairwise_append.mpr ⟨?_, h.order, ?_⟩
    · have hpositions := List.pairwise_map.mp (header.pairwise_fst_points o m index)
      exact List.pairwise_map.mpr (hpositions.imp fun hlt => Or.inr ⟨rfl, hlt⟩)
    · intro e he e' he'
      obtain ⟨-, hk, -⟩ := finds_of_mem_ofEntries hm ho hheader he
      obtain ⟨-, hle, -⟩ := h.finds e' he'
      exact Or.inl (by omega)
  · intro e he
    rcases List.mem_append.mp he with he | he
    · obtain ⟨hj, hk, hfinds⟩ := finds_of_mem_ofEntries hm ho hheader he
      exact ⟨hj, Nat.le_of_eq hk.symm, hfinds⟩
    · obtain ⟨hj, hle, hfinds⟩ := h.finds e he
      exact ⟨hj, by omega, hfinds⟩
  · intro a hj hle haccepted
    rw [List.map_append, List.mem_append]
    by_cases hk : a.operator = k
    · exact Or.inl (mem_ofEntries_of_acceptedAt hm ho hheader index hj hk haccepted)
    · exact Or.inr (h.complete a hj (by omega) haccepted)

end OneOperator

/-- Sorting by position puts what was entered into the order of the sites: at one position, entries are in
the order of their operators, as they were entered. -/
theorem Enters.pairwise_sortStable {j first : Nat} {es : List Sited} (h : c.Enters os j first es) :
    (Sequence.sortStable Sited.before es).Pairwise fun e e' => e.1.Precedes e'.1 := by
  refine Sequence.pairwise_sortStable (R := fun e e' : Sited => e.1.Precedes e'.1)
    (fun _ _ _ hab hbc => hab.trans hbc) ?_
  refine h.order.imp_of_mem fun {e e'} he he' horder => ?_
  have hmethods : e.1.method = e'.1.method := (h.finds e he).1.trans (h.finds e' he').1.symm
  constructor
  · intro hbefore
    have hlt : e'.1.position < e.1.position := of_decide_eq_true hbefore
    exact Or.inr ⟨hmethods.symm, Or.inl hlt⟩
  · intro hbehind
    have hge : ¬ e'.1.position < e.1.position := of_decide_eq_false hbehind
    -- one operator has one hit at a position, so at the same position the operators differ
    refine Or.inr ⟨hmethods, ?_⟩
    omega

end ClassDef

namespace Register

variable {r : Register} {c : ClassDef} {os before rest : List Operator}

/-- **One method of a scan.** -/
theorem visitMethod_enters {j : Nat} {m : Method} (hm : c.methods[j]? = some m)
    (hspare : m.SparesLastLabel) (hos : os = before ++ rest) (howner : r.owner = c.name) :
    ∃ r' es, (r.visitMethod m rest).outcome = .ok r' ∧ r'.owner = c.name ∧ r'.pending = [] ∧
      r'.found = r.found ++ (sortIn r.pending (es.map Sited.entry)).map (·.2) ∧
      c.Enters os j before.length es := by
  induction rest generalizing r before with
  | nil =>
    rw [List.append_nil] at hos
    subst hos
    exact ⟨r.closeMethod, [], rfl, howner, rfl, rfl, c.enters_nil os j⟩
  | cons o rest ih =>
    obtain ⟨header, hheader⟩ := m.exists_header hspare c.name
    have hheader' : m.header? r.owner = some header := howner ▸ hheader
    have hregister := replay_register (o := o) (o.segments header m) (Method.owner_of_header? hheader')
    have ho : os[before.length]? = some o := by simp [hos]
    set q := (r.replay o header (o.segments header m)).2 with hq
    have hbehind : os = (before ++ [o]) ++ rest := by simp [hos]
    have hqowner : q.owner = c.name := by
      rw [hregister]
      exact howner
    obtain ⟨r', es, hr', howner', hpending, hfound, henters⟩ := ih hbehind hqowner
    rw [List.length_append, List.length_singleton] at henters
    refine ⟨r', _, ?_, howner', hpending, ?_,
      henters.cons hm ho hheader (r.count header.name header.descriptor o.id)⟩
    · unfold visitMethod
      rw [Journaled.outcome_bind, runPass_outcome hheader']
      exact hr'
    · rw [hfound, hregister, List.map_append, Sited.map_entry_ofEntries, sortIn_append]
      rfl

end Register

/-! ## The methods of a class -/

namespace ClassDef

variable {c : ClassDef} {os : List Operator}

/-- What is found in the methods from `first` on, in the order of the sites. -/
structure Arranges (c : ClassDef) (os : List Operator) (first : Nat) (found : List Sited) : Prop where
  order : found.Pairwise fun e e' => e.1.Precedes e'.1
  finds : ∀ e ∈ found, first ≤ e.1.method ∧ c.Finds os e.1 e.2
  complete : ∀ a : Site, first ≤ a.method → c.AcceptedAt os a → a ∈ found.map (·.1)

theorem arranges_nil (c : ClassDef) (os : List Operator) : c.Arranges os c.methods.length [] := by
  constructor
  · exact .nil
  · simp
  · intro a hle haccepted
    obtain ⟨m, o, header, hm, -⟩ := haccepted
    have hlt : a.method < c.methods.length := (List.getElem?_eq_some_iff.mp hm).1
    omega

theorem Arranges.cons {j : Nat} {es found : List Sited} (h : c.Arranges os (j + 1) found)
    (henters : c.Enters os j 0 es) :
    c.Arranges os j (Sequence.sortStable Sited.before es ++ found) := by
  have hmem : ∀ e, e ∈ Sequence.sortStable Sited.before es ↔ e ∈ es :=
    fun e => (Sequence.sortStable_perm es).mem_iff
  constructor
  · refine List.pairwise_append.mpr ⟨henters.pairwise_sortStable, h.order, ?_⟩
    intro e he e' he'
    have hj := (henters.finds e ((hmem e).mp he)).1
    have hle := (h.finds e' he').1
    exact Or.inl (by omega)
  · intro e he
    rcases List.mem_append.mp he with he | he
    · obtain ⟨hj, -, hfinds⟩ := henters.finds e ((hmem e).mp he)
      exact ⟨Nat.le_of_eq hj.symm, hfinds⟩
    · obtain ⟨hle, hfinds⟩ := h.finds e he
      exact ⟨by omega, hfinds⟩
  · intro a hle haccepted
    rw [List.map_append, List.mem_append]
    by_cases hj : a.method = j
    · left
      have hentered := henters.complete a hj (Nat.zero_le _) haccepted
      exact ((Sequence.sortStable_perm es).map _).mem_iff.mpr hentered
    · right
      exact h.complete a (by omega) haccepted

end ClassDef

/-- **The methods of a scan**, one behind the other. -/
theorem Register.visitMethods_arranges {r : Register} {c : ClassDef} {os : List Operator}
    {done ms : List Method} (hmethods : c.methods = done ++ ms) (hms : ∀ m ∈ ms, m.SparesLastLabel)
    (howner : r.owner = c.name) (hpending : r.pending = []) :
    ∃ r' found, (r.visitMethods os ms).outcome = .ok r' ∧ r'.pending = [] ∧
      r'.found = r.found ++ found.map (·.2) ∧ c.Arranges os done.length found := by
  induction ms generalizing r done with
  | nil =>
    rw [List.append_nil] at hmethods
    subst hmethods
    exact ⟨r, [], rfl, hpending, (List.append_nil _).symm, c.arranges_nil os⟩
  | cons m ms ih =>
    have hm : c.methods[done.length]? = some m := by simp [hmethods]
    have hall : os = [] ++ os := rfl
    obtain ⟨q, es, hq, hqowner, hqpending, hqfound, henters⟩ :=
      visitMethod_enters hm (hms m List.mem_cons_self) hall howner
    have hbehind : c.methods = (done ++ [m]) ++ ms := by simp [hmethods]
    have hspares : ∀ m' ∈ ms, m'.SparesLastLabel := fun m' hm' => hms m' (List.mem_cons_of_mem _ hm')
    obtain ⟨r', found, hr', hpending', hfound, harranges⟩ := ih hbehind hspares hqowner hqpending
    rw [List.length_append, List.length_singleton] at harranges
    refine ⟨r', _, ?_, hpending', ?_, harranges.cons henters⟩
    · unfold visitMethods
      rw [Journaled.outcome_bind, hq]
      exact hr'
    · rw [hfound, hqfound, hpending, sortIn_map_entry, List.map_map, List.map_append, List.append_assoc]
      rfl

/-- **What a scan finds, in order.**  The mutations are those of the sites at which a pass has an accepted
match, one for each, by methods, then by positions, then by operators. -/
theorem ClassDef.mutationPoints_arranged {c : ClassDef} {os : List Operator}
    (hc : ∀ m ∈ c.methods, m.SparesLastLabel) :
    ∃ found : List Sited, (c.mutationPoints os).outcome = .ok (found.map (·.2)) ∧
      found.Pairwise (fun e e' => e.1.Precedes e'.1) ∧ (∀ e ∈ found, c.Finds os e.1 e.2) ∧
      ∀ a, c.AcceptedAt os a ↔ (found.map (·.1)).count a = 1 := by
  have hall : c.methods = [] ++ c.methods := rfl
  have hblank : (Register.blank c.name).owner = c.name := rfl
  obtain ⟨r, found, hr, hpending, hfound, harranges⟩ :
      ∃ r found, ((Register.blank c.name).visitMethods os c.methods).outcome = .ok r ∧ r.pending = [] ∧
        r.found = [] ++ found.map (·.2) ∧ c.Arranges os 0 found :=
    Register.visitMethods_arranges hall hc hblank rfl
  refine ⟨found, ?_, harranges.order, fun e he => (harranges.finds e he).2, fun a => ?_⟩
  · unfold mutationPoints
    rw [Journaled.outcome_bind, hr]
    show Except.ok r.mutations = _
    rw [Register.mutations_eq_entered, Register.entered, hpending, hfound]
    simp
  · have hdistinct : (found.map (·.1)).Nodup :=
      (List.pairwise_map.mpr harranges.order).imp Site.Precedes.ne
    constructor
    · intro haccepted
      exact List.count_eq_one_of_mem hdistinct (harranges.complete a (Nat.zero_le _) haccepted)
    · intro hcount
      have hmem : a ∈ found.map (·.1) := List.count_pos_iff.mp (by omega)
      obtain ⟨e, he, rfl⟩ := List.mem_map.mp hmem
      exact (harranges.finds e he).2.acceptedAt

/-- A method with one comparison of two numbers. -/
def lessMethod : Method where
  name := "less"
  descriptor := "(II)I"
  isStatic := true
  instructions :=
    [{ opcode := .load .int, operand := .var 0, line := 7 },
     { opcode := .load .int, operand := .var 1, line := 7 },
     { opcode := .ifCmp .lt, operand := .label 0, line := 7 },
     { opcode := .const, operand := .int 0, line := 8 },
     { opcode := .ret (some .int), line := 8 },
     { opcode := .label, operand := .label 0 },
     { opcode := .const, operand := .int 1, line := 9 },
     { opcode := .ret (some .int), line := 9 }]

/-- A class with a method that is there twice. -/
def lessTwiceClass : ClassDef := { name := ⟨"Less"⟩, methods := [lessMethod, lessMethod] }

/-- Two operators for jumps, the first of them twice. -/
def jumpOperators : List Operator :=
  [Mutator.negateConditionals.operator, Mutator.conditionalsBoundary.operator,
    Mutator.negateConditionals.operator]

theorem mutationPoints_arranged_lessTwice :
    (∀ m ∈ lessTwiceClass.methods, m.SparesLastLabel) ∧
      ∃ found : List Sited,
        (lessTwiceClass.mutationPoints jumpOperators).outcome = .ok (found.map (·.2)) ∧
        found.Pairwise (fun e e' => e.1.Precedes e'.1) ∧
        (∀ e ∈ found, lessTwiceClass.Finds jumpOperators e.1 e.2) ∧
        ∀ a, lessTwiceClass.AcceptedAt jumpOperators a ↔ (found.map (·.1)).count a = 1 := by
  have hspare : ∀ m ∈ lessTwiceClass.methods, m.SparesLastLabel := by decide
  exact ⟨hspare, ClassDef.mutationPoints_arranged hspare⟩

/-- All operators match at one position, so they stand in the order of the list. -/
example : (lessTwiceClass.mutationPoints jumpOperators).outcome.map
    (·.map fun d => (d.description, d.id.index)) =
    .ok [("negated conditional", 0), ("changed conditional boundary", 0), ("negated conditional", 1),
      ("negated conditional", 2), ("changed conditional boundary", 1), ("negated conditional", 3)] := rfl

end StackMutants
