import StackMutants.Proofs.Scan
import StackMutants.Proofs.Sequence

/-!
# Proofs.Independence — operators and methods do not interfere

A pass enters its points in ascending order of position (`Method.pairwise_points`), so sorting them among
the points of other operators leaves them in their order, and filtering a scan gives them back
(`Method.filter_scan`).  Hence what a scan finds for one operator in one method is what a pass of the
operator over the method enters into a blank register, whatever other operators and methods there are
(`ClassDef.slice_independent`).
-/

namespace StackMutants

/-! ## A pass enters its points in ascending order -/

theorem Visitor.le_position_of_mem {v : Visitor} {method : Method} {s : v.State} {p skip : Nat}
    {rest : List Instruction} {seg : Segment} (h : seg ∈ v.segments method s p skip rest) :
    p ≤ seg.position := by
  obtain ⟨pre, post, hsplit⟩ := List.append_of_mem h
  have := position_of_split hsplit
  omega

theorem Visitor.pairwise_segments (v : Visitor) (method : Method) (s : v.State) (p skip : Nat)
    (rest : List Instruction) :
    (v.segments method s p skip rest).Pairwise fun a b => a.position < b.position := by
  induction rest generalizing s p skip with
  | nil => exact .nil
  | cons insn rest ih =>
    cases skip with
    | succ skip => exact ih s (p + 1) skip
    | zero =>
      unfold segments
      split
      · exact List.pairwise_cons.mpr ⟨fun seg hseg => le_position_of_mem hseg, ih _ _ _⟩
      · exact List.pairwise_cons.mpr ⟨fun seg hseg => le_position_of_mem hseg, ih _ _ _⟩
      · exact List.pairwise_cons.mpr ⟨fun seg hseg => le_position_of_mem hseg, ih _ _ _⟩

theorem Segment.position_of_hit? {s : Segment} {hit : Hit} (h : s.hit? = some hit) :
    hit.position = s.position := by
  unfold hit? at h
  split at h
  · cases h
    rfl
  · cases h

theorem Operator.pairwise_hits (o : Operator) (header : MethodHeader) (method : Method) :
    (o.hits header method).Pairwise fun a b => a.position < b.position := by
  refine (Visitor.pairwise_segments _ method _ 0 0 _).filterMap _ fun a b hlt hit hhit hit' hhit' => ?_
  rw [Segment.position_of_hit? hhit, Segment.position_of_hit? hhit']
  exact hlt

theorem MethodHeader.map_fst_points (header : MethodHeader) (operator : String) (index : Nat)
    (hits : List Hit) :
    (header.points operator index hits).map (·.1) = hits.map (·.position) := by
  induction hits generalizing index with
  | nil => rfl
  | cons hit hits ih => exact congrArg (hit.position :: ·) (ih (index + 1))

/-- The positions of the points that an operator enters are different and in order. -/
theorem MethodHeader.pairwise_fst_points (header : MethodHeader) (o : Operator) (m : Method) (index : Nat) :
    ((header.points o.id index (o.hits header m)).map (·.1)).Pairwise (· < ·) := by
  rw [map_fst_points, List.pairwise_map]
  exact o.pairwise_hits header m

theorem Method.pairwise_points (m : Method) (owner : ClassName) (o : Operator) :
    (m.points owner o).Pairwise fun e e' => e.1 < e'.1 := by
  unfold points
  split
  · exact .nil
  · rename_i header _
    exact List.pairwise_map.mp (header.pairwise_fst_points o m 0)

/-! ## Sorting entries in -/

namespace Register

theorem sortIn_cons (pending : List (Nat × Mutation)) (e : Nat × Mutation) (es : List (Nat × Mutation)) :
    sortIn pending (e :: es) = sortIn (insertByPosition e pending) es := rfl

theorem pairwise_insertByPosition (e : Nat × Mutation) {pending : List (Nat × Mutation)}
    (h : pending.Pairwise fun a b => a.1 ≤ b.1) :
    (insertByPosition e pending).Pairwise fun a b => a.1 ≤ b.1 := by
  refine Sequence.pairwise_insertStable (R := fun a b : Nat × Mutation => a.1 ≤ b.1)
    (fun _ _ _ => Nat.le_trans) h (fun y _ hy => ?_) fun y _ hy => ?_
  · exact Nat.le_of_lt (of_decide_eq_true hy)
  · exact Nat.le_of_not_lt (of_decide_eq_false hy)

/-- Entries that are in order stay in order. -/
theorem sortIn_of_pairwise {pending es : List (Nat × Mutation)}
    (h : (pending ++ es).Pairwise fun a b => a.1 ≤ b.1) : sortIn pending es = pending ++ es := by
  induction es generalizing pending with
  | nil => exact (List.append_nil pending).symm
  | cons e es ih =>
    have hlast : insertByPosition e pending = pending ++ [e] := by
      refine Sequence.insertStable_of_forall_not fun y hy => decide_eq_false ?_
      exact Nat.not_lt_of_le ((List.pairwise_append.mp h).2.2 y hy e List.mem_cons_self)
    rw [sortIn_cons, hlast, ih, List.append_assoc]
    · rfl
    · rw [List.append_assoc]
      exact h

/-- Filtering sorted entries is sorting filtered entries. -/
theorem filter_sortIn (p : Nat × Mutation → Bool) {pending : List (Nat × Mutation)}
    (h : pending.Pairwise fun a b => a.1 ≤ b.1) (es : List (Nat × Mutation)) :
    (sortIn pending es).filter p = sortIn (pending.filter p) (es.filter p) := by
  induction es generalizing pending with
  | nil => rfl
  | cons e es ih =>
    have hbehind : pending.Pairwise fun a b =>
        decide (e.1 < a.1) = true → decide (e.1 < b.1) = true := by
      refine h.imp fun hab hea => ?_
      exact decide_eq_true (Nat.lt_of_lt_of_le (of_decide_eq_true hea) hab)
    have hinsert : (insertByPosition e pending).filter p =
        if p e then insertByPosition e (pending.filter p) else pending.filter p :=
      Sequence.filter_insertStable p hbehind
    rw [sortIn_cons, ih (pairwise_insertByPosition e h), hinsert, List.filter_cons]
    split
    · rfl
    · rfl

end Register

/-! ## Slices of a scan -/

/-- Whether a mutation is of the operator in a method of the name and descriptor of `m`. -/
abbrev Method.slice (m : Method) (o : Operator) : Mutation → Bool :=
  Register.isOf m.name m.descriptor o.id

theorem Method.sortIn_points (m : Method) (owner : ClassName) (o : Operator) :
    Register.sortIn [] (m.points owner o) = m.points owner o :=
  Register.sortIn_of_pairwise ((m.pairwise_points owner o).imp Nat.le_of_lt)

theorem Method.slice_eq_true {m : Method} {owner : ClassName} {o : Operator} {e : Nat × Mutation}
    (he : e ∈ m.points owner o) : m.slice o e.2 = true := by
  obtain ⟨-, hname, hdescriptor, hoperator⟩ := id_of_mem_points (List.mem_map_of_mem he)
  simp [Register.isOf, hname, hdescriptor, hoperator]

/-- The points of an operator in a method can be told from the points of other operators, and from those in
methods of another name or descriptor. -/
theorem Method.slice_eq_false {m m' : Method} {owner : ClassName} {o o' : Operator} {e : Nat × Mutation}
    (he : e ∈ m'.points owner o') (h : o'.id ≠ o.id ∨ (m'.name, m'.descriptor) ≠ (m.name, m.descriptor)) :
    m.slice o e.2 = false := by
  obtain ⟨-, hname, hdescriptor, hoperator⟩ := id_of_mem_points (List.mem_map_of_mem he)
  simp only [Register.isOf, hname, hdescriptor, hoperator, Bool.eq_false_iff, Bool.and_eq_true,
    beq_iff_eq, ne_eq]
  rintro ⟨hsignature, hid⟩
  rcases h with h | h
  · exact h hid
  · exact h (Prod.ext hsignature.1 hsignature.2)

section Slices

variable {m : Method} {o : Operator} {os : List Operator}

/-- **A slice of a method's points** are the points of the operator alone, as it entered them. -/
theorem Method.filter_scan (hos : (os.map (·.id)).Nodup) (ho : o ∈ os) (owner : ClassName) :
    (m.scan owner os).filter (m.slice o) = (m.points owner o).map (·.2) := by
  have hothers : ∀ o' ∈ os, o'.id ≠ o.id →
      (m.points owner o').filter (fun e => m.slice o e.2) = [] := by
    intro o' _ hne
    exact List.filter_eq_nil_iff.mpr fun e he => by simp [slice_eq_false he (Or.inl hne)]
  have hown : (m.points owner o).filter (fun e => m.slice o e.2) = m.points owner o :=
    List.filter_eq_self.mpr fun e he => slice_eq_true he
  have hpoints : (os.flatMap (m.points owner)).filter (fun e => m.slice o e.2) = m.points owner o := by
    rw [List.filter_flatMap, Sequence.flatMap_eq_of_key hos ho hothers, hown]
  unfold scan
  rw [List.filter_map, Function.comp_def, Register.filter_sortIn _ .nil, List.filter_nil, hpoints,
    sortIn_points]

theorem Method.filter_scan_of_ne {m' : Method}
    (h : (m'.name, m'.descriptor) ≠ (m.name, m.descriptor)) (owner : ClassName) :
    (m'.scan owner os).filter (m.slice o) = [] := by
  refine List.filter_eq_nil_iff.mpr fun d hd => ?_
  obtain ⟨o', -, hpoint⟩ := mem_scan_iff.mp hd
  obtain ⟨e, he, rfl⟩ := List.mem_map.mp hpoint
  simp [slice_eq_false he (Or.inr h)]

/-- A pass over a blank register leaves the points of its operator in it, as it entered them. -/
theorem Register.blank_runPass {owner : ClassName} {output : List Instruction} {r : Register}
    (h : ((blank owner).runPass o m).outcome = .ok (output, r)) :
    r.mutations = (m.points owner o).map (·.2) := by
  obtain ⟨header, hheader, hreplay⟩ := exists_header_of_runPass h
  have hpoints : m.points owner o = header.points o.id 0 (o.hits header m) :=
    Method.points_of_header? hheader o
  have hreg := replay_register (o := o) (o.segments header m) (Method.owner_of_header? hheader)
  rw [show (blank owner).count header.name header.descriptor o.id = 0 from rfl, hreplay] at hreg
  have hpending : r.pending = sortIn [] (m.points owner o) := by
    rw [hpoints]
    exact congrArg Register.pending hreg
  have hfound : r.found = [] := congrArg Register.found hreg
  rw [mutations_eq_entered, entered, hfound, hpending, Method.sortIn_points, List.nil_append]

/-- What a scan relies on: labels to spare in every method, methods with different names or descriptors,
and operators with different identifiers. -/
structure ClassDef.Scannable (c : ClassDef) (os : List Operator) : Prop where
  spares : ∀ m ∈ c.methods, m.SparesLastLabel
  signatures : (c.methods.map fun m => (m.name, m.descriptor)).Nodup
  operators : (os.map (·.id)).Nodup

namespace ClassDef

variable {c : ClassDef}

/-- A slice of a scan are the points of the operator in the method, as it entered them. -/
theorem filter_mutationPoints (h : c.Scannable os) (hm : m ∈ c.methods) (ho : o ∈ os) :
    ∃ found, (c.mutationPoints os).outcome = .ok found ∧
      found.filter (m.slice o) = (m.points c.name o).map (·.2) := by
  refine ⟨_, mutationPoints_outcome h.spares h.signatures h.operators, ?_⟩
  have hothers : ∀ m' ∈ c.methods, (m'.name, m'.descriptor) ≠ (m.name, m.descriptor) →
      (m'.scan c.name os).filter (m.slice o) = [] := fun m' _ hne => Method.filter_scan_of_ne hne c.name
  rw [List.filter_flatMap, Sequence.flatMap_eq_of_key h.signatures hm hothers]
  exact Method.filter_scan h.operators ho c.name

/-- **Operators and methods do not interfere.**  What a scan finds for an operator in a method is what a
pass of that operator over that method alone enters into a blank register.  So it is the same in every scan
of a class of that name in which the method and the operator occur, whatever occurs beside them. -/
theorem slice_independent {c' : ClassDef} {os' : List Operator} (h : c.Scannable os)
    (h' : c'.Scannable os') (hname : c'.name = c.name) (hm : m ∈ c.methods) (hm' : m ∈ c'.methods)
    (ho : o ∈ os) (ho' : o ∈ os') :
    ∃ found found' output r, (c.mutationPoints os).outcome = .ok found ∧
      (c'.mutationPoints os').outcome = .ok found' ∧
      ((Register.blank c.name).runPass o m).outcome = .ok (output, r) ∧
      found.filter (Register.isOf m.name m.descriptor o.id) = r.mutations ∧
      found'.filter (Register.isOf m.name m.descriptor o.id) = r.mutations := by
  obtain ⟨found, hfound, hslice⟩ := filter_mutationPoints h hm ho
  obtain ⟨found', hfound', hslice'⟩ := filter_mutationPoints h' hm' ho'
  obtain ⟨output, r, hrun⟩ := (Register.blank c.name).exists_runPass o (h.spares m hm)
  have hpoints := Register.blank_runPass hrun
  refine ⟨found, found', output, r, hfound, hfound', hrun, hslice.trans hpoints.symm, ?_⟩
  rw [hname] at hslice'
  exact hslice'.trans hpoints.symm

end ClassDef

end Slices

/-- `sumClass` with a method of the same name in front of `sumMethod`. -/
def twoSumsClass : ClassDef :=
  { sumClass with
    methods := [{ sumMethod with descriptor := "(III)I" }, sumMethod] }

theorem slice_independent_twoSums :
    sumClass.Scannable [Mutator.math.operator] ∧
    twoSumsClass.Scannable [Mutator.returnVals.operator, Mutator.math.operator] ∧
    ∃ found found' output r,
      (sumClass.mutationPoints [Mutator.math.operator]).outcome = .ok found ∧
      (twoSumsClass.mutationPoints
        [Mutator.returnVals.operator, Mutator.math.operator]).outcome = .ok found' ∧
      ((Register.blank sumClass.name).runPass Mutator.math.operator sumMethod).outcome =
        .ok (output, r) ∧
      found.filter (Register.isOf "sum" "(II)I" Mutator.math.operator.id) = r.mutations ∧
      found'.filter (Register.isOf "sum" "(II)I" Mutator.math.operator.id) = r.mutations := by
  have h : sumClass.Scannable [Mutator.math.operator] := ⟨by decide, by decide, by decide⟩
  have h' : twoSumsClass.Scannable [Mutator.returnVals.operator, Mutator.math.operator] :=
    ⟨by decide, by decide, by decide⟩
  exact ⟨h, h', ClassDef.slice_independent h h' rfl (by decide) (by decide) (by simp) (by simp)⟩

end StackMutants
