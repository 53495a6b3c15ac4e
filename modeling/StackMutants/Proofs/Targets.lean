import StackMutants.Proofs.Independence

/-!
# Proofs.Targets — which replacement a pass emits

A pass numbers its accepted matches on from the count of the register.  So the index of the target says which of
them is the target: `Register.emitted_eq` finds it in the list of accepted matches, and a mutant is made from the
match whose number is the index of its identifier (`ClassDef.exists_accepted_of_buildMutant`).  Conversely, a pass
that is aimed at a point emits the replacement of that point (`Register.exists_splice_of_mem_points`).
-/

namespace StackMutants

/-- The segment is a match whose replacement is accepted. -/
def Segment.isAccepted (s : Segment) : Bool := s.hit?.isSome

theorem Segment.isAccepted_iff {s : Segment} :
    s.isAccepted = true ↔ ∃ p first others sub, s = .matched p first others sub none := by
  cases s with
  | declined p insn reason => simp [isAccepted, hit?]
  | matched p first others sub fault => cases fault <;> simp [isAccepted, hit?]

/-- The accepted matches of a pass. -/
def Operator.accepted (o : Operator) (header : MethodHeader) (method : Method) : List Segment :=
  (o.segments header method).filter Segment.isAccepted

/-- Two accepted matches at the same position are the same one. -/
theorem Operator.eq_of_accepted {o : Operator} {header : MethodHeader} {m : Method} {i j : Nat}
    {s t : Segment} (hs : (o.accepted header m)[i]? = some s) (ht : (o.accepted header m)[j]? = some t)
    (hposition : s.position = t.position) : i = j := by
  have hascending : (o.accepted header m).Pairwise fun s t => s.position < t.position :=
    (Visitor.pairwise_segments _ m _ 0 0 _).filter _
  obtain ⟨hi, rfl⟩ := List.getElem?_eq_some_iff.mp hs
  obtain ⟨hj, rfl⟩ := List.getElem?_eq_some_iff.mp ht
  have hlt := List.pairwise_iff_getElem.mp hascending
  rcases Nat.lt_trichotomy i j with h | h | h
  · have := hlt i j hi hj h
    omega
  · exact h
  · have := hlt j i hj hi h
    omega

/-- The identifier of a point that an operator has in the method. -/
def MethodHeader.mutationId (header : MethodHeader) (operator : String) (index : Nat) : MutationId :=
  { owner := header.owner, method := header.name, descriptor := header.descriptor, operator, index }

theorem MethodHeader.mutationId_inj {header : MethodHeader} {operator : String} {index index' : Nat} :
    header.mutationId operator index = header.mutationId operator index' ↔ index = index' := by
  simp [mutationId]

namespace Register

variable {r : Register} {o : Operator} {header : MethodHeader}

/-- Whether an accepted match is the target. -/
theorem emits_of_accepted (howner : header.owner = r.owner) {index : Nat}
    (htarget : r.target = some (header.mutationId o.id index)) {s : Segment} (h : s.isAccepted) :
    r.emits o header s = decide (index = r.count header.name header.descriptor o.id) := by
  obtain ⟨p, first, others, sub, rfl⟩ := Segment.isAccepted_iff.mp h
  have hnext : r.nextId header.name header.descriptor o.id =
      header.mutationId o.id (r.count header.name header.descriptor o.id) := by
    unfold nextId MethodHeader.mutationId
    rw [howner]
  unfold emits
  dsimp only
  rw [meets_fst, enter_fst]
  show decide (r.target = some _) = _
  rw [htarget, hnext]
  simp only [Option.some.injEq, MethodHeader.mutationId_inj]

theorem emits_of_not_accepted {s : Segment} (h : ¬ s.isAccepted) : r.emits o header s = false := by
  unfold emits
  split
  · exact absurd rfl h
  · rfl

/-- A segment without an accepted match leaves the register alone. -/
theorem replaySegment_of_not_accepted {s : Segment} (h : ¬ s.isAccepted) :
    (r.replaySegment o header s).2 = r := by
  unfold replaySegment
  split
  · rfl
  · rfl
  · exact absurd rfl h

/-- An accepted match is counted, and changes neither the class nor the target. -/
theorem replaySegment_of_accepted (r : Register) (o : Operator) (header : MethodHeader) {s : Segment}
    (h : s.isAccepted) :
    (r.replaySegment o header s).2.owner = r.owner ∧ (r.replaySegment o header s).2.target = r.target ∧
      (r.replaySegment o header s).2.count header.name header.descriptor o.id =
        r.count header.name header.descriptor o.id + 1 := by
  obtain ⟨p, first, others, sub, rfl⟩ := Segment.isAccepted_iff.mp h
  rw [replaySegment_accepted]
  refine ⟨rfl, rfl, ?_⟩
  refine (count_enter r _ _ _ p first.line sub.description _ _ _).trans ?_
  rw [if_pos ⟨rfl, rfl, rfl⟩]

/-- A target whose index is below the count is not met. -/
theorem emitted_eq_nil (howner : header.owner = r.owner) {index : Nat}
    (htarget : r.target = some (header.mutationId o.id index))
    (hlt : index < r.count header.name header.descriptor o.id) (ss : List Segment) :
    r.emitted o header ss = [] := by
  induction ss generalizing r with
  | nil => rfl
  | cons s ss ih =>
    rw [emitted_cons]
    by_cases haccepted : s.isAccepted
    · obtain ⟨howner', htarget', hcount⟩ := replaySegment_of_accepted r o header haccepted
      have hrest := ih (howner.trans howner'.symm) (htarget'.trans htarget) (by omega)
      rw [emits_of_accepted howner htarget haccepted, decide_eq_false (Nat.ne_of_lt hlt), hrest]
      rfl
    · rw [emits_of_not_accepted haccepted, replaySegment_of_not_accepted haccepted]
      exact ih howner htarget hlt

/-- **The replacement that a pass emits** is that of the accepted match whose number is the index of the target,
counted on from what the register has. -/
theorem emitted_eq (howner : header.owner = r.owner) {k : Nat}
    (htarget : r.target = some
      (header.mutationId o.id (r.count header.name header.descriptor o.id + k))) (ss : List Segment) :
    r.emitted o header ss = ((ss.filter Segment.isAccepted)[k]?).toList := by
  induction ss generalizing r k with
  | nil => rfl
  | cons s ss ih =>
    rw [emitted_cons]
    by_cases haccepted : s.isAccepted
    · obtain ⟨howner', htarget', hcount⟩ := replaySegment_of_accepted r o header haccepted
      have hlast := howner.trans howner'.symm
      rw [emits_of_accepted howner htarget haccepted, List.filter_cons_of_pos haccepted]
      cases k with
      | zero =>
        rw [emitted_eq_nil hlast (htarget'.trans htarget) (by omega)]
        simp
      | succ k =>
        rw [decide_eq_false (by omega), List.getElem?_cons_succ, ih hlast (k := k)]
        · rfl
        · rw [htarget', htarget, hcount, Nat.add_right_comm, Nat.add_assoc]
    · rw [emits_of_not_accepted haccepted, replaySegment_of_not_accepted haccepted,
        List.filter_cons_of_neg haccepted]
      exact ih howner htarget

/-- A pass whose target is an accepted match emits the replacement in the place of the region. -/
theorem exists_splice_of_target {m : Method} (hheader : m.header? r.owner = some header) {k : Nat}
    {seg : Segment} (hseg : (o.accepted header m)[k]? = some seg)
    (htarget : r.target = some
      (header.mutationId o.id (r.count header.name header.descriptor o.id + k))) :
    ∃ p first others sub output r', seg = .matched p first others sub none ∧
      (r.runPass o m).outcome = .ok (output, r') ∧ IsSplice m p sub output := by
  have hemitted : r.emitted o header (o.segments header m) = [seg] := by
    rw [emitted_eq (Method.owner_of_header? hheader) htarget]
    exact congrArg Option.toList hseg
  have hone : (r.emitted o header (o.segments header m)).length ≤ 1 := by
    rw [hemitted]
    exact Nat.le_refl 1
  rcases replay_segments hone with ⟨hnil, -⟩ | ⟨p, first, others, sub, hsingle, hsplice⟩
  · rw [hemitted] at hnil
    cases hnil
  · rw [hemitted] at hsingle
    exact ⟨p, first, others, sub, _, _, (List.cons_eq_cons.mp hsingle).1, runPass_outcome hheader o,
      hsplice⟩

end Register

/-! ## Points as targets -/

/-- The point of a hit has the identifier with its number. -/
theorem MethodHeader.exists_getElem?_of_mem_points {header : MethodHeader} {operator : String} {index : Nat}
    {hits : List Hit} {e : Nat × Mutation} (he : e ∈ header.points operator index hits) :
    ∃ k hit, hits[k]? = some hit ∧ e.1 = hit.position ∧
      e.2 = { id := header.mutationId operator (index + k), line := hit.line,
              description := hit.description } := by
  induction hits generalizing index with
  | nil => cases he
  | cons hit hits ih =>
    rcases List.mem_cons.mp he with rfl | he
    · exact ⟨0, hit, rfl, rfl, rfl⟩
    · obtain ⟨k, hit', hat, hposition, hmutation⟩ := ih he
      rw [Nat.add_assoc, Nat.add_comm 1 k] at hmutation
      exact ⟨k + 1, hit', hat, hposition, hmutation⟩

/-- The hits of a pass are its accepted matches. -/
theorem Operator.exists_accepted_of_hits {o : Operator} {header : MethodHeader} {m : Method} {k : Nat}
    {hit : Hit} (h : (o.hits header m)[k]? = some hit) :
    ∃ seg, (o.accepted header m)[k]? = some seg ∧ seg.hit? = some hit := by
  have hsame : (o.hits header m).map some = (o.accepted header m).map Segment.hit? := by
    unfold hits accepted
    rw [List.map_filterMap_some_eq_filter_map_isSome, List.filter_map]
    rfl
  have hat := congrArg (·[k]?) hsame
  rw [List.getElem?_map, h, Option.map_some, List.getElem?_map] at hat
  exact Option.map_eq_some_iff.mp hat.symm

/-- **A pass that is aimed at a point** emits the replacement of the match that the point stands for. -/
theorem Register.exists_splice_of_mem_points {r : Register} {o : Operator} {m : Method}
    {header : MethodHeader} (hheader : m.header? r.owner = some header) {e : Nat × Mutation}
    (he : e ∈ header.points o.id (r.count header.name header.descriptor o.id) (o.hits header m)) :
    ∃ first sub output r', m.instructions[e.1]? = some first ∧
      (∃ t, ((o.visitor header).visit t m.instructions e.1).1 = .propose sub) ∧
      e.2.line = first.line ∧ e.2.description = sub.description ∧
      ({ r with target := some e.2.id }.runPass o m).outcome = .ok (output, r') ∧
      IsSplice m e.1 sub output := by
  obtain ⟨k, hit, hat, hposition, hmutation⟩ := MethodHeader.exists_getElem?_of_mem_points he
  obtain ⟨seg, hseg, hhit⟩ := Operator.exists_accepted_of_hits hat
  have htarget : some e.2.id = some
      (header.mutationId o.id (r.count header.name header.descriptor o.id + k)) := by rw [hmutation]
  obtain ⟨p, first, others, sub, output, r', rfl, hrun, hsplice⟩ :=
    exists_splice_of_target (r := { r with target := some e.2.id }) hheader hseg htarget
  obtain rfl : _ = hit := Option.some.inj hhit
  obtain rfl : e.1 = p := hposition
  have hsegment := (List.mem_filter.mp (List.mem_of_getElem? hseg)).1
  obtain ⟨behind, hdrop, -⟩ := Visitor.matched_of_mem List.drop_zero hsegment
  have hfirst : m.instructions[e.1]? = some first := by
    rw [← List.head?_drop, hdrop]
    rfl
  rw [hmutation] at hrun ⊢
  exact ⟨first, sub, output, r', hfirst, Visitor.exists_visit_of_mem hsegment, rfl, rfl, hrun, hsplice⟩

/-- **The match that a mutant is made from**: of the accepted matches of its operator in its method, the one whose
number is the index of its identifier. -/
theorem ClassDef.exists_accepted_of_buildMutant {c : ClassDef} {os : List Operator} {id : MutationId}
    {m : Mutant} (h : (c.buildMutant os id).outcome = .ok m) :
    ∃ o index method header p first others sub output, o ∈ os ∧
      c.methods.findIdx? (·.isMethodOf id) = some index ∧ c.methods[index]? = some method ∧
      method.header? c.name = some header ∧ id = header.mutationId o.id id.index ∧
      (o.accepted header method)[id.index]? = some (.matched p first others sub none) ∧
      IsSplice method p sub output ∧ m.definition = c.withInstructions index output := by
  obtain ⟨howner, o, index, method, output, r, ho, hindex, hmethod, hrun, happlied, -, hdefinition⟩ :=
    ClassDef.buildMutant_eq_ok_iff.mp h
  obtain ⟨header, hheader, -⟩ := Register.exists_header_of_runPass hrun
  have hoperator : o.id = id.operator := by simpa using List.find?_some ho
  obtain ⟨hname, hdescriptor⟩ : method.name = id.method ∧ method.descriptor = id.descriptor := by
    obtain ⟨hlt, hof, -⟩ := List.findIdx?_eq_some_iff_getElem.mp hindex
    rw [List.getElem?_eq_getElem hlt] at hmethod
    rw [Option.some.inj hmethod] at hof
    simpa [Method.isMethodOf] using hof
  have hid : id = header.mutationId o.id id.index := by
    unfold MethodHeader.mutationId
    rw [Method.owner_of_header? hheader, Method.name_of_header? hheader,
      Method.descriptor_of_header? hheader, hname, hdescriptor, hoperator]
    rfl
  -- the register is new, so the index of its target is the number of a match
  have htarget : (Register.seeking id).target = some (header.mutationId o.id (0 + id.index)) := by
    rw [Nat.zero_add, ← hid]
    rfl
  have hemitted : (Register.seeking id).emittedIn o method =
      ((o.accepted header method)[id.index]?).toList := by
    unfold Register.emittedIn
    rw [hheader]
    exact Register.emitted_eq (Method.owner_of_header? hheader) htarget _
  obtain ⟨-, hcount, hpass⟩ := (Register.numbered_seeking id).runPass hrun
  have hone : ((Register.seeking id).emittedIn o method).length = 1 := by
    rw [happlied] at hcount
    exact (Nat.zero_add _).symm.trans hcount
  obtain ⟨seg, hseg⟩ := List.length_eq_one_iff.mp hone
  obtain ⟨p, first, others, sub, rfl, hsplice⟩ := hpass.splice seg (hseg ▸ List.mem_cons_self)
  rw [hemitted, Option.toList_eq_singleton_iff] at hseg
  exact ⟨o, index, method, header, p, first, others, sub, output, List.mem_of_find?_eq_some ho, hindex,
    hmethod, howner ▸ hheader, hid, hseg, hsplice, hdefinition⟩

/-- The proposal of a built-in operator that a mutant is made from. -/
theorem ClassDef.exists_match_of_buildMutant {c : ClassDef} {ms : List Mutator} {id : MutationId}
    {mutant : Mutant} (h : (c.buildMutant (ms.map (·.operator)) id).outcome = .ok mutant) :
    ∃ (m : Mutator) (index : Nat) (method : Method) (header : MethodHeader) (p : Nat) (first : Instruction)
      (others : List Instruction) (sub : Substitution) (output : List Instruction),
      c.methods.findIdx? (·.isMethodOf id) = some index ∧ c.methods[index]? = some method ∧
      method.header? c.name = some header ∧ id = header.mutationId m.operator.id id.index ∧
      (m.operator.accepted header method)[id.index]? = some (.matched p first others sub none) ∧
      (∃ t, ((m.visitor header).visit t method.instructions p).1 = .propose sub) ∧
      IsSplice method p sub output ∧ mutant.definition = c.withInstructions index output := by
  obtain ⟨o, index, method, header, p, first, others, sub, output, ho, hindex, hmethod, hheader, hid,
    haccepted, hsplice, hdefinition⟩ := exists_accepted_of_buildMutant h
  obtain ⟨m, -, rfl⟩ := List.mem_map.mp ho
  have hsegment := (List.mem_filter.mp (List.mem_of_getElem? haccepted)).1
  exact ⟨m, index, method, header, p, first, others, sub, output, hindex, hmethod, hheader, hid, haccepted,
    Visitor.exists_visit_of_mem hsegment, hsplice, hdefinition⟩

end StackMutants
