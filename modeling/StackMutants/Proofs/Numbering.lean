import StackMutants.Pass.Replay
import Mathlib.Data.List.Perm.Basic

/-!
# Proofs.Numbering — how a register numbers the points of a pass

A method that does not mention the greatest label can be visited (`Method.exists_header`).  A pass enters
one point for each accepted match, in order, and numbers the points of its operator in its method on from
those that the register has: `points` says which entries these are, and `replay_register` that a pass does
nothing else to the register than to sort them in and to note whether one of them is the target.

`Numbered` is the invariant behind identifiers: every index that is in use lies below the count of its
operator in its method.  So a new point has an identifier that no point had before, and the target of a
register is met at most once (`Numbered.applied_replaySegment`).
-/

namespace StackMutants

/-! ## Methods that can be visited -/

/-- The greatest label there is. -/
def lastLabel : UInt32 := 4294967295

/-- No instruction of the method mentions the greatest label. -/
def Method.SparesLastLabel (m : Method) : Prop := lastLabel ∉ m.mentionedLabels

instance decidableSparesLastLabel (m : Method) : Decidable m.SparesLastLabel :=
  inferInstanceAs (Decidable (lastLabel ∉ m.mentionedLabels))

instance maxEqOrUInt32 : Std.MaxEqOr UInt32 where
  max_eq_or a b := by
    show (if a ≤ b then b else a) = a ∨ (if a ≤ b then b else a) = b
    split
    · exact Or.inr rfl
    · exact Or.inl rfl

namespace Method

variable {m : Method} {owner : ClassName} {header : MethodHeader}

theorem exists_header (h : m.SparesLastLabel) (owner : ClassName) :
    ∃ header, m.header? owner = some header := by
  unfold header? freshLabel?
  cases hmax : m.mentionedLabels.max? with
  | none => exact ⟨_, rfl⟩
  | some greatest =>
    have hne : greatest + 1 ≠ 0 := by
      intro h0
      have hg : greatest = lastLabel := by
        rw [← UInt32.add_sub_cancel greatest 1, h0]
        rfl
      exact h (hg ▸ List.max?_mem hmax)
    simp only [if_neg hne]
    exact ⟨_, rfl⟩

theorem owner_of_header? (h : m.header? owner = some header) : header.owner = owner := by
  obtain ⟨_, _, rfl⟩ := Option.map_eq_some_iff.mp h
  rfl

theorem name_of_header? (h : m.header? owner = some header) : header.name = m.name := by
  obtain ⟨_, _, rfl⟩ := Option.map_eq_some_iff.mp h
  rfl

theorem descriptor_of_header? (h : m.header? owner = some header) :
    header.descriptor = m.descriptor := by
  obtain ⟨_, _, rfl⟩ := Option.map_eq_some_iff.mp h
  rfl

theorem isStatic_of_header? (h : m.header? owner = some header) : header.isStatic = m.isStatic := by
  obtain ⟨_, _, rfl⟩ := Option.map_eq_some_iff.mp h
  rfl

end Method

namespace Register

variable {r : Register} {o : Operator} {header : MethodHeader}

theorem runPass_outcome {method : Method} (h : method.header? r.owner = some header) (o : Operator) :
    (r.runPass o method).outcome = .ok (r.replay o header (o.segments header method)) := by
  unfold runPass
  rw [h]

/-! ## Entering a point -/

/-- The identifier of the next point of an operator in a method. -/
def nextId (r : Register) (name descriptor operator : String) : MutationId :=
  { owner := r.owner, method := name, descriptor, operator, index := r.count name descriptor operator }

theorem enter_fst (r : Register) (name descriptor operator : String) (position : Nat) (line : UInt32)
    (description : String) : (r.enter name descriptor operator position line description).1 =
      r.nextId name descriptor operator := rfl

theorem entered_enter (r : Register) (name descriptor operator : String) (position : Nat)
    (line : UInt32) (description : String) :
    (r.enter name descriptor operator position line description).2.entered.Perm
      ({ id := r.nextId name descriptor operator, line, description } :: r.entered) := by
  unfold entered enter insertByPosition
  dsimp only
  refine (((Sequence.insertStable_perm _ _).map Prod.snd).append_left r.found).trans ?_
  exact List.perm_middle

/-- Entering a point counts it for its operator and its method, and for no other. -/
theorem count_enter (r : Register) (name descriptor operator : String) (position : Nat)
    (line : UInt32) (description : String) (name' descriptor' operator' : String) :
    (r.enter name descriptor operator position line description).2.count name' descriptor' operator' =
      r.count name' descriptor' operator' +
        if name = name' ∧ descriptor = descriptor' ∧ operator = operator' then 1 else 0 := by
  unfold count
  rw [(entered_enter r name descriptor operator position line description).countP_eq,
    List.countP_cons]
  congr 1
  simp [isOf, nextId, and_assoc]

/-- Asking for a mutation changes nothing but whether the target has been met. -/
theorem meets_snd (r : Register) (id : MutationId) :
    (r.meets id).2 = { r with applied := r.applied || decide (r.target = some id) } := by
  unfold meets
  split
  · rename_i ht
    simp [ht]
  · rename_i ht
    simp [ht]

theorem meets_fst (r : Register) (id : MutationId) :
    (r.meets id).1 = decide (r.target = some id) := by
  unfold meets
  split
  · rename_i ht
    simp [ht]
  · rename_i ht
    simp [ht]

@[simp] theorem entered_closeMethod (r : Register) : r.closeMethod.entered = r.entered := by
  simp [entered, closeMethod]

@[simp] theorem count_closeMethod (r : Register) (name descriptor operator : String) :
    r.closeMethod.count name descriptor operator = r.count name descriptor operator := by
  simp [count]

theorem mutations_eq_entered (r : Register) : r.mutations = r.entered := rfl

/-! ## Identifiers are new -/

/-- The indices in use lie below the counts, and the target is met if and only if it is entered. -/
structure Numbered (r : Register) : Prop where
  index_lt : ∀ m ∈ r.entered, m.id.index < r.count m.id.method m.id.descriptor m.id.operator
  applied_iff : r.applied = true ↔ ∃ m ∈ r.entered, r.target = some m.id

theorem numbered_blank (owner : ClassName) : (blank owner).Numbered :=
  ⟨by simp [blank, entered], by simp [blank, entered]⟩

theorem numbered_seeking (target : MutationId) : (seeking target).Numbered :=
  ⟨by simp [seeking, blank, entered], by simp [seeking, blank, entered]⟩

theorem Numbered.closeMethod (h : r.Numbered) : r.closeMethod.Numbered := by
  constructor
  · simpa using h.index_lt
  · rw [entered_closeMethod]
    exact h.applied_iff

/-- The next identifier is none of those entered before. -/
theorem Numbered.ne_nextId (h : r.Numbered) {m : Mutation} (hm : m ∈ r.entered)
    (name descriptor operator : String) : m.id ≠ r.nextId name descriptor operator := by
  intro heq
  have hlt := h.index_lt m hm
  rw [heq] at hlt
  exact Nat.lt_irrefl _ hlt

/-- A point is entered and asked for as the target: the invariant is kept. -/
theorem Numbered.enter (h : r.Numbered) (name descriptor operator : String) (position : Nat)
    (line : UInt32) (description : String) :
    Numbered { (r.enter name descriptor operator position line description).2 with
      applied := r.applied || decide (r.target = some (r.nextId name descriptor operator)) } := by
  have hperm := entered_enter r name descriptor operator position line description
  have hcount := count_enter r name descriptor operator position line description
  constructor
  · intro m hm
    show m.id.index < (r.enter name descriptor operator position line description).2.count _ _ _
    rw [hcount]
    rcases List.mem_cons.mp (hperm.mem_iff.mp hm) with rfl | hm
    · simp [nextId]
    · have := h.index_lt m hm
      omega
  · show (r.applied || decide (r.target = some _)) = true ↔ ∃ m ∈ (r.enter ..).2.entered, r.target = some m.id
    rw [Bool.or_eq_true, h.applied_iff, decide_eq_true_iff]
    constructor
    · rintro (⟨m, hm, ht⟩ | ht)
      · exact ⟨m, hperm.mem_iff.mpr (List.mem_cons_of_mem _ hm), ht⟩
      · exact ⟨_, hperm.mem_iff.mpr List.mem_cons_self, ht⟩
    · rintro ⟨m, hm, ht⟩
      rcases List.mem_cons.mp (hperm.mem_iff.mp hm) with rfl | hm
      · exact Or.inr ht
      · exact Or.inl ⟨m, hm, ht⟩

/-- Whether the register emits the replacement of a segment. -/
def emits (r : Register) (o : Operator) (header : MethodHeader) : Segment → Bool
  | .matched p first _ sub none =>
    let (id, r) := r.enter header.name header.descriptor o.id p first.line sub.description
    (r.meets id).1
  | _ => false

theorem replaySegment_accepted (r : Register) (o : Operator) (header : MethodHeader) (p : Nat)
    (first : Instruction) (others : List Instruction) (sub : Substitution) :
    (r.replaySegment o header (.matched p first others sub none)).2 =
      { (r.enter header.name header.descriptor o.id p first.line sub.description).2 with
        applied := r.applied || decide (r.target = some (r.nextId header.name header.descriptor o.id)) } := by
  have h := meets_snd (r.enter header.name header.descriptor o.id p first.line sub.description).2
    (r.nextId header.name header.descriptor o.id)
  unfold replaySegment
  dsimp only [enter_fst]
  split <;> simp_all <;> rfl

theorem Numbered.replaySegment (h : r.Numbered) (o : Operator) (header : MethodHeader)
    (s : Segment) : (r.replaySegment o header s).2.Numbered := by
  cases s with
  | declined p insn reason => exact h
  | matched p first others sub fault =>
    cases fault with
    | some fault => exact h
    | none =>
      rw [replaySegment_accepted]
      exact h.enter _ _ _ _ _ _

/-- **The target is met at most once**: a register that emits a replacement had emitted none before. -/
theorem Numbered.applied_replaySegment (h : r.Numbered) (o : Operator) (header : MethodHeader)
    (s : Segment) :
    (r.replaySegment o header s).2.applied.toNat = r.applied.toNat + (r.emits o header s).toNat := by
  cases s with
  | declined p insn reason => rfl
  | matched p first others sub fault =>
    cases fault with
    | some fault => rfl
    | none =>
      -- a target that was met has been entered, and the next identifier has not
      have hnot : r.target = some (r.nextId header.name header.descriptor o.id) → r.applied = false := by
        intro ht
        rw [← Bool.not_eq_true, h.applied_iff]
        rintro ⟨m, hm, hm'⟩
        exact h.ne_nextId hm _ _ _ (Option.some.inj (hm'.symm.trans ht))
      rw [replaySegment_accepted]
      unfold emits
      dsimp only
      rw [meets_fst, enter_fst]
      show (r.applied || decide (r.target = some _)).toNat = _ + (decide (r.target = some _)).toNat
      by_cases ht : r.target = some (r.nextId header.name header.descriptor o.id)
      · simp [ht, hnot ht]
      · simp [ht]

end Register

/-! ## The points of a pass -/

/-- An accepted match of a pass. -/
structure Hit where
  position : Nat
  line : UInt32
  description : String

def Segment.hit? : Segment → Option Hit
  | .matched p first _ sub none => some ⟨p, first.line, sub.description⟩
  | _ => none

@[simp] theorem Segment.hit?_accepted (p : Nat) (first : Instruction) (others : List Instruction)
    (sub : Substitution) : (Segment.matched p first others sub none).hit? =
      some ⟨p, first.line, sub.description⟩ := rfl

def Operator.hits (o : Operator) (header : MethodHeader) (method : Method) : List Hit :=
  (o.segments header method).filterMap (·.hit?)

/-- The entries of hits that an operator has in a method, numbered on from `index`. -/
def MethodHeader.points (header : MethodHeader) (operator : String) :
    (index : Nat) → List Hit → List (Nat × Mutation)
  | _, [] => []
  | index, hit :: hits =>
    let id : MutationId :=
      { owner := header.owner, method := header.name, descriptor := header.descriptor, operator, index }
    (hit.position, { id, line := hit.line, description := hit.description }) ::
      header.points operator (index + 1) hits

namespace MethodHeader

variable {header : MethodHeader} {operator : String}

/-- What the identifier of a point consists of. -/
theorem id_of_mem_points {index : Nat} {hits : List Hit} {e : Nat × Mutation}
    (he : e ∈ header.points operator index hits) :
    e.2.id.owner = header.owner ∧ e.2.id.method = header.name ∧
      e.2.id.descriptor = header.descriptor ∧ e.2.id.operator = operator ∧ index ≤ e.2.id.index := by
  induction hits generalizing index with
  | nil => simp [points] at he
  | cons hit hits ih =>
    rcases List.mem_cons.mp he with rfl | he
    · exact ⟨rfl, rfl, rfl, rfl, Nat.le_refl _⟩
    · obtain ⟨h1, h2, h3, h4, h5⟩ := ih he
      exact ⟨h1, h2, h3, h4, by omega⟩

/-- Different points have different indices. -/
theorem eq_of_mem_points {index : Nat} {hits : List Hit} {e e' : Nat × Mutation}
    (he : e ∈ header.points operator index hits) (he' : e' ∈ header.points operator index hits)
    (hid : e.2.id.index = e'.2.id.index) : e = e' := by
  induction hits generalizing index with
  | nil => simp [points] at he
  | cons hit hits ih =>
    rcases List.mem_cons.mp he with rfl | he <;> rcases List.mem_cons.mp he' with rfl | he'
    · rfl
    · have := (id_of_mem_points he').2.2.2.2
      simp only at hid
      omega
    · have := (id_of_mem_points he).2.2.2.2
      simp only at hid
      omega
    · exact ih he he'

end MethodHeader

namespace Register

variable {r : Register} {o : Operator} {header : MethodHeader}

/-- Sorts entries in among entries in ascending order of their positions. -/
def sortIn (pending : List (Nat × Mutation)) (es : List (Nat × Mutation)) : List (Nat × Mutation) :=
  es.foldl (fun sorted e => insertByPosition e sorted) pending

/-- **What a pass does to a register.** -/
theorem replay_register (ss : List Segment) (howner : header.owner = r.owner) :
    (r.replay o header ss).2 =
      let entries := header.points o.id (r.count header.name header.descriptor o.id)
        (ss.filterMap (·.hit?))
      { r with
        pending := sortIn r.pending entries
        applied := r.applied || entries.any fun e => r.target = some e.2.id } := by
  induction ss generalizing r with
  | nil => simp [replay, MethodHeader.points, sortIn]
  | cons s ss ih =>
    show ((r.replaySegment o header s).2.replay o header ss).2 = _
    cases s with
    | declined p insn reason => exact ih howner
    | matched p first others sub fault =>
      cases fault with
      | some fault => exact ih howner
      | none =>
        set q := (r.replaySegment o header (.matched p first others sub none)).2 with hq
        rw [replaySegment_accepted] at hq
        have hcount : q.count header.name header.descriptor o.id =
            r.count header.name header.descriptor o.id + 1 := by
          rw [hq]
          refine (count_enter r _ _ _ _ _ _ _ _ _).trans ?_
          simp
        have howner' : header.owner = q.owner := by
          rw [hq]
          exact howner
        -- the match is entered with the next index, and those behind it are numbered on from there
        have hpoints : header.points o.id (r.count header.name header.descriptor o.id)
            ((Segment.matched p first others sub none :: ss).filterMap (·.hit?)) =
            (p, { id := r.nextId header.name header.descriptor o.id, line := first.line,
                  description := sub.description }) ::
              header.points o.id (r.count header.name header.descriptor o.id + 1)
                (ss.filterMap (·.hit?)) := by
          simp [MethodHeader.points, nextId, howner]
        rw [ih howner', hcount, hpoints, hq]
        dsimp only
        rw [List.any_cons, ← Bool.or_assoc]
        rfl

end Register

end StackMutants
