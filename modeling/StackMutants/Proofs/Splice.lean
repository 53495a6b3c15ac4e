import StackMutants.Proofs.Numbering
import StackMutants.Mutant
import StackMutants.Operator.Selection

/-!
# Proofs.Splice — a run over a class applies at most one substitution

The segments of a pass tile the stream of the method: a segment stands where the segments before it end
(`position_of_split`), and a matched one covers the clamped region of its substitution
(`matched_of_mem`).  So the output of a pass that emits one replacement is the stream of the method with
one region replaced (`IsSplice`), and that of a pass that emits none is the stream itself.

`Register.Action` and `Register.perform` describe everything that can be done with a register between its
creation and its end: passes of any operators over any methods, and the ends of methods.
`Numbered.length_emitted` counts the replacements of a pass, and `Numbered.perform` those of a whole run.
-/

namespace StackMutants

/-! ## Where segments stand -/

namespace Visitor

variable {v : Visitor} {method : Method}

/-- A segment stands behind the streams of the segments before it. -/
theorem position_of_split {s : v.State} {p skip : Nat} {rest : List Instruction}
    {pre post : List Segment} {seg : Segment}
    (h : v.segments method s p skip rest = pre ++ seg :: post) :
    seg.position = p + skip + (pre.flatMap Segment.stream).length := by
  induction rest generalizing s p skip pre with
  | nil => simp [segments] at h
  | cons insn rest ih =>
    cases skip with
    | succ skip =>
      have := ih h
      omega
    | zero =>
      -- the first segment covers `insn` and the `skip` instructions behind it
      have key : ∀ (s' : v.State) (first : Segment) (skip : Nat), first.position = p →
          first.stream.length = skip + 1 →
          first :: v.segments method s' (p + 1) skip rest = pre ++ seg :: post →
          seg.position = p + 0 + (pre.flatMap Segment.stream).length := by
        intro s' first skip hp hlen heq
        cases pre with
        | nil =>
          obtain ⟨rfl, -⟩ := List.cons_eq_cons.mp heq
          simpa using hp
        | cons first' pre =>
          obtain ⟨rfl, htail⟩ := List.cons_eq_cons.mp heq
          have := ih htail
          simp only [List.flatMap_cons, List.length_append]
          omega
      unfold segments at h
      split at h
      · exact key _ _ 0 rfl rfl h
      · exact key _ _ 0 rfl rfl h
      · exact key _ _ _ rfl (by simp [Segment.stream]) h

/-- A matched region begins where the segment stands and has the clamped length. -/
theorem matched_of_mem {s : v.State} {p skip : Nat} {rest : List Instruction}
    (hrest : method.instructions.drop p = rest) {q : Nat} {first : Instruction}
    {others : List Instruction} {sub : Substitution} {fault : Option SubstitutionFault}
    (h : .matched q first others sub fault ∈ v.segments method s p skip rest) :
    ∃ behind, method.instructions.drop q = first :: behind ∧
      others = behind.take (sub.consumed - 1) ∧ fault = sub.fault? method (first :: others) := by
  induction rest generalizing s p skip with
  | nil => simp [segments] at h
  | cons insn rest ih =>
    have hrest' : method.instructions.drop (p + 1) = rest := by
      rw [← List.drop_drop, hrest]
      rfl
    cases skip with
    | succ skip => exact ih hrest' h
    | zero =>
      unfold segments at h
      split at h
      · rcases List.mem_cons.mp h with h | h
        · cases h
        · exact ih hrest' h
      · rcases List.mem_cons.mp h with h | h
        · cases h
        · exact ih hrest' h
      · rcases List.mem_cons.mp h with h | h
        · cases h
          exact ⟨rest, hrest, rfl, rfl⟩
        · exact ih hrest' h

/-- The substitution of a matched region is what the visitor proposes there. -/
theorem exists_visit_of_mem {s : v.State} {p skip : Nat} {rest : List Instruction} {q : Nat}
    {first : Instruction} {others : List Instruction} {sub : Substitution}
    {fault : Option SubstitutionFault}
    (h : .matched q first others sub fault ∈ v.segments method s p skip rest) :
    ∃ t, (v.visit t method.instructions q).1 = .propose sub := by
  induction rest generalizing s p skip with
  | nil => simp [segments] at h
  | cons insn rest ih =>
    cases skip with
    | succ skip => exact ih h
    | zero =>
      unfold segments at h
      split at h
      · rcases List.mem_cons.mp h with h | h
        · cases h
        · exact ih h
      · rcases List.mem_cons.mp h with h | h
        · cases h
        · exact ih h
      · rename_i hvisit
        rcases List.mem_cons.mp h with h | h
        · cases h
          exact ⟨s, congrArg Prod.fst hvisit⟩
        · exact ih h

end Visitor

/-! ## One region replaced -/

/-- How many instructions a substitution replaces at a position: at least one, and none behind the end. -/
def Substitution.extent (sub : Substitution) (method : Method) (p : Nat) : Nat :=
  max 1 (min sub.consumed (method.instructions.length - p))

theorem Substitution.extent_of_consumed_one {sub : Substitution} {method : Method} {p : Nat}
    (h : sub.consumed = 1) : sub.extent method p = 1 := by
  unfold extent
  omega

/-- The stream of the method with the region of an accepted substitution replaced, on the line of the
first instruction of the region. -/
structure IsSplice (method : Method) (p : Nat) (sub : Substitution) (out : List Instruction) : Prop where
  inside : p + sub.extent method p ≤ method.instructions.length
  accepted : Substitution.check method ((method.instructions.drop p).take (sub.extent method p))
    sub.replacement = .ok ()
  stream : ∃ first, method.instructions[p]? = some first ∧
    out = method.instructions.take p ++ sub.replacement.map (·.onLine first.line) ++
      method.instructions.drop (p + sub.extent method p)

/-- What is emitted for a segment if its replacement is. -/
def Segment.replaced : Segment → List Instruction
  | .declined _ insn _ => [insn]
  | .matched _ first _ sub _ => sub.replacement.map (·.onLine first.line)

theorem Substitution.check_of_fault? {sub : Substitution} {method : Method} {region : List Instruction}
    (h : none = sub.fault? method region) : check method region sub.replacement = .ok () := by
  unfold fault? at h
  split at h
  · assumption
  · cases h

theorem isSplice_of_split {o : Operator} {header : MethodHeader} {method : Method}
    {pre post : List Segment} {p : Nat} {first : Instruction} {others : List Instruction}
    {sub : Substitution}
    (h : o.segments header method = pre ++ .matched p first others sub none :: post) :
    IsSplice method p sub (pre.flatMap Segment.stream ++ sub.replacement.map (·.onLine first.line) ++
      post.flatMap Segment.stream) := by
  have hstream : method.instructions = pre.flatMap Segment.stream ++ (first :: others) ++
      post.flatMap Segment.stream := by
    have := (o.visitor header).flatMap_stream_segments method (o.visitor header).start 0 0
      method.instructions
    rw [show (o.visitor header).segments method _ 0 0 method.instructions = _ from h] at this
    simpa [Segment.stream] using this.symm
  have hp : p = (pre.flatMap Segment.stream).length := by
    have := Visitor.position_of_split h
    simpa [Segment.position] using this
  have hmem : .matched p first others sub none ∈
      (o.visitor header).segments method (o.visitor header).start 0 0 method.instructions := by
    show _ ∈ o.segments header method
    rw [h]
    simp
  obtain ⟨behind, hbehind, hothers, hfault⟩ := Visitor.matched_of_mem List.drop_zero hmem
  have hlen : method.instructions.length - p = behind.length + 1 := by
    have := congrArg List.length hbehind
    simpa using this
  have hextent : sub.extent method p = (first :: others).length := by
    unfold Substitution.extent
    rw [hlen, hothers]
    simp only [List.length_cons, List.length_take]
    omega
  have hdrop : method.instructions.drop p = (first :: others) ++ post.flatMap Segment.stream := by
    rw [hstream, hp, List.append_assoc, List.drop_left]
  have htake : method.instructions.take p = pre.flatMap Segment.stream := by
    rw [hstream, hp, List.append_assoc, List.take_left]
  constructor
  · rw [hextent, hstream, hp]
    simp only [List.length_append]
    omega
  · rw [hextent, hdrop, List.take_left]
    exact Substitution.check_of_fault? hfault
  · refine ⟨first, ?_, ?_⟩
    · rw [← List.head?_drop, hdrop]
      rfl
    · rw [hextent, ← List.drop_drop, hdrop, List.drop_left, htake]

/-! ## The replacements of a pass -/

namespace Register

variable {r : Register} {o : Operator} {header : MethodHeader}

/-- The segments of a pass whose replacements are emitted. -/
def emitted (r : Register) (o : Operator) (header : MethodHeader) : List Segment → List Segment
  | [] => []
  | s :: ss =>
    (if r.emits o header s then [s] else []) ++ (r.replaySegment o header s).2.emitted o header ss

theorem emitted_cons (r : Register) (o : Operator) (header : MethodHeader) (s : Segment)
    (ss : List Segment) :
    r.emitted o header (s :: ss) =
      (if r.emits o header s then [s] else []) ++ (r.replaySegment o header s).2.emitted o header ss :=
  rfl

theorem replaySegment_fst (r : Register) (o : Operator) (header : MethodHeader) (s : Segment) :
    (r.replaySegment o header s).1 = if r.emits o header s then s.replaced else s.stream := by
  cases s with
  | declined p insn reason => rfl
  | matched p first others sub fault =>
    cases fault with
    | some fault => rfl
    | none =>
      unfold replaySegment emits
      dsimp only [Segment.replaced, Segment.stream]
      split <;> simp_all

theorem replay_cons (r : Register) (o : Operator) (header : MethodHeader) (s : Segment)
    (ss : List Segment) :
    r.replay o header (s :: ss) =
      ((r.replaySegment o header s).1 ++ ((r.replaySegment o header s).2.replay o header ss).1,
        ((r.replaySegment o header s).2.replay o header ss).2) := rfl

/-- A pass that emits no replacement emits the stream that it was given. -/
theorem replay_of_emitted_nil {ss : List Segment} (h : r.emitted o header ss = []) :
    (r.replay o header ss).1 = ss.flatMap Segment.stream := by
  induction ss generalizing r with
  | nil => rfl
  | cons s ss ih =>
    obtain ⟨hs, hss⟩ := List.append_eq_nil_iff.mp h
    have he : r.emits o header s = false := by
      by_contra hc
      simp [hc] at hs
    rw [replay_cons, replaySegment_fst, he, ih hss]
    rfl

/-- A pass that emits one replacement emits it in the place of its region. -/
theorem replay_of_emitted_singleton {ss : List Segment} {seg : Segment}
    (h : r.emitted o header ss = [seg]) :
    ∃ pre post, ss = pre ++ seg :: post ∧
      (r.replay o header ss).1 =
        pre.flatMap Segment.stream ++ seg.replaced ++ post.flatMap Segment.stream := by
  induction ss generalizing r with
  | nil => cases h
  | cons s ss ih =>
    rw [emitted_cons] at h
    by_cases he : r.emits o header s = true
    · rw [if_pos he] at h
      obtain ⟨rfl, hss⟩ := List.cons_eq_cons.mp h
      refine ⟨[], ss, rfl, ?_⟩
      rw [replay_cons, replaySegment_fst, if_pos he, replay_of_emitted_nil hss]
      rfl
    · rw [if_neg he] at h
      obtain ⟨pre, post, rfl, hout⟩ := ih h
      refine ⟨s :: pre, post, rfl, ?_⟩
      rw [replay_cons, replaySegment_fst, if_neg he, hout]
      simp

theorem mem_emitted {ss : List Segment} {seg : Segment} (h : seg ∈ r.emitted o header ss) :
    seg ∈ ss ∧ ∃ p first others sub, seg = .matched p first others sub none := by
  induction ss generalizing r with
  | nil => cases h
  | cons s ss ih =>
    rw [emitted_cons] at h
    rcases List.mem_append.mp h with h | h
    · by_cases he : r.emits o header s = true
      · rw [if_pos he, List.mem_singleton] at h
        subst h
        refine ⟨List.mem_cons_self, ?_⟩
        unfold emits at he
        split at he
        · exact ⟨_, _, _, _, rfl⟩
        · cases he
      · rw [if_neg he] at h
        cases h
    · obtain ⟨hmem, hseg⟩ := ih h
      exact ⟨List.mem_cons_of_mem _ hmem, hseg⟩

theorem Numbered.replay (h : r.Numbered) (ss : List Segment) :
    (r.replay o header ss).2.Numbered := by
  induction ss generalizing r with
  | nil => exact h
  | cons s ss ih => exact ih (h.replaySegment o header s)

/-- **The replacements of a pass**: none if the target was met before, and one if it is met. -/
theorem Numbered.length_emitted (h : r.Numbered) (ss : List Segment) :
    r.applied.toNat + (r.emitted o header ss).length = (r.replay o header ss).2.applied.toNat := by
  induction ss generalizing r with
  | nil => rfl
  | cons s ss ih =>
    rw [replay_cons, ← ih (h.replaySegment o header s), h.applied_replaySegment, emitted_cons,
      List.length_append, ← Nat.add_assoc]
    congr 2
    cases r.emits o header s <;> rfl

/-- The output of a pass over the segments of a method that emits at most one replacement. -/
theorem replay_segments {method : Method}
    (hlen : (r.emitted o header (o.segments header method)).length ≤ 1) :
    (r.emitted o header (o.segments header method) = [] ∧
      (r.replay o header (o.segments header method)).1 = method.instructions) ∨
    ∃ p first others sub,
      r.emitted o header (o.segments header method) = [.matched p first others sub none] ∧
      IsSplice method p sub (r.replay o header (o.segments header method)).1 := by
  cases hem : r.emitted o header (o.segments header method) with
  | nil =>
    refine Or.inl ⟨rfl, ?_⟩
    rw [replay_of_emitted_nil hem]
    exact (o.visitor header).flatMap_stream_segments method _ 0 0 method.instructions
  | cons seg rest =>
    obtain rfl : rest = [] := by
      rw [hem] at hlen
      exact List.length_eq_zero_iff.mp (by simpa using hlen)
    obtain ⟨-, p, first, others, sub, rfl⟩ := mem_emitted (hem ▸ List.mem_cons_self)
    obtain ⟨pre, post, hsplit, hout⟩ := replay_of_emitted_singleton hem
    refine Or.inr ⟨p, first, others, sub, rfl, ?_⟩
    rw [hout]
    exact isSplice_of_split hsplit

end Register

/-! ## Whole runs -/

/-- What a run over a class does with its register. -/
inductive Register.Action where
  | pass (o : Operator) (method : Method)
  /-- The end of a method. -/
  | close

/-- A pass of a run: its output, and the segments whose replacements it emitted. -/
structure PassRecord where
  method : Method
  output : List Instruction
  emitted : List Segment

/-- A pass that emits no replacement emits the stream of its method; one that emits a replacement emits
the stream with the region of an accepted substitution replaced. -/
structure PassRecord.Sound (pass : PassRecord) : Prop where
  unchanged : pass.emitted = [] → pass.output = pass.method.instructions
  splice : ∀ s ∈ pass.emitted, ∃ p first others sub, s = .matched p first others sub none ∧
    IsSplice pass.method p sub pass.output

namespace Register

variable {r : Register}

/-- The segments whose replacements a pass of an operator over a method emits. -/
def emittedIn (r : Register) (o : Operator) (method : Method) : List Segment :=
  match method.header? r.owner with
  | none => []
  | some header => r.emitted o header (o.segments header method)

/-- Does one action after the other. -/
def perform (r : Register) : List Action → Except Fault (List PassRecord × Register)
  | [] => .ok ([], r)
  | .close :: actions => r.closeMethod.perform actions
  | .pass o method :: actions => do
    let (output, r') ← (r.runPass o method).outcome
    let (passes, r'') ← r'.perform actions
    .ok (⟨method, output, r.emittedIn o method⟩ :: passes, r'')

theorem exists_runPass (r : Register) (o : Operator) {method : Method} (hm : method.SparesLastLabel) :
    ∃ output r', (r.runPass o method).outcome = .ok (output, r') := by
  obtain ⟨header, hheader⟩ := Method.exists_header hm r.owner
  exact ⟨_, _, runPass_outcome hheader o⟩

theorem exists_header_of_runPass {o : Operator} {method : Method} {output : List Instruction}
    {r' : Register} (h : (r.runPass o method).outcome = .ok (output, r')) :
    ∃ header, method.header? r.owner = some header ∧
      r.replay o header (o.segments header method) = (output, r') := by
  cases hheader : method.header? r.owner with
  | none =>
    unfold runPass at h
    rw [hheader] at h
    cases h
  | some header =>
    rw [runPass_outcome hheader] at h
    exact ⟨header, rfl, Except.ok.inj h⟩

/-- **One pass.** -/
theorem Numbered.runPass (h : r.Numbered) {o : Operator} {method : Method} {output : List Instruction}
    {r' : Register} (hrun : (r.runPass o method).outcome = .ok (output, r')) :
    r'.Numbered ∧ r.applied.toNat + (r.emittedIn o method).length = r'.applied.toNat ∧
      PassRecord.Sound ⟨method, output, r.emittedIn o method⟩ := by
  obtain ⟨header, hheader, hreplay⟩ := exists_header_of_runPass hrun
  have hlen : r.applied.toNat + (r.emitted o header (o.segments header method)).length =
      (r.replay o header (o.segments header method)).2.applied.toNat := h.length_emitted _
  have hnum : (r.replay o header (o.segments header method)).2.Numbered := h.replay _
  have hem : r.emittedIn o method = r.emitted o header (o.segments header method) := by
    unfold emittedIn
    rw [hheader]
  simp only [hreplay] at hlen hnum
  have hone : (r.emitted o header (o.segments header method)).length ≤ 1 := by
    have := Bool.toNat_le r'.applied
    omega
  rw [hem]
  refine ⟨hnum, hlen, ?_⟩
  have hpass := replay_segments hone
  rw [hreplay] at hpass
  rcases hpass with ⟨hnil, hout⟩ | ⟨p, first, others, sub, hsingle, hsplice⟩
  · rw [hnil]
    exact ⟨fun _ => hout, fun s hs => absurd hs List.not_mem_nil⟩
  · rw [hsingle]
    refine ⟨fun hc => absurd hc (List.cons_ne_nil _ _), fun s hs => ?_⟩
    rw [List.mem_singleton] at hs
    exact ⟨p, first, others, sub, hs, hsplice⟩

theorem Numbered.perform (h : r.Numbered) {actions : List Action}
    (hactions : ∀ o method, .pass o method ∈ actions → method.SparesLastLabel) :
    ∃ passes r', r.perform actions = .ok (passes, r') ∧
      r.applied.toNat + (passes.flatMap (·.emitted)).length = r'.applied.toNat ∧
      ∀ pass ∈ passes, pass.Sound := by
  induction actions generalizing r with
  | nil => exact ⟨[], r, rfl, rfl, by simp⟩
  | cons action actions ih =>
    have hrest : ∀ o method, .pass o method ∈ actions → method.SparesLastLabel :=
      fun o method hm => hactions o method (List.mem_cons_of_mem _ hm)
    cases action with
    | close => exact ih h.closeMethod hrest
    | pass o method =>
      obtain ⟨output, r', hrun⟩ := r.exists_runPass o (hactions o method List.mem_cons_self)
      obtain ⟨hnum, hcount, hpass⟩ := h.runPass hrun
      obtain ⟨passes, r'', hperform, hcounts, hpasses⟩ := ih hnum hrest
      refine ⟨⟨method, output, r.emittedIn o method⟩ :: passes, r'', ?_, ?_, ?_⟩
      · unfold Register.perform
        rw [hrun]
        show (r'.perform actions).bind _ = _
        rw [hperform]
        rfl
      · rw [List.flatMap_cons, List.length_append, ← Nat.add_assoc, hcount, hcounts]
      · exact List.forall_mem_cons.mpr ⟨hpass, hpasses⟩

end Register

/-! ## Mutants -/

/-- What it takes for an identifier to have a mutant, and what the mutant is. -/
theorem ClassDef.buildMutant_eq_ok_iff {c : ClassDef} {os : List Operator} {id : MutationId}
    {m : Mutant} : (c.buildMutant os id).outcome = .ok m ↔
      c.name = id.owner ∧ ∃ o index method output r, os.find? (·.id == id.operator) = some o ∧
        c.methods.findIdx? (·.isMethodOf id) = some index ∧ c.methods[index]? = some method ∧
        ((Register.seeking id).runPass o method).outcome = .ok (output, r) ∧ r.applied = true ∧
        r.mutations.find? (·.id == id) = some m.mutation ∧
        m.definition = c.withInstructions index output := by
  constructor
  · intro h
    unfold buildMutant at h
    split at h
    · cases h
    · rename_i hname
      split at h
      · rename_i o index ho hindex
        split at h
        · cases h
        · rename_i method hmethod
          rw [Journaled.outcome_bind] at h
          cases hrun : ((Register.seeking id).runPass o method).outcome with
          | error fault =>
            rw [hrun] at h
            cases h
          | ok result =>
            rw [hrun] at h
            change Journaled.outcome _ = _ at h
            dsimp only at h
            split at h
            · rename_i mutation happlied hfind
              cases h
              exact ⟨not_not.mp hname, o, index, method, _, _, ho, hindex, hmethod, hrun, happlied,
                hfind, rfl⟩
            · cases h
      · cases h
  · rintro ⟨hname, o, index, method, output, r, ho, hindex, hmethod, hrun, happlied, hfind, hdef⟩
    unfold buildMutant
    rw [if_neg (not_not.mpr hname), ho, hindex]
    dsimp only
    rw [hmethod]
    dsimp only
    rw [Journaled.outcome_bind, hrun]
    change Journaled.outcome _ = _
    dsimp only
    rw [happlied, hfind]
    dsimp only
    rw [← hdef]
    rfl

theorem ClassDef.withInstructions_eq {c : ClassDef} {index : Nat} {method : Method}
    (h : c.methods[index]? = some method) (insns : List Instruction) :
    c.withInstructions index insns =
      { c with methods := c.methods.set index { method with instructions := insns } } := by
  unfold withInstructions
  rw [List.modify_eq_set, h, Option.getD_some]

/-- **At most one substitution.**  A run that starts with a new register, whatever passes it makes, emits
at most one replacement, and it emits one if and only if the register has met its target at the end.  Every
pass emits the stream of its method, but the one that emits a replacement, which emits that stream with one
region replaced.  So a mutant is the class with one region of one method replaced. -/
theorem Register.perform_emits_at_most_one :
    (∀ (r : Register) (actions : List Action),
      ((∃ owner, r = blank owner) ∨ ∃ target, r = seeking target) →
      (∀ o method, .pass o method ∈ actions → method.SparesLastLabel) →
      ∃ passes r', r.perform actions = .ok (passes, r') ∧
        (passes.flatMap (·.emitted)).length ≤ 1 ∧
        ((passes.flatMap (·.emitted)).length = 1 ↔ r'.applied = true) ∧
        ∀ pass ∈ passes, pass.Sound) ∧
    ∀ (c : ClassDef) (os : List Operator) (id : MutationId) (m : Mutant),
      (c.buildMutant os id).outcome = .ok m →
      ∃ o index method p first others sub output, os.find? (·.id == id.operator) = some o ∧
        c.methods.findIdx? (·.isMethodOf id) = some index ∧ c.methods[index]? = some method ∧
        (seeking id).emittedIn o method = [.matched p first others sub none] ∧
        IsSplice method p sub output ∧
        m.definition =
          { c with methods := c.methods.set index { method with instructions := output } } := by
  constructor
  · intro r actions hr hactions
    have hnew : r.Numbered ∧ r.applied = false := by
      rcases hr with ⟨owner, rfl⟩ | ⟨target, rfl⟩
      · exact ⟨numbered_blank owner, rfl⟩
      · exact ⟨numbered_seeking target, rfl⟩
    obtain ⟨passes, r', hperform, hcount, hpasses⟩ := hnew.1.perform hactions
    rw [hnew.2, Bool.toNat_false, Nat.zero_add] at hcount
    refine ⟨passes, r', hperform, ?_, ?_, hpasses⟩
    · rw [hcount]
      exact Bool.toNat_le _
    · rw [hcount]
      exact Bool.toNat_eq_one
  · intro c os id m h
    obtain ⟨-, o, index, method, output, r, ho, hindex, hmethod, hrun, happlied, -, hdef⟩ :=
      ClassDef.buildMutant_eq_ok_iff.mp h
    obtain ⟨-, hcount, hpass⟩ := (numbered_seeking id).runPass hrun
    have hone : ((seeking id).emittedIn o method).length = 1 := by
      rw [happlied] at hcount
      exact (Nat.zero_add _).symm.trans hcount
    obtain ⟨s, hs⟩ := List.length_eq_one_iff.mp hone
    obtain ⟨p, first, others, sub, rfl, hsplice⟩ := hpass.splice s (hs ▸ List.mem_cons_self)
    refine ⟨o, index, method, p, first, others, sub, output, ho, hindex, hmethod, hs, hsplice, ?_⟩
    rw [hdef, ClassDef.withInstructions_eq hmethod]

/-- A method that adds its two arguments. -/
def sumMethod : Method :=
  { name := "sum", descriptor := "(II)I", isStatic := true
    instructions :=
      [{ opcode := .load .int, operand := .var 0, line := 3 },
       { opcode := .load .int, operand := .var 1, line := 3 },
       { opcode := .arith .add .int, line := 3 },
       { opcode := .ret (some .int), line := 4 }] }

def sumClass : ClassDef := { name := ⟨"Calc"⟩, methods := [sumMethod] }

/-- The one addition of `sumMethod`. -/
def sumId : MutationId :=
  { owner := ⟨"Calc"⟩, method := "sum", descriptor := "(II)I", operator := Mutator.math.id, index := 0 }

theorem perform_sum_emits_one :
    (∃ passes r', (Register.seeking sumId).perform
        [.pass Mutator.returnVals.operator sumMethod, .pass Mutator.math.operator sumMethod, .close,
          .pass Mutator.math.operator sumMethod] = .ok (passes, r') ∧
      (passes.flatMap (·.emitted)).length ≤ 1 ∧
      ((passes.flatMap (·.emitted)).length = 1 ↔ r'.applied = true) ∧ ∀ pass ∈ passes, pass.Sound) ∧
    ∃ o index method p first others sub output,
      [Mutator.math.operator].find? (·.id == sumId.operator) = some o ∧
      sumClass.methods.findIdx? (·.isMethodOf sumId) = some index ∧
      sumClass.methods[index]? = some method ∧
      (Register.seeking sumId).emittedIn o method = [.matched p first others sub none] ∧
      IsSplice method p sub output ∧
      (⟨{ id := sumId, line := 3, description := "Replaced integer addition with subtraction" },
        sumClass.withInstructions 0 (sumMethod.instructions.set 2
          { opcode := .arith .sub .int, line := 3 })⟩ : Mutant).definition =
        { sumClass with
          methods := sumClass.methods.set index { method with instructions := output } } := by
  constructor
  · apply Register.perform_emits_at_most_one.1 _ _ (Or.inr ⟨sumId, rfl⟩)
    intro o method h
    simp only [List.mem_cons, List.not_mem_nil, Register.Action.pass.injEq, reduceCtorEq, or_false,
      false_or] at h
    rcases h with ⟨-, rfl⟩ | ⟨-, rfl⟩ | ⟨-, rfl⟩ <;> decide
  · exact Register.perform_emits_at_most_one.2 sumClass [Mutator.math.operator] sumId _ rfl

end StackMutants
