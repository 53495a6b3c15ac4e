import StackMutants.Proofs.Paths

/-!
# Proofs.DeadEnds — streams that control never falls out of

No exit depth is to mean that control never falls off the end.  The walk of `exitDepth` comes by every
position once, so it does not see what a jump back leads to: code that it has passed as unreachable stays
so, although a path may come back to it (`not_unreached_of_exitDepth_none`).

`LiveAt insns p` says that the walk has a depth at a position.  From a live position the walk follows control
forward (`LiveAt.next`, `LiveAt.branch`), so that a path stays at positions that the walk has visited until it
takes an `UnseenJump`, a jump back to a label that was passed without a depth (`visited_or_unseenJump`).  Hence
a path falls off the end of a stream without an exit depth only behind such a jump
(`unreached_end_iff_of_exitDepth_none`), and where there is none, never (`unreached_of_no_unseenJump`).
-/

namespace StackMutants

/-! ## Where the walk has a depth -/

/-- The walk over the stream has a depth at the position. -/
def LiveAt (insns : List Instruction) (p : Nat) : Prop :=
  ∃ d, exitDepth (insns.take p) = .ok (some d)

instance (insns : List Instruction) (p : Nat) : Decidable (LiveAt insns p) :=
  match h : exitDepth (insns.take p) with
  | .ok (some d) => .isTrue ⟨d, h⟩
  | .ok none => .isFalse fun ⟨_, hd⟩ => by
      rw [h] at hd
      cases hd
  | .error _ => .isFalse fun ⟨_, hd⟩ => by
      rw [h] at hd
      cases hd

/-- The instruction at `q` may branch to the label that the instruction at `p` declares. -/
def BranchesTo (insns : List Instruction) (q p : Nat) : Prop :=
  (insns[q]?.bind (·.target?)).isSome ∧ insns[p]?.bind (·.declares?) = insns[q]?.bind (·.target?)

instance (insns : List Instruction) (q p : Nat) : Decidable (BranchesTo insns q p) :=
  inferInstanceAs (Decidable (_ ∧ _))

/-- A jump back that the walk comes to, to a label that the walk has passed without a depth. -/
def UnseenJump (insns : List Instruction) (q p : Nat) : Prop :=
  p < q ∧ LiveAt insns q ∧ BranchesTo insns q p ∧ ¬ LiveAt insns (p + 1)

instance (insns : List Instruction) (q p : Nat) : Decidable (UnseenJump insns q p) :=
  inferInstanceAs (Decidable (_ ∧ _ ∧ _ ∧ _))

theorem branchesTo_of_target? {insns : List Instruction} {q p : Nat} {i label : Instruction} {id : UInt32}
    (hi : insns[q]? = some i) (ht : i.target? = some id) (hlabel : insns[p]? = some label)
    (hid : label.declares? = some id) : BranchesTo insns q p := by
  unfold BranchesTo
  rw [hi, hlabel, Option.bind_some, Option.bind_some, ht, hid]
  exact ⟨rfl, rfl⟩

theorem Instruction.declares?_of_target? {i : Instruction} {id : UInt32} (h : i.target? = some id) :
    i.declares? = none := by
  cases hdeclares : i.declares? with
  | none => rfl
  | some id' =>
    have hlabel : i.opcode = .label := by
      unfold declares? at hdeclares
      split at hdeclares
      · assumption
      · cases hdeclares
    unfold target? isBranch at h
    rw [hlabel] at h
    cases h

namespace Walk

variable {w w' : Walk} {i : Instruction} {e : StackEffect} {id : UInt32} {d : Int}

/-- Behind an instruction that control goes on from, a walk has a depth if it had one before. -/
theorem exists_depth_of_step (h : w.step i = .ok w') (hd : w.depth = some d)
    (hgoes : i.isTerminal = false) : ∃ d', w'.depth = some d' := by
  obtain ⟨e, he⟩ := exists_stackEffect_of_step h
  rw [step_of_effect w he] at h
  cases hdeclares : i.declares? with
  | some id =>
    rw [hdeclares] at h
    dsimp only [atLabel] at h
    rw [hd] at h
    cases hlookup : w.labels.lookup id with
    | none =>
      rw [hlookup] at h
      cases h
      exact ⟨d, (depth_record w id d).trans hd⟩
    | some expected =>
      rw [hlookup] at h
      dsimp only at h
      split at h
      · cases h
        exact ⟨d, hd⟩
      · cases h
  | none =>
    rw [hdeclares, hd] at h
    cases h
    unfold pass
    dsimp only
    rw [hgoes]
    exact ⟨d + e.delta, rfl⟩

/-- A branch that a walk comes to leaves a record of its label. -/
theorem exists_lookup_of_step (h : w.step i = .ok w') (hd : w.depth = some d)
    (ht : i.target? = some id) : ∃ r, w'.labels.lookup id = some r := by
  obtain ⟨e, he⟩ := exists_stackEffect_of_step h
  rw [step_of_effect w he, Instruction.declares?_of_target? ht, hd] at h
  cases h
  unfold pass
  dsimp only
  rw [ht]
  dsimp only
  rw [lookup_record, if_pos rfl]
  cases w.labels.lookup id with
  | none => exact ⟨d + e.delta, rfl⟩
  | some r => exact ⟨r, rfl⟩

/-- Behind a label with a record, a walk has a depth. -/
theorem exists_depth_of_lookup {r : Int} (h : w.step i = .ok w') (hid : i.declares? = some id)
    (hr : w.labels.lookup id = some r) : ∃ d, w'.depth = some d := by
  cases hdepth : w.depth with
  | some d => exact exists_depth_of_step h hdepth (Instruction.isTerminal_of_declares? hid)
  | none =>
    obtain ⟨e, he⟩ := exists_stackEffect_of_step h
    rw [step_of_effect w he, hid] at h
    dsimp only [atLabel] at h
    rw [hdepth, hr] at h
    cases h
    exact ⟨r, rfl⟩

end Walk

/-! ## From one position to the next -/

section Positions

variable {insns : List Instruction} {final : Walk}

theorem liveAt_iff_of_run {p : Nat} {w : Walk} (hw : Walk.start.run (insns.take p) = .ok w) :
    LiveAt insns p ↔ ∃ d, w.depth = some d := by
  unfold LiveAt exitDepth
  rw [hw]
  constructor
  · rintro ⟨d, hd⟩
    exact ⟨d, Except.ok.inj hd⟩
  · rintro ⟨d, hd⟩
    exact ⟨d, congrArg Except.ok hd⟩

/-- A walk over the stream passes each of its positions. -/
theorem exists_run_take (hrun : Walk.start.run insns = .ok final) (p : Nat) :
    ∃ w, Walk.start.run (insns.take p) = .ok w ∧ w.run (insns.drop p) = .ok final := by
  rw [← List.take_append_drop p insns, Walk.run_append] at hrun
  cases hw : Walk.start.run (insns.take p) with
  | error fault =>
    rw [hw] at hrun
    cases hrun
  | ok w =>
    rw [hw] at hrun
    exact ⟨w, rfl, hrun⟩

theorem exists_step_at (hrun : Walk.start.run insns = .ok final) {p : Nat} {i : Instruction}
    (hi : insns[p]? = some i) :
    ∃ w w', Walk.start.run (insns.take p) = .ok w ∧ w.step i = .ok w' ∧
      Walk.start.run (insns.take (p + 1)) = .ok w' ∧ w'.run (insns.drop (p + 1)) = .ok final := by
  obtain ⟨w, hw, hrest⟩ := exists_run_take hrun p
  obtain ⟨hp, hget⟩ := List.getElem?_eq_some_iff.mp hi
  rw [List.drop_eq_getElem_cons hp, hget] at hrest
  obtain ⟨w', hstep, hrest⟩ := Walk.exists_step_of_run hrest
  refine ⟨w, w', hw, hstep, ?_, hrest⟩
  rw [List.take_add_one, hi, Walk.run_append, hw]
  show (w.step i).bind _ = _
  rw [hstep]
  rfl

/-- Records are kept: what is recorded at a position still is at a later one. -/
theorem exists_lookup_of_le (hrun : Walk.start.run insns = .ok final) {p q : Nat} (hpq : p ≤ q)
    {w : Walk} {id : UInt32} {r : Int} (hw : Walk.start.run (insns.take p) = .ok w)
    (hr : w.labels.lookup id = some r) :
    ∃ v, Walk.start.run (insns.take q) = .ok v ∧ v.labels.lookup id = some r := by
  obtain ⟨v, hv, -⟩ := exists_run_take hrun q
  -- the walk to the later position goes on from the earlier one
  have hsplit : insns.take q = insns.take p ++ (insns.drop p).take (q - p) := by
    rw [← List.take_add, Nat.add_sub_cancel' hpq]
  have hbetween : w.run ((insns.drop p).take (q - p)) = .ok v := by
    rw [hsplit, Walk.run_append, hw] at hv
    exact hv
  exact ⟨v, hv, Walk.lookup_run_of_some hbetween hr⟩

theorem LiveAt.next (hrun : Walk.start.run insns = .ok final) {p : Nat} {i : Instruction}
    (hlive : LiveAt insns p) (hi : insns[p]? = some i) (hgoes : i.isTerminal = false) :
    LiveAt insns (p + 1) := by
  obtain ⟨w, w', hw, hstep, hw', -⟩ := exists_step_at hrun hi
  obtain ⟨d, hd⟩ := (liveAt_iff_of_run hw).mp hlive
  exact (liveAt_iff_of_run hw').mpr (Walk.exists_depth_of_step hstep hd hgoes)

/-- A branch forward is seen: the walk is live behind its label. -/
theorem LiveAt.branch (hrun : Walk.start.run insns = .ok final) {p q : Nat} {i label : Instruction}
    {id : UInt32} (hlive : LiveAt insns p) (hi : insns[p]? = some i) (ht : i.target? = some id)
    (hpq : p < q) (hlabel : insns[q]? = some label) (hid : label.declares? = some id) :
    LiveAt insns (q + 1) := by
  obtain ⟨w, w', hw, hstep, hw', -⟩ := exists_step_at hrun hi
  obtain ⟨d, hd⟩ := (liveAt_iff_of_run hw).mp hlive
  obtain ⟨r, hr⟩ := Walk.exists_lookup_of_step hstep hd ht
  obtain ⟨v, v', hv, hstep', hv', -⟩ := exists_step_at hrun hlabel
  obtain ⟨u, hu, hkept⟩ := exists_lookup_of_le hrun (Nat.succ_le_of_lt hpq) hw' hr
  have hsame : u = v := Except.ok.inj (hu.symm.trans hv)
  rw [hsame] at hkept
  exact (liveAt_iff_of_run hv').mpr (Walk.exists_depth_of_lookup hstep' hid hkept)

/-! ## Paths -/

/-- The walk has a depth at the position, or stands at a label behind which it has one. -/
def Visited (insns : List Instruction) (p : Nat) : Prop :=
  LiveAt insns p ∨
    ∃ label id, insns[p]? = some label ∧ label.declares? = some id ∧ LiveAt insns (p + 1)

/-- Control that leaves a visited position comes to a visited one, or takes an unseen jump. -/
theorem Visited.flow (hrun : Walk.start.run insns = .ok final) {pt pt' : Point}
    (hvisited : Visited insns pt.position) (hflow : Flow insns pt pt') :
    Visited insns pt'.position ∨ UnseenJump insns pt.position pt'.position := by
  cases hflow with
  | @next p d i e hi he hgoes =>
    rcases hvisited with hlive | ⟨label, id, -, -, hbehind⟩
    · exact Or.inl (Or.inl (hlive.next hrun hi hgoes))
    · exact Or.inl (Or.inl hbehind)
  | @branch p q d i label e id hi he ht hlabel hid =>
    -- a branch is no label, so it is visited only where the walk is live
    have hlive : LiveAt insns p := by
      rcases hvisited with hlive | ⟨label', id', hlabel', hid', -⟩
      · exact hlive
      · obtain rfl : i = label' := Option.some.inj (hi.symm.trans hlabel')
        rw [Instruction.declares?_of_target? ht] at hid'
        cases hid'
    by_cases hbehind : LiveAt insns (q + 1)
    · exact Or.inl (Or.inr ⟨label, id, hlabel, hid, hbehind⟩)
    · right
      have hbranches : BranchesTo insns p q := branchesTo_of_target? hi ht hlabel hid
      rcases Nat.lt_trichotomy p q with hlt | rfl | hgt
      · exact absurd (hlive.branch hrun hi ht hlt hlabel hid) hbehind
      · obtain rfl : i = label := Option.some.inj (hi.symm.trans hlabel)
        rw [Instruction.declares?_of_target? ht] at hid
        cases hid
      · exact ⟨hgt, hlive, hbranches, hbehind⟩

/-- Control may come from the one point to the other. -/
abbrev Leads (insns : List Instruction) : Point → Point → Prop := Relation.ReflTransGen (Flow insns)

/-- **A path stays at visited positions until it takes an unseen jump.** -/
theorem visited_or_unseenJump (hrun : Walk.start.run insns = .ok final) {pt : Point}
    (h : Leads insns ⟨0, 0⟩ pt) :
    Visited insns pt.position ∨ ∃ jump label : Point, Leads insns ⟨0, 0⟩ jump ∧
      UnseenJump insns jump.position label.position ∧ Flow insns jump label ∧ Leads insns label pt := by
  induction h with
  | refl => exact Or.inl (Or.inl ⟨0, rfl⟩)
  | @tail pt pt' hpath hflow ih =>
    rcases ih with hvisited | ⟨jump, label, hjump, hunseen, htaken, hbehind⟩
    · rcases hvisited.flow hrun hflow with hnext | hunseen
      · exact Or.inl hnext
      · exact Or.inr ⟨pt, pt', hpath, hunseen, hflow, .refl⟩
    · exact Or.inr ⟨jump, label, hjump, hunseen, htaken, hbehind.tail hflow⟩

theorem not_visited_length (h : exitDepth insns = .ok none) : ¬ Visited insns insns.length := by
  rintro (⟨d, hlive⟩ | ⟨label, id, hlabel, -⟩)
  · rw [List.take_length, h] at hlive
    cases hlive
  · rw [List.getElem?_eq_none (Nat.le_refl _)] at hlabel
    cases hlabel

/-- A path that falls off the end of a stream without an exit depth takes an unseen jump on the way. -/
theorem exists_unseenJump_of_reached (h : exitDepth insns = .ok none) {d : Int}
    (hreached : Reached insns insns.length d) :
    ∃ jump label : Point, Leads insns ⟨0, 0⟩ jump ∧ UnseenJump insns jump.position label.position ∧
      Flow insns jump label ∧ Leads insns label ⟨insns.length, d⟩ := by
  obtain ⟨w, hrun, -⟩ := exists_run_of_exitDepth h
  exact (visited_or_unseenJump hrun hreached).resolve_left (not_visited_length h)

end Positions

/-! ## The end of the stream -/

/-- Without unseen jumps, no exit depth means that no path falls off the end. -/
theorem unreached_of_no_unseenJump {insns : List Instruction} (h : exitDepth insns = .ok none)
    (hseen : ∀ q < insns.length, ∀ p < q, ¬ UnseenJump insns q p) (d : Int) :
    ¬ Reached insns insns.length d := by
  intro hreached
  obtain ⟨jump, label, -, hunseen, -, -⟩ := exists_unseenJump_of_reached h hreached
  -- there is an instruction at the jump, so its position is one of the stream
  obtain ⟨id, hid⟩ := Option.isSome_iff_exists.mp hunseen.2.2.1.1
  obtain ⟨i, hi, -⟩ := Option.bind_eq_some_iff.mp hid
  have hlt : jump.position < insns.length := (List.getElem?_eq_some_iff.mp hi).1
  exact hseen jump.position hlt label.position hunseen.1 hunseen

/-- **No exit depth, no exit**, exactly if no path takes an unseen jump and comes to the end from there. -/
theorem unreached_end_iff_of_exitDepth_none {insns : List Instruction} (h : exitDepth insns = .ok none) :
    (∀ d, ¬ Reached insns insns.length d) ↔
      ∀ jump label : Point, Leads insns ⟨0, 0⟩ jump → UnseenJump insns jump.position label.position →
        Flow insns jump label → ∀ d, ¬ Leads insns label ⟨insns.length, d⟩ := by
  constructor
  · intro hunreached jump label hjump _ htaken d hend
    exact hunreached d ((hjump.tail htaken).trans hend)
  · intro hbehind d hreached
    obtain ⟨jump, label, hjump, hunseen, htaken, hend⟩ := exists_unseenJump_of_reached h hreached
    exact hbehind jump label hjump hunseen htaken d hend

/-- A loop that is left by a return only. -/
def loopWithReturn : List Instruction :=
  [{ opcode := .label, operand := .label 0 },
   { opcode := .load .int, operand := .var 0 },
   { opcode := .ifZero .eq, operand := .label 1 },
   { opcode := .goto, operand := .label 0 },
   { opcode := .label, operand := .label 1 },
   { opcode := .ret none }]

theorem unreached_end_iff_loopWithReturn :
    exitDepth loopWithReturn = .ok none ∧
      ((∀ d, ¬ Reached loopWithReturn loopWithReturn.length d) ↔
        ∀ jump label : Point, Leads loopWithReturn ⟨0, 0⟩ jump →
          UnseenJump loopWithReturn jump.position label.position → Flow loopWithReturn jump label →
          ∀ d, ¬ Leads loopWithReturn label ⟨loopWithReturn.length, d⟩) ∧
      ∀ q < loopWithReturn.length, ∀ p < q, ¬ UnseenJump loopWithReturn q p := by
  have hexit : exitDepth loopWithReturn = .ok none := rfl
  exact ⟨hexit, unreached_end_iff_of_exitDepth_none hexit, by decide⟩

/-- Three jumps, the second one in code that only the third one, a jump back, leads to. -/
def jumpBackToSkipped : List Instruction :=
  [{ opcode := .goto, operand := .label 1 },
   { opcode := .label, operand := .label 0 },
   { opcode := .goto, operand := .label 2 },
   { opcode := .label, operand := .label 1 },
   { opcode := .goto, operand := .label 0 },
   { opcode := .label, operand := .label 2 }]

/-- **A jump back to code that the walk has skipped goes unseen**: control falls off the end of a stream
without an exit depth. -/
theorem not_unreached_of_exitDepth_none :
    ¬ ∀ insns : List Instruction, exitDepth insns = .ok none → ∀ d, ¬ Reached insns insns.length d := by
  intro h
  have hexit : exitDepth jumpBackToSkipped = .ok none := rfl
  have hforward : Reached jumpBackToSkipped 3 0 :=
    (reached_start _).branch (i := ⟨.goto, .label 1, 0⟩) (e := ⟨0, 0⟩) rfl rfl rfl rfl rfl
  have hjump : Reached jumpBackToSkipped 4 0 := hforward.next (e := ⟨0, 0⟩) rfl rfl rfl
  have hskipped : Reached jumpBackToSkipped 1 0 := hjump.branch (e := ⟨0, 0⟩) rfl rfl rfl rfl rfl
  have hentered : Reached jumpBackToSkipped 2 0 := hskipped.next (e := ⟨0, 0⟩) rfl rfl rfl
  have hlast : Reached jumpBackToSkipped 5 0 := hentered.branch (e := ⟨0, 0⟩) rfl rfl rfl rfl rfl
  have hend : Reached jumpBackToSkipped 6 0 := hlast.next (e := ⟨0, 0⟩) rfl rfl rfl
  exact h jumpBackToSkipped hexit 0 hend

end StackMutants
