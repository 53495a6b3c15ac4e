import StackMutants.Proofs.Partition

/-!
# Proofs.Rejection — a rejected match is as good as none

A visitor that answers by position alone is compared with one that declines every position in the regions of
the matches that were rejected, and otherwise answers alike (`withdraw`).  The first one jumps over such a
region in one turn, the second one passes it in several (`Visitor.exists_visits_declinedFrom`); in front of
the region and behind it they take the same turns.  So the segments of the second are those of the first with
the rejected ones taken apart (`Visitor.Visits.withdrawn`).  A register is left alone by the one and by the
others, hence both passes have the same outcome (`Register.runPass_withdrawn`).
-/

namespace StackMutants

/-- The visitor answers about each position of the stream as `answer` says, whatever it remembers. -/
def Visitor.AnswersBy (v : Visitor) (insns : List Instruction) (answer : Nat → Answer) : Prop :=
  ∀ s p, (v.visit s insns p).1 = answer p

namespace Segment

/-- The segment is a match whose replacement is refused. -/
def isRejected : Segment → Bool
  | matched _ _ _ _ (some _) => true
  | _ => false

/-- Instructions from a position on, declined one by one. -/
def declinedFrom : Nat → List Instruction → List Segment
  | _, [] => []
  | p, insn :: insns => declined p insn none :: declinedFrom (p + 1) insns

/-- The segment, or the positions of its region if it is a rejected match. -/
def withdrawn (seg : Segment) : List Segment :=
  if seg.isRejected then declinedFrom seg.position seg.stream else [seg]

end Segment

/-- The answers with every rejected match withdrawn: the positions in its region are declined. -/
def withdraw (segs : List Segment) (answer : Nat → Answer) (p : Nat) : Answer :=
  if ∃ seg ∈ segs, seg.isRejected = true ∧ seg.Contains p then .decline else answer p

/-! ## Turns of visitors that answer alike -/

namespace Visitor

variable {v v' : Visitor} {method : Method}

theorem turn?_of_same_answer {a b : v.Stand} {seg : Segment} (h : v.turn? method a = some (seg, b))
    {s : v'.State} (hsame : (v'.visit s method.instructions a.next).1 =
      (v.visit a.state method.instructions a.next).1) :
    ∃ b' : v'.Stand, v'.turn? method ⟨s, a.next⟩ = some (seg, b') ∧ b'.next = b.next := by
  unfold turn? at h ⊢
  dsimp only
  cases hinsn : method.instructions[a.next]? with
  | none =>
    rw [hinsn] at h
    cases h
  | some insn =>
    rw [hinsn] at h
    dsimp only at h ⊢
    cases hvisit : v.visit a.state method.instructions a.next with
    | mk answer t =>
      cases hvisit' : v'.visit s method.instructions a.next with
      | mk answer' t' =>
        rw [hvisit, hvisit'] at hsame
        obtain rfl : answer' = answer := hsame
        rw [hvisit] at h
        cases answer' with
        | decline =>
          cases h
          exact ⟨_, rfl, rfl⟩
        | abstain reason =>
          cases h
          exact ⟨_, rfl, rfl⟩
        | propose sub =>
          cases h
          exact ⟨_, rfl, rfl⟩

theorem turn?_of_decline {s : v.State} {p : Nat} {insn : Instruction}
    (hinsn : method.instructions[p]? = some insn)
    (h : (v.visit s method.instructions p).1 = .decline) :
    ∃ t, v.turn? method ⟨s, p⟩ = some (.declined p insn none, ⟨t, p + 1⟩) := by
  unfold turn?
  dsimp only
  rw [hinsn]
  dsimp only
  cases hvisit : v.visit s method.instructions p with
  | mk answer t =>
    rw [hvisit] at h
    obtain rfl : answer = .decline := h
    exact ⟨t, rfl⟩

theorem Visits.append {a b c : v.Stand} {segs segs' : List Segment} (h : v.Visits method a segs b)
    (h' : v.Visits method b segs' c) : v.Visits method a (segs ++ segs') c := by
  induction h with
  | nil a => exact h'
  | cons hturn _ ih => exact .cons hturn (ih h')

/-- What a turn passes is the stretch of its segment. -/
theorem drop_of_turn? {a b : v.Stand} {seg : Segment} (h : v.turn? method a = some (seg, b)) :
    method.instructions.drop a.next = seg.stream ++ method.instructions.drop b.next := by
  have hstream := v.flatMap_stream_segments method a.state a.next 0 (method.instructions.drop a.next)
  rw [segments_of_turn? h, List.flatMap_cons, flatMap_stream_segments] at hstream
  exact hstream.symm

/-- A stretch whose positions are all declined takes a turn for each of them. -/
theorem exists_visits_declinedFrom {part rest : List Instruction} {p : Nat} (s : v.State)
    (hpart : method.instructions.drop p = part ++ rest)
    (h : ∀ k, p ≤ k → k < p + part.length → ∀ t, (v.visit t method.instructions k).1 = .decline) :
    ∃ t, v.Visits method ⟨s, p⟩ (Segment.declinedFrom p part) ⟨t, p + part.length⟩ := by
  induction part generalizing s p with
  | nil => exact ⟨s, .nil _⟩
  | cons insn part ih =>
    have hinsn : method.instructions[p]? = some insn := by
      rw [← List.head?_drop, hpart]
      rfl
    have hbehind : method.instructions.drop (p + 1) = part ++ rest := by
      rw [← List.drop_drop, hpart]
      rfl
    rw [List.length_cons] at h
    obtain ⟨t, hturn⟩ := turn?_of_decline hinsn (h p (Nat.le_refl p) (by omega) s)
    obtain ⟨t', hvisits⟩ := ih t hbehind fun k hle hlt => h k (by omega) (by omega)
    rw [Nat.add_right_comm, Nat.add_assoc] at hvisits
    exact ⟨t', .cons hturn hvisits⟩

/-- **The two loops.**  Where the visitors answer alike about what was not rejected, and the second one declines
what was, its loop finds the segments of the first one with the rejected ones taken apart. -/
theorem Visits.withdrawn {answer answer' : Nat → Answer} {a b : v.Stand} {segs : List Segment}
    (h : v.Visits method a segs b) (hv : v.AnswersBy method.instructions answer)
    (hv' : v'.AnswersBy method.instructions answer')
    (hkept : ∀ seg ∈ segs, seg.isRejected = false → answer' seg.position = answer seg.position)
    (hwithdrawn : ∀ seg ∈ segs, seg.isRejected = true → ∀ k, seg.Contains k → answer' k = .decline)
    (s : v'.State) :
    ∃ b' : v'.Stand, v'.Visits method ⟨s, a.next⟩ (segs.flatMap Segment.withdrawn) b' ∧
      b'.next = b.next := by
  induction h generalizing s with
  | nil a => exact ⟨⟨s, a.next⟩, .nil _, rfl⟩
  | @cons a b c seg segs hturn _ ih =>
    obtain ⟨hposition, hstop, -, -⟩ := turn?_advances hturn
    have hrest := ih (fun t ht => hkept t (List.mem_cons_of_mem _ ht))
      fun t ht => hwithdrawn t (List.mem_cons_of_mem _ ht)
    rw [List.flatMap_cons]
    unfold Segment.withdrawn
    cases hrejected : seg.isRejected with
    | false =>
      have hsame : (v'.visit s method.instructions a.next).1 =
          (v.visit a.state method.instructions a.next).1 := by
        rw [hv', hv, ← hposition, hkept seg List.mem_cons_self hrejected]
      obtain ⟨⟨t, next⟩, hturn', rfl⟩ := turn?_of_same_answer hturn hsame
      obtain ⟨c', hvisits, hc⟩ := hrest t
      exact ⟨c', .cons hturn' hvisits, hc⟩
    | true =>
      have hdeclines : ∀ k, a.next ≤ k → k < a.next + seg.stream.length →
          ∀ t, (v'.visit t method.instructions k).1 = .decline := by
        intro k hle hlt t
        rw [hv']
        refine hwithdrawn seg List.mem_cons_self hrejected k ⟨hposition ▸ hle, ?_⟩
        unfold Segment.stop
        rwa [hposition]
      obtain ⟨t, hdeclined⟩ := exists_visits_declinedFrom s (drop_of_turn? hturn) hdeclines
      have hnext : a.next + seg.stream.length = b.next := by
        rw [← hposition]
        exact hstop
      obtain ⟨c', hvisits, hc⟩ := hrest t
      rw [hnext] at hdeclined
      rw [if_pos rfl, hposition]
      exact ⟨c', hdeclined.append hvisits, hc⟩

end Visitor

/-! ## Registers -/

namespace Register

variable {r : Register} {o o' : Operator} {header : MethodHeader}

theorem replay_append (r : Register) (ss ss' : List Segment) :
    r.replay o header (ss ++ ss') =
      ((r.replay o header ss).1 ++ ((r.replay o header ss).2.replay o header ss').1,
        ((r.replay o header ss).2.replay o header ss').2) := by
  induction ss generalizing r with
  | nil => rfl
  | cons s ss ih => rw [List.cons_append, replay_cons, ih, replay_cons, List.append_assoc]

theorem replay_declinedFrom (r : Register) (p : Nat) (insns : List Instruction) :
    r.replay o header (Segment.declinedFrom p insns) = (insns, r) := by
  induction insns generalizing p with
  | nil => rfl
  | cons insn insns ih =>
    have hdeclined : r.replaySegment o header (.declined p insn none) = ([insn], r) := rfl
    rw [Segment.declinedFrom, replay_cons, hdeclined, ih]
    rfl

theorem replaySegment_of_isRejected {seg : Segment} (h : seg.isRejected = true) (r : Register) :
    r.replaySegment o header seg = (seg.stream, r) := by
  unfold Segment.isRejected at h
  split at h
  · rfl
  · cases h

/-- Taking rejected matches apart makes no difference to a register. -/
theorem replay_withdrawn (r : Register) (ss : List Segment) :
    r.replay o header (ss.flatMap Segment.withdrawn) = r.replay o header ss := by
  induction ss generalizing r with
  | nil => rfl
  | cons s ss ih =>
    have hsegment : r.replay o header s.withdrawn = r.replaySegment o header s := by
      unfold Segment.withdrawn
      split
      · rename_i hrejected
        rw [replay_declinedFrom, replaySegment_of_isRejected hrejected]
      · rw [replay_cons]
        exact Prod.ext (List.append_nil _) rfl
    rw [List.flatMap_cons, replay_append, hsegment, ih, replay_cons]

/-- Of the operator, a register looks at the identifier only. -/
theorem replay_congr (hid : o'.id = o.id) (r : Register) (ss : List Segment) :
    r.replay o' header ss = r.replay o header ss := by
  have hsegment : ∀ (r : Register) (s : Segment),
      r.replaySegment o' header s = r.replaySegment o header s := by
    intro r s
    unfold replaySegment
    rw [hid]
  induction ss generalizing r with
  | nil => rfl
  | cons s ss ih => rw [replay_cons, replay_cons, hsegment, ih]

end Register

namespace Segment

theorem isRejected_of_mem_declinedFrom {p : Nat} {insns : List Instruction} {seg : Segment}
    (h : seg ∈ declinedFrom p insns) : seg.isRejected = false := by
  induction insns generalizing p with
  | nil => cases h
  | cons insn insns ih =>
    rcases List.mem_cons.mp h with rfl | h
    · rfl
    · exact ih h

theorem isRejected_of_mem_withdrawn {seg t : Segment} (h : t ∈ seg.withdrawn) : t.isRejected = false := by
  unfold withdrawn at h
  split at h
  · exact isRejected_of_mem_declinedFrom h
  · rename_i hkept
    obtain rfl := List.mem_singleton.mp h
    exact Bool.eq_false_iff.mpr hkept

end Segment

/-- The segments of a pass with the rejected matches withdrawn. -/
theorem Operator.segments_withdrawn {o o' : Operator} {m : Method} {header : MethodHeader}
    {answer : Nat → Answer} (h : (o.visitor header).AnswersBy m.instructions answer)
    (h' : (o'.visitor header).AnswersBy m.instructions (withdraw (o.segments header m) answer)) :
    o'.segments header m = (o.segments header m).flatMap Segment.withdrawn := by
  obtain ⟨b, hvisits, hb⟩ := (o.visitor header).exists_visits m (o.visitor header).outset (Nat.zero_le _)
  have hdivided := o.dividedInto header m
  -- where a segment that is kept begins, no rejected one can lie
  have hkept : ∀ seg ∈ o.segments header m, seg.isRejected = false →
      withdraw (o.segments header m) answer seg.position = answer seg.position := by
    intro seg hseg hnot
    refine if_neg ?_
    rintro ⟨other, hother, hrejected, hcontains⟩
    have hown : seg.Contains seg.position := ⟨Nat.le_refl _, hdivided.nonempty seg hseg⟩
    obtain rfl := hvisits.eq_of_contains hseg hother hown hcontains
    rw [hnot] at hrejected
    cases hrejected
  have hwithdrawn : ∀ seg ∈ o.segments header m, seg.isRejected = true → ∀ k, seg.Contains k →
      withdraw (o.segments header m) answer k = .decline :=
    fun seg hseg hrejected k hcontains => if_pos ⟨seg, hseg, hrejected, hcontains⟩
  obtain ⟨b', hvisits', hb'⟩ := hvisits.withdrawn h h' hkept hwithdrawn (o'.visitor header).start
  exact (hvisits'.eq_segments (Visitor.turn?_eq_none_iff.mpr (Nat.le_of_eq (hb'.trans hb).symm))).symm

/-- **A rejected match is as good as none.**  Where the visitor of an operator answers by position, the pass has
the outcome of the pass with an operator that declines the positions in the regions of rejected matches and
otherwise answers alike: the same stream, the same points with the same identifiers, and the same target met.
That pass rejects nothing, and its segments are the others with the rejected ones taken apart; so a rejected
match takes no index, and nothing in front of its region or behind it would be different without it. -/
theorem Register.runPass_withdrawn {o o' : Operator} {m : Method} {header : MethodHeader}
    {answer : Nat → Answer} (r : Register) (hheader : m.header? r.owner = some header)
    (hid : o'.id = o.id) (h : (o.visitor header).AnswersBy m.instructions answer)
    (h' : (o'.visitor header).AnswersBy m.instructions (withdraw (o.segments header m) answer)) :
    (r.runPass o' m).outcome = (r.runPass o m).outcome ∧
      (∀ seg ∈ o'.segments header m, seg.isRejected = false) ∧
      o'.segments header m = (o.segments header m).flatMap Segment.withdrawn := by
  have hsegments := Operator.segments_withdrawn h h'
  refine ⟨?_, ?_, hsegments⟩
  · rw [runPass_outcome hheader, runPass_outcome hheader, hsegments, replay_congr hid, replay_withdrawn]
  · intro seg hseg
    rw [hsegments] at hseg
    obtain ⟨s, -, hmem⟩ := List.mem_flatMap.mp hseg
    exact Segment.isRejected_of_mem_withdrawn hmem

/-- An operator that answers by position, in every method alike. -/
def Operator.scripted (answer : Nat → Answer) : Operator where
  name := "SCRIPTED"
  id := "scripted"
  visitor _ := .stateless fun _ p => answer p

/-- A script with a match of two instructions at the start that is rejected, since it leaves the stack
otherwise, one in its region that would be accepted, and one behind it that is. -/
def rejectedScript : Nat → Answer
  | 0 => .propose ⟨2, [{ opcode := .dup }], "two loads"⟩
  | 1 => .propose (.single [{ opcode := .load .int, operand := .var 9 }] "second load")
  | 2 => .propose (.single [{ opcode := .arith .sub .int }] "addition")
  | _ => .decline

def sumHeader : MethodHeader where
  owner := ⟨"Calc"⟩
  name := "sum"
  descriptor := "(II)I"
  isStatic := true
  freshLabel := 0

/-- The segments of the script over `sumMethod`. -/
def rejectedSegments : List Segment := (Operator.scripted rejectedScript).segments sumHeader sumMethod

theorem runPass_withdrawn_secondLoad :
    let script := Operator.scripted rejectedScript
    let withdrawn := Operator.scripted (withdraw rejectedSegments rejectedScript)
    let r := Register.seeking { sumId with operator := "scripted" }
    rejectedSegments.map (fun seg => (seg.position, seg.stop, seg.isRejected)) =
        [(0, 2, true), (2, 3, false), (3, 4, false)] ∧
      sumMethod.header? r.owner = some sumHeader ∧ withdrawn.id = script.id ∧
      (script.visitor sumHeader).AnswersBy sumMethod.instructions rejectedScript ∧
      (withdrawn.visitor sumHeader).AnswersBy sumMethod.instructions
        (withdraw rejectedSegments rejectedScript) ∧
      (r.runPass withdrawn sumMethod).outcome = (r.runPass script sumMethod).outcome ∧
      (∀ seg ∈ withdrawn.segments sumHeader sumMethod, seg.isRejected = false) ∧
      withdrawn.segments sumHeader sumMethod = rejectedSegments.flatMap Segment.withdrawn := by
  intro script withdrawn r
  have hsegments : rejectedSegments.map (fun seg => (seg.position, seg.stop, seg.isRejected)) =
      [(0, 2, true), (2, 3, false), (3, 4, false)] := by decide
  have hheader : sumMethod.header? r.owner = some sumHeader := rfl
  have hscript : (script.visitor sumHeader).AnswersBy sumMethod.instructions rejectedScript :=
    fun _ _ => rfl
  have hwithdrawn : (withdrawn.visitor sumHeader).AnswersBy sumMethod.instructions
      (withdraw rejectedSegments rejectedScript) := fun _ _ => rfl
  exact ⟨hsegments, hheader, rfl, hscript, hwithdrawn,
    Register.runPass_withdrawn r hheader rfl hscript hwithdrawn⟩

end StackMutants
