import StackMutants.Proofs.Independence
import StackMutants.Proofs.Ranges
import Mathlib.Data.List.Pairwise

/-!
# Proofs.Partition — a pass divides its stream

A pass is a loop of turns: each turn offers one position to the visitor and goes on behind the position, or
behind the region that matched there (`Visitor.turn?`, `Visitor.Visits`).  A visitor may propose to replace
any number of instructions, zero and numbers beyond the end included; as the number is clamped, every turn
goes forward and none leaves the stream (`Visitor.turn?_advances`).  So the loop ends, after as many turns as
there are segments (`Visitor.exists_visits`), and the segments follow each other without gap and overlap.

No turn looks at the register.  Hence passes that start with the same counts enter the same points in the
same order, whatever they are to apply (`Register.runPass_partitions`).
-/

namespace StackMutants

/-! ## Turns -/

/-- Where the stretch of the segment ends. -/
def Segment.stop (seg : Segment) : Nat := seg.position + seg.stream.length

/-- The position lies in the stretch of the segment. -/
def Segment.Contains (seg : Segment) (k : Nat) : Prop := seg.position ≤ k ∧ k < seg.stop

instance decidableContains (seg : Segment) (k : Nat) : Decidable (seg.Contains k) :=
  inferInstanceAs (Decidable (_ ∧ _))

/-- Where a pass stands: what the visitor remembers, and the position that comes next. -/
structure Visitor.Stand (v : Visitor) where
  state : v.State
  next : Nat

namespace Visitor

variable {v : Visitor} {method : Method}

/-- Where a pass begins. -/
def outset (v : Visitor) : v.Stand := ⟨v.start, 0⟩

/-- One turn: the segment that begins where the pass stands, and where the pass stands then; none at the end of
the stream. -/
def turn? (v : Visitor) (method : Method) (a : v.Stand) : Option (Segment × v.Stand) :=
  match method.instructions[a.next]? with
  | none => none
  | some insn =>
    match v.visit a.state method.instructions a.next with
    | (.decline, s) => some (.declined a.next insn none, ⟨s, a.next + 1⟩)
    | (.abstain reason, s) => some (.declined a.next insn (some reason), ⟨s, a.next + 1⟩)
    | (.propose sub, s) =>
      let region := (method.instructions.drop a.next).take (sub.extent method a.next)
      some (.matched a.next insn region.tail sub (sub.fault? method region),
        ⟨s, a.next + sub.extent method a.next⟩)

/-- Turns one after the other, with the segments that they find. -/
inductive Visits (v : Visitor) (method : Method) : v.Stand → List Segment → v.Stand → Prop where
  | nil (a : v.Stand) : Visits v method a [] a
  | cons {a b c : v.Stand} {seg : Segment} {segs : List Segment} :
      v.turn? method a = some (seg, b) → Visits v method b segs c → Visits v method a (seg :: segs) c

theorem turn?_eq_none_iff {a : v.Stand} :
    v.turn? method a = none ↔ method.instructions.length ≤ a.next := by
  rw [← List.getElem?_eq_none_iff]
  unfold turn?
  cases method.instructions[a.next]? with
  | none => simp
  | some insn =>
    dsimp only
    split <;> simp

/-- A region of clamped length begins with the instruction where it begins. -/
theorem region_eq_cons {p : Nat} {insn : Instruction} (hinsn : method.instructions[p]? = some insn)
    (sub : Substitution) :
    (method.instructions.drop p).take (sub.extent method p) =
      insn :: (method.instructions.drop (p + 1)).take (sub.consumed - 1) := by
  obtain ⟨hp, rfl⟩ := List.getElem?_eq_some_iff.mp hinsn
  have hlength : (method.instructions.drop (p + 1)).length = method.instructions.length - (p + 1) :=
    List.length_drop
  have hextent : sub.extent method p =
      min (sub.consumed - 1) (method.instructions.drop (p + 1)).length + 1 := by
    unfold Substitution.extent
    omega
  rw [List.drop_eq_getElem_cons hp, hextent, List.take_succ_cons, ← List.take_take, List.take_length]

theorem length_region (sub : Substitution) {p : Nat} (hp : p < method.instructions.length) :
    ((method.instructions.drop p).take (sub.extent method p)).length = sub.extent method p := by
  rw [List.length_take, List.length_drop]
  unfold Substitution.extent
  omega

/-- **A turn goes forward and stays within the stream.** -/
theorem turn?_advances {a b : v.Stand} {seg : Segment} (h : v.turn? method a = some (seg, b)) :
    seg.position = a.next ∧ seg.stop = b.next ∧ a.next < b.next ∧
      b.next ≤ method.instructions.length := by
  unfold turn? at h
  cases hinsn : method.instructions[a.next]? with
  | none =>
    rw [hinsn] at h
    cases h
  | some insn =>
    have hp : a.next < method.instructions.length := (List.getElem?_eq_some_iff.mp hinsn).1
    rw [hinsn] at h
    dsimp only at h
    split at h
    · cases h
      exact ⟨rfl, rfl, Nat.lt_succ_self _, hp⟩
    · cases h
      exact ⟨rfl, rfl, Nat.lt_succ_self _, hp⟩
    · rename_i sub s _
      have hlength := length_region sub hp
      rw [region_eq_cons hinsn sub] at h hlength
      cases h
      have hle : 1 ≤ sub.extent method a.next := Nat.le_max_left _ _
      have hinside : a.next + sub.extent method a.next ≤ method.instructions.length := by
        unfold Substitution.extent
        omega
      exact ⟨rfl, congrArg (a.next + ·) hlength, Nat.lt_add_of_pos_right hle, hinside⟩

/-- A turn finds the next segment. -/
theorem segments_of_turn? {a b : v.Stand} {seg : Segment} (h : v.turn? method a = some (seg, b)) :
    v.segments method a.state a.next 0 (method.instructions.drop a.next) =
      seg :: v.segments method b.state b.next 0 (method.instructions.drop b.next) := by
  unfold turn? at h
  cases hinsn : method.instructions[a.next]? with
  | none =>
    rw [hinsn] at h
    cases h
  | some insn =>
    obtain ⟨hp, hget⟩ := List.getElem?_eq_some_iff.mp hinsn
    rw [hinsn] at h
    rw [List.drop_eq_getElem_cons hp, hget, segments]
    cases hvisit : v.visit a.state method.instructions a.next with
    | mk answer s =>
      rw [hvisit] at h
      cases answer with
      | decline =>
        cases h
        rfl
      | abstain reason =>
        cases h
        rfl
      | propose sub =>
        have hlength := length_region sub hp
        have hregion := region_eq_cons hinsn sub
        cases h
        rw [hregion]
        dsimp only [List.tail_cons]
        set rest := method.instructions.drop (a.next + 1) with hrest
        set others := rest.take (sub.consumed - 1) with hothers
        have hcount : others.length ≤ rest.length := List.length_take_le' _ _
        have hextent : sub.extent method a.next = others.length + 1 := by
          rw [← hlength, hregion, List.length_cons]
        rw [segments_skip v method s _ _ rest hcount, hrest, List.drop_drop, hextent,
          Nat.add_right_comm a.next 1, Nat.add_assoc]

/-! ## Loops -/

variable {a b c : v.Stand} {segs : List Segment}

/-- **Every loop ends**, at the end of the stream. -/
theorem exists_visits (v : Visitor) (method : Method) (a : v.Stand)
    (ha : a.next ≤ method.instructions.length) :
    ∃ b, v.Visits method a (v.segments method a.state a.next 0 (method.instructions.drop a.next)) b ∧
      b.next = method.instructions.length := by
  induction hn : method.instructions.length - a.next using Nat.strongRecOn generalizing a with
  | ind n ih =>
    cases hturn : v.turn? method a with
    | none =>
      have hend := turn?_eq_none_iff.mp hturn
      rw [List.drop_eq_nil_of_le hend, segments]
      exact ⟨a, .nil a, Nat.le_antisymm ha hend⟩
    | some result =>
      obtain ⟨seg, b⟩ := result
      obtain ⟨-, -, hlt, hle⟩ := turn?_advances hturn
      obtain ⟨c, hvisits, hc⟩ := ih _ (by omega) b hle rfl
      rw [segments_of_turn? hturn]
      exact ⟨c, .cons hturn hvisits, hc⟩

/-- A loop that has ended has found the segments of the pass. -/
theorem Visits.eq_segments (h : v.Visits method a segs b) (hend : v.turn? method b = none) :
    segs = v.segments method a.state a.next 0 (method.instructions.drop a.next) := by
  induction h with
  | nil a =>
    rw [List.drop_eq_nil_of_le (turn?_eq_none_iff.mp hend), segments]
  | cons hturn _ ih => rw [segments_of_turn? hturn, ← ih hend]

/-- Every turn takes the loop at least one position further. -/
theorem Visits.length_le (h : v.Visits method a segs b) : a.next + segs.length ≤ b.next := by
  induction h with
  | nil a => exact Nat.le_refl _
  | cons hturn _ ih =>
    obtain ⟨-, -, hlt, -⟩ := turn?_advances hturn
    rw [List.length_cons]
    omega

/-- The segments lie between the positions where the loop begins and where it stands. -/
theorem Visits.between (h : v.Visits method a segs b) {seg : Segment} (hseg : seg ∈ segs) :
    a.next ≤ seg.position ∧ seg.position < seg.stop ∧ seg.stop ≤ b.next := by
  induction h with
  | nil a => cases hseg
  | cons hturn hrest ih =>
    obtain ⟨hposition, hstop, hlt, -⟩ := turn?_advances hturn
    have hle := hrest.length_le
    rcases List.mem_cons.mp hseg with rfl | hseg
    · omega
    · obtain ⟨hbehind, hnonempty, hbefore⟩ := ih hseg
      exact ⟨by omega, hnonempty, hbefore⟩

/-- No segment begins before the one in front of it ends. -/
theorem Visits.pairwise_stop_le (h : v.Visits method a segs b) :
    segs.Pairwise fun s t => s.stop ≤ t.position := by
  induction h with
  | nil a => exact .nil
  | cons hturn hrest ih =>
    obtain ⟨-, hstop, -, -⟩ := turn?_advances hturn
    refine List.pairwise_cons.mpr ⟨fun t ht => ?_, ih⟩
    rw [hstop]
    exact (hrest.between ht).1

/-- No position that the loop has passed is left out. -/
theorem Visits.exists_contains (h : v.Visits method a segs b) {k : Nat} (hk : a.next ≤ k)
    (hk' : k < b.next) : ∃ seg ∈ segs, seg.Contains k := by
  induction h with
  | nil a => omega
  | @cons a b c seg segs hturn _ ih =>
    obtain ⟨hposition, hstop, -, -⟩ := turn?_advances hturn
    by_cases hlt : k < seg.stop
    · exact ⟨seg, List.mem_cons_self, by omega, hlt⟩
    · obtain ⟨t, ht, hcontains⟩ := ih (by omega) hk'
      exact ⟨t, List.mem_cons_of_mem _ ht, hcontains⟩

/-- Two segments of a loop that contain the same position are the same. -/
theorem Visits.eq_of_contains (h : v.Visits method a segs b) {s t : Segment} (hs : s ∈ segs)
    (ht : t ∈ segs) {k : Nat} (hsk : s.Contains k) (htk : t.Contains k) : s = t := by
  by_contra hne
  have hapart : segs.Pairwise fun s t => s.stop ≤ t.position ∨ t.stop ≤ s.position :=
    h.pairwise_stop_le.imp Or.inl
  have hsymm : Std.Symm fun s t : Segment => s.stop ≤ t.position ∨ t.stop ≤ s.position :=
    ⟨fun _ _ => Or.symm⟩
  have := hapart.forall hs ht hne
  unfold Segment.Contains at hsk htk
  omega

end Visitor

/-! ## The segments of a pass -/

/-- The segments divide the stream of the method.  Each covers some of it, none covers more, and every position
is in exactly one: either it was declined, or it is in the one matched region, which has the clamped length. -/
structure Method.DividedInto (m : Method) (segs : List Segment) : Prop where
  ascending : (segs.map (·.position)).Pairwise (· < ·)
  nonempty : ∀ seg ∈ segs, seg.position < seg.stop
  inside : ∀ seg ∈ segs, seg.stop ≤ m.instructions.length
  apart : segs.Pairwise fun s t => s.stop ≤ t.position
  unique : ∀ k < m.instructions.length, ∃! seg, seg ∈ segs ∧ seg.Contains k
  clamped : ∀ p first others sub fault, .matched p first others sub fault ∈ segs →
    (Segment.matched p first others sub fault).stop = p + sub.extent m p
  stream : segs.flatMap Segment.stream = m.instructions

/-- A matched region has the clamped length. -/
theorem Visitor.stop_of_mem {v : Visitor} {method : Method} {p : Nat} {first : Instruction}
    {others : List Instruction} {sub : Substitution} {fault : Option SubstitutionFault}
    (h : .matched p first others sub fault ∈ v.segments method v.start 0 0 method.instructions) :
    (Segment.matched p first others sub fault).stop = p + sub.extent method p := by
  obtain ⟨behind, hbehind, rfl, -⟩ := matched_of_mem List.drop_zero h
  have hlength := congrArg List.length hbehind
  rw [List.length_drop, List.length_cons] at hlength
  show p + ((behind.take (sub.consumed - 1)).length + 1) = _
  unfold Substitution.extent
  rw [List.length_take]
  omega

theorem Operator.dividedInto (o : Operator) (header : MethodHeader) (m : Method) :
    m.DividedInto (o.segments header m) := by
  obtain ⟨b, hvisits, hb⟩ := (o.visitor header).exists_visits m (o.visitor header).outset
    (Nat.zero_le _)
  constructor
  · exact List.pairwise_map.mpr (Visitor.pairwise_segments _ m _ 0 0 _)
  · exact fun seg hseg => (hvisits.between hseg).2.1
  · exact fun seg hseg => hb ▸ (hvisits.between hseg).2.2
  · exact hvisits.pairwise_stop_le
  · intro k hk
    obtain ⟨seg, hseg, hcontains⟩ := hvisits.exists_contains (Nat.zero_le k) (hb ▸ hk)
    refine ⟨seg, ⟨hseg, hcontains⟩, ?_⟩
    rintro other ⟨hother, hcontains'⟩
    exact hvisits.eq_of_contains hother hseg hcontains' hcontains
  · intro p first others sub fault hmem
    exact Visitor.stop_of_mem hmem
  · exact Visitor.flatMap_stream_segments _ m _ 0 0 _

/-- The register after points were entered one after the other, each asked for as the target. -/
def Register.withPoints (r : Register) (points : List (Nat × Mutation)) : Register :=
  { r with
    pending := sortIn r.pending points
    applied := r.applied || points.any fun e => r.target = some e.2.id }

theorem Register.runPass_withPoints {r : Register} {m : Method} {header : MethodHeader}
    (hheader : m.header? r.owner = some header) (o : Operator) :
    ∃ output, (r.runPass o m).outcome = .ok (output, r.withPoints
      (header.points o.id (r.count m.name m.descriptor o.id) (o.hits header m))) := by
  have hregister := replay_register (o := o) (o.segments header m) (Method.owner_of_header? hheader)
  rw [Method.name_of_header? hheader, Method.descriptor_of_header? hheader] at hregister
  refine ⟨(r.replay o header (o.segments header m)).1, ?_⟩
  rw [runPass_outcome hheader]
  exact congrArg Except.ok (Prod.ext rfl hregister)

/-- **A pass divides its stream.**  The loop of a pass ends, after at most as many turns as there are
instructions, and its segments divide the stream of the method.  The points that it enters are those of the
accepted ones among them, numbered on from the count; so every register of the class with the same count is
left with the same points entered in the same order, whatever its target. -/
theorem Register.runPass_partitions {m : Method} (hspare : m.SparesLastLabel) (o : Operator)
    (r : Register) :
    ∃ header segs last, m.header? r.owner = some header ∧ o.segments header m = segs ∧
      (o.visitor header).Visits m (o.visitor header).outset segs last ∧
      (o.visitor header).turn? m last = none ∧ segs.length ≤ m.instructions.length ∧
      m.DividedInto segs ∧
      ∀ r' : Register, r'.owner = r.owner →
        r'.count m.name m.descriptor o.id = r.count m.name m.descriptor o.id →
        ∃ output, (r'.runPass o m).outcome = .ok (output, r'.withPoints
          (header.points o.id (r.count m.name m.descriptor o.id) (segs.filterMap (·.hit?)))) := by
  obtain ⟨header, hheader⟩ := m.exists_header hspare r.owner
  obtain ⟨last, hvisits, hlast⟩ := (o.visitor header).exists_visits m
    (o.visitor header).outset (Nat.zero_le _)
  have hended := Visitor.turn?_eq_none_iff.mpr (Nat.le_of_eq hlast.symm)
  have hlength := hvisits.length_le
  rw [hlast] at hlength
  refine ⟨header, o.segments header m, last, hheader, rfl, hvisits, hended,
    Nat.le_trans (Nat.le_add_left _ _) hlength, o.dividedInto header m, ?_⟩
  intro r' howner hcount
  rw [← howner] at hheader
  rw [← hcount]
  exact runPass_withPoints hheader o

/-- An operator whose visitor declines the first position that it is asked about, proposes to replace nothing
at the second one, and more than any stream has at the third one. -/
def sweeper : Operator where
  name := "SWEEPER"
  id := "sweeper"
  visitor _ :=
    { State := Nat
      start := 0
      visit := fun
        | 0, _, _ => (.decline, 1)
        | 1, _, _ => (.propose ⟨0, [{ opcode := .load .int, operand := .var 9 }], "nothing"⟩, 2)
        | n + 2, _, _ => (.propose ⟨UInt64.size - 1, [{ opcode := .throw }], "everything"⟩, n + 3) }

theorem runPass_partitions_sweeper :
    sumMethod.SparesLastLabel ∧
      ∃ header segs last, sumMethod.header? ⟨"Calc"⟩ = some header ∧
        sweeper.segments header sumMethod = segs ∧
        (sweeper.visitor header).Visits sumMethod (sweeper.visitor header).outset segs last ∧
        (sweeper.visitor header).turn? sumMethod last = none ∧
        segs.length ≤ sumMethod.instructions.length ∧ sumMethod.DividedInto segs ∧
        ∀ r' : Register, r'.owner = ⟨"Calc"⟩ →
          r'.count "sum" "(II)I" "sweeper" = 0 →
          ∃ output, (r'.runPass sweeper sumMethod).outcome = .ok (output, r'.withPoints
            (header.points "sweeper" 0 (segs.filterMap (·.hit?)))) := by
  have hspare : sumMethod.SparesLastLabel := by decide
  exact ⟨hspare, Register.runPass_partitions hspare sweeper (.blank ⟨"Calc"⟩)⟩

/-- The visitor is asked at the positions 0, 1 and 2; the last region takes the rest of the stream. -/
example : (sumMethod.header? ⟨"Calc"⟩).map (fun header =>
    (sweeper.segments header sumMethod).map fun seg => (seg.position, seg.stop, seg.hit?.isSome)) =
    some [(0, 1, false), (1, 2, true), (2, 4, true)] := by decide

end StackMutants
