import StackMutants.Proofs.Paths
import StackMutants.Pass.Segment

/-!
# Proofs.Ranges — positions and depths stay in range

The segments of a pass are found by recursion along the stream, so nothing there can be out of range.
`Visitor.checkedSegments` finds them by positions: it looks instructions up, clamps the length of a region to
what is left of the stream and cuts the region out, and it has no value where one of these has none.
`Visitor.checkedSegments_eq` says that it always has one, the segments of the pass.

The depths that a walk computes are bounded by what its instructions move (`natAbs_le_of_exitDepth`).
-/

namespace StackMutants

/-! ## Operations with a range -/

section Checked

variable {α : Type}

/-- The difference, if it is a number. -/
def sub? (a b : Nat) : Option Nat := if b ≤ a then some (a - b) else none

/-- The number of a range that is closest to `n`, if the range has any. -/
def clamp? (n low high : Nat) : Option { k : Nat // low ≤ k ∧ k ≤ high } :=
  if h : low ≤ high then some ⟨max low (min n high), by omega⟩ else none

/-- The position `n` places behind `p`, if it is one of the list or the end of it. -/
def advance? (xs : List α) (p n : Nat) : Option { q : Nat // q = p + n } :=
  if p + n ≤ xs.length then some ⟨p + n, rfl⟩ else none

/-- What stands from `p` on in front of `q`, if these are positions of the list and in this order. -/
def slice? (xs : List α) (p q : Nat) : Option (List α) :=
  if p ≤ q ∧ q ≤ xs.length then some ((xs.take q).drop p) else none

theorem sub?_of_le {a b : Nat} (h : b ≤ a) : sub? a b = some (a - b) := if_pos h

theorem clamp?_of_le (n : Nat) {low high : Nat} (h : low ≤ high) :
    clamp? n low high = some ⟨max low (min n high), by omega⟩ := dif_pos h

theorem advance?_of_le {xs : List α} {p n : Nat} (h : p + n ≤ xs.length) :
    advance? xs p n = some ⟨p + n, rfl⟩ := if_pos h

theorem slice?_of_le {xs : List α} {p n : Nat} (h : p + n ≤ xs.length) :
    slice? xs p (p + n) = some ((xs.drop p).take n) := by
  unfold slice?
  rw [if_pos ⟨by omega, h⟩, List.drop_take, Nat.add_sub_cancel_left]

end Checked

/-! ## Segments by positions -/

namespace Visitor

/-- The segments from a position on, if every position that is looked at, every range that a length is clamped
to and every region is within the stream. -/
def checkedSegments (v : Visitor) (method : Method) (s : v.State) (p : Nat) : Option (List Segment) :=
  if p < method.instructions.length then do
    let insn ← method.instructions[p]?
    match v.visit s method.instructions p with
    | (.decline, s') =>
      let next ← advance? method.instructions p 1
      let rest ← v.checkedSegments method s' next
      pure (.declined p insn none :: rest)
    | (.abstain reason, s') =>
      let next ← advance? method.instructions p 1
      let rest ← v.checkedSegments method s' next
      pure (.declined p insn (some reason) :: rest)
    | (.propose sub, s') =>
      let left ← sub? method.instructions.length p
      let consumed ← clamp? sub.consumed 1 left
      let next ← advance? method.instructions p consumed
      let region ← slice? method.instructions p next
      let first ← region[0]?
      let rest ← v.checkedSegments method s' next
      pure (.matched p first region.tail sub (sub.fault? method region) :: rest)
  else pure []
termination_by method.instructions.length - p
decreasing_by
  · have := next.property
    omega
  · have := next.property
    omega
  · have := next.property
    have := consumed.property
    omega

/-- Skipping instructions is going on behind them. -/
theorem segments_skip (v : Visitor) (method : Method) (s : v.State) (p skip : Nat)
    (rest : List Instruction) (h : skip ≤ rest.length) :
    v.segments method s p skip rest = v.segments method s (p + skip) 0 (rest.drop skip) := by
  induction rest generalizing p skip with
  | nil =>
    rw [List.drop_nil]
    unfold segments
    rfl
  | cons insn rest ih =>
    cases skip with
    | zero => rfl
    | succ skip =>
      rw [List.length_cons] at h
      have hrest := ih (p + 1) skip (by omega)
      rw [show p + 1 + skip = p + (skip + 1) by omega] at hrest
      rw [List.drop_succ_cons, ← hrest]
      rfl

/-- **Everything that a pass looks at is within the stream.** -/
theorem checkedSegments_eq (v : Visitor) (method : Method) (s : v.State) {p : Nat}
    (hp : p ≤ method.instructions.length) :
    v.checkedSegments method s p = some (v.segments method s p 0 (method.instructions.drop p)) := by
  induction hn : method.instructions.length - p using Nat.strongRecOn generalizing s p with
  | ind n ih =>
    by_cases hlt : p < method.instructions.length
    · have hget : method.instructions[p]? = some method.instructions[p] := List.getElem?_eq_getElem hlt
      have hdrop := List.drop_eq_getElem_cons hlt
      set insn := method.instructions[p]
      set rest := method.instructions.drop (p + 1) with hrest
      cases hvisit : v.visit s method.instructions p with
      | mk answer s' =>
        have hnext : ∀ k, 0 < k → p + k ≤ method.instructions.length →
            v.checkedSegments method s' (p + k) =
              some (v.segments method s' (p + k) 0 (method.instructions.drop (p + k))) := by
          intro k hpos hle
          exact ih _ (by omega) s' hle rfl
        have hstep : p + 1 ≤ method.instructions.length := hlt
        have hone := hnext 1 Nat.one_pos hstep
        rw [checkedSegments, if_pos hlt, hget, hdrop]
        cases answer with
        | decline =>
          simp only [Option.bind_eq_bind, Option.bind_some, Option.pure_def, hvisit,
            advance?_of_le hstep, hone]
          rw [segments, hvisit]
        | abstain reason =>
          simp only [Option.bind_eq_bind, Option.bind_some, Option.pure_def, hvisit,
            advance?_of_le hstep, hone]
          rw [segments, hvisit]
        | propose sub =>
          set others := rest.take (sub.consumed - 1) with hothers
          have hlength : rest.length = method.instructions.length - (p + 1) := List.length_drop
          have hcount : others.length = min (sub.consumed - 1) rest.length := List.length_take
          have hleft : 1 ≤ method.instructions.length - p := by omega
          -- the clamped length is the one that is cut off at the end of the stream
          have hclamped : max 1 (min sub.consumed (method.instructions.length - p)) =
              others.length + 1 := by omega
          have hle : p + (others.length + 1) ≤ method.instructions.length := by omega
          have hregion : (insn :: rest).take (others.length + 1) = insn :: others := by
            rw [List.take_succ_cons, hothers, List.length_take, ← List.take_take, List.take_length]
          have hbehind := hnext (others.length + 1) (Nat.succ_pos _) hle
          simp only [Option.bind_eq_bind, Option.bind_some, Option.pure_def, hvisit, sub?_of_le hp,
            clamp?_of_le sub.consumed hleft, hclamped, advance?_of_le hle, slice?_of_le hle, hdrop,
            hregion, List.getElem?_cons_zero, List.tail_cons, hbehind]
          rw [segments, hvisit]
          dsimp only
          rw [segments_skip v method s' (p + 1) others.length rest (by omega), hrest, List.drop_drop,
            show p + 1 + others.length = p + (others.length + 1) by omega]
    · rw [checkedSegments, if_neg hlt, List.drop_eq_nil_of_le (Nat.le_of_not_lt hlt), segments]
      rfl

end Visitor

/-! ## Depths -/

/-- How many values the instruction takes from the stack and puts on it. -/
def Instruction.moved (i : Instruction) : Nat :=
  match i.stackEffect with
  | .ok e => e.pops + e.pushes
  | .error _ => 0

/-- How many values a stream moves. -/
def moved : List Instruction → Nat
  | [] => 0
  | i :: rest => i.moved + moved rest

namespace Walk

/-- No depth of the walk is further from zero than `n`. -/
structure Within (n : Nat) (w : Walk) : Prop where
  depth : ∀ d, w.depth = some d → d.natAbs ≤ n
  labels : ∀ id r, w.labels.lookup id = some r → r.natAbs ≤ n

variable {w w' : Walk} {i : Instruction} {n : Nat}

theorem within_start : Within 0 start := by
  constructor
  · intro d hd
    cases hd
    exact Nat.le_refl 0
  · intro id r hr
    cases hr

theorem natAbs_delta_le {e : StackEffect} (he : i.stackEffect = .ok e) : e.delta.natAbs ≤ i.moved := by
  have hmoved : i.moved = e.pops + e.pushes := by
    unfold Instruction.moved
    rw [he]
  unfold StackEffect.delta
  omega

theorem Within.step (h : Within n w) (hstep : w.step i = .ok w') : Within (n + i.moved) w' := by
  constructor
  · intro d hd
    obtain ⟨e, he, ⟨d', hdepth, -, rfl⟩ | ⟨id, -, hlookup⟩⟩ := depth_step hstep hd
    · have hle := h.depth d' hdepth
      have hdelta := natAbs_delta_le he
      omega
    · have hle := h.labels id d hlookup
      omega
  · intro id r hr
    rcases record_step hstep hr with hold | ⟨e, d, he, hdepth, -, rfl⟩
    · have hle := h.labels id r hold
      omega
    · have hle := h.depth d hdepth
      have hdelta := natAbs_delta_le he
      omega

theorem Within.run {insns : List Instruction} (h : Within n w) (hrun : w.run insns = .ok w') :
    Within (n + moved insns) w' := by
  induction insns generalizing n w with
  | nil =>
    cases hrun
    exact h
  | cons i rest ih =>
    obtain ⟨v, hstep, hrest⟩ := exists_step_of_run hrun
    have hend := ih (h.step hstep) hrest
    rw [Nat.add_assoc] at hend
    exact hend

end Walk

/-- **Depths stay in range**: none is further from zero than the instructions move values. -/
theorem natAbs_le_of_exitDepth {insns : List Instruction} {d : Int} (h : exitDepth insns = .ok (some d)) :
    d.natAbs ≤ moved insns := by
  obtain ⟨w, hrun, hdepth⟩ := exists_run_of_exitDepth h
  have hend := Walk.within_start.run hrun
  rw [Nat.zero_add] at hend
  exact hend.depth d hdepth

end StackMutants
