import StackMutants.Proofs.Walk
import Mathlib.Logic.Relation

/-!
# Proofs.Paths — the exit depth and the paths of a stream

`Flow` says where control may go from a point of a stream, and `Reached` which points lie on a path from
the first instruction at depth 0.  The walk of `exitDepth` passes every instruction once, in the order of
the stream, while a path may pass labels several times and in any order.

What the walk says is so on some path (`Walk.Realised`): wherever it has a depth, that point is reached at
that depth.  It is so on every path only if no label is reached at two depths (`Walk.Agrees`).  The walk
compares depths where it falls through into a label; of two branches to a label it takes the first one at
its word and ignores the other, so `exitDepth` may return a depth that some paths do not end at
(`not_exitDepth_of_every_path`).
-/

namespace StackMutants

/-! ## Paths -/

/-- A point of a path: the position of the next instruction, and the depth of the stack before it. -/
structure Point where
  position : Nat
  depth : Int
deriving DecidableEq, Repr

/-- Where control may go from a point.  A return, a throw, and a branch to a label that the stream does not
declare go nowhere in the stream. -/
inductive Flow (insns : List Instruction) : Point → Point → Prop where
  | next {p : Nat} {d : Int} {i : Instruction} {e : StackEffect} :
      insns[p]? = some i → i.stackEffect = .ok e → i.isTerminal = false →
      Flow insns ⟨p, d⟩ ⟨p + 1, d + e.delta⟩
  | branch {p q : Nat} {d : Int} {i label : Instruction} {e : StackEffect} {id : UInt32} :
      insns[p]? = some i → i.stackEffect = .ok e → i.target? = some id →
      insns[q]? = some label → label.declares? = some id →
      Flow insns ⟨p, d⟩ ⟨q, d + e.delta⟩

/-- Some path from the first instruction, at depth 0, comes to the position at the depth.  The position
behind the last instruction is where control falls off the end. -/
def Reached (insns : List Instruction) (p : Nat) (d : Int) : Prop :=
  Relation.ReflTransGen (Flow insns) ⟨0, 0⟩ ⟨p, d⟩

/-- No label is reached at two depths. -/
def EvenLabels (insns : List Instruction) : Prop :=
  ∀ (p : Nat) (label : Instruction) (id : UInt32) (d d' : Int), insns[p]? = some label →
    label.declares? = some id → Reached insns p d → Reached insns p d' → d = d'

section Reaching

variable {insns : List Instruction} {p : Nat} {d : Int}

theorem reached_start (insns : List Instruction) : Reached insns 0 0 := .refl

theorem Reached.next {i : Instruction} {e : StackEffect} (h : Reached insns p d)
    (hi : insns[p]? = some i) (he : i.stackEffect = .ok e) (hgoes : i.isTerminal = false) :
    Reached insns (p + 1) (d + e.delta) :=
  h.tail (.next hi he hgoes)

theorem Reached.branch {i label : Instruction} {e : StackEffect} {id : UInt32} {q : Nat}
    (h : Reached insns p d) (hi : insns[p]? = some i) (he : i.stackEffect = .ok e)
    (ht : i.target? = some id) (hlabel : insns[q]? = some label) (hid : label.declares? = some id) :
    Reached insns q (d + e.delta) :=
  h.tail (.branch hi he ht hlabel hid)

/-- Where there is no label, a path has begun or has fallen through. -/
theorem Reached.arrival (h : Reached insns p d)
    (hp : ∀ i, insns[p]? = some i → i.declares? = none) :
    (p = 0 ∧ d = 0) ∨ ∃ p' d' i e, p = p' + 1 ∧ insns[p']? = some i ∧ i.stackEffect = .ok e ∧
      Reached insns p' d' ∧ d = d' + e.delta := by
  rcases Relation.ReflTransGen.cases_tail h with heq | ⟨pt, hpt, hflow⟩
  · cases heq
    exact Or.inl ⟨rfl, rfl⟩
  · cases hflow with
    | next hi he _ => exact Or.inr ⟨_, _, _, _, rfl, hi, he, hpt, rfl⟩
    | branch _ _ _ hlabel hid =>
      have hnone := hp _ hlabel
      rw [hid] at hnone
      cases hnone

end Reaching

/-! ## Points that can be listed -/

/-- The points that control may go to from a point. -/
def successors (insns : List Instruction) (pt : Point) : List Point :=
  match insns[pt.position]? with
  | none => []
  | some i =>
    match i.stackEffect with
    | .error _ => []
    | .ok e =>
      (if i.isTerminal then [] else [⟨pt.position + 1, pt.depth + e.delta⟩]) ++
        match i.target? with
        | none => []
        | some id =>
          ((List.range insns.length).filter fun q =>
            insns[q]?.any fun label => label.declares? == some id).map (⟨·, pt.depth + e.delta⟩)

theorem Flow.mem_successors {insns : List Instruction} {pt pt' : Point} (h : Flow insns pt pt') :
    pt' ∈ successors insns pt := by
  cases h with
  | next hi he hgoes =>
    unfold successors
    dsimp only
    rw [hi]
    dsimp only
    rw [he]
    dsimp only
    rw [hgoes]
    exact List.mem_append_left _ (List.mem_singleton_self _)
  | branch hi he ht hlabel hid =>
    unfold successors
    dsimp only
    rw [hi]
    dsimp only
    rw [he]
    dsimp only
    rw [ht]
    refine List.mem_append_right _ (List.mem_map.mpr ⟨_, List.mem_filter.mpr ⟨?_, ?_⟩, rfl⟩)
    · exact List.mem_range.mpr (List.getElem?_eq_some_iff.mp hlabel).1
    · rw [hlabel, Option.any_some, hid]
      exact beq_self_eq_true _

/-- Points that hold the first one and are closed under `successors` are all that is reached. -/
theorem Reached.mem_of_closed {insns : List Instruction} {points : List Point}
    (hstart : ⟨0, 0⟩ ∈ points)
    (hclosed : ∀ pt ∈ points, ∀ pt' ∈ successors insns pt, pt' ∈ points) {p : Nat} {d : Int}
    (h : Reached insns p d) : ⟨p, d⟩ ∈ points := by
  have hall : ∀ pt, Relation.ReflTransGen (Flow insns) ⟨0, 0⟩ pt → pt ∈ points := by
    intro pt hpt
    induction hpt with
    | refl => exact hstart
    | tail _ hflow ih => exact hclosed _ ih _ hflow.mem_successors
  exact hall _ h

/-- Labels are even if one can list the points that are reached, and none of two at a label differ. -/
theorem evenLabels_of_closed {insns : List Instruction} {points : List Point}
    (hstart : ⟨0, 0⟩ ∈ points)
    (hclosed : ∀ pt ∈ points, ∀ pt' ∈ successors insns pt, pt' ∈ points)
    (heven : ∀ pt ∈ points, ∀ pt' ∈ points, pt.position = pt'.position →
      pt.depth = pt'.depth ∨ insns[pt.position]?.bind (·.declares?) = none) : EvenLabels insns := by
  intro p label id d d' hlabel hid hd hd'
  have hmem := hd.mem_of_closed hstart hclosed
  have hmem' := hd'.mem_of_closed hstart hclosed
  rcases heven _ hmem _ hmem' rfl with heq | hnone
  · exact heq
  · dsimp only at hnone
    rw [hlabel, Option.bind_some, hid] at hnone
    cases hnone

/-- A label that is declared once stands at one position. -/
theorem eq_of_declares? {insns : List Instruction} (h : (labelsIn insns).Nodup) {p q : Nat}
    {i j : Instruction} {id : UInt32} (hi : insns[p]? = some i) (hj : insns[q]? = some j)
    (hid : i.declares? = some id) (hid' : j.declares? = some id) : p = q := by
  have hdistinct := List.pairwise_iff_getElem.mp (List.pairwise_filterMap.mp h)
  obtain ⟨hp, rfl⟩ := List.getElem?_eq_some_iff.mp hi
  obtain ⟨hq, rfl⟩ := List.getElem?_eq_some_iff.mp hj
  rcases Nat.lt_trichotomy p q with hlt | heq | hgt
  · exact absurd rfl (hdistinct p q hp hq hlt id hid id hid')
  · exact heq
  · exact absurd rfl (hdistinct q p hq hp hgt id hid' id hid)

/-! ## What a step of the walk leaves -/

namespace Instruction

variable {i : Instruction} {e : StackEffect} {id : UInt32}

theorem isTerminal_of_declares? (h : i.declares? = some id) : i.isTerminal = false := by
  unfold declares? at h
  split at h
  · rename_i hop
    unfold isTerminal
    rw [hop]
  · cases h

theorem delta_of_declares? (he : i.stackEffect = .ok e) (h : i.declares? = some id) : e.delta = 0 := by
  obtain ⟨opcode, operand, line⟩ := i
  cases opcode <;> cases operand <;> simp_all [declares?, label?, stackEffect]
  subst he
  rfl

theorem usedLabel?_of_declares?_none (h : i.declares? = none) : i.usedLabel? = i.target? := by
  unfold usedLabel?
  rw [h, Option.none_or]

end Instruction

namespace Walk

variable {w w' : Walk} {i : Instruction}

theorem depth_atLabel {id : UInt32} {d : Int} (h : w.atLabel id = .ok w') (hd : w'.depth = some d) :
    w.depth = some d ∨ w.depth = none ∧ w.labels.lookup id = some d := by
  unfold atLabel at h
  split at h
  · split at h
    · cases h
      exact Or.inl hd
    · cases h
  · rename_i hdepth hlookup
    cases h
    cases hd
    exact Or.inr ⟨hdepth, hlookup⟩
  · cases h
    rw [depth_record] at hd
    exact Or.inl hd
  · cases h
    exact Or.inl hd

/-- A depth after an instruction is the depth before it with the effect, or that of a label at which the
walk resumes. -/
theorem depth_step {d : Int} (h : w.step i = .ok w') (hd : w'.depth = some d) :
    ∃ e, i.stackEffect = .ok e ∧
      ((∃ d', w.depth = some d' ∧ i.isTerminal = false ∧ d = d' + e.delta) ∨
        ∃ id, i.declares? = some id ∧ w.labels.lookup id = some d) := by
  obtain ⟨e, he⟩ := exists_stackEffect_of_step h
  refine ⟨e, he, ?_⟩
  rw [step_of_effect w he] at h
  cases hdeclares : i.declares? with
  | some id =>
    rw [hdeclares] at h
    dsimp only at h
    cases hat : w.atLabel id with
    | error fault =>
      rw [hat] at h
      cases h
    | ok v =>
      rw [hat] at h
      cases h
      rcases depth_atLabel hat hd with hlive | ⟨-, hlookup⟩
      · refine Or.inl ⟨d, hlive, Instruction.isTerminal_of_declares? hdeclares, ?_⟩
        rw [Instruction.delta_of_declares? he hdeclares, Int.add_zero]
      · exact Or.inr ⟨id, rfl, hlookup⟩
  | none =>
    rw [hdeclares] at h
    dsimp only at h
    cases hdepth : w.depth with
    | none =>
      rw [hdepth] at h
      cases h
      rw [hdepth] at hd
      cases hd
    | some d' =>
      rw [hdepth] at h
      cases h
      unfold pass at hd
      dsimp only at hd
      split at hd
      · cases hd
      · rename_i hgoes
        cases hd
        exact Or.inl ⟨d', rfl, Bool.eq_false_iff.mpr hgoes, rfl⟩

theorem record_atLabel {id id' : UInt32} {r : Int} (h : w.atLabel id = .ok w')
    (hr : w'.labels.lookup id' = some r) :
    w.labels.lookup id' = some r ∨ id' = id ∧ w.depth = some r := by
  unfold atLabel at h
  split at h
  · split at h
    · cases h
      exact Or.inl hr
    · cases h
  · cases h
    exact Or.inl hr
  · rename_i current hdepth _
    cases h
    rw [lookup_record] at hr
    cases hlookup : w.labels.lookup id' with
    | some r' =>
      rw [hlookup] at hr
      exact Or.inl hr
    | none =>
      rw [hlookup, Option.none_or] at hr
      split at hr
      · rename_i heq
        cases hr
        exact Or.inr ⟨heq, hdepth⟩
      · cases hr
  · cases h
    exact Or.inl hr

/-- A record after an instruction was there before, or is the depth behind an instruction that mentions the
label. -/
theorem record_step {id : UInt32} {r : Int} (h : w.step i = .ok w')
    (hr : w'.labels.lookup id = some r) :
    w.labels.lookup id = some r ∨ ∃ e d, i.stackEffect = .ok e ∧ w.depth = some d ∧
      i.usedLabel? = some id ∧ r = d + e.delta := by
  obtain ⟨e, he⟩ := exists_stackEffect_of_step h
  rw [step_of_effect w he] at h
  cases hdeclares : i.declares? with
  | some declared =>
    rw [hdeclares] at h
    dsimp only at h
    cases hat : w.atLabel declared with
    | error fault =>
      rw [hat] at h
      cases h
    | ok v =>
      rw [hat] at h
      cases h
      rcases record_atLabel hat hr with hold | ⟨rfl, hdepth⟩
      · exact Or.inl hold
      · refine Or.inr ⟨e, r, he, hdepth, Instruction.usedLabel?_of_declares? hdeclares, ?_⟩
        rw [Instruction.delta_of_declares? he hdeclares, Int.add_zero]
  | none =>
    rw [hdeclares] at h
    dsimp only at h
    cases hdepth : w.depth with
    | none =>
      rw [hdepth] at h
      cases h
      exact Or.inl hr
    | some d =>
      rw [hdepth] at h
      cases h
      by_cases htarget : i.target? = some id
      · have hpass : (w.pass i (d + e.delta)).labels = (w.record id (d + e.delta)).labels := by
          unfold pass
          rw [htarget]
        rw [hpass, lookup_record, if_pos rfl] at hr
        cases hlookup : w.labels.lookup id with
        | some r' =>
          rw [hlookup] at hr
          exact Or.inl hr
        | none =>
          rw [hlookup, Option.none_or] at hr
          cases hr
          exact Or.inr ⟨e, d, he, rfl, Instruction.usedLabel?_of_target? htarget, rfl⟩
      · rw [lookup_pass w _ htarget] at hr
        exact Or.inl hr

/-! ## The walk is realised by paths -/

/-- The walk stands at a position that some path reaches at its depth, and some path reaches each recorded
label at the depth recorded. -/
structure Realised (insns : List Instruction) (p : Nat) (w : Walk) : Prop where
  depth : ∀ d, w.depth = some d → Reached insns p d
  labels : ∀ id r, w.labels.lookup id = some r → ∀ q label, insns[q]? = some label →
    label.declares? = some id → Reached insns q r

section Agreement

variable {insns : List Instruction} {p : Nat}

theorem realised_start (insns : List Instruction) : Realised insns 0 start := by
  constructor
  · intro d hd
    cases hd
    exact reached_start insns
  · intro id r hr
    cases hr

theorem Realised.step (h : Realised insns p w) (hdistinct : (labelsIn insns).Nodup)
    (hi : insns[p]? = some i) (hstep : w.step i = .ok w') : Realised insns (p + 1) w' := by
  constructor
  · intro d hd
    obtain ⟨e, he, hcases⟩ := depth_step hstep hd
    rcases hcases with ⟨d', hdepth, hgoes, rfl⟩ | ⟨id, hid, hlookup⟩
    · exact (h.depth d' hdepth).next hi he hgoes
    · have hreached : Reached insns p d := h.labels id d hlookup p i hi hid
      have hnext := hreached.next hi he (Instruction.isTerminal_of_declares? hid)
      rwa [Instruction.delta_of_declares? he hid, Int.add_zero] at hnext
  · intro id r hr q label hlabel hid
    rcases record_step hstep hr with hold | ⟨e, d, he, hdepth, hused, rfl⟩
    · exact h.labels id r hold q label hlabel hid
    · have hreached : Reached insns p d := h.depth d hdepth
      cases hdeclares : i.declares? with
      | none =>
        have htarget : i.target? = some id := by
          rw [← Instruction.usedLabel?_of_declares?_none hdeclares]
          exact hused
        exact hreached.branch hi he htarget hlabel hid
      | some declared =>
        have hused' := Instruction.usedLabel?_of_declares? hdeclares
        rw [hused] at hused'
        cases hused'
        obtain rfl := eq_of_declares? hdistinct hlabel hi hid hdeclares
        rw [Instruction.delta_of_declares? he hdeclares, Int.add_zero]
        exact hreached

/-- The walk is realised by paths, and where it has a depth, all paths have that depth. -/
structure Agrees (insns : List Instruction) (p : Nat) (w : Walk) : Prop extends Realised insns p w where
  sole : ∀ d, w.depth = some d → ∀ d', Reached insns p d' → d' = d

theorem agrees_start (heven : EvenLabels insns) : Agrees insns 0 start := by
  refine ⟨realised_start insns, ?_⟩
  intro d hd d' hd'
  cases hd
  by_cases hlabel : ∃ label id, insns[0]? = some label ∧ label.declares? = some id
  · obtain ⟨label, id, hi, hid⟩ := hlabel
    exact heven 0 label id d' 0 hi hid hd' (reached_start insns)
  · rcases hd'.arrival (fun i hi => Option.eq_none_iff_forall_ne_some.mpr
      fun id hid => hlabel ⟨i, id, hi, hid⟩) with ⟨-, hzero⟩ | ⟨_, _, _, _, hp, -⟩
    · exact hzero
    · cases hp

theorem Agrees.step (h : Agrees insns p w) (hdistinct : (labelsIn insns).Nodup)
    (heven : EvenLabels insns) (hi : insns[p]? = some i) (hstep : w.step i = .ok w') :
    Agrees insns (p + 1) w' := by
  have hrealised := h.toRealised.step hdistinct hi hstep
  refine ⟨hrealised, ?_⟩
  intro d hd d' hd'
  by_cases hlabel : ∃ label id, insns[p + 1]? = some label ∧ label.declares? = some id
  · obtain ⟨label, id, hi', hid⟩ := hlabel
    exact heven (p + 1) label id d' d hi' hid hd' (hrealised.depth d hd)
  · -- without a label to branch to, the path has fallen through from `i`
    obtain ⟨p', d₀, i', e', hp, hi', he', hreached, rfl⟩ := (hd'.arrival fun i hi =>
      Option.eq_none_iff_forall_ne_some.mpr fun id hid => hlabel ⟨i, id, hi, hid⟩).resolve_left
        fun hzero => Nat.succ_ne_zero p hzero.1
    obtain rfl : p = p' := Nat.succ.inj hp
    obtain rfl : i = i' := Option.some.inj (hi.symm.trans hi')
    obtain ⟨e, he, hcases⟩ := depth_step hstep hd
    obtain rfl : e = e' := Except.ok.inj (he.symm.trans he')
    rcases hcases with ⟨d₁, hdepth, -, rfl⟩ | ⟨id, hid, hlookup⟩
    · rw [h.sole d₁ hdepth d₀ hreached]
    · have hresumed : Reached insns p d := h.labels id d hlookup p i hi hid
      have hsame : d₀ = d := heven p i id d₀ d hi hid hreached hresumed
      rw [hsame, Instruction.delta_of_declares? he hid, Int.add_zero]

theorem Agrees.run {pre rest : List Instruction} (h : Agrees (pre ++ rest) pre.length w)
    (hdistinct : (labelsIn (pre ++ rest)).Nodup) (heven : EvenLabels (pre ++ rest))
    (hrun : w.run rest = .ok w') : Agrees (pre ++ rest) (pre ++ rest).length w' := by
  induction rest generalizing pre w with
  | nil =>
    cases hrun
    rw [List.append_nil] at h ⊢
    exact h
  | cons i rest ih =>
    obtain ⟨v, hstep, hrun⟩ := exists_step_of_run hrun
    have hi : (pre ++ i :: rest)[pre.length]? = some i := by simp
    have hnext := h.step hdistinct heven hi hstep
    rw [List.append_cons] at hdistinct heven hnext ⊢
    refine ih ?_ hdistinct heven hrun
    rw [List.length_append]
    exact hnext

end Agreement

end Walk

/-! ## The exit depth -/

/-- **The exit depth on every path.**  If every label is declared once and none is reached at two depths,
control falls off the end at the exit depth and at no other.  (Where a label is declared again, the walk goes
on at the depth of the first declaration, even if no path comes there.) -/
theorem reached_end_iff_of_evenLabels {insns : List Instruction} {d : Int}
    (h : exitDepth insns = .ok (some d)) (hdistinct : (labelsIn insns).Nodup)
    (heven : EvenLabels insns) (d' : Int) : Reached insns insns.length d' ↔ d' = d := by
  obtain ⟨w, hrun, hdepth⟩ := exists_run_of_exitDepth h
  have hstart : Walk.Agrees ([] ++ insns) ([] : List Instruction).length Walk.start :=
    Walk.agrees_start heven
  have hend : Walk.Agrees insns insns.length w := hstart.run hdistinct heven hrun
  constructor
  · exact hend.sole d hdepth d'
  · rintro rfl
    exact hend.depth d' hdepth

/-- A loop that is entered at its condition: the body stands behind a jump, so the walk meets its label
before anything branches to it. -/
def bottomTestedLoop : List Instruction :=
  [{ opcode := .goto, operand := .label 1 },
   { opcode := .label, operand := .label 0 },
   { opcode := .nop },
   { opcode := .label, operand := .label 1 },
   { opcode := .load .int, operand := .var 0 },
   { opcode := .ifZero .ne, operand := .label 0 }]

theorem reached_end_iff_bottomTestedLoop :
    exitDepth bottomTestedLoop = .ok (some 0) ∧ (labelsIn bottomTestedLoop).Nodup ∧
      EvenLabels bottomTestedLoop ∧ (Reached bottomTestedLoop bottomTestedLoop.length 0 ↔ (0 : Int) = 0) := by
  have hexit : exitDepth bottomTestedLoop = .ok (some 0) := rfl
  have hdistinct : (labelsIn bottomTestedLoop).Nodup := by decide
  have heven : EvenLabels bottomTestedLoop :=
    evenLabels_of_closed
      (show ⟨0, 0⟩ ∈ [⟨0, 0⟩, ⟨3, 0⟩, ⟨4, 0⟩, ⟨5, 1⟩, ⟨6, 0⟩, ⟨1, 0⟩, (⟨2, 0⟩ : Point)] by decide)
      (by decide) (by decide)
  exact ⟨hexit, hdistinct, heven, reached_end_iff_of_evenLabels hexit hdistinct heven 0⟩

/-- Two branches to one label, the second one deeper than the first. -/
def unevenBranches : List Instruction :=
  [{ opcode := .const, operand := .int 1 },
   { opcode := .ifZero .eq, operand := .label 0 },
   { opcode := .const, operand := .int 1 },
   { opcode := .goto, operand := .label 0 },
   { opcode := .label, operand := .label 0 }]

/-- **The second branch to a label goes unseen**: the exit depth is that of the first branch. -/
theorem not_exitDepth_of_every_path :
    ¬ ∀ (insns : List Instruction) (d : Int), exitDepth insns = .ok (some d) →
      ∀ d' : Int, Reached insns insns.length d' → d' = d := by
  intro h
  have hexit : exitDepth unevenBranches = .ok (some 0) := rfl
  have hpushed : Reached unevenBranches 1 1 := (reached_start _).next (e := ⟨0, 1⟩) rfl rfl rfl
  have hpassed : Reached unevenBranches 2 0 := hpushed.next (e := ⟨1, 0⟩) rfl rfl rfl
  have hagain : Reached unevenBranches 3 1 := hpassed.next (e := ⟨0, 1⟩) rfl rfl rfl
  have hlabel : Reached unevenBranches 4 1 := hagain.branch (e := ⟨0, 0⟩) rfl rfl rfl rfl rfl
  have hend : Reached unevenBranches 5 1 := hlabel.next (e := ⟨0, 0⟩) rfl rfl rfl
  have heq : (1 : Int) = 0 := h unevenBranches 0 hexit 1 hend
  exact absurd heq (by decide)

end StackMutants
