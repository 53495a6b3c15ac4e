import StackMutants.Code.StackEffect

/-!
# Code.Depth — the stack depth at the end of a stream

`exitDepth` follows a stream once from its first instruction, at depth 0.  A branch records the depth
that its label is to be reached with, unless one is recorded already; a return, a throw or a jump ends
the fall-through path until a label with a recorded depth is met.  No depth at the end means that
control never falls out of the stream.
-/

namespace StackMutants

/-- The depths that labels are reached with, the first one recorded for a label counting. -/
abbrev LabelDepths := List (UInt32 × Int)

/-- Where a walk over a stream stands: the depth, unless this point is never reached, and the depths
recorded for labels. -/
structure Walk where
  depth : Option Int
  labels : LabelDepths
deriving DecidableEq, Repr

namespace Walk

def start : Walk := ⟨some 0, []⟩

/-- Records the depth of a label unless it has one. -/
def record (w : Walk) (id : UInt32) (depth : Int) : Walk :=
  match w.labels.lookup id with
  | some _ => w
  | none => { w with labels := w.labels ++ [(id, depth)] }

/-- Passes a label: the depth on the way and the recorded one have to agree. -/
def atLabel (w : Walk) (id : UInt32) : Except InstructionFault Walk :=
  match w.depth, w.labels.lookup id with
  | some current, some expected =>
    if current = expected then .ok w else .error (.unevenLabel id current expected)
  | none, some expected => .ok { w with depth := some expected }
  | some current, none => .ok (w.record id current)
  | none, none => .ok w

/-- Passes one instruction.  Unreachable code keeps its operand checks but has no depth. -/
def step (w : Walk) (i : Instruction) : Except CodeFault Walk := do
  let effect ← i.stackEffect
  match i.opcode, i.label? with
  | .label, some id => (w.atLabel id).mapError (.instruction i.opcode)
  | .label, none => pure w
  | _, _ =>
    match w.depth with
    | none => pure w
    | some current =>
      let after := current + effect.delta
      let w' := match i.target? with
        | some id => w.record id after
        | none => w
      pure { w' with depth := if i.isTerminal then none else some after }

/-- Passes a stream. -/
def run (w : Walk) : List Instruction → Except CodeFault Walk
  | [] => .ok w
  | i :: rest => (w.step i).bind fun w' => w'.run rest

end Walk

/-- The depth change on the fall-through exit of a stream; none if control never falls out of it. -/
def exitDepth (insns : List Instruction) : Except CodeFault (Option Int) :=
  (Walk.start.run insns).map (·.depth)

end StackMutants
