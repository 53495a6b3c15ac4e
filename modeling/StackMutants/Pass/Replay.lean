import StackMutants.Pass.Segment
import StackMutants.Pass.Register

/-!
# Pass.Replay — running an operator over a method

The segments of the pass are replayed against a register.  Each accepted match is entered; if it is the
target of the register, its replacement is emitted, attributed to the line of the first instruction that
it replaces.  Everything else is emitted as it stands.
-/

namespace StackMutants

namespace Register

/-- Replays one segment: what it emits, and the register after it. -/
def replaySegment (r : Register) (o : Operator) (header : MethodHeader) :
    Segment → List Instruction × Register
  | .declined _ insn _ => ([insn], r)
  | .matched _ first others _ (some _) => (first :: others, r)
  | .matched p first others sub none =>
    let (id, r) := r.enter header.name header.descriptor o.id p first.line sub.description
    match r.meets id with
    | (true, r) => (sub.replacement.map (·.onLine first.line), r)
    | (false, r) => (first :: others, r)

/-- Replays the segments of a pass. -/
def replay (r : Register) (o : Operator) (header : MethodHeader) :
    List Segment → List Instruction × Register
  | [] => ([], r)
  | s :: ss =>
    let (emitted, r) := r.replaySegment o header s
    let (rest, r) := r.replay o header ss
    (emitted ++ rest, r)

/-- Runs an operator over a method: the resulting stream, and the register after the pass. -/
def runPass (r : Register) (o : Operator) (method : Method) :
    Journaled Fault (List Instruction × Register) :=
  match method.header? r.owner with
  | none => .fail .labelsExhausted
  | some header =>
    let segments := o.segments header method
    { entries := segments.flatMap (·.entries o header method)
      outcome := .ok (r.replay o header segments) }

end Register

end StackMutants
