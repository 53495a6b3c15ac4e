import StackMutants.Pass.Operator
import StackMutants.Journal

/-!
# Pass.Segment — how a visitor divides a stream

A pass walks over the stream of a method and offers each position to the visitor, except those inside
a region that has matched.  The result is a list of segments: positions that were declined and regions
that were matched, with the verdict on the proposed replacement.  No other data of the pass enters
here, so all passes of an operator over a method divide it alike.  The streams of the segments,
appended, are the stream of the method (`flatMap_stream_segments`).
-/

namespace StackMutants

inductive Segment where
  /-- The visitor does not match at the position; perhaps it says why not. -/
  | declined (position : Nat) (insn : Instruction) (reason : Option String)
  /-- The visitor matches the region that begins with `first`.  A fault refuses the replacement. -/
  | matched (position : Nat) (first : Instruction) (others : List Instruction)
      (substitution : Substitution) (fault : Option SubstitutionFault)

namespace Segment

/-- The stretch of the stream that the segment covers. -/
def stream : Segment → List Instruction
  | declined _ insn _ => [insn]
  | matched _ first others _ _ => first :: others

def position : Segment → Nat
  | declined p _ _ => p
  | matched p _ _ _ _ => p

end Segment

/-- The verdict on a replacement, as a fault or none. -/
def Substitution.fault? (s : Substitution) (method : Method) (region : List Instruction) :
    Option SubstitutionFault :=
  match check method region s.replacement with
  | .ok () => none
  | .error fault => some fault

/-- The segments of what is left of a stream.  `position` is where the rest begins, and the next `skip`
instructions belong to the segment before. -/
def Visitor.segments (v : Visitor) (method : Method) :
    v.State → (position skip : Nat) → List Instruction → List Segment
  | _, _, _, [] => []
  | s, p, skip + 1, _ :: rest => v.segments method s (p + 1) skip rest
  | s, p, 0, insn :: rest =>
    match v.visit s method.instructions p with
    | (.decline, s') => .declined p insn none :: v.segments method s' (p + 1) 0 rest
    | (.abstain reason, s') => .declined p insn (some reason) :: v.segments method s' (p + 1) 0 rest
    | (.propose sub, s') =>
      let others := rest.take (sub.consumed - 1)
      .matched p insn others sub (sub.fault? method (insn :: others)) ::
        v.segments method s' (p + 1) others.length rest

theorem Visitor.flatMap_stream_segments (v : Visitor) (method : Method) (s : v.State) (p skip : Nat)
    (rest : List Instruction) :
    (v.segments method s p skip rest).flatMap Segment.stream = rest.drop skip := by
  induction rest generalizing s p skip with
  | nil => simp [Visitor.segments]
  | cons insn rest ih =>
    cases skip with
    | succ skip => simp [Visitor.segments, ih]
    | zero =>
      unfold Visitor.segments
      split
      · simp [Segment.stream, ih]
      · simp [Segment.stream, ih]
      · rename_i sub _ _
        rcases Nat.le_total (sub.consumed - 1) rest.length with h | h <;>
          simp [Segment.stream, ih, h, List.take_of_length_le]

/-- The segments of a method under an operator. -/
def Operator.segments (o : Operator) (header : MethodHeader) (method : Method) : List Segment :=
  let v := o.visitor header
  v.segments method v.start 0 0 method.instructions

/-- What a pass writes down about a segment: a refused replacement or a reason for abstaining. -/
def Segment.entries (o : Operator) (header : MethodHeader) (method : Method) :
    Segment → List Journal.Entry
  | declined _ _ none => []
  | declined _ _ (some reason) => [⟨.debug, reason⟩]
  | matched _ _ _ _ none => []
  | matched p _ _ _ (some fault) =>
    let refusal : Fault := .substitution o.name method.signature fault
    [⟨.warn, s!"Skipping mutation by {o.name} at instruction {p} of {header.fullName}: " ++
      refusal.message⟩]

end StackMutants
