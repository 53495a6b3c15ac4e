import StackMutants.Outcome
import StackMutants.Number.Dyadic
import StackMutants.Text.Painted

/-!
# Report — the summary of outcomes

The report lists the outcomes, counts them by status and gives the score: the percentage of mutations
that the tests detected, in double precision and shown to one decimal place.  Without outcomes the score
is full.
-/

namespace StackMutants.Report

def count (status : Status) (os : List Outcome) : Nat := os.countP (·.status == status)

def detected (os : List Outcome) : Nat := os.countP (·.status.isDetected)

/-- The outcomes that no test noticed. -/
def undetected (os : List Outcome) : List Outcome := os.filter (·.status.isUndetected)

/-- The share of the detected mutations, times a hundred; both steps round. -/
def scoreOf (detected total : Nat) : Option Dyadic := do
  let d ← Format.binary64.ofNat detected
  let t ← Format.binary64.ofNat total
  Format.binary64.mul (← Format.binary64.div d t) (← Format.binary64.ofNat 100)

def score (os : List Outcome) : Dyadic :=
  let full : Dyadic := (Format.binary64.ofNat 100).getD .zero
  if os.isEmpty then full else (scoreOf (detected os) os.length).getD full

def scoreText (score : Dyadic) : String := s!"{score.tenths / 10}.{score.tenths % 10}%"

/-- The paint of a score: from ninety on and from seventy on it is better. -/
def scorePaint (score : Dyadic) : Paint :=
  if score.atLeast 90 then Paint.green.strong
  else if score.atLeast 70 then Paint.yellow.strong
  else Paint.red.strong

def statusPaint : Status → Paint
  | .killed => Paint.green.strong
  | .survived | .noCoverage => Paint.red.strong
  | .notStarted => .dimmed
  | .timedOut | .nonViable | .memoryError | .runError => Paint.yellow.strong

/-- A line of one character. -/
def rule (c : Char) (width : Nat) : String := String.ofList (List.replicate width c)

/-- The lines about one outcome. -/
def outcomeLines (t : Terminal) (o : Outcome) : List String :=
  [t.paint (statusPaint o.status) s!"[{o.status.name}]" ++ " " ++
    t.paint .dimmed o.mutation.id.text ++ s!" - {o.mutation.description}",
   s!"        line {o.mutation.line}" ++
    match o.verdict.note with
    | some note => " " ++ t.paint .dimmed s!"({note})"
    | none => ""]

/-- The statuses that are listed only if they occur, with their headings. -/
def occasional : List (String × Status) :=
  [("No coverage:       ", .noCoverage), ("Timed out:         ", .timedOut),
   ("Non viable:        ", .nonViable), ("Memory errors:     ", .memoryError),
   ("Run errors:        ", .runError), ("Not started:       ", .notStarted)]

def summaryLines (t : Terminal) (os : List Outcome) : List String :=
  ["", t.paint .bold "Summary", rule '-' 40,
   s!"Total mutations:   {os.length}",
   s!"Killed:            {count .killed os} " ++
    t.paint .dimmed "(good - tests caught the mutation)",
   s!"Survived:          {count .survived os} " ++
    t.paint .dimmed "(bad - tests missed the mutation)"] ++
  (occasional.filter fun (_, status) => 0 < count status os).map
    (fun (heading, status) => s!"{heading}{count status os}") ++
  ["", "Mutation Score:    " ++ t.paint (scorePaint (score os)) (scoreText (score os))]

def undetectedLines (t : Terminal) (os : List Outcome) : List String :=
  if (undetected os).isEmpty then []
  else
    ["", t.paint Paint.red.strong "Undetected Mutations (improve your tests!)", rule '-' 40] ++
    (undetected os).flatMap fun o =>
      ["  • " ++ t.paint .yellow o.mutation.description,
       s!"    in {o.mutation.id.owner.text}::{o.mutation.id.method} at line {o.mutation.line}"]

def legendLines (t : Terminal) : List String :=
  "" :: ["Score Interpretation", rule '-' 40, "90-100%: Excellent test coverage",
    "70-89%:  Good coverage, some gaps", "50-69%:  Moderate, needs improvement",
    "<50%:    Poor, significant gaps"].map (t.paint .dimmed)

def lines (t : Terminal) (os : List Outcome) : List String :=
  ["", t.paint .bold "Mutation Testing Report", rule '=' 60, ""] ++
  os.flatMap (outcomeLines t) ++ summaryLines t os ++ undetectedLines t os ++ legendLines t

/-- The report as it is printed, each line with its end. -/
def text (t : Terminal) (os : List Outcome) : String := String.join ((lines t os).map (· ++ "\n"))

end StackMutants.Report
