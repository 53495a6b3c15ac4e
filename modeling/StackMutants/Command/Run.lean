import StackMutants.Command.Arguments
import StackMutants.Command.Example
import StackMutants.Command.Session
import StackMutants.Plan.Build
import StackMutants.Report
import StackMutants.Run.Execution

/-!
# Command.Run — the commands of the program

* `mutants` lists the mutation points of the classes of a program.
* `plan` builds the units of work, replays what an archive knows and reports it; its exit code is 1 if a
  mutant is known to have survived.
* `validate` looks at a configuration alone; its exit code is 1 if the configuration is not valid.
* The last command prints an example of a program.
-/

namespace StackMutants.Command

open Session

variable {m : Type → Type} [Monad m]

def loadConfig (files : Files m) (t : Terminal) (path : String) : Session m Config := do
  print [t.paint .dimmed "Loading configuration..."]
  ofExcept (← ask (files.loadConfig path))

/-- The program, the configuration and the operators that the configuration chooses. -/
def openProject (files : Files m) (t : Terminal) (program config : String) :
    Session m (Program × Config × List Mutator) := do
  let config ← loadConfig files t config
  let mutators ← ofExcept config.settings.validate
  print [t.paint .dimmed "Loading program..."]
  let program ← ofExcept (← ask (files.loadProgram program))
  print [s!"Found {program.classes.length} class(es) in program"]
  pure (program, config, mutators)

/-! ## Listing mutation points -/

def pointLine (t : Terminal) (mutation : Mutation) : String :=
  let coverage :=
    if mutation.isCovered then t.paint .green s!"{mutation.tests.length} test(s)"
    else t.paint .red "no coverage"
  s!"  {mutation.id.method}{t.paint .dimmed mutation.id.descriptor} line {mutation.line} - " ++
    s!"{mutation.description} [{coverage}]"

/-- Prints the points of a class, if it has any, and returns how many they are. -/
def listClass (t : Terminal) (p : Program) (os : List Operator) (name : ClassName) :
    Session m Nat := do
  let points ← ofJournaled (p.mutations os name)
  if !points.isEmpty then print ("" :: t.paint .bold name.text :: points.map (pointLine t))
  pure points.length

def printMutants (files : Files m) (t : Terminal) (program config : String) : Session m Nat := do
  let (p, c, mutators) ← openProject files t program config
  let counts ← (c.targets p).mapM (listClass t p (mutators.map (·.operator)))
  print ["", s!"Found {counts.foldl (· + ·) 0} mutation(s)"]
  pure 0

/-! ## Planning -/

def loadRecall (files : Files m) (path : String) : Session m Recall := do
  let known ← during s!"loading history from {path}" do ofJournaled (← ask (files.loadRecall path))
  print [s!"Loaded {known.size} stored result(s)"]
  pure known

def awaitingLine (u : FreshUnit) : String :=
  s!"  {u.label.text} - {u.mutations.length} mutation(s), tests from [" ++
    ", ".intercalate (u.testClasses.map (·.text)) ++ "]"

def awaitingLines (t : Terminal) (units : List FreshUnit) : List String :=
  if units.isEmpty then []
  else ["", t.paint .bold "Pending Execution Units", Report.rule '-' 40] ++ units.map awaitingLine

def printPlan (files : Files m) (t : Terminal) (program config : String)
    (history writeHistory : Option String) : Session m Nat := do
  let (p, c, mutators) ← openProject files t program config
  let known ← match history with
    | some path => (loadRecall files path).map some
    | none => pure none
  let analyser := known.elim .unknowing Recall.analyser
  let source := p.mutations (mutators.map (·.operator))
  let units ← ofJournaled (buildUnits c.settings source analyser (c.targets p))
  let replay := replayKnown units
  let outcomes := replay.execution.outcomes
  print (awaitingLines t replay.awaiting)
  match writeHistory with
  | some path =>
    ofExcept (← ask (files.storeArchive path outcomes))
    print [s!"Wrote {outcomes.length} result(s) to {path}"]
  | none => pure ()
  printText (Report.text t outcomes)
  let awaiting := (replay.awaiting.flatMap (·.mutations)).length
  print ["", s!"{units.length} unit(s) built, {awaiting} mutation(s) awaiting execution"]
  pure (if Report.count .survived outcomes = 0 then 0 else 1)

/-! ## Validating -/

def printValidity (files : Files m) (t : Terminal) (config : String) : Session m Nat := do
  let c ← loadConfig files t config
  match c.settings.validate with
  | .ok mutators =>
    print ((t.paint Paint.green.strong "✓" ++ " Configuration is valid") ::
      mutators.map fun mutator => "  " ++ t.paint .dimmed "•" ++ " " ++ mutator.name)
    pure 0
  | .error fault =>
    print [t.paint Paint.red.strong "✗" ++ " " ++ fault.message]
    pure 1

/-- The session of a command. -/
def session (files : Files m) (t : Terminal) : Command → Session m Nat
  | .mutants program config => printMutants files t program config
  | .plan program config history writeHistory => printPlan files t program config history writeHistory
  | .validate config => printValidity files t config
  | .sample => do
    print [exampleProgram]
    pure 0

/-- Runs a command to its end. -/
def run (files : Files m) (t : Terminal) (c : Command) : m Finish := finish t (c.session files t)

end StackMutants.Command
