import StackMutants.Proofs.Convergence
import StackMutants.Proofs.Lifecycle

/-!
# Proofs.Isolation — mutants that do not affect each other

Units decide which mutants share environments.  If environments isolate mutants from each other
(`Sandbox.Isolates`), so that an answer depends only on the mutant that was loaded last and on the tests that
were run against it, then a check comes to the same in every environment that was launched, whatever was
done in it before (`Sandbox.Isolates.attend_agrees`).  So each mutant gets the verdict that it gets alone
(`Sandbox.alone`), what a build and its execution report can be told from what is found in the classes
(`Sandbox.Isolates.reports_eq`), and the size of the units does not show (`execute_eq_of_unitSize`).
-/

namespace StackMutants

/-- Whether two checks come to the same, apart from the environments that they leave. -/
structure Check.Agrees {Env : Type} (c c' : Check Env) : Prop where
  overran : c.overran = c'.overran
  verdict : c.ending.map (·.1) = c'.ending.map (·.1)

theorem Check.Agrees.after {Env : Type} {c c' : Check Env} (h : c.Agrees c') (call : Call)
    (overran : Bool) : (c.after call overran).Agrees (c'.after call overran) :=
  ⟨congrArg (overran || ·) h.overran, h.verdict⟩

/-- A mutant's verdict tells nothing else of its check. -/
theorem Check.Agrees.verdict_eq {Env : Type} {c c' : Check Env} (h : c.Agrees c') {n n' : Nat}
    {launchedFor launchedFor' : Option (List ClassName)} {killable killable' : Bool} :
    (Course.checked n launchedFor killable c).verdict =
      (Course.checked n' launchedFor' killable' c').verdict := by
  obtain ⟨calls, overran, ending⟩ := c
  obtain ⟨calls', overran', ending'⟩ := c'
  obtain rfl : overran = overran' := h.overran
  have hverdict : ending.map (·.1) = ending'.map (·.1) := h.verdict
  unfold Course.verdict
  cases ending with
  | error reason =>
    cases ending' with
    | error reason' =>
      cases hverdict
      rfl
    | ok ending' => cases hverdict
  | ok ending =>
    cases ending' with
    | error reason' => cases hverdict
    | ok ending' =>
      obtain ⟨verdict, env⟩ := ending
      obtain ⟨verdict', env'⟩ := ending'
      cases hverdict
      rfl

namespace Sandbox

variable (box : Sandbox)

/-! ## Environments and their mutants -/

/-- An environment that was launched, whatever was asked of it since. -/
inductive Reached : box.Env → Prop where
  | launched {n : Nat} {testClasses : List ClassName} {env : box.Env} :
      box.launch n testClasses = .ok env → Reached env
  | loaded {env : box.Env} (id : MutationId) : Reached env → Reached (box.load env id).2
  | tested {env : box.Env} (t : CoveringTest) : Reached env → Reached (box.runTest env t).2

/-- An environment that has loaded a mutant and run tests against it. -/
def serving (env : box.Env) (id : MutationId) (ts : List CoveringTest) : box.Env :=
  ts.foldl (fun env t => (box.runTest env t).2) (box.load env id).2

theorem serving_concat (env : box.Env) (id : MutationId) (ts : List CoveringTest) (t : CoveringTest) :
    box.serving env id (ts ++ [t]) = (box.runTest (box.serving env id ts) t).2 := by
  unfold serving
  rw [List.foldl_append]
  rfl

/-- Launches succeed.  How an environment answers, whether in time or not, depends on the mutant that is
loaded and on the tests that are run against it; it does not depend on the launch, on the test classes or
on what the environment was asked before.  Nor does it depend on these whether a worker can be started. -/
structure Isolates : Prop where
  launches : ∀ n testClasses, ∃ env, box.launch n testClasses = .ok env
  spawn_eq : ∀ env env', box.Reached env → box.Reached env' → ∀ id, box.spawn env id = box.spawn env' id
  load_eq : ∀ env env', box.Reached env → box.Reached env' → ∀ id,
    (box.load env id).1 = (box.load env' id).1
  runTest_eq : ∀ env env', box.Reached env → box.Reached env' → ∀ id ts t,
    (box.runTest (box.serving env id ts) t).1 = (box.runTest (box.serving env' id ts) t).1

variable {box} {env env' : box.Env} {m : Mutation}

/-! ## Checks -/

theorem reached_of_runTests {testsRun : Nat} {ts : List CoveringTest} (hreached : box.Reached env)
    {verdict : Verdict} (h : (box.runTests env testsRun ts).ending = .ok (verdict, env')) :
    box.Reached env' := by
  induction ts generalizing env testsRun with
  | nil =>
    cases h
    exact hreached
  | cons t ts ih =>
    have hnext : box.Reached (box.runTest env t).2 := .tested t hreached
    rw [runTests_cons] at h
    split at h
    · cases h
    · split at h
      · cases h
        exact hnext
      · exact ih hnext h

theorem reached_of_check (hreached : box.Reached env) {verdict : Verdict}
    (h : (box.check env m).ending = .ok (verdict, env')) : box.Reached env' := by
  have hnext : box.Reached (box.load env m.id).2 := .loaded m.id hreached
  rw [check_eq] at h
  split at h
  · cases h
  · cases h
    exact hnext
  · exact reached_of_runTests hnext h

theorem reached_of_attend (hreached : box.Reached env) {verdict : Verdict}
    (h : (box.attend env m).ending = .ok (verdict, env')) : box.Reached env' := by
  cases hspawn : box.spawn env m.id with
  | ok _ =>
    rw [attend_of_started hspawn] at h
    exact reached_of_check hreached h
  | error reason =>
    rw [attend_of_unstarted hspawn] at h
    cases h

/-- Tests come to the same in environments that serve the same mutant. -/
theorem Isolates.runTests_agrees (h : box.Isolates) (hreached : box.Reached env)
    (hreached' : box.Reached env') (id : MutationId) (before ts : List CoveringTest) (testsRun : Nat) :
    (box.runTests (box.serving env id before) testsRun ts).Agrees
      (box.runTests (box.serving env' id before) testsRun ts) := by
  induction ts generalizing before testsRun with
  | nil => exact ⟨rfl, rfl⟩
  | cons t ts ih =>
    have hsame := h.runTest_eq env env' hreached hreached' id before t
    have hrest := ih (before ++ [t]) (testsRun + 1)
    rw [serving_concat, serving_concat] at hrest
    rw [runTests_cons, runTests_cons, ← hsame]
    cases (box.runTest (box.serving env id before) t).1.answer? with
    | none => exact ⟨rfl, rfl⟩
    | some result =>
      dsimp only
      cases result.verdict? t (testsRun + 1) with
      | none => exact hrest.after _ _
      | some verdict => exact ⟨rfl, rfl⟩

/-- A check comes to the same in every environment. -/
theorem Isolates.check_agrees (h : box.Isolates) (hreached : box.Reached env)
    (hreached' : box.Reached env') (m : Mutation) : (box.check env m).Agrees (box.check env' m) := by
  have hsame := h.load_eq env env' hreached hreached' m.id
  have htests := h.runTests_agrees hreached hreached' m.id [] m.tests 0
  rw [check_eq, check_eq, ← hsame]
  cases (box.load env m.id).1.answer? with
  | none => exact ⟨rfl, rfl⟩
  | some loaded =>
    cases loaded with
    | error fault => exact ⟨rfl, rfl⟩
    | ok _ => exact htests.after _ _

theorem Isolates.attend_agrees (h : box.Isolates) (hreached : box.Reached env)
    (hreached' : box.Reached env') (m : Mutation) : (box.attend env m).Agrees (box.attend env' m) := by
  have hsame := h.spawn_eq env env' hreached hreached' m.id
  cases hspawn : box.spawn env m.id with
  | ok _ =>
    rw [attend_of_started hspawn, attend_of_started (hsame.symm.trans hspawn)]
    exact h.check_agrees hreached hreached' m
  | error reason =>
    rw [attend_of_unstarted hspawn, attend_of_unstarted (hsame.symm.trans hspawn)]
    exact ⟨rfl, rfl⟩

/-! ## Turns -/

section Turns

variable {testClasses : List ClassName} {launches launches' : Launches}
  {held held' : Option (Nat × box.Env)} {course : Course box.Env}
  {steps : List (Mutation × Course box.Env)}

/-- A covered mutant is checked in an environment that was launched. -/
theorem Turn.exists_check (h : box.Turn testClasses launches held m course launches')
    (hbox : box.Isolates) (hheld : ∀ n env, held = some (n, env) → box.Reached env)
    (hcovered : m.isCovered = true) :
    ∃ n launchedFor killable env,
      course = .checked n launchedFor killable (box.attend env m) ∧ box.Reached env := by
  cases h with
  | uncovered huncovered => rw [hcovered] at huncovered; cases huncovered
  | reused _ => exact ⟨_, _, _, _, rfl, hheld _ _ rfl⟩
  | unlaunched _ hlaunch =>
    obtain ⟨env, henv⟩ := hbox.launches launches.attempted testClasses
    rw [henv] at hlaunch
    cases hlaunch
  | launched _ hlaunch => exact ⟨_, _, _, _, rfl, .launched hlaunch⟩

theorem Turn.reached_of_held (h : box.Turn testClasses launches held m course launches')
    (hheld : ∀ n env, held = some (n, env) → box.Reached env) :
    ∀ n env, course.held held = some (n, env) → box.Reached env := by
  have hchecked : ∀ {k : Nat} {launchedFor : Option (List ClassName)} {killable : Bool}
      {before : box.Env}, box.Reached before → ∀ n env,
      (Course.checked k launchedFor killable (box.attend before m)).held held = some (n, env) →
      box.Reached env := by
    intro k launchedFor killable before hbefore n env henv
    obtain ⟨verdict, hending⟩ := Course.exists_ending_of_held henv
    exact reached_of_attend hbefore hending
  cases h with
  | uncovered _ => exact hheld
  | reused _ => exact hchecked (hheld _ _ rfl)
  | unlaunched _ _ => exact nofun
  | launched _ hlaunch => exact hchecked (.launched hlaunch)

/-- The outcome of a mutant that has the sandbox to itself. -/
def alone (box : Sandbox) (m : Mutation) : Outcome := ⟨m, (box.course [] {} none m).1.verdict⟩

/-- In a sandbox that isolates mutants each gets the verdict that it gets alone. -/
theorem Turn.verdict_eq_alone (h : box.Turn testClasses launches held m course launches')
    (hbox : box.Isolates) (hheld : ∀ n env, held = some (n, env) → box.Reached env) :
    course.verdict = (box.alone m).verdict := by
  have halone := box.turn_course [] {} none m
  cases hcovered : m.isCovered with
  | false =>
    rw [h.course_eq_uncovered hcovered]
    exact congrArg Course.verdict (halone.course_eq_uncovered hcovered).symm
  | true =>
    obtain ⟨_, _, _, env, rfl, hreached⟩ := h.exists_check hbox hheld hcovered
    obtain ⟨_, _, _, env', hcourse, hreached'⟩ := halone.exists_check hbox nofun hcovered
    have hsame := congrArg Course.verdict hcourse
    exact (hbox.attend_agrees hreached hreached' m).verdict_eq.trans hsame.symm

theorem Turns.outcomes_eq_alone (h : box.Turns testClasses launches held steps launches' held')
    (hbox : box.Isolates) (hheld : ∀ n env, held = some (n, env) → box.Reached env) :
    steps.map (fun step => (⟨step.1, step.2.verdict⟩ : Outcome)) =
      (steps.map (·.1)).map box.alone := by
  induction h with
  | nil => rfl
  | @cons launches launches' launches'' held held'' m course steps hturn _ ih =>
    have hverdict := hturn.verdict_eq_alone hbox hheld
    rw [List.map_cons, List.map_cons, List.map_cons, ih (hturn.reached_of_held hheld), hverdict]
    rfl

end Turns

/-! ## Units -/

theorem Isolates.outcomes_run (hbox : box.Isolates) (u : FreshUnit) (launches : Launches) :
    (u.run box launches).outcomes = u.mutations.map box.alone := by
  have hturns := box.turns_courses u.testClasses launches none u.mutations
  have hmutants := box.map_fst_courses u.testClasses launches none u.mutations
  rw [← hmutants]
  exact hturns.outcomes_eq_alone hbox nofun

theorem Isolates.outcomes_addUnits (hbox : box.Isolates) (e : Execution) {us : List WorkUnit}
    (h : ∀ u ∈ us, ∃ f, u = .fresh f) :
    (e.addUnits box us).outcomes =
      e.outcomes ++ (us.flatMap WorkUnit.freshMutations).map box.alone := by
  induction us generalizing e with
  | nil => exact (List.append_nil _).symm
  | cons u us ih =>
    obtain ⟨f, rfl⟩ := h u List.mem_cons_self
    have hunit : (e.addUnit box (.fresh f)).outcomes = e.outcomes ++ f.mutations.map box.alone := by
      rw [← hbox.outcomes_run f e.launches]
      exact e.outcomes_addPart _ _ _ _ _
    show ((e.addUnit box (.fresh f)).addUnits box us).outcomes = _
    rw [ih _ fun u hu => h u (List.mem_cons_of_mem _ hu), hunit, List.flatMap_cons,
      WorkUnit.freshMutations_fresh, List.map_append, List.append_assoc]

end Sandbox

/-! ## Builds -/

section Builds

variable {settings : Settings} {source : ClassName → Journaled Fault (List Mutation)}
  {classes : List ClassName}

/-- The mutations of classes, one class after the other, or the fault of the first class that ends in one. -/
def foundIn (source : ClassName → Journaled Fault (List Mutation)) :
    List ClassName → Except Fault (List Mutation)
  | [] => .ok []
  | c :: cs => do
    let ms ← (source c).outcome
    let rest ← foundIn source cs
    pure (ms ++ rest)

theorem foundIn_cons {c : ClassName} {cs : List ClassName} {ms : List Mutation}
    (h : (source c).outcome = .ok ms) :
    foundIn source (c :: cs) = (foundIn source cs).map (ms ++ ·) := by
  rw [foundIn, h]
  cases foundIn source cs <;> rfl

theorem foundIn_cons_error {c : ClassName} {cs : List ClassName} {fault : Fault}
    (h : (source c).outcome = .error fault) : foundIn source (c :: cs) = .error fault := by
  rw [foundIn, h]
  rfl

theorem exists_of_foundIn {found : List Mutation} (h : foundIn source classes = .ok found) :
    ∃ ms, (∀ c ∈ classes, (source c).outcome = .ok (ms c)) ∧ found = classes.flatMap ms := by
  refine ⟨fun c => (source c).outcome.toOption.getD [], ?_⟩
  induction classes generalizing found with
  | nil =>
    cases h
    exact ⟨nofun, rfl⟩
  | cons c cs ih =>
    cases hc : (source c).outcome with
    | error fault =>
      rw [foundIn_cons_error hc] at h
      cases h
    | ok ms =>
      rw [foundIn_cons hc] at h
      cases hrest : foundIn source cs with
      | error fault =>
        rw [hrest] at h
        cases h
      | ok rest =>
        rw [hrest] at h
        cases h
        obtain ⟨hall, hflat⟩ := ih hrest
        have hms : (source c).outcome.toOption.getD [] = ms := by
          rw [hc]
          rfl
        refine ⟨List.forall_mem_cons.mpr ⟨hc.trans (congrArg Except.ok hms.symm), hall⟩, ?_⟩
        rw [List.flatMap_cons, hms, hflat]

/-- A build stops with the first class that ends in a fault. -/
theorem unitsOfClasses_of_foundIn {a : Analyser} {mutators : List String} {s : a.State} {fault : Fault}
    (h : foundIn source classes = .error fault) :
    (unitsOfClasses source a mutators settings s classes).outcome = .error fault := by
  induction classes generalizing s with
  | nil => cases h
  | cons c cs ih =>
    unfold unitsOfClasses
    rw [Journaled.outcome_bind]
    cases hc : (source c).outcome with
    | error other =>
      rw [foundIn_cons_error hc] at h
      cases h
      rfl
    | ok ms =>
      rw [foundIn_cons hc] at h
      have hrest : foundIn source cs = .error fault := by
        cases hrest : foundIn source cs with
        | error other =>
          rw [hrest] at h
          exact h
        | ok rest =>
          rw [hrest] at h
          cases h
      obtain ⟨units, s', hunits, -⟩ :=
        unitsOfGroups_answered a mutators settings s (groupsOf settings.unitSize ms)
      simp only [Except.bind, Journaled.outcome_bind, Journaled.outcome_debug, hunits, ih hrest]

variable {box : Sandbox}

/-- The outcomes that are reported when units are built without knowledge and executed in order. -/
def Sandbox.reports (box : Sandbox) (settings : Settings)
    (source : ClassName → Journaled Fault (List Mutation)) (classes : List ClassName) :
    Except Fault (List Outcome) :=
  (buildUnits settings source .unknowing classes).outcome.map fun units => (execute box units).outcomes

theorem Sandbox.Isolates.reports_eq (hbox : box.Isolates) :
    box.reports settings source classes =
      settings.validate.bind fun _ => (foundIn source classes).map (·.map box.alone) := by
  unfold reports
  cases hsettings : settings.validate with
  | error fault =>
    unfold buildUnits
    rw [Journaled.outcome_bind, Journaled.outcome_ofExcept, hsettings]
    rfl
  | ok os =>
    cases hfound : foundIn source classes with
    | error fault =>
      unfold buildUnits
      rw [Journaled.outcome_bind, Journaled.outcome_ofExcept, hsettings]
      exact congrArg (Except.map _) (unitsOfClasses_of_foundIn hfound)
    | ok found =>
      obtain ⟨ms, hsource, rfl⟩ := exists_of_foundIn hfound
      obtain ⟨units, hunits, hfresh, hmutations⟩ := buildUnits_unknowing hsettings hsource
      rw [hunits, ← hmutations]
      exact congrArg Except.ok (hbox.outcomes_addUnits {} hfresh)

/-- **The size of the units does not show in the outcomes.**  If the environments isolate mutants from each
other, units of any two sizes that are built without knowledge and executed in order report the same outcomes
in the same order: each mutation that was found, with the verdict that its mutant gets alone. -/
theorem execute_eq_of_unitSize (hbox : box.Isolates) (settings : Settings)
    (source : ClassName → Journaled Fault (List Mutation)) (classes : List ClassName)
    (size size' : Nat) :
    box.reports { settings with unitSize := size } source classes =
        box.reports { settings with unitSize := size' } source classes ∧
      box.reports { settings with unitSize := size } source classes =
        settings.validate.bind fun _ => (foundIn source classes).map (·.map box.alone) := by
  -- the size has no part in what makes settings valid
  have heq : ∀ size, box.reports { settings with unitSize := size } source classes =
      settings.validate.bind fun _ => (foundIn source classes).map (·.map box.alone) :=
    fun _ => hbox.reports_eq
  exact ⟨(heq size).trans (heq size').symm, heq size⟩

end Builds

/-- Environments that count what is asked of them, but answer by the mutant and the test alone. -/
def countingCalls : Sandbox where
  Env := Option MutationId × Nat
  launch n _ := .ok (none, n)
  spawn _ id := if id.index = 3 then .error "no thread left" else .ok ()
  load env id :=
    (.prompt (if id.operator = "RETURN_VALS" then .error (.environment "no such value") else .ok ()),
      (some id, env.2 + 1))
  runTest env t :=
    (match env.1 with
      | none => .fatal
      | some id =>
        if id.index = 1 then .late .passed
        else if t.name = "adds" then .prompt (.failed "expected 3") else .prompt .passed,
      (env.1, env.2 + 1))
  hasKillSwitch env := env.2 % 2 = 0

theorem isolates_countingCalls : countingCalls.Isolates := by
  have hkept : ∀ (ts : List CoveringTest) (env : countingCalls.Env),
      (ts.foldl (fun env t => (countingCalls.runTest env t).2) env).1 = env.1 := by
    intro ts
    induction ts with
    | nil => exact fun _ => rfl
    | cons t ts ih => exact fun env => ih (countingCalls.runTest env t).2
  have hserving : ∀ env id ts, (countingCalls.serving env id ts).1 = some id :=
    fun env id ts => hkept ts (countingCalls.load env id).2
  have htest : ∀ (env env' : countingCalls.Env) (t : CoveringTest), env.1 = env'.1 →
      (countingCalls.runTest env t).1 = (countingCalls.runTest env' t).1 := by
    rintro ⟨loaded, calls⟩ ⟨_, calls'⟩ t rfl
    rfl
  constructor
  case launches => exact fun n _ => ⟨(none, n), rfl⟩
  case spawn_eq => exact fun _ _ _ _ _ => rfl
  case load_eq => exact fun _ _ _ _ _ => rfl
  case runTest_eq =>
    intro env env' _ _ id ts t
    exact htest _ _ t ((hserving env id ts).trans (hserving env' id ts).symm)

/-- Points whose mutants are killed, time out, cannot be loaded, survive, are not covered and find no worker. -/
def variedPoints : List Mutation :=
  [coveredPoint,
   { coveredPoint with id := { coveredPoint.id with index := 1 } },
   { coveredPoint with id := { coveredPoint.id with operator := "RETURN_VALS" } },
   { coveredPoint with
      id := { coveredPoint.id with index := 2 }
      tests := [⟨"subtracts", ⟨"CalcTest"⟩, 5⟩, ⟨"negates", ⟨"SignTest"⟩, 7⟩] },
   { coveredPoint with line := 9, tests := [] },
   { coveredPoint with id := { coveredPoint.id with index := 3 } }]

theorem execute_eq_of_unitSize_countingCalls :
    countingCalls.Isolates ∧
    countingCalls.reports { singly with unitSize := 0 } (fun _ => pure variedPoints) [⟨"Calc"⟩] =
      countingCalls.reports { singly with unitSize := 2 } (fun _ => pure variedPoints) [⟨"Calc"⟩] ∧
    countingCalls.reports { singly with unitSize := 0 } (fun _ => pure variedPoints) [⟨"Calc"⟩] =
      .ok (variedPoints.map countingCalls.alone) :=
  ⟨isolates_countingCalls,
    execute_eq_of_unitSize isolates_countingCalls singly (fun _ => pure variedPoints) [⟨"Calc"⟩] 0 2⟩

example : (variedPoints.map countingCalls.alone).map (·.status) =
    [.killed, .timedOut, .nonViable, .survived, .noCoverage, .runError] := by decide

end StackMutants
