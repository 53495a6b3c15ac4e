import StackMutants.Proofs.Isolation

/-!
# Proofs.TestScope — the test classes that environments are launched with

A fresh unit that was built has as its test classes those that define a test which covers one of its
mutations, and no others (`mem_testClassesOf`, `testClasses_of_mem_freshParts`).  A check runs tests of its
mutant only (`Sandbox.calls_attend_prefix`), in an environment that was launched with the test classes of the
unit, for this mutant or for one before it (`Sandbox.Turns.scoped`).  Executing units is running their fresh
parts one after the other (`Execution.events_addUnit`), so every test that is ever run finds its class in its
environment, and no environment is launched with a class that no test of its unit needs
(`execute_buildUnits_scoped`).
-/

namespace StackMutants

/-! ## The test classes of a unit -/

theorem mem_testClassesOf {ms : List Mutation} {c : ClassName} :
    c ∈ testClassesOf ms ↔ ∃ m ∈ ms, ∃ t ∈ m.tests, t.definingClass = c := by
  unfold testClassesOf sortedClasses
  rw [(Sequence.sortStable_perm _).mem_iff, Sequence.mem_distinct, List.mem_flatMap]
  simp only [List.mem_map]

theorem testClasses_of_mem_freshParts {mutators : List String} {settings : Settings} {os : List Outcome}
    {u : FreshUnit} (hu : u ∈ (unitOf mutators settings os).freshParts) :
    u.testClasses = testClassesOf u.mutations := by
  unfold unitOf at hu
  dsimp only at hu
  split at hu
  · cases hu
  · split at hu
    · rw [List.mem_singleton.mp hu]
    · rw [List.mem_singleton.mp hu]

/-! ## Launches and tests in a run -/

/-- The environment that is launched, if the event is a launch. -/
def Event.launched? : Event → Option Nat
  | launch env _ => some env
  | call _ _ | kill _ | shutdown _ _ => none

/-- Whether each test is run in an environment that was launched before with test classes that suit it.
`past` is what had happened before the events. -/
def Scoped (suits : List ClassName → CoveringTest → Prop) (past events : List Event) : Prop :=
  ∀ before n t after, events = before ++ .call n (.test t) :: after →
    ∃ testClasses, .launch n testClasses ∈ past ++ before ∧ suits testClasses t

namespace Scoped

variable {suits suits' : List ClassName → CoveringTest → Prop} {past past' events events' : List Event}

theorem append (h : Scoped suits past events) (h' : Scoped suits (past ++ events) events') :
    Scoped suits past (events ++ events') := by
  intro before n t after hsplit
  rcases List.append_eq_append_iff.mp hsplit with ⟨rest, rfl, hrest⟩ | ⟨rest, hevents, hrest⟩
  · obtain ⟨testClasses, hlaunch, hsuits⟩ := h' rest n t after hrest
    rw [List.append_assoc] at hlaunch
    exact ⟨testClasses, hlaunch, hsuits⟩
  · cases rest with
    | nil =>
      -- the test is the first of the events behind
      obtain ⟨testClasses, hlaunch, hsuits⟩ := h' [] n t after hrest.symm
      rw [List.append_nil, hevents, List.append_nil] at hlaunch
      exact ⟨testClasses, hlaunch, hsuits⟩
    | cons event rest =>
      obtain ⟨rfl, -⟩ := List.cons.inj hrest
      exact h before n t rest hevents

theorem mono (h : Scoped suits past events) (hpast : ∀ event ∈ past, event ∈ past')
    (hsuits : ∀ testClasses t, suits testClasses t → suits' testClasses t) :
    Scoped suits' past' events := by
  intro before n t after hsplit
  obtain ⟨testClasses, hlaunch, ht⟩ := h before n t after hsplit
  refine ⟨testClasses, ?_, hsuits testClasses t ht⟩
  rcases List.mem_append.mp hlaunch with hlaunch | hlaunch
  · exact List.mem_append_left _ (hpast _ hlaunch)
  · exact List.mem_append_right _ hlaunch

theorem of_no_tests (h : ∀ n t, .call n (.test t) ∉ events) : Scoped suits past events := by
  rintro before n t after rfl
  exact absurd (List.mem_append_right before List.mem_cons_self) (h n t)

/-- Tests in an environment that has been launched. -/
theorem of_launched {n : Nat} {testClasses : List ClassName} (hlaunch : .launch n testClasses ∈ past)
    (h : ∀ event ∈ events, event.env = n)
    (hsuits : ∀ t, .call n (.test t) ∈ events → suits testClasses t) : Scoped suits past events := by
  rintro before k t after rfl
  have hmem : Event.call k (.test t) ∈ before ++ .call k (.test t) :: after :=
    List.mem_append_right before List.mem_cons_self
  obtain rfl : k = n := h _ hmem
  exact ⟨testClasses, List.mem_append_left _ hlaunch, hsuits t hmem⟩

end Scoped

namespace Sandbox

variable (box : Sandbox)

/-- The tests are run in their order, up to some point. -/
theorem calls_runTests_prefix (env : box.Env) (testsRun : Nat) (ts : List CoveringTest) :
    (box.runTests env testsRun ts).calls <+: ts.map .test := by
  induction ts generalizing env testsRun with
  | nil => exact List.prefix_rfl
  | cons t ts ih =>
    have hstop : [Call.test t] <+: (t :: ts).map .test := ⟨ts.map .test, rfl⟩
    rw [runTests_cons]
    split
    · exact hstop
    · split
      · exact hstop
      · exact (List.prefix_cons_inj _).mpr (ih _ (testsRun + 1))

/-- A check loads its mutant and runs tests of it. -/
theorem calls_check_prefix (env : box.Env) (m : Mutation) :
    (box.check env m).calls <+: .load m.id :: m.tests.map .test := by
  have hstop : [Call.load m.id] <+: .load m.id :: m.tests.map .test := ⟨m.tests.map .test, rfl⟩
  rw [check_eq]
  split
  · exact hstop
  · exact hstop
  · exact (List.prefix_cons_inj _).mpr (box.calls_runTests_prefix _ 0 m.tests)

/-- What is asked of an environment about a mutant, with a worker or without. -/
theorem calls_attend_prefix (env : box.Env) (m : Mutation) :
    (box.attend env m).calls <+: .load m.id :: m.tests.map .test :=
  attend_cases (P := fun c => c.calls <+: .load m.id :: m.tests.map .test)
    (box.calls_check_prefix env m) fun _ => List.nil_prefix

theorem mem_tests_of_mem_calls {env : box.Env} {m : Mutation} {t : CoveringTest}
    (h : .test t ∈ (box.attend env m).calls) : t ∈ m.tests := by
  rcases List.mem_cons.mp ((box.calls_attend_prefix env m).subset h) with h | h
  · cases h
  · obtain ⟨t', ht', ⟨⟩⟩ := List.mem_map.mp h
    exact ht'

end Sandbox

/-- Whether the test classes are those given and the test finds its class among them. -/
def Within (testClasses given : List ClassName) (t : CoveringTest) : Prop :=
  given = testClasses ∧ t.definingClass ∈ testClasses

namespace Course

variable {Env : Type} {n : Nat} {launchedFor : Option (List ClassName)} {killable : Bool} {c : Check Env}
  {testClasses : List ClassName} {past : List Event}

/-- What happens to an environment once it has been launched. -/
theorem eq_of_mem_calls_append_aftermath {event : Event}
    (h : event ∈ c.calls.map (.call n) ++ aftermath n killable c) :
    (∃ call ∈ c.calls, event = .call n call) ∨ event = .kill n ∨ ∃ party, event = .shutdown n party := by
  rcases List.mem_append.mp h with h | h
  · obtain ⟨call, hcall, rfl⟩ := List.mem_map.mp h
    exact .inl ⟨call, hcall, rfl⟩
  · exact .inr (eq_of_mem_aftermath h)

theorem filterMap_launched?_eq :
    (c.calls.map (Event.call n) ++ aftermath n killable c).filterMap Event.launched? = [] := by
  refine List.filterMap_eq_nil_iff.mpr fun event h => ?_
  rcases eq_of_mem_calls_append_aftermath h with ⟨_, -, rfl⟩ | rfl | ⟨_, rfl⟩
  · rfl
  · rfl
  · rfl

/-- The calls of a check and what comes after them, in an environment that has been launched. -/
theorem scoped_calls (hlaunch : .launch n testClasses ∈ past)
    (htests : ∀ t, .test t ∈ c.calls → t.definingClass ∈ testClasses) :
    Scoped (Within testClasses) past (c.calls.map (.call n) ++ aftermath n killable c) := by
  refine .of_launched hlaunch (fun event h => ?_) fun t h => ⟨rfl, htests t ?_⟩
  · rcases eq_of_mem_calls_append_aftermath h with ⟨_, -, rfl⟩ | rfl | ⟨_, rfl⟩
    · rfl
    · rfl
    · rfl
  · rcases eq_of_mem_calls_append_aftermath h with ⟨call, hcall, hsame⟩ | hsame | ⟨_, hsame⟩
    · cases hsame
      exact hcall
    · cases hsame
    · cases hsame

end Course

namespace Sandbox

variable {box : Sandbox} {testClasses : List ClassName} {launches launches' : Launches}
  {held held' : Option (Nat × box.Env)} {m : Mutation} {course : Course box.Env}
  {steps : List (Mutation × Course box.Env)} {past : List Event}

/-! ### One mutant's turn -/

theorem Turn.scoped (h : box.Turn testClasses launches held m course launches')
    (hheld : ∀ n env, held = some (n, env) → .launch n testClasses ∈ past)
    (htests : ∀ t ∈ m.tests, t.definingClass ∈ testClasses) :
    Scoped (Within testClasses) past course.events := by
  have hcalls : ∀ {env : box.Env} (t : CoveringTest), .test t ∈ (box.attend env m).calls →
      t.definingClass ∈ testClasses := fun t ht => htests t (box.mem_tests_of_mem_calls ht)
  cases h with
  | uncovered _ => exact .of_no_tests fun _ _ => List.not_mem_nil
  | reused _ => exact Course.scoped_calls (hheld _ _ rfl) hcalls
  | unlaunched _ _ => exact .of_no_tests fun _ _ => List.not_mem_nil
  | launched _ _ =>
    have hlaunch : Scoped (Within testClasses) past [.launch launches.succeeded testClasses] :=
      .of_no_tests fun _ _ => by simp
    exact hlaunch.append
      (Course.scoped_calls (List.mem_append_right past List.mem_cons_self) hcalls)

/-- What the unit holds after a turn was launched for it. -/
theorem Turn.launch_mem_of_held (h : box.Turn testClasses launches held m course launches')
    (hheld : ∀ n env, held = some (n, env) → .launch n testClasses ∈ past) :
    ∀ n env, course.held held = some (n, env) → .launch n testClasses ∈ past ++ course.events := by
  intro n env hafter
  rcases Course.held_cases hafter with ⟨-, hbefore⟩ | ⟨henv, -⟩
  · exact List.mem_append_left _ (hheld n env hbefore)
  · cases h with
    | uncovered _ => cases henv
    | reused _ =>
      cases henv
      exact List.mem_append_left _ (hheld _ _ rfl)
    | unlaunched _ _ => cases henv
    | launched _ _ =>
      cases henv
      exact List.mem_append_right past List.mem_cons_self

theorem Turn.testClasses_of_launch_mem (h : box.Turn testClasses launches held m course launches')
    {n : Nat} {given : List ClassName} (hlaunch : .launch n given ∈ course.events) :
    given = testClasses := by
  have hnone : ∀ {k : Nat} {killable : Bool} {c : Check box.Env},
      .launch n given ∉ c.calls.map (Event.call k) ++ Course.aftermath k killable c := by
    intro k killable c hmem
    rcases Course.eq_of_mem_calls_append_aftermath hmem with ⟨_, -, hsame⟩ | hsame | ⟨_, hsame⟩
    · cases hsame
    · cases hsame
    · cases hsame
  cases h with
  | uncovered _ => cases hlaunch
  | reused _ => exact absurd hlaunch hnone
  | unlaunched _ _ => cases hlaunch
  | launched _ _ =>
    rcases List.mem_cons.mp hlaunch with hsame | hmem
    · cases hsame
      rfl
    · exact absurd hmem hnone

/-- A launch that is attempted is one with the test classes of the unit. -/
theorem Turn.exists_launch (h : box.Turn testClasses launches held m course launches')
    (hattempts : course.attemptsLaunch = true) : ∃ k,
      match box.launch k testClasses with
      | .error fault => course = .unlaunched fault
      | .ok env => ∃ n,
        course = .checked n (some testClasses) (box.hasKillSwitch env) (box.attend env m) := by
  refine ⟨launches.attempted, ?_⟩
  cases h with
  | uncovered _ => cases hattempts
  | reused _ => cases hattempts
  | unlaunched _ hlaunch => rw [hlaunch]
  | launched _ hlaunch =>
    rw [hlaunch]
    exact ⟨_, rfl⟩

/-- Environments are numbered in the order of their launches. -/
theorem Turn.range_succeeded (h : box.Turn testClasses launches held m course launches') :
    List.range launches'.succeeded =
      List.range launches.succeeded ++ course.events.filterMap Event.launched? := by
  cases h with
  | uncovered _ => exact (List.append_nil _).symm
  | reused _ => exact (congrArg _ (Course.filterMap_launched?_eq)).trans (List.append_nil _) |>.symm
  | unlaunched _ _ => exact (List.append_nil _).symm
  | launched _ _ =>
    refine (List.range_succ).trans (congrArg (List.range launches.succeeded ++ ·) ?_)
    exact (congrArg (launches.succeeded :: ·) (Course.filterMap_launched?_eq)).symm

/-! ### The turns of a unit -/

theorem Turns.scoped (h : box.Turns testClasses launches held steps launches' held')
    (hheld : ∀ n env, held = some (n, env) → .launch n testClasses ∈ past)
    (htests : ∀ step ∈ steps, ∀ t ∈ step.1.tests, t.definingClass ∈ testClasses) :
    Scoped (Within testClasses) past (steps.flatMap (·.2.events)) := by
  induction h generalizing past with
  | nil => exact .of_no_tests fun _ _ => List.not_mem_nil
  | cons hturn _ ih =>
    have hfirst := hturn.scoped hheld (htests _ List.mem_cons_self)
    exact hfirst.append (ih (hturn.launch_mem_of_held hheld)
      fun step hstep => htests step (List.mem_cons_of_mem _ hstep))

theorem Turns.range_succeeded (h : box.Turns testClasses launches held steps launches' held') :
    List.range launches'.succeeded =
      List.range launches.succeeded ++ (steps.flatMap (·.2.events)).filterMap Event.launched? := by
  induction h with
  | nil => exact (List.append_nil _).symm
  | cons hturn _ ih =>
    rw [ih, hturn.range_succeeded, List.flatMap_cons, List.filterMap_append, List.append_assoc]

end Sandbox

namespace FreshUnit

variable (u : FreshUnit) (box : Sandbox) (launches : Launches)

theorem turns_run : box.Turns u.testClasses launches none (u.run box launches).steps
    (u.run box launches).launches (u.run box launches).heldAtEnd :=
  box.turns_courses u.testClasses launches none u.mutations

/-- Each test of a run is run in an environment that the run launched with the test classes of the unit. -/
theorem scoped_run (htests : ∀ m ∈ u.mutations, ∀ t ∈ m.tests, t.definingClass ∈ u.testClasses) :
    Scoped (Within u.testClasses) [] (u.run box launches).events := by
  rw [FreshRun.events_eq]
  have hmutants : (u.run box launches).steps.map (·.1) = u.mutations :=
    box.map_fst_courses u.testClasses launches none u.mutations
  refine ((u.turns_run box launches).scoped nofun fun step hstep => ?_).append ?_
  · refine htests step.1 ?_
    rw [← hmutants]
    exact List.mem_map_of_mem hstep
  · refine .of_no_tests fun n t h => ?_
    obtain ⟨k, -, hsame⟩ := List.mem_map.mp h
    cases hsame

theorem testClasses_of_launch_mem_run {n : Nat} {given : List ClassName}
    (h : .launch n given ∈ (u.run box launches).events) : given = u.testClasses := by
  rw [FreshRun.events_eq] at h
  rcases List.mem_append.mp h with h | h
  · obtain ⟨step, hstep, hlaunch⟩ := List.mem_flatMap.mp h
    obtain ⟨_, _, _, hturn⟩ := (u.turns_run box launches).exists_turn hstep
    exact hturn.testClasses_of_launch_mem hlaunch
  · obtain ⟨k, -, hsame⟩ := List.mem_map.mp h
    cases hsame

theorem range_succeeded_run :
    List.range (u.run box launches).launches.succeeded =
      List.range launches.succeeded ++ (u.run box launches).events.filterMap Event.launched? := by
  have hclosing : (u.run box launches).closing.filterMap Event.launched? = [] := by
    unfold FreshRun.closing
    rw [List.filterMap_map]
    exact List.filterMap_eq_nil_iff.mpr fun _ _ => rfl
  rw [FreshRun.events_eq, List.filterMap_append, hclosing, List.append_nil]
  exact (u.turns_run box launches).range_succeeded

end FreshUnit

/-! ## Executing units is running their fresh parts -/

namespace Sandbox

variable (box : Sandbox)

/-- Runs fresh units one after the other. -/
def runAll : Launches → List FreshUnit → List (FreshUnit × FreshRun box.Env)
  | _, [] => []
  | launches, u :: us => (u, u.run box launches) :: runAll (u.run box launches).launches us

/-- The launches after the last of fresh units. -/
def launchesAfter (launches : Launches) (us : List FreshUnit) : Launches :=
  us.foldl (fun launches u => (u.run box launches).launches) launches

theorem runAll_append (launches : Launches) (us vs : List FreshUnit) :
    box.runAll launches (us ++ vs) =
      box.runAll launches us ++ box.runAll (box.launchesAfter launches us) vs := by
  induction us generalizing launches with
  | nil => rfl
  | cons u us ih => exact congrArg ((u, u.run box launches) :: ·) (ih _)

variable {box} {launches : Launches} {us : List FreshUnit}

theorem exists_of_mem_runAll {run : FreshUnit × FreshRun box.Env} (h : run ∈ box.runAll launches us) :
    ∃ u ∈ us, ∃ launches', run = (u, u.run box launches') := by
  induction us generalizing launches with
  | nil => cases h
  | cons u us ih =>
    rcases List.mem_cons.mp h with rfl | h
    · exact ⟨u, List.mem_cons_self, launches, rfl⟩
    · obtain ⟨v, hv, hrun⟩ := ih h
      exact ⟨v, List.mem_cons_of_mem _ hv, hrun⟩

theorem range_succeeded_launchesAfter (box : Sandbox) (launches : Launches) (us : List FreshUnit) :
    List.range (box.launchesAfter launches us).succeeded = List.range launches.succeeded ++
      ((box.runAll launches us).flatMap (·.2.events)).filterMap Event.launched? := by
  induction us generalizing launches with
  | nil => exact (List.append_nil _).symm
  | cons u us ih =>
    unfold launchesAfter runAll
    rw [List.foldl_cons, List.flatMap_cons, List.filterMap_append, ← List.append_assoc,
      ← u.range_succeeded_run box launches]
    exact ih (u.run box launches).launches

/-- Each test is run in an environment that was launched before with the class of the test. -/
theorem scoped_runAll (box : Sandbox) (launches : Launches) (past : List Event)
    (h : ∀ u ∈ us, ∀ m ∈ u.mutations, ∀ t ∈ m.tests, t.definingClass ∈ u.testClasses) :
    Scoped (fun testClasses t => t.definingClass ∈ testClasses) past
      ((box.runAll launches us).flatMap (·.2.events)) := by
  induction us generalizing launches past with
  | nil => exact .of_no_tests fun _ _ => List.not_mem_nil
  | cons u us ih =>
    have hrun := u.scoped_run box launches (h u List.mem_cons_self)
    have hfirst : Scoped (fun testClasses t => t.definingClass ∈ testClasses) past
        (u.run box launches).events :=
      hrun.mono (fun _ => nofun) fun testClasses t hwithin => hwithin.1 ▸ hwithin.2
    exact hfirst.append (ih _ _ fun v hv => h v (List.mem_cons_of_mem _ hv))

end Sandbox

namespace Execution

mutual

/-- Executing a unit is running its fresh parts; nothing else happens to environments. -/
theorem events_addUnit (box : Sandbox) (e : Execution) : ∀ u : WorkUnit,
    (e.addUnit box u).events =
        e.events ++ (box.runAll e.launches u.freshParts).flatMap (·.2.events) ∧
      (e.addUnit box u).launches = box.launchesAfter e.launches u.freshParts
  | .known _ => ⟨rfl, rfl⟩
  | .fresh u => by
    refine ⟨congrArg (e.events ++ ·) ?_, rfl⟩
    exact (List.append_nil (u.run box e.launches).events).symm
  | .bundle us => events_addUnits box e us

theorem events_addUnits (box : Sandbox) (e : Execution) : ∀ us : List WorkUnit,
    (e.addUnits box us).events =
        e.events ++ (box.runAll e.launches (WorkUnit.freshPartsOfAll us)).flatMap (·.2.events) ∧
      (e.addUnits box us).launches = box.launchesAfter e.launches (WorkUnit.freshPartsOfAll us)
  | [] => ⟨(List.append_nil _).symm, rfl⟩
  | u :: us => by
    obtain ⟨hevents, hlaunches⟩ := events_addUnit box e u
    obtain ⟨hrest, hlast⟩ := events_addUnits box (e.addUnit box u) us
    unfold addUnits WorkUnit.freshPartsOfAll
    constructor
    · rw [hrest, hevents, hlaunches, Sandbox.runAll_append, List.flatMap_append, List.append_assoc]
    · rw [hlast, hlaunches]
      exact (List.foldl_append).symm

end

end Execution

/-! ## The units of a build -/

/-- How units that were built go about test classes when they are executed.  What is said of a launch is said
of the run of a fresh unit that attempts it. -/
structure ScopedExecution (box : Sandbox) (units : List WorkUnit) : Prop where
  /-- A unit has the classes that define a test which covers one of its mutations, and no others. -/
  classes : ∀ u ∈ WorkUnit.freshPartsOfAll units, ∀ c,
    c ∈ u.testClasses ↔ ∃ m ∈ u.mutations, ∃ t ∈ m.tests, t.definingClass = c
  /-- What happens to environments happens in the runs of the fresh units, one after the other. -/
  runs : (execute box units).events =
    (box.runAll {} (WorkUnit.freshPartsOfAll units)).flatMap (·.2.events)
  /-- Whether a launch succeeds or fails, it is one with the classes of the unit. -/
  attempts : ∀ run ∈ box.runAll {} (WorkUnit.freshPartsOfAll units), ∀ step ∈ run.2.steps,
    step.2.attemptsLaunch = true → ∃ k,
      match box.launch k run.1.testClasses with
      | .error fault => step.2 = .unlaunched fault
      | .ok env => ∃ n,
        step.2 = .checked n (some run.1.testClasses) (box.hasKillSwitch env) (box.attend env step.1)
  launches : ∀ run ∈ box.runAll {} (WorkUnit.freshPartsOfAll units), ∀ n testClasses,
    .launch n testClasses ∈ run.2.events → testClasses = run.1.testClasses
  /-- A unit runs its tests in environments that it has launched. -/
  tests : ∀ run ∈ box.runAll {} (WorkUnit.freshPartsOfAll units),
    Scoped (Within run.1.testClasses) [] run.2.events
  /-- Each test is run in an environment that was launched before with the class of the test. -/
  allTests : ∀ before n t after, (execute box units).events = before ++ .call n (.test t) :: after →
    ∃ testClasses, .launch n testClasses ∈ before ∧ t.definingClass ∈ testClasses
  /-- The number of an environment tells its launch. -/
  numbered : (execute box units).events.filterMap Event.launched? =
    List.range (execute box units).launches.succeeded

theorem scopedExecution {box : Sandbox} {units : List WorkUnit}
    (h : ∀ u ∈ WorkUnit.freshPartsOfAll units, u.testClasses = testClassesOf u.mutations) :
    ScopedExecution box units := by
  have hclasses : ∀ u ∈ WorkUnit.freshPartsOfAll units, ∀ c,
      c ∈ u.testClasses ↔ ∃ m ∈ u.mutations, ∃ t ∈ m.tests, t.definingClass = c := by
    intro u hu c
    rw [h u hu]
    exact mem_testClassesOf
  have hcovers : ∀ u ∈ WorkUnit.freshPartsOfAll units, ∀ m ∈ u.mutations, ∀ t ∈ m.tests,
      t.definingClass ∈ u.testClasses := fun u hu m hm t ht => (hclasses u hu _).mpr ⟨m, hm, t, ht, rfl⟩
  obtain ⟨hevents, hlaunches⟩ := ({} : Execution).events_addUnits box units
  have hruns : (execute box units).events =
      (box.runAll {} (WorkUnit.freshPartsOfAll units)).flatMap (·.2.events) := hevents
  have hscoped := box.scoped_runAll {} [] hcovers
  rw [← hruns] at hscoped
  constructor
  case classes => exact hclasses
  case runs => exact hruns
  case attempts =>
    intro run hmem step hstep hattempts
    obtain ⟨u, -, launches, rfl⟩ := Sandbox.exists_of_mem_runAll hmem
    obtain ⟨_, _, _, hturn⟩ := (u.turns_run box launches).exists_turn hstep
    exact hturn.exists_launch hattempts
  case launches =>
    intro run hmem n testClasses hlaunch
    obtain ⟨u, -, launches, rfl⟩ := Sandbox.exists_of_mem_runAll hmem
    exact u.testClasses_of_launch_mem_run box launches hlaunch
  case tests =>
    intro run hmem
    obtain ⟨u, hu, launches, rfl⟩ := Sandbox.exists_of_mem_runAll hmem
    exact u.scoped_run box launches (hcovers u hu)
  case allTests =>
    intro before n t after hsplit
    exact hscoped before n t after hsplit
  case numbered =>
    have hrange := box.range_succeeded_launchesAfter {} (WorkUnit.freshPartsOfAll units)
    rw [← hruns] at hrange
    exact hrange.symm.trans (congrArg (fun launches => List.range launches.succeeded) hlaunches.symm)

theorem WorkUnit.mem_freshPartsOfAll {f : FreshUnit} {units : List WorkUnit} :
    f ∈ freshPartsOfAll units ↔ ∃ u ∈ units, f ∈ u.freshParts := by
  rw [freshPartsOfAll_eq_flatMap, List.mem_flatMap]

section Build

variable {settings : Settings} {source : ClassName → Journaled Fault (List Mutation)} {a : Analyser}
  {classes : List ClassName} {units : List WorkUnit}

/-- Whether each of the units is made of outcomes. -/
def AllUnitsOf (mutators : List String) (settings : Settings) (units : List WorkUnit) : Prop :=
  ∀ u ∈ units, ∃ os, u = unitOf mutators settings os

theorem unitsOfGroups_unitOf {mutators : List String} {groups : List (List Mutation)} {s s' : a.State}
    (h : (unitsOfGroups a mutators settings s groups).outcome = .ok (units, s')) :
    AllUnitsOf mutators settings units := by
  induction groups generalizing s units with
  | nil =>
    cases h
    exact nofun
  | cons group groups ih =>
    obtain ⟨_, -, h⟩ := Journaled.outcome_bind_eq_ok.mp h
    obtain ⟨⟨rest, _⟩, hrest, h⟩ := Journaled.outcome_bind_eq_ok.mp h
    cases h
    intro u hu
    rcases List.mem_cons.mp hu with rfl | hu
    · exact ⟨_, rfl⟩
    · exact ih hrest u hu

theorem unitsOfClasses_unitOf {mutators : List String} {s : a.State}
    (h : (unitsOfClasses source a mutators settings s classes).outcome = .ok units) :
    AllUnitsOf mutators settings units := by
  induction classes generalizing s units with
  | nil =>
    cases h
    exact nofun
  | cons c cs ih =>
    obtain ⟨ms, -, h⟩ := Journaled.outcome_bind_eq_ok.mp h
    obtain ⟨_, -, h⟩ := Journaled.outcome_bind_eq_ok.mp h
    obtain ⟨⟨units, s'⟩, hunits, h⟩ := Journaled.outcome_bind_eq_ok.mp h
    obtain ⟨rest, hrest, h⟩ := Journaled.outcome_bind_eq_ok.mp h
    cases h
    intro u hu
    rcases List.mem_append.mp hu with hu | hu
    · exact unitsOfGroups_unitOf hunits u hu
    · exact ih hrest u hu

/-- **The test classes of a unit suffice and none is idle**, whatever the analyser answers and however the
environments behave. -/
theorem execute_buildUnits_scoped (box : Sandbox)
    (h : (buildUnits settings source a classes).outcome = .ok units) : ScopedExecution box units := by
  refine scopedExecution fun f hf => ?_
  obtain ⟨_, -, hunits⟩ := Journaled.outcome_bind_eq_ok.mp h
  obtain ⟨u, hu, hf⟩ := WorkUnit.mem_freshPartsOfAll.mp hf
  obtain ⟨os, rfl⟩ := unitsOfClasses_unitOf hunits u hu
  exact testClasses_of_mem_freshParts hf

end Build

/-- A plan with an outcome for the first point: a bundle and a fresh unit. -/
def variedPlan : Journaled Fault (List WorkUnit) :=
  buildUnits { singly with unitSize := 3 } (fun _ => pure variedPoints)
    (Recall.ofOutcomes [storedOutcome]).analyser [⟨"Calc"⟩]

theorem execute_buildUnits_scoped_variedPlan :
    ∃ units, variedPlan.outcome = .ok units ∧ ScopedExecution countingCalls units := by
  obtain ⟨units, hunits⟩ : ∃ units, variedPlan.outcome = .ok units := ⟨_, rfl⟩
  exact ⟨units, hunits, execute_buildUnits_scoped countingCalls hunits⟩

example :
    variedPlan.outcome.map (fun units => (WorkUnit.freshPartsOfAll units).map (·.testClasses)) =
      .ok [[⟨"CalcTest"⟩], [⟨"CalcTest"⟩, ⟨"SignTest"⟩]] := by rfl

end StackMutants
