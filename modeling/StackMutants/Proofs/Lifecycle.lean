import StackMutants.Proofs.Courses

/-!
# Proofs.Lifecycle — the environments of a fresh unit

A mutant is checked in the environment that the last covered mutant before it left, if that one came to a
normal verdict, and an environment is launched for it otherwise.  So an environment serves a stretch of
mutants of which all but the last come to a normal verdict, and it is shut down by the unit exactly if the
unit is told the end of its last check: at once after an abnormal verdict, when the unit is done after a
normal one (`FreshUnit.run_lifecycle`).

One mutant's turn is a relation with a case for each thing that can happen (`Sandbox.Turn`), and a run is
one turn after the other (`Sandbox.Turns`).  Everything is proved of turns first and then, by induction, of
a run.
-/

namespace StackMutants

/-! ## Turns -/

namespace Sandbox

variable (box : Sandbox) (testClasses : List ClassName)

/-- One mutant's turn: the course that it takes, and the launches before and after it.  `held` is what the
unit holds before it. -/
inductive Turn : Launches → Option (Nat × box.Env) → Mutation → Course box.Env → Launches → Prop where
  | uncovered {launches : Launches} {held : Option (Nat × box.Env)} {m : Mutation} :
      m.isCovered = false → Turn launches held m .uncovered launches
  | reused {launches : Launches} {n : Nat} {env : box.Env} {m : Mutation} : m.isCovered = true →
      Turn launches (some (n, env)) m (.checked n none (box.hasKillSwitch env) (box.attend env m)) launches
  | unlaunched {launches : Launches} {m : Mutation} {fault : Fault} : m.isCovered = true →
      box.launch launches.attempted testClasses = .error fault →
      Turn launches none m (.unlaunched fault) ⟨launches.attempted + 1, launches.succeeded⟩
  | launched {launches : Launches} {m : Mutation} {env : box.Env} : m.isCovered = true →
      box.launch launches.attempted testClasses = .ok env →
      Turn launches none m
        (.checked launches.succeeded (some testClasses) (box.hasKillSwitch env) (box.attend env m))
        ⟨launches.attempted + 1, launches.succeeded + 1⟩

theorem turn_course (launches : Launches) (held : Option (Nat × box.Env)) (m : Mutation) :
    box.Turn testClasses launches held m (box.course testClasses launches held m).1
      (box.course testClasses launches held m).2 := by
  cases hcovered : m.isCovered with
  | false =>
    rw [box.course_of_uncovered testClasses launches held hcovered]
    exact .uncovered hcovered
  | true =>
    unfold course
    rw [hcovered]
    dsimp only [Bool.not_true, Bool.false_eq_true, if_false]
    cases held with
    | some held => exact .reused hcovered
    | none =>
      cases hlaunch : box.launch launches.attempted testClasses with
      | error fault => exact .unlaunched hcovered hlaunch
      | ok env => exact .launched hcovered hlaunch

/-- The turns of mutants one after the other: the steps that they come to, the launches before and after
them, and what the unit holds before and after them. -/
inductive Turns : Launches → Option (Nat × box.Env) → List (Mutation × Course box.Env) →
    Launches → Option (Nat × box.Env) → Prop where
  | nil (launches : Launches) (held : Option (Nat × box.Env)) : Turns launches held [] launches held
  | cons {launches launches' launches'' : Launches} {held held'' : Option (Nat × box.Env)} {m : Mutation}
      {course : Course box.Env} {steps : List (Mutation × Course box.Env)} :
      box.Turn testClasses launches held m course launches' →
      Turns launches' (course.held held) steps launches'' held'' →
      Turns launches held ((m, course) :: steps) launches'' held''

theorem turns_courses (launches : Launches) (held : Option (Nat × box.Env)) (ms : List Mutation) :
    box.Turns testClasses launches held (box.courses testClasses launches held ms).1
      (box.courses testClasses launches held ms).2.1 (box.courses testClasses launches held ms).2.2 := by
  induction ms generalizing launches held with
  | nil => exact .nil launches held
  | cons m ms ih => exact .cons (box.turn_course testClasses launches held m) (ih _ _)

variable {box testClasses} {launches launches' : Launches} {held held' : Option (Nat × box.Env)}
  {m : Mutation} {course : Course box.Env} {steps : List (Mutation × Course box.Env)} {n : Nat}

/-- A run can be cut at any of its turns. -/
theorem Turns.split {before after : List (Mutation × Course box.Env)}
    (h : box.Turns testClasses launches held steps launches' held')
    (hsteps : steps = before ++ (m, course) :: after) :
    ∃ launches₁ held₁ launches₂, box.Turns testClasses launches held before launches₁ held₁ ∧
      box.Turn testClasses launches₁ held₁ m course launches₂ ∧
      box.Turns testClasses launches₂ (course.held held₁) after launches' held' := by
  subst hsteps
  induction before generalizing launches held with
  | nil =>
    cases h with
    | cons hturn hturns => exact ⟨launches, held, _, .nil _ _, hturn, hturns⟩
  | cons step before ih =>
    cases h with
    | cons hturn hturns =>
      obtain ⟨launches₁, held₁, launches₂, hbefore, hat, hafter⟩ := ih hturns
      exact ⟨launches₁, held₁, launches₂, .cons hturn hbefore, hat, hafter⟩

theorem Turns.exists_turn {step : Mutation × Course box.Env}
    (h : box.Turns testClasses launches held steps launches' held') (hstep : step ∈ steps) :
    ∃ launches₁ held₁ launches₂, box.Turn testClasses launches₁ held₁ step.1 step.2 launches₂ := by
  obtain ⟨before, after, hsteps⟩ := List.append_of_mem hstep
  obtain ⟨launches₁, held₁, launches₂, -, hturn, -⟩ := h.split hsteps
  exact ⟨launches₁, held₁, launches₂, hturn⟩

/-! ### Which environment is held -/

theorem Turn.course_eq_uncovered (h : box.Turn testClasses launches held m course launches')
    (huncovered : m.isCovered = false) : course = .uncovered := by
  cases h with
  | uncovered _ => rfl
  | reused hcovered => rw [huncovered] at hcovered; cases hcovered
  | unlaunched hcovered _ => rw [huncovered] at hcovered; cases hcovered
  | launched hcovered _ => rw [huncovered] at hcovered; cases hcovered

/-- A covered mutant leaves the unit with an environment or without, whatever it held before. -/
theorem Turn.held_eq (h : box.Turn testClasses launches held m course launches')
    (hcovered : m.isCovered = true) : course.held held = course.held none := by
  cases h with
  | uncovered huncovered => rw [hcovered] at huncovered; cases huncovered
  | reused _ => rfl
  | unlaunched _ _ => rfl
  | launched _ _ => rfl

/-- What the unit holds is what the last covered mutant left it. -/
theorem Turns.held_eq (h : box.Turns testClasses launches held steps launches' held') :
    held' = match Course.lastCovered steps with
      | some last => last.2.held none
      | none => held := by
  induction h with
  | nil => rfl
  | @cons launches launches' launches'' held held'' m course steps hturn _ ih =>
    rw [Course.lastCovered_cons, ih]
    cases Course.lastCovered steps with
    | some last => rfl
    | none =>
      cases hcovered : m.isCovered with
      | true => exact hturn.held_eq hcovered
      | false =>
        rw [hturn.course_eq_uncovered hcovered]
        simp [Course.held]

/-! ### How environments are numbered -/

theorem Turn.attempted_eq (h : box.Turn testClasses launches held m course launches') :
    launches'.attempted = launches.attempted + if course.attemptsLaunch then 1 else 0 := by
  cases h with
  | uncovered _ => rfl
  | reused _ => rfl
  | unlaunched _ _ => rfl
  | launched _ _ => rfl

theorem Turns.attempted_eq (h : box.Turns testClasses launches held steps launches' held') :
    launches'.attempted = launches.attempted + steps.countP (·.2.attemptsLaunch) := by
  induction h with
  | nil => rfl
  | cons hturn _ ih =>
    rw [ih, hturn.attempted_eq, List.countP_cons]
    dsimp only
    omega

theorem Turn.succeeded_le (h : box.Turn testClasses launches held m course launches') :
    launches.succeeded ≤ launches'.succeeded := by
  cases h with
  | uncovered _ => exact Nat.le_refl _
  | reused _ => exact Nat.le_refl _
  | unlaunched _ _ => exact Nat.le_refl _
  | launched _ _ => exact Nat.le_succ _

theorem Turns.succeeded_le (h : box.Turns testClasses launches held steps launches' held') :
    launches.succeeded ≤ launches'.succeeded := by
  induction h with
  | nil => exact Nat.le_refl _
  | cons hturn _ ih => exact Nat.le_trans hturn.succeeded_le ih

/-- The environments that a unit can come across: the one that it holds at first, and those launched from
then on. -/
def InReach (launches launches' : Launches) (held : Option (Nat × box.Env)) (n : Nat) : Prop :=
  (∃ e, held = some (n, e)) ∨ (launches.succeeded ≤ n ∧ n < launches'.succeeded)

theorem Turn.inReach (h : box.Turn testClasses launches held m course launches')
    (henv : course.env? = some n) : InReach launches launches' held n := by
  cases h with
  | uncovered _ => cases henv
  | reused _ =>
    cases henv
    exact .inl ⟨_, rfl⟩
  | unlaunched _ _ => cases henv
  | launched _ _ =>
    cases henv
    exact .inr ⟨Nat.le_refl _, Nat.lt_succ_self _⟩

/-- What is in reach after a turn was in reach before it. -/
theorem Turn.inReach_of_after {launches'' : Launches}
    (h : box.Turn testClasses launches held m course launches')
    (hle : launches'.succeeded ≤ launches''.succeeded)
    (hreach : InReach launches' launches'' (course.held held) n) : InReach launches launches'' held n := by
  have hfirst := h.succeeded_le
  rcases hreach with ⟨e, hheld⟩ | ⟨hlower, hupper⟩
  · rcases Course.held_cases hheld with ⟨-, hheld⟩ | ⟨henv, -⟩
    · exact .inl ⟨e, hheld⟩
    · rcases h.inReach henv with hheld | ⟨hlower, hupper⟩
      · exact .inl hheld
      · exact .inr ⟨hlower, by omega⟩
  · exact .inr ⟨by omega, hupper⟩

theorem Turns.inReach_of_mem {step : Mutation × Course box.Env}
    (h : box.Turns testClasses launches held steps launches' held') (hstep : step ∈ steps)
    (henv : step.2.env? = some n) : InReach launches launches' held n := by
  induction h with
  | nil => cases hstep
  | cons hturn hturns ih =>
    have hle := hturns.succeeded_le
    rcases List.mem_cons.mp hstep with rfl | hstep
    · rcases hturn.inReach henv with hheld | ⟨hlower, hupper⟩
      · exact .inl hheld
      · exact .inr ⟨hlower, by omega⟩
    · exact hturn.inReach_of_after hle (ih hstep)

theorem Turns.inReach_of_held {e : box.Env}
    (h : box.Turns testClasses launches held steps launches' held') (hheld : held' = some (n, e)) :
    InReach launches launches' held n := by
  induction h with
  | nil => exact .inl ⟨e, hheld⟩
  | cons hturn hturns ih => exact hturn.inReach_of_after hturns.succeeded_le (ih hheld)

/-- An environment that is held and that no turn uses is held to the end. -/
theorem Turns.held_of_unused {e : box.Env} (h : box.Turns testClasses launches held steps launches' held')
    (hheld : held = some (n, e)) (hunused : ∀ step ∈ steps, step.2.env? ≠ some n) :
    held' = some (n, e) := by
  induction h with
  | nil => exact hheld
  | @cons launches launches' launches'' held held'' m course steps hturn _ ih =>
    refine ih ?_ fun step hstep => hunused step (List.mem_cons_of_mem _ hstep)
    cases hturn with
    | uncovered _ => exact hheld
    | reused _ =>
      cases hheld
      exact absurd rfl (hunused _ List.mem_cons_self)
    | unlaunched _ _ => cases hheld
    | launched _ _ => cases hheld

/-! ### Which environment a mutant gets -/

theorem Turn.attemptsLaunch_iff (h : box.Turn testClasses launches held m course launches') :
    course.attemptsLaunch = true ↔ m.isCovered = true ∧ held = none := by
  cases h with
  | uncovered huncovered => simp [Course.attemptsLaunch, huncovered]
  | reused _ => simp [Course.attemptsLaunch]
  | unlaunched hcovered _ => simp [Course.attemptsLaunch, hcovered]
  | launched hcovered _ => simp [Course.attemptsLaunch, hcovered]

section Cut

variable {before after : List (Mutation × Course box.Env)} {launches₁ launches₂ : Launches}
  {held₁ : Option (Nat × box.Env)}
  (hbefore : box.Turns testClasses launches none before launches₁ held₁)
  (hturn : box.Turn testClasses launches₁ held₁ m course launches₂)

include hbefore hturn

/-- A launch is attempted for a mutant exactly if it is covered and the last covered mutant before it, if
there is one, came to an abnormal verdict. -/
theorem Turns.attemptsLaunch_iff :
    course.attemptsLaunch = true ↔
      m.isCovered = true ∧ ∀ last, Course.lastCovered before = some last → ¬last.2.Normal := by
  rw [hturn.attemptsLaunch_iff, hbefore.held_eq]
  cases hlast : Course.lastCovered before with
  | none => simp
  | some last => simp [last.2.held_none_eq_none_iff]

/-- A launch that is attempted is the next of the sandbox, and an environment that it brings is new to the
unit. -/
theorem Turns.course_of_attemptsLaunch (hattempts : course.attemptsLaunch = true) :
    match box.launch (launches.attempted + before.countP (·.2.attemptsLaunch)) testClasses with
    | .error fault => course = .unlaunched fault
    | .ok env => ∃ n,
      course = .checked n (some testClasses) (box.hasKillSwitch env) (box.attend env m) ∧
        ∀ step ∈ before, step.2.env? ≠ some n := by
  rw [← hbefore.attempted_eq]
  cases hturn with
  | uncovered _ => cases hattempts
  | reused _ => cases hattempts
  | unlaunched _ hlaunch => rw [hlaunch]
  | launched _ hlaunch =>
    rw [hlaunch]
    refine ⟨launches₁.succeeded, rfl, fun step hstep henv => ?_⟩
    rcases hbefore.inReach_of_mem hstep henv with ⟨e, hheld⟩ | ⟨-, hupper⟩
    · cases hheld
    · exact absurd hupper (Nat.lt_irrefl _)

/-- A covered mutant is otherwise checked in the environment of the last covered mutant before it, as the
check of that one left it. -/
theorem Turns.course_of_normal {last : Mutation × Course box.Env} (hcovered : m.isCovered = true)
    (hlast : Course.lastCovered before = some last) (hnormal : last.2.Normal) :
    ∃ n launchedFor killable c verdict env,
      last.2 = .checked n launchedFor killable c ∧ c.ending = .ok (verdict, env) ∧
        course = .checked n none (box.hasKillSwitch env) (box.attend env m) := by
  obtain ⟨lastMutation, lastCourse⟩ := last
  obtain ⟨n, launchedFor, killable, c, rfl⟩ := hnormal.eq_checked
  obtain ⟨verdict, env, hending, -, hsome, -⟩ := hnormal.exists_ending
  have hheld : held₁ = some (n, env) := by
    rw [hbefore.held_eq, hlast]
    exact hsome none
  subst hheld
  refine ⟨n, launchedFor, killable, c, verdict, env, rfl, hending, ?_⟩
  cases hturn with
  | uncovered huncovered => rw [hcovered] at huncovered; cases huncovered
  | reused _ => rfl

/-- Once a mutant has come to an abnormal verdict, its environment is out of reach. -/
theorem Turns.not_inReach_of_abnormal (henv : course.env? = some n) (habnormal : ¬course.Normal) :
    ¬InReach launches₂ launches' (course.held held₁) n := by
  have hlt : n < launches₂.succeeded := by
    rcases hturn.inReach henv with ⟨e, hheld⟩ | ⟨-, hupper⟩
    · rcases hbefore.inReach_of_held hheld with ⟨e, hheld⟩ | ⟨-, hupper⟩
      · cases hheld
      · exact Nat.lt_of_lt_of_le hupper hturn.succeeded_le
    · exact hupper
  -- It is not held, and environments that are launched from now on have higher numbers.
  rintro (⟨e, hheld⟩ | ⟨hlower, -⟩)
  · rcases Course.held_cases hheld with ⟨rfl, -⟩ | ⟨-, hnormal⟩
    · cases henv
    · exact habnormal hnormal
  · omega

/-- The environment of an abnormal verdict is not used again. -/
theorem Turns.not_used_of_abnormal
    (hafter : box.Turns testClasses launches₂ (course.held held₁) after launches' held')
    (henv : course.env? = some n) (habnormal : ¬course.Normal) :
    ∀ step ∈ after, step.2.env? ≠ some n :=
  fun _ hstep hlater =>
    hbefore.not_inReach_of_abnormal hturn henv habnormal (hafter.inReach_of_mem hstep hlater)

end Cut

theorem Turn.filterMap_killed?_events (h : box.Turn testClasses launches held m course launches') :
    course.events.filterMap Event.killed? = course.kills := by
  have htold : ∀ (env : box.Env) (verdict : Verdict) (env' : box.Env),
      (box.attend env m).ending = .ok (verdict, env') → verdict.status ≠ .timedOut :=
    fun env verdict env' hending => (box.reports_attend env m verdict env' hending).reported.2
  cases h with
  | uncovered _ => rfl
  | reused _ => exact Course.filterMap_killed?_events (htold _)
  | unlaunched _ _ => rfl
  | launched _ _ => exact Course.filterMap_killed?_events (htold _)

end Sandbox

/-! ## The run of a fresh unit -/

namespace FreshRun

variable {Env : Type} (r : FreshRun Env) {n : Nat}

/-- How a run ends: an environment that is still held is shut down. -/
def closing : List Event := (r.heldAtEnd.map (·.1)).toList.map (Event.shutdown · .unit)

theorem events_eq : r.events = r.steps.flatMap (·.2.events) ++ r.closing := by
  obtain ⟨steps, launches, heldAtEnd⟩ := r
  cases heldAtEnd <;> rfl

variable {r}

theorem closing_of_held (h : r.heldAtEnd.map (·.1) = some n) : r.closing = [.shutdown n .unit] := by
  unfold closing
  rw [h]
  rfl

theorem not_mem_closing (h : r.heldAtEnd.map (·.1) ≠ some n) : .shutdown n .unit ∉ r.closing := by
  intro hmem
  obtain ⟨k, hk, hshutdown⟩ := List.mem_map.mp hmem
  cases hshutdown
  exact h (Option.mem_toList.mp hk)

theorem filterMap_killed?_closing : r.closing.filterMap Event.killed? = [] := by
  unfold closing
  rw [List.filterMap_map]
  exact List.filterMap_eq_nil_iff.mpr fun _ _ => rfl

end FreshRun

open Course (lastCovered)

/-- How a unit goes about environments in a run `r` that begins after the launches `launches`.  What is said
of a mutant is said at a split of the run: the steps before it, its own, and the steps after it. -/
structure FreshRun.Lifecycle (u : FreshUnit) (box : Sandbox) (launches : Launches)
    (r : FreshRun box.Env) : Prop where
  mutants : r.steps.map (·.1) = u.mutations
  attempts : r.launches.attempted = launches.attempted + r.steps.countP (·.2.attemptsLaunch)
  /-- The events of a step are events of the environment of its mutant. -/
  owned : ∀ step ∈ r.steps, ∀ event ∈ step.2.events, step.2.env? = some event.env
  uncovered : ∀ step ∈ r.steps, step.1.isCovered = false →
    step.2.attemptsLaunch = false ∧ step.2.events = []
  launched_iff : ∀ before m course after, r.steps = before ++ (m, course) :: after →
    (course.attemptsLaunch = true ↔
      m.isCovered = true ∧ ∀ last, lastCovered before = some last → ¬last.2.Normal)
  /-- A launch that succeeds brings an environment that is new to the unit, and the mutant is checked in it. -/
  launched : ∀ before m course after, r.steps = before ++ (m, course) :: after →
    course.attemptsLaunch = true →
    match box.launch (launches.attempted + before.countP (·.2.attemptsLaunch)) u.testClasses with
    | .error fault => course = .unlaunched fault
    | .ok env => ∃ n,
      course = .checked n (some u.testClasses) (box.hasKillSwitch env) (box.attend env m) ∧
        ∀ step ∈ before, step.2.env? ≠ some n
  /-- An environment is used again as the check before left it. -/
  reused : ∀ before m course after, r.steps = before ++ (m, course) :: after →
    m.isCovered = true → ∀ last, lastCovered before = some last → last.2.Normal →
    ∃ n launchedFor killable c verdict env,
      last.2 = .checked n launchedFor killable c ∧ c.ending = .ok (verdict, env) ∧
        course = .checked n none (box.hasKillSwitch env) (box.attend env m)
  discarded : ∀ before m course after, r.steps = before ++ (m, course) :: after →
    ∀ n, course.env? = some n → ¬course.Normal → ∀ step ∈ after, step.2.env? ≠ some n
  kills : ∀ step ∈ r.steps, step.2.events.filterMap Event.killed? = step.2.kills
  allKills : r.events.filterMap Event.killed? = r.steps.flatMap (·.2.kills)
  /-- The shutdowns of an environment, told by the last mutant that is checked in it. -/
  shutdowns : ∀ before m course after, r.steps = before ++ (m, course) :: after →
    ∀ n, course.env? = some n → (∀ step ∈ after, step.2.env? ≠ some n) →
    r.events.count (.shutdown n .unit) = if course.received then 1 else 0
  shutAtOnce : ∀ step ∈ r.steps, ∀ n, step.2.env? = some n → step.2.received = true → ¬step.2.Normal →
    step.2.events.getLast? = some (.shutdown n .unit)
  shutAtEnd : ∀ before m course after, r.steps = before ++ (m, course) :: after →
    ∀ n, course.env? = some n → (∀ step ∈ after, step.2.env? ≠ some n) → course.Normal →
    r.events.getLast? = some (.shutdown n .unit) ∧ .shutdown n .unit ∉ r.steps.flatMap (·.2.events)

namespace Sandbox

variable {box : Sandbox} {testClasses : List ClassName} {launches launches' : Launches}
  {held' : Option (Nat × box.Env)} {steps before after : List (Mutation × Course box.Env)}
  {m : Mutation} {course : Course box.Env} {n : Nat}
  (h : box.Turns testClasses launches none steps launches' held')
  (hsteps : steps = before ++ (m, course) :: after)

include h hsteps

/-- An environment that is used again later has served normal verdicts only. -/
theorem Turns.normal_of_used_again {step : Mutation × Course box.Env} (henv : course.env? = some n)
    (hstep : step ∈ before) (hbefore : step.2.env? = some n) : step.2.Normal := by
  obtain ⟨earlier, later, rfl⟩ := List.append_of_mem hstep
  rw [List.append_assoc, List.cons_append] at hsteps
  obtain ⟨launches₁, held₁, launches₂, hearlier, hturn, hlater⟩ := h.split hsteps
  by_contra habnormal
  exact hearlier.not_used_of_abnormal hturn hlater hbefore habnormal (m, course)
    (List.mem_append_right _ List.mem_cons_self) henv

/-- In the steps up to the last use of an environment, the unit shuts it down only after an abnormal
verdict on the last. -/
theorem Turns.count_shutdown_steps (henv : course.env? = some n)
    (hlast : ∀ step ∈ after, step.2.env? ≠ some n) :
    (steps.flatMap (·.2.events)).count (.shutdown n .unit) = course.events.count (.shutdown n .unit) := by
  have hbefore : (before.flatMap (·.2.events)).count (.shutdown n .unit) = 0 := by
    refine List.count_eq_zero.mpr fun hmem => ?_
    obtain ⟨step, hstep, hevent⟩ := List.mem_flatMap.mp hmem
    have hstepEnv : step.2.env? = some n := Course.env?_of_mem_events hevent
    have hnormal := h.normal_of_used_again hsteps henv hstep hstepEnv
    exact List.count_eq_zero.mp (hnormal.count_shutdown hstepEnv).2 hevent
  have hafter : (after.flatMap (·.2.events)).count (.shutdown n .unit) = 0 :=
    Course.count_flatMap_events_of_unused hlast
  rw [hsteps, List.flatMap_append, List.flatMap_cons, List.count_append, List.count_append, hbefore,
    hafter, Nat.zero_add, Nat.add_zero]

/-- What the unit holds at the end, if the last use of an environment came to a normal verdict. -/
theorem Turns.held_of_normal (henv : course.env? = some n)
    (hlast : ∀ step ∈ after, step.2.env? ≠ some n) (hnormal : course.Normal) :
    held'.map (·.1) = some n := by
  obtain ⟨launches₁, held₁, launches₂, -, -, hafter⟩ := h.split hsteps
  obtain ⟨launchedFor, killable, c, rfl⟩ := Course.eq_checked_of_env? henv
  obtain ⟨verdict, e, -, -, hheld, -⟩ := hnormal.exists_ending
  rw [hafter.held_of_unused (hheld held₁) hlast]
  rfl

theorem Turns.held_ne_of_abnormal (henv : course.env? = some n) (habnormal : ¬course.Normal) :
    held'.map (·.1) ≠ some n := by
  obtain ⟨launches₁, held₁, launches₂, hbefore, hturn, hafter⟩ := h.split hsteps
  intro hfst
  obtain ⟨⟨k, e⟩, hheld, rfl⟩ := Option.map_eq_some_iff.mp hfst
  exact hbefore.not_inReach_of_abnormal hturn henv habnormal (hafter.inReach_of_held hheld)

end Sandbox

namespace FreshRun

variable {box : Sandbox} {testClasses : List ClassName} {launches : Launches} {r : FreshRun box.Env}
  {before after : List (Mutation × Course box.Env)} {m : Mutation} {course : Course box.Env} {n : Nat}
  (hrun : box.Turns testClasses launches none r.steps r.launches r.heldAtEnd)

include hrun

theorem filterMap_killed?_events :
    r.events.filterMap Event.killed? = r.steps.flatMap (·.2.kills) := by
  rw [r.events_eq, List.filterMap_append, filterMap_killed?_closing, List.append_nil,
    List.filterMap_flatMap]
  refine List.flatMap_congr fun step hstep => ?_
  obtain ⟨_, _, _, hturn⟩ := hrun.exists_turn hstep
  exact hturn.filterMap_killed?_events

/-- An environment is shut down once by the unit, if the unit is told the end of its last check, and not at
all otherwise. -/
theorem count_shutdown_events (hsteps : r.steps = before ++ (m, course) :: after)
    (henv : course.env? = some n) (hlast : ∀ step ∈ after, step.2.env? ≠ some n) :
    r.events.count (.shutdown n .unit) = if course.received then 1 else 0 := by
  rw [r.events_eq, List.count_append, hrun.count_shutdown_steps hsteps henv hlast]
  by_cases hnormal : course.Normal
  · obtain ⟨hreceived, hzero⟩ := hnormal.count_shutdown henv
    rw [closing_of_held (hrun.held_of_normal hsteps henv hlast hnormal), hzero, hreceived]
    simp
  · have hclosing := not_mem_closing (hrun.held_ne_of_abnormal hsteps henv hnormal)
    rw [Course.count_shutdown_of_not_normal henv hnormal, List.count_eq_zero.mpr hclosing, Nat.add_zero]

theorem getLast?_events (hsteps : r.steps = before ++ (m, course) :: after)
    (henv : course.env? = some n) (hlast : ∀ step ∈ after, step.2.env? ≠ some n)
    (hnormal : course.Normal) :
    r.events.getLast? = some (.shutdown n .unit) ∧ .shutdown n .unit ∉ r.steps.flatMap (·.2.events) := by
  have hcount := hrun.count_shutdown_steps hsteps henv hlast
  rw [(hnormal.count_shutdown henv).2] at hcount
  rw [r.events_eq, closing_of_held (hrun.held_of_normal hsteps henv hlast hnormal)]
  exact ⟨List.getLast?_concat, List.count_eq_zero.mp hcount⟩

end FreshRun

/-- **Environment lifecycle.**  Whatever the environments do, a fresh unit launches one for a covered mutant
exactly if the last covered mutant before it left none, uses none again after an abnormal verdict, kills
those of the mutants that time out and no others, and shuts each down once whose last check it is told the
end of. -/
theorem FreshUnit.run_lifecycle (u : FreshUnit) (box : Sandbox) (launches : Launches) :
    (u.run box launches).Lifecycle u box launches := by
  have hmutants : (u.run box launches).steps.map (·.1) = u.mutations :=
    box.map_fst_courses u.testClasses launches none u.mutations
  have hrun : box.Turns u.testClasses launches none (u.run box launches).steps
      (u.run box launches).launches (u.run box launches).heldAtEnd :=
    box.turns_courses u.testClasses launches none u.mutations
  generalize u.run box launches = r at hmutants hrun
  constructor
  case mutants => exact hmutants
  case attempts => exact hrun.attempted_eq
  case owned => exact fun step _ event hevent => Course.env?_of_mem_events hevent
  case uncovered =>
    intro step hstep huncovered
    obtain ⟨_, _, _, hturn⟩ := hrun.exists_turn hstep
    rw [hturn.course_eq_uncovered huncovered]
    exact ⟨rfl, rfl⟩
  case launched_iff =>
    intro before m course after hsteps
    obtain ⟨_, _, _, hbefore, hturn, -⟩ := hrun.split hsteps
    exact hbefore.attemptsLaunch_iff hturn
  case launched =>
    intro before m course after hsteps
    obtain ⟨_, _, _, hbefore, hturn, -⟩ := hrun.split hsteps
    exact hbefore.course_of_attemptsLaunch hturn
  case reused =>
    intro before m course after hsteps hcovered last hlast hnormal
    obtain ⟨_, _, _, hbefore, hturn, -⟩ := hrun.split hsteps
    exact hbefore.course_of_normal hturn hcovered hlast hnormal
  case discarded =>
    intro before m course after hsteps n henv habnormal
    obtain ⟨_, _, _, hbefore, hturn, hafter⟩ := hrun.split hsteps
    exact hbefore.not_used_of_abnormal hturn hafter henv habnormal
  case kills =>
    intro step hstep
    obtain ⟨_, _, _, hturn⟩ := hrun.exists_turn hstep
    exact hturn.filterMap_killed?_events
  case allKills => exact FreshRun.filterMap_killed?_events hrun
  case shutdowns =>
    intro before m course after hsteps n henv hlast
    exact FreshRun.count_shutdown_events hrun hsteps henv hlast
  case shutAtOnce =>
    intro step hstep n henv hreceived habnormal
    exact Course.getLast?_events_of_not_normal henv hreceived habnormal
  case shutAtEnd =>
    intro before m course after hsteps n henv hlast hnormal
    exact FreshRun.getLast?_events hrun hsteps henv hlast hnormal

end StackMutants
