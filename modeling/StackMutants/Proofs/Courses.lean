import StackMutants.Proofs.Conservation

/-!
# Proofs.Courses — what a mutant's course does to environments

A course is told by its verdict: after a normal one the unit holds the environment as the check left it and
nothing else has happened to it (`Course.Normal.exists_ending`), after any other it holds none
(`Course.of_not_normal`).  The events of a course happen to the environment of its mutant
(`Course.env?_of_mem_events`); kills and shutdowns come behind the calls of the check.
-/

namespace StackMutants

/-- The environment that the event happens to. -/
def Event.env : Event → Nat
  | launch env _ | call env _ | kill env | shutdown env _ => env

/-- The environment that is killed, if the event is a kill. -/
def Event.killed? : Event → Option Nat
  | kill env => some env
  | launch _ _ | call _ _ | shutdown _ _ => none

theorem Status.leavesUsable_iff {s : Status} : s.leavesUsable = true ↔ s = .killed ∨ s = .survived := by
  cases s <;> decide

/-- Whether the unit is told the end of the check: it waits long enough, and the worker survives. -/
def Check.received {Env : Type} (c : Check Env) : Bool := !c.overran && c.ending.isOk

namespace Course

variable {Env : Type}

/-- The environment that the mutant is checked in. -/
def env? : Course Env → Option Nat
  | uncovered | unlaunched _ => none
  | checked env _ _ _ => some env

/-- Whether a launch is attempted for the mutant. -/
def attemptsLaunch : Course Env → Bool
  | uncovered => false
  | unlaunched _ => true
  | checked _ launchedFor _ _ => launchedFor.isSome

/-- Whether the verdict on the mutant lets its environment be used again. -/
def Normal (course : Course Env) : Prop :=
  course.verdict.status = .killed ∨ course.verdict.status = .survived

/-- The environments that are killed because of the mutant: its own, if the mutant times out and the
environment can be killed. -/
def kills : Course Env → List Nat
  | uncovered | unlaunched _ => []
  | checked env launchedFor killable c =>
    if killable ∧ (checked env launchedFor killable c).verdict.status = .timedOut then [env] else []

/-- Whether the unit is told the end of the mutant's check. -/
def received : Course Env → Bool
  | uncovered | unlaunched _ => false
  | checked _ _ _ c => c.received

variable {n : Nat} {launchedFor : Option (List ClassName)} {killable : Bool} {c : Check Env}
  {course : Course Env}

theorem eq_checked_of_env? (h : course.env? = some n) :
    ∃ launchedFor killable c, course = .checked n launchedFor killable c := by
  cases course with
  | uncovered => cases h
  | unlaunched fault => cases h
  | checked k launchedFor killable c =>
    cases h
    exact ⟨launchedFor, killable, c, rfl⟩

theorem Normal.eq_checked (h : course.Normal) :
    ∃ n launchedFor killable c, course = .checked n launchedFor killable c := by
  cases course with
  | uncovered => rcases h with h | h <;> cases h
  | unlaunched fault => rcases h with h | h <;> cases h
  | checked n launchedFor killable c => exact ⟨n, launchedFor, killable, c, rfl⟩

/-- After a normal verdict the unit holds the environment as the check left it, and nothing has happened to
it since the calls of the check. -/
theorem Normal.exists_ending (h : (checked n launchedFor killable c).Normal) :
    ∃ verdict e, c.ending = .ok (verdict, e) ∧ c.received = true ∧
      (∀ held, (checked n launchedFor killable c).held held = some (n, e)) ∧
      aftermath n killable c = [] := by
  obtain ⟨calls, overran, ending⟩ := c
  cases overran with
  | true => rcases h with h | h <;> cases h
  | false =>
    cases ending with
    | error reason => rcases h with h | h <;> cases h
    | ok ending =>
      obtain ⟨verdict, e⟩ := ending
      have hstatus : verdict.status.leavesUsable = true := Status.leavesUsable_iff.mpr h
      refine ⟨verdict, e, rfl, rfl, fun held => ?_, ?_⟩
      · simp [Course.held, hstatus]
      · simp [aftermath, hstatus]

/-- After an abnormal verdict the unit holds no environment.  It has shut the environment down if it was
told the end of the check. -/
theorem of_not_normal (h : ¬(checked n launchedFor killable c).Normal) :
    (∀ held, (checked n launchedFor killable c).held held = none) ∧
      (c.received = true → aftermath n killable c = [.shutdown n .unit]) ∧
      (c.received = false → .shutdown n .unit ∉ aftermath n killable c) := by
  obtain ⟨calls, overran, ending⟩ := c
  cases overran with
  | true =>
    refine ⟨fun held => rfl, nofun, fun _ hmem => ?_⟩
    cases killable <;> cases ending <;> simp [aftermath] at hmem
  | false =>
    cases ending with
    | error reason => exact ⟨fun held => rfl, nofun, fun _ => nofun⟩
    | ok ending =>
      obtain ⟨verdict, e⟩ := ending
      have hstatus : verdict.status.leavesUsable = false := by
        rw [← Bool.not_eq_true, Status.leavesUsable_iff]
        exact h
      refine ⟨fun held => ?_, fun _ => ?_, nofun⟩
      · simp [Course.held, hstatus]
      · simp [aftermath, hstatus]

/-- What the unit holds after a course is what it held before, if the mutant was uncovered, and the
environment of a mutant with a normal verdict otherwise. -/
theorem held_cases {held : Option (Nat × Env)} {e : Env}
    (h : course.held held = some (n, e)) :
    (course = .uncovered ∧ held = some (n, e)) ∨ (course.env? = some n ∧ course.Normal) := by
  cases course with
  | uncovered => exact .inl ⟨rfl, h⟩
  | unlaunched fault => cases h
  | checked k launchedFor killable c =>
    by_cases hnormal : (checked k launchedFor killable c).Normal
    · obtain ⟨verdict, e', -, -, hheld, -⟩ := hnormal.exists_ending
      rw [hheld] at h
      cases h
      exact .inr ⟨rfl, hnormal⟩
    · rw [(of_not_normal hnormal).1] at h
      cases h

theorem exists_ending_of_held {held : Option (Nat × Env)} {k : Nat} {e : Env}
    (h : (checked n launchedFor killable c).held held = some (k, e)) :
    ∃ verdict, c.ending = .ok (verdict, e) := by
  rcases held_cases h with ⟨huncovered, -⟩ | ⟨-, hnormal⟩
  · cases huncovered
  · obtain ⟨verdict, e', hending, -, hheld, -⟩ := hnormal.exists_ending
    rw [hheld] at h
    cases h
    exact ⟨verdict, hending⟩

theorem held_none_eq_none_iff (course : Course Env) : course.held none = none ↔ ¬course.Normal := by
  constructor
  · intro hheld hnormal
    obtain ⟨k, launchedFor, killable, c, rfl⟩ := hnormal.eq_checked
    obtain ⟨verdict, e, -, -, hsome, -⟩ := hnormal.exists_ending
    rw [hsome none] at hheld
    cases hheld
  · intro habnormal
    cases hheld : course.held none with
    | none => rfl
    | some held =>
      rcases held_cases hheld with ⟨-, h⟩ | ⟨-, hnormal⟩
      · cases h
      · exact absurd hnormal habnormal

/-- After the calls of a check its environment is killed or shut down, if anything happens at all. -/
theorem eq_of_mem_aftermath {event : Event} (h : event ∈ aftermath n killable c) :
    event = .kill n ∨ ∃ party, event = .shutdown n party := by
  unfold aftermath at h
  split at h
  · rcases List.mem_append.mp h with h | h
    · split at h
      · exact .inl (List.mem_singleton.mp h)
      · cases h
    · split at h
      · exact .inr ⟨.worker, List.mem_singleton.mp h⟩
      · cases h
  · split at h
    · cases h
    · exact .inr ⟨.unit, List.mem_singleton.mp h⟩
  · cases h

theorem env_of_mem_aftermath {event : Event} (h : event ∈ aftermath n killable c) : event.env = n := by
  rcases eq_of_mem_aftermath h with rfl | ⟨party, rfl⟩
  · rfl
  · rfl

/-- A check begins with a launch, if the environment is new, and its calls; nothing is killed or shut down
before they are over. -/
theorem exists_events_eq (n : Nat) (launchedFor : Option (List ClassName)) (killable : Bool)
    (c : Check Env) :
    ∃ opening, (checked n launchedFor killable c).events = opening ++ aftermath n killable c ∧
      ∀ event ∈ opening, (∃ testClasses, event = .launch n testClasses) ∨ ∃ call, event = .call n call := by
  refine ⟨_, rfl, fun event h => ?_⟩
  rcases List.mem_append.mp h with h | h
  · cases launchedFor with
    | none => cases h
    | some testClasses => exact .inl ⟨testClasses, List.mem_singleton.mp h⟩
  · obtain ⟨call, -, rfl⟩ := List.mem_map.mp h
    exact .inr ⟨call, rfl⟩

/-- What happens during a course happens to the environment of its mutant. -/
theorem env?_of_mem_events {event : Event} (h : event ∈ course.events) :
    course.env? = some event.env := by
  cases course with
  | uncovered => cases h
  | unlaunched fault => cases h
  | checked n launchedFor killable c =>
    obtain ⟨opening, hevents, hopening⟩ := exists_events_eq n launchedFor killable c
    have henv : event.env = n := by
      rw [hevents] at h
      rcases List.mem_append.mp h with h | h
      · rcases hopening event h with ⟨_, rfl⟩ | ⟨_, rfl⟩
        · rfl
        · rfl
      · exact env_of_mem_aftermath h
    rw [henv]
    rfl

theorem filterMap_killed?_aftermath
    (h : ∀ verdict e, c.ending = .ok (verdict, e) → verdict.status ≠ .timedOut) :
    (aftermath n killable c).filterMap Event.killed? = (checked n launchedFor killable c).kills := by
  obtain ⟨calls, overran, ending⟩ := c
  cases overran with
  | true => cases killable <;> cases ending <;> rfl
  | false =>
    cases ending with
    | error reason => cases killable <;> rfl
    | ok ending =>
      obtain ⟨verdict, e⟩ := ending
      have hstatus : verdict.status ≠ .timedOut := h verdict e rfl
      cases hu : verdict.status.leavesUsable <;>
        simp [aftermath, kills, Course.verdict, hu, hstatus, Event.killed?]

theorem filterMap_killed?_events
    (h : ∀ verdict e, c.ending = .ok (verdict, e) → verdict.status ≠ .timedOut) :
    (checked n launchedFor killable c).events.filterMap Event.killed? =
      (checked n launchedFor killable c).kills := by
  obtain ⟨opening, hevents, hopening⟩ := exists_events_eq n launchedFor killable c
  have hnone : opening.filterMap Event.killed? = [] := by
    refine List.filterMap_eq_nil_iff.mpr fun event hevent => ?_
    rcases hopening event hevent with ⟨_, rfl⟩ | ⟨_, rfl⟩
    · rfl
    · rfl
  rw [hevents, List.filterMap_append, hnone, List.nil_append, filterMap_killed?_aftermath h]

theorem count_shutdown_events :
    (checked n launchedFor killable c).events.count (.shutdown n .unit) =
      (aftermath n killable c).count (.shutdown n .unit) := by
  obtain ⟨opening, hevents, hopening⟩ := exists_events_eq n launchedFor killable c
  have hzero : opening.count (.shutdown n .unit) = 0 := by
    refine List.count_eq_zero.mpr fun h => ?_
    rcases hopening _ h with ⟨_, h⟩ | ⟨_, h⟩
    · cases h
    · cases h
  rw [hevents, List.count_append, hzero, Nat.zero_add]

theorem Normal.count_shutdown (henv : course.env? = some n) (h : course.Normal) :
    course.received = true ∧ course.events.count (.shutdown n .unit) = 0 := by
  obtain ⟨launchedFor, killable, c, rfl⟩ := eq_checked_of_env? henv
  obtain ⟨verdict, e, -, hreceived, -, haftermath⟩ := h.exists_ending
  refine ⟨hreceived, ?_⟩
  rw [count_shutdown_events, haftermath]
  rfl

theorem count_shutdown_of_not_normal (henv : course.env? = some n) (h : ¬course.Normal) :
    course.events.count (.shutdown n .unit) = if course.received then 1 else 0 := by
  obtain ⟨launchedFor, killable, c, rfl⟩ := eq_checked_of_env? henv
  obtain ⟨-, hreceived, hlost⟩ := of_not_normal h
  rw [count_shutdown_events]
  cases hc : c.received with
  | true => simp [hreceived hc, received, hc]
  | false => simp [List.count_eq_zero.mpr (hlost hc), received, hc]

/-- After an abnormal verdict that the unit is told, the environment is shut down before anything else
happens. -/
theorem getLast?_events_of_not_normal (henv : course.env? = some n) (hreceived : course.received = true)
    (h : ¬course.Normal) : course.events.getLast? = some (.shutdown n .unit) := by
  obtain ⟨launchedFor, killable, c, rfl⟩ := eq_checked_of_env? henv
  obtain ⟨opening, hevents, -⟩ := exists_events_eq n launchedFor killable c
  rw [hevents, (of_not_normal h).2.1 hreceived, List.getLast?_concat]

/-- Steps in other environments do nothing to an environment. -/
theorem count_flatMap_events_of_unused {steps : List (Mutation × Course Env)} {event : Event}
    (h : ∀ step ∈ steps, step.2.env? ≠ some event.env) : (steps.flatMap (·.2.events)).count event = 0 := by
  refine List.count_eq_zero.mpr fun hmem => ?_
  obtain ⟨step, hstep, hevent⟩ := List.mem_flatMap.mp hmem
  exact h step hstep (env?_of_mem_events hevent)

/-- Of the steps of covered mutants, the last. -/
def lastCovered (steps : List (Mutation × Course Env)) : Option (Mutation × Course Env) :=
  (steps.filter (·.1.isCovered)).getLast?

theorem lastCovered_cons (step : Mutation × Course Env) (steps : List (Mutation × Course Env)) :
    lastCovered (step :: steps) =
      (lastCovered steps).or (if step.1.isCovered then some step else none) := by
  unfold lastCovered
  cases hcovered : step.1.isCovered with
  | false => rw [List.filter_cons_of_neg (by simp [hcovered])]; simp
  | true =>
    rw [List.filter_cons_of_pos (by exact hcovered), List.getLast?_cons]
    cases (steps.filter (·.1.isCovered)).getLast? <;> rfl

end Course

end StackMutants
