import StackMutants.Proofs.Isolation

/-!
# Proofs.Verdicts — how a check comes to its verdict

An environment may answer as it likes, and its answers may depend on everything that it was asked before.  A
check asks it to load the mutant and then to run the tests in order, up to the first one that does not pass:
`Sandbox.Judges` says which calls these are and what the verdict is, in terms of the answers alone.

* `Sandbox.runTests_of_passes` follows the tests that pass, and `Sandbox.Judges.calls_ending_eq` what comes
  behind them.
* Each row of answers is judged (`Sandbox.exists_judges`), so a check is as `Judges` says
  (`Sandbox.check_stops_at_first_decisive`).
* `Judges` speaks of the calls that are made and of no others (`Sandbox.Judges.congr`), so what an environment
  would have answered to others makes no difference.
-/

namespace StackMutants

/-- The verdict on a mutant against which `n` tests have been run, the last of which was decisive. -/
inductive TestResult.Decides (t : CoveringTest) (n : Nat) : TestResult → Verdict → Prop where
  | killed {failure : String} :
      Decides t n (.failed failure) { status := .killed, testsRun := n, note := some t.name }
  | outOfMemory : Decides t n .outOfMemory { status := .memoryError, testsRun := n }
  | crashed {reason : String} :
      Decides t n (.crashed reason) { status := .runError, testsRun := n, note := some reason }

namespace TestResult

variable {t : CoveringTest} {n : Nat} {result : TestResult} {verdict : Verdict}

theorem Decides.verdict?_eq (h : result.Decides t n verdict) : result.verdict? t n = some verdict := by
  cases h <;> rfl

theorem Decides.status_ne (h : result.Decides t n verdict) : verdict.status ≠ .survived := by
  cases h <;> simp

/-- Every test result but one is decisive. -/
theorem exists_decides (t : CoveringTest) (n : Nat) (h : result ≠ .passed) :
    ∃ verdict, result.Decides t n verdict := by
  cases result with
  | passed => exact absurd rfl h
  | failed failure => exact ⟨_, .killed⟩
  | outOfMemory => exact ⟨_, .outOfMemory⟩
  | crashed reason => exact ⟨_, .crashed⟩

end TestResult

namespace Sandbox

variable (box : Sandbox)

/-! ## Answers -/

/-- What an environment that has loaded the mutant answers to a test, if the tests before it have been run. -/
def answer? (env : box.Env) (id : MutationId) (before : List CoveringTest) (t : CoveringTest) :
    Option TestResult :=
  (box.runTest (box.serving env id before) t).1.answer?

/-- The mutant can be loaded. -/
def Loads (env : box.Env) (id : MutationId) : Prop := (box.load env id).1.answer? = some (.ok ())

/-- Run one after the other, the tests pass. -/
def Passes (env : box.Env) (id : MutationId) (ts : List CoveringTest) : Prop :=
  ∀ before t, before ++ [t] <+: ts → box.answer? env id before t = some .passed

/-- **Which calls a check has to make, and its verdict**, unless the worker dies. -/
inductive Judges (env : box.Env) (m : Mutation) : List Call → Except String Verdict → Prop where
  | refused {fault : Fault} : (box.load env m.id).1.answer? = some (.error fault) →
      Judges env m [.load m.id] (.ok { status := .nonViable, testsRun := 0, note := some fault.message })
  | decided {before after : List CoveringTest} {t : CoveringTest} {result : TestResult} {verdict : Verdict} :
      box.Loads env m.id → m.tests = before ++ t :: after → box.Passes env m.id before →
      box.answer? env m.id before t = some result → result.Decides t (before.length + 1) verdict →
      Judges env m (.load m.id :: (before ++ [t]).map .test) (.ok verdict)
  | survived : box.Loads env m.id → box.Passes env m.id m.tests →
      Judges env m (.load m.id :: m.tests.map .test)
        (.ok { status := .survived, testsRun := m.tests.length })
  | diedLoading : (box.load env m.id).1.answer? = none → Judges env m [.load m.id] (.error workerDied)
  | diedTesting {before after : List CoveringTest} {t : CoveringTest} :
      box.Loads env m.id → m.tests = before ++ t :: after → box.Passes env m.id before →
      box.answer? env m.id before t = none →
      Judges env m (.load m.id :: (before ++ [t]).map .test) (.error workerDied)

variable {box} {env : box.Env} {id : MutationId} {m : Mutation} {t : CoveringTest} {ts : List CoveringTest}

theorem passes_nil (env : box.Env) (id : MutationId) : box.Passes env id [] := by
  intro before t h
  simp at h

theorem passes_concat_iff :
    box.Passes env id (ts ++ [t]) ↔ box.Passes env id ts ∧ box.answer? env id ts t = some .passed := by
  constructor
  · intro h
    refine ⟨fun before t' hbefore => h before t' ?_, h ts t List.prefix_rfl⟩
    exact hbefore.trans (List.prefix_append ts [t])
  · rintro ⟨hts, ht⟩ before t' hbefore
    rcases List.prefix_concat_iff.mp hbefore with heq | hbefore
    · obtain ⟨rfl, hlast⟩ := List.append_inj' heq rfl
      obtain rfl : t' = t := by simpa using hlast
      exact ht
    · exact hts before t' hbefore

/-- Tests all pass, or there is a first one that does not. -/
theorem passes_or_exists (env : box.Env) (id : MutationId) (ts : List CoveringTest) :
    box.Passes env id ts ∨ ∃ before t after, ts = before ++ t :: after ∧ box.Passes env id before ∧
      box.answer? env id before t ≠ some .passed := by
  induction ts using List.reverseRecOn with
  | nil => exact Or.inl (passes_nil env id)
  | append_singleton ts t ih =>
    rcases ih with hpasses | ⟨before, t', after, rfl, hbefore, ht'⟩
    · by_cases ht : box.answer? env id ts t = some .passed
      · exact Or.inl (passes_concat_iff.mpr ⟨hpasses, ht⟩)
      · exact Or.inr ⟨ts, t, [], rfl, hpasses, ht⟩
    · exact Or.inr ⟨before, t', after ++ [t], by simp, hbefore, ht'⟩

/-- Every row of answers is judged. -/
theorem exists_judges (env : box.Env) (m : Mutation) : ∃ calls verdict, box.Judges env m calls verdict := by
  cases hload : (box.load env m.id).1.answer? with
  | none => exact ⟨_, _, .diedLoading hload⟩
  | some loaded =>
    cases loaded with
    | error fault => exact ⟨_, _, .refused hload⟩
    | ok _ =>
      rcases passes_or_exists env m.id m.tests with hpasses | ⟨before, t, after, hsplit, hbefore, ht⟩
      · exact ⟨_, _, .survived hload hpasses⟩
      · cases hanswer : box.answer? env m.id before t with
        | none => exact ⟨_, _, .diedTesting hload hsplit hbefore hanswer⟩
        | some result =>
          have hne : result ≠ .passed := by
            rintro rfl
            exact ht hanswer
          obtain ⟨verdict, hdecides⟩ := TestResult.exists_decides t (before.length + 1) hne
          exact ⟨_, _, .decided hload hsplit hbefore hanswer hdecides⟩

/-! ## Steps of a check -/

section Steps

variable {n : Nat} {result : TestResult} {verdict : Verdict}

/-- After a test that passes the check goes on. -/
theorem runTests_passed (n : Nat) (ts : List CoveringTest) (h : (box.runTest env t).1.answer? = some .passed) :
    (box.runTests env n (t :: ts)).calls = .test t :: (box.runTests (box.runTest env t).2 (n + 1) ts).calls ∧
      (box.runTests env n (t :: ts)).ending = (box.runTests (box.runTest env t).2 (n + 1) ts).ending := by
  rw [runTests_cons, h]
  exact ⟨rfl, rfl⟩

/-- With a decisive test the check ends. -/
theorem runTests_decided (ts : List CoveringTest) (h : (box.runTest env t).1.answer? = some result)
    (hdecides : result.Decides t (n + 1) verdict) :
    (box.runTests env n (t :: ts)).calls = [.test t] ∧
      (box.runTests env n (t :: ts)).ending.map (·.1) = .ok verdict := by
  rw [runTests_cons, h]
  dsimp only
  rw [hdecides.verdict?_eq]
  exact ⟨rfl, rfl⟩

theorem runTests_died (n : Nat) (ts : List CoveringTest) (h : (box.runTest env t).1.answer? = none) :
    (box.runTests env n (t :: ts)).calls = [.test t] ∧
      (box.runTests env n (t :: ts)).ending = .error workerDied := by
  rw [runTests_cons, h]
  exact ⟨rfl, rfl⟩

/-- **Tests that pass are run one after the other**, and then it is the turn of the others. -/
theorem runTests_of_passes {before : List CoveringTest} (h : box.Passes env id before)
    (rest : List CoveringTest) :
    (box.runTests (box.serving env id []) 0 (before ++ rest)).calls =
        before.map .test ++ (box.runTests (box.serving env id before) before.length rest).calls ∧
      (box.runTests (box.serving env id []) 0 (before ++ rest)).ending =
        (box.runTests (box.serving env id before) before.length rest).ending := by
  induction before using List.reverseRecOn generalizing rest with
  | nil => exact ⟨rfl, rfl⟩
  | append_singleton before t ih =>
    obtain ⟨hbefore, ht⟩ := passes_concat_iff.mp h
    obtain ⟨hcalls, hending⟩ := ih hbefore (t :: rest)
    obtain ⟨hcalls', hending'⟩ := runTests_passed before.length rest ht
    have hsplit : before ++ [t] ++ rest = before ++ t :: rest := by simp
    rw [hsplit, hcalls, hending, hcalls', hending', serving_concat, List.length_append,
      List.length_singleton]
    simp

theorem check_of_loads (h : box.Loads env m.id) :
    (box.check env m).calls = .load m.id :: (box.runTests (box.serving env m.id []) 0 m.tests).calls ∧
      (box.check env m).ending = (box.runTests (box.serving env m.id []) 0 m.tests).ending := by
  unfold Loads at h
  rw [check_eq, h]
  exact ⟨rfl, rfl⟩

theorem check_of_refused {fault : Fault} (h : (box.load env m.id).1.answer? = some (.error fault)) :
    (box.check env m).calls = [.load m.id] ∧ (box.check env m).ending.map (·.1) =
      .ok { status := .nonViable, testsRun := 0, note := some fault.message } := by
  rw [check_eq, h]
  exact ⟨rfl, rfl⟩

theorem check_of_died (h : (box.load env m.id).1.answer? = none) :
    (box.check env m).calls = [.load m.id] ∧ (box.check env m).ending = .error workerDied := by
  rw [check_eq, h]
  exact ⟨rfl, rfl⟩

end Steps

/-! ## Checks -/

/-- **A check is as its answers are judged.** -/
theorem Judges.calls_ending_eq {calls : List Call} {verdict : Except String Verdict}
    (h : box.Judges env m calls verdict) :
    (box.check env m).calls = calls ∧ (box.check env m).ending.map (·.1) = verdict := by
  cases h with
  | refused hload => exact check_of_refused hload
  | @decided before after t result verdict hload hsplit hbefore hanswer hdecides =>
    obtain ⟨hcalls, hending⟩ := check_of_loads hload
    obtain ⟨hpassed, hpassed'⟩ := runTests_of_passes hbefore (t :: after)
    obtain ⟨hstop, hverdict⟩ := runTests_decided after hanswer hdecides
    rw [hcalls, hending, hsplit, hpassed, hpassed', hstop, hverdict, List.map_append]
    exact ⟨rfl, rfl⟩
  | survived hload hpasses =>
    obtain ⟨hcalls, hending⟩ := check_of_loads hload
    obtain ⟨hpassed, hpassed'⟩ := runTests_of_passes hpasses []
    rw [List.append_nil] at hpassed hpassed'
    rw [hcalls, hending, hpassed, hpassed']
    exact ⟨congrArg _ (List.append_nil _), rfl⟩
  | diedLoading hload =>
    obtain ⟨hcalls, hnone⟩ := check_of_died hload
    rw [hcalls, hnone]
    exact ⟨rfl, rfl⟩
  | @diedTesting before after t hload hsplit hbefore hanswer =>
    obtain ⟨hcalls, hending⟩ := check_of_loads hload
    obtain ⟨hpassed, hpassed'⟩ := runTests_of_passes hbefore (t :: after)
    obtain ⟨hstop, hnone⟩ := runTests_died before.length after hanswer
    rw [hcalls, hending, hsplit, hpassed, hpassed', hstop, hnone, List.map_append]
    exact ⟨rfl, rfl⟩

/-- Two environments answer the calls `asked` on a mutant alike; what they answer to others may differ. -/
structure SameAnswers (box : Sandbox) (env : box.Env) (box' : Sandbox) (env' : box'.Env) (id : MutationId)
    (asked : List Call) : Prop where
  load : (box'.load env' id).1.answer? = (box.load env id).1.answer?
  test : ∀ before t, .load id :: (before ++ [t]).map .test <+: asked →
    box'.answer? env' id before t = box.answer? env id before t

section SameAnswers

variable {box' : Sandbox} {env' : box'.Env} {asked : List Call}

theorem SameAnswers.loads (h : SameAnswers box env box' env' m.id asked) (hload : box.Loads env m.id) :
    box'.Loads env' m.id := by
  unfold Loads at hload ⊢
  rw [h.load, hload]

/-- The calls for the first tests come first. -/
theorem load_map_test_mono {ts' : List CoveringTest} (id : MutationId) (h : ts <+: ts') :
    Call.load id :: ts.map .test <+: .load id :: ts'.map .test :=
  (List.prefix_cons_inj _).mpr (h.map Call.test)

/-- Tests that were asked for and pass here pass there. -/
theorem SameAnswers.passes (h : SameAnswers box env box' env' id asked)
    (hasked : .load id :: ts.map .test <+: asked) (hts : box.Passes env id ts) :
    box'.Passes env' id ts := by
  intro before t hbefore
  rw [h.test before t ((load_map_test_mono id hbefore).trans hasked)]
  exact hts before t hbefore

/-- Only the calls that are made matter for how answers are judged. -/
theorem Judges.congr {calls : List Call} {verdict : Except String Verdict} (h : box.Judges env m calls verdict)
    (hsame : SameAnswers box env box' env' m.id calls) : box'.Judges env' m calls verdict := by
  cases h with
  | refused hload => exact .refused (hsame.load.trans hload)
  | @decided before after t result verdict hload hsplit hbefore hanswer hdecides =>
    have hasked := load_map_test_mono m.id (List.prefix_append before [t])
    have hanswer' := (hsame.test before t List.prefix_rfl).trans hanswer
    exact .decided (hsame.loads hload) hsplit (hsame.passes hasked hbefore) hanswer' hdecides
  | survived hload hpasses =>
    exact .survived (hsame.loads hload) (hsame.passes List.prefix_rfl hpasses)
  | diedLoading hload => exact .diedLoading (hsame.load.trans hload)
  | @diedTesting before after t hload hsplit hbefore hanswer =>
    have hasked := load_map_test_mono m.id (List.prefix_append before [t])
    have hanswer' := (hsame.test before t List.prefix_rfl).trans hanswer
    exact .diedTesting (hsame.loads hload) hsplit (hsame.passes hasked hbefore) hanswer'

end SameAnswers

/-- A mutant survives if it is loaded and all its tests pass, and not otherwise. -/
theorem Judges.survived_iff {calls : List Call} {verdict : Except String Verdict}
    (h : box.Judges env m calls verdict) :
    verdict.map (·.status) = .ok .survived ↔ box.Loads env m.id ∧ box.Passes env m.id m.tests := by
  constructor
  · intro hstatus
    cases h with
    | survived hload hpasses => exact ⟨hload, hpasses⟩
    | decided _ _ _ _ hdecides =>
      exact absurd (Except.ok.inj hstatus) hdecides.status_ne
    | refused _ => cases hstatus
    | diedLoading _ | diedTesting _ _ _ _ => cases hstatus
  · rintro ⟨hload, hpasses⟩
    have hverdict := (Judges.survived hload hpasses).calls_ending_eq.2
    rw [h.calls_ending_eq.2] at hverdict
    rw [hverdict]
    rfl

/-- **A check stops at the first decisive test.**  It loads the mutant and runs tests in order, up to the first
one that does not pass; what the environment would answer after that has no influence.  It counts no more tests
than there are. -/
theorem check_stops_at_first_decisive (box : Sandbox) (env : box.Env) (m : Mutation) :
    box.Judges env m (box.check env m).calls ((box.check env m).ending.map (·.1)) ∧
    ((box.check env m).ending.map (·.1.status) = .ok .survived ↔
      box.Loads env m.id ∧ box.Passes env m.id m.tests) ∧
    (∀ verdict env', (box.check env m).ending = .ok (verdict, env') → verdict.testsRun ≤ m.tests.length) ∧
    ∀ (box' : Sandbox) (env' : box'.Env), SameAnswers box env box' env' m.id (box.check env m).calls →
      (box'.check env' m).calls = (box.check env m).calls ∧
        (box'.check env' m).ending.map (·.1) = (box.check env m).ending.map (·.1) := by
  obtain ⟨calls, verdict, hjudges⟩ := exists_judges env m
  obtain ⟨rfl, rfl⟩ := hjudges.calls_ending_eq
  have hsurvived := hjudges.survived_iff
  refine ⟨hjudges, ?_, fun verdict env' hending => (box.reports_check env m verdict env' hending).testsRun_le,
    fun box' env' hsame => (hjudges.congr hsame).calls_ending_eq⟩
  cases hending : (box.check env m).ending with
  | error reason =>
    rw [hending] at hsurvived
    exact hsurvived
  | ok ending =>
    rw [hending] at hsurvived
    exact hsurvived

/-- Environments that load every mutant and answer to tests from a script, whatever the tests are. -/
def readingScript : Sandbox where
  Env := List TestResult
  launch _ _ := .ok []
  load script _ := (.prompt (.ok ()), script)
  runTest script _ :=
    match script with
    | [] => (.fatal, [])
    | result :: rest => (.prompt result, rest)
  hasKillSwitch _ := false

/-- A point with three tests. -/
def thriceTested : Mutation :=
  { coveredPoint with
    tests := [⟨"adds", ⟨"CalcTest"⟩, 5⟩, ⟨"subtracts", ⟨"CalcTest"⟩, 5⟩, ⟨"negates", ⟨"SignTest"⟩, 7⟩] }

/-- The scripts differ behind the second test, which fails. -/
theorem check_readingScript :
    let passing : readingScript.Env := [.passed, .failed "expected 3", .passed]
    let crashing : readingScript.Env := [.passed, .failed "expected 3", .crashed "exit code 134"]
    SameAnswers readingScript passing readingScript crashing thriceTested.id
      (readingScript.check passing thriceTested).calls ∧
    (readingScript.check crashing thriceTested).calls = (readingScript.check passing thriceTested).calls ∧
    (readingScript.check crashing thriceTested).ending.map (·.1) =
      (readingScript.check passing thriceTested).ending.map (·.1) := by
  intro passing crashing
  have hsame : SameAnswers readingScript passing readingScript crashing thriceTested.id
      (readingScript.check passing thriceTested).calls := by
    refine ⟨rfl, fun before t hasked => ?_⟩
    have hcalls : (readingScript.check passing thriceTested).calls.length = 3 := rfl
    have hlength := hasked.length_le
    rw [hcalls, List.length_cons, List.length_map, List.length_append, List.length_singleton] at hlength
    match before with
    | [] | [_] => rfl
    | _ :: _ :: _ =>
      rw [List.length_cons, List.length_cons] at hlength
      omega
  exact ⟨hsame, (check_stops_at_first_decisive readingScript passing thriceTested).2.2.2 _ _ hsame⟩

example : (readingScript.check [.passed, .failed "expected 3", .passed] thriceTested).ending.map (·.1) =
    .ok { status := .killed, testsRun := 2, note := some "subtracts" } := rfl

end Sandbox

end StackMutants
