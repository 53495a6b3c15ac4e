import StackMutants.Run.Execution
import StackMutants.Proofs.Grouping

/-!
# Proofs.Conservation — execution neither loses nor changes mutations

A check that the unit sees the end of comes to a status that an attempt leads to
(`Sandbox.reports_check`), and so does a check that overruns or whose worker is lost.  So every mutant of a
fresh unit gets one outcome, whatever the environments do (`FreshUnit.map_mutation_outcomes`), and only
the mutants without covering tests are called uncovered (`FreshUnit.settled_of_mem_outcomes`).  No outcome
counts more tests than its mutant has (`FreshUnit.testsRun_le_of_mem_outcomes`).

Executing a unit is executing its parts in order (`Execution.exists_executes`), each of which announces its
start, then its end with its outcomes (`UnitPart.Reports`).
-/

namespace StackMutants

/-! ## What becomes of a mutant -/

/-- Whether the status comes of an attempt to run the mutant. -/
def Status.Attempted (s : Status) : Prop := s ≠ .notStarted ∧ s ≠ .noCoverage

/-- Whether the outcome is that of a mutant that has had its turn: it is called uncovered exactly if no test
covers it. -/
def Outcome.Settled (o : Outcome) : Prop :=
  o.status ≠ .notStarted ∧ (o.status = .noCoverage ↔ o.mutation.tests = [])

/-- Whether the status is one that the unit can be told, and not one that it finds out by waiting. -/
def Status.Reported (s : Status) : Prop := s.Attempted ∧ s ≠ .timedOut

/-- Whether the unit can be told the verdict by a worker that has `n` tests to run. -/
structure Verdict.ReportedWithin (v : Verdict) (n : Nat) : Prop where
  reported : v.status.Reported
  testsRun_le : v.testsRun ≤ n

/-- Whether the verdict of the check, if there is one, is that of a worker that has `n` tests to run. -/
def Check.ReportsWithin {Env : Type} (c : Check Env) (n : Nat) : Prop :=
  ∀ verdict env, c.ending = .ok (verdict, env) → verdict.ReportedWithin n

theorem TestResult.reportedWithin_of_verdict? {result : TestResult} {t : CoveringTest} {n testsRun : Nat}
    {verdict : Verdict} (h : result.verdict? t testsRun = some verdict) (hle : testsRun ≤ n) :
    verdict.ReportedWithin n := by
  unfold verdict? at h
  split at h
  · cases h
  all_goals
    cases h
    exact ⟨⟨⟨nofun, nofun⟩, nofun⟩, hle⟩

section Runs

variable (box : Sandbox)

theorem Sandbox.reports_runTests (env : box.Env) (testsRun : Nat) (ts : List CoveringTest) :
    (box.runTests env testsRun ts).ReportsWithin (testsRun + ts.length) := by
  induction ts generalizing env testsRun with
  | nil =>
    rintro verdict _ ⟨⟩
    exact ⟨⟨⟨nofun, nofun⟩, nofun⟩, Nat.le_refl _⟩
  | cons t ts ih =>
    intro verdict env' h
    rw [runTests_cons] at h
    rw [List.length_cons, Nat.add_comm ts.length, ← Nat.add_assoc]
    split at h
    · cases h
    · split at h
      · rename_i hverdict
        cases h
        exact TestResult.reportedWithin_of_verdict? hverdict (Nat.le_add_right _ _)
      · exact ih _ (testsRun + 1) verdict env' h

theorem Sandbox.reports_check (env : box.Env) (m : Mutation) :
    (box.check env m).ReportsWithin m.tests.length := by
  intro verdict env' h
  rw [check_eq] at h
  split at h
  · cases h
  · cases h
    exact ⟨⟨⟨nofun, nofun⟩, nofun⟩, Nat.zero_le _⟩
  · rw [← Nat.zero_add m.tests.length]
    exact box.reports_runTests _ 0 m.tests verdict env' h

theorem Sandbox.reports_attend (env : box.Env) (m : Mutation) :
    (box.attend env m).ReportsWithin m.tests.length :=
  attend_cases (P := fun c => c.ReportsWithin m.tests.length) (box.reports_check env m) nofun

theorem Course.verdict_checked {Env : Type} {env n : Nat} {launchedFor : Option (List ClassName)}
    {killable : Bool} {c : Check Env} (h : c.ReportsWithin n) :
    (checked env launchedFor killable c).verdict.status.Attempted ∧
      (checked env launchedFor killable c).verdict.testsRun ≤ n := by
  unfold verdict
  dsimp only
  split
  · exact ⟨⟨nofun, nofun⟩, Nat.zero_le _⟩
  · split
    · rename_i hending
      obtain ⟨⟨hattempted, -⟩, hle⟩ := h _ _ hending
      exact ⟨hattempted, hle⟩
    · exact ⟨⟨nofun, nofun⟩, Nat.zero_le _⟩

variable (testClasses : List ClassName) (launches : Launches) (held : Option (Nat × box.Env))

theorem Mutation.isCovered_eq_false_iff {m : Mutation} : m.isCovered = false ↔ m.tests = [] := by
  simp [isCovered]

theorem Sandbox.course_of_uncovered {m : Mutation} (h : m.isCovered = false) :
    box.course testClasses launches held m = (.uncovered, launches) := by
  unfold course
  rw [h]
  rfl

theorem Sandbox.verdict_course {m : Mutation} (h : m.isCovered = true) :
    (box.course testClasses launches held m).1.verdict.status.Attempted ∧
      (box.course testClasses launches held m).1.verdict.testsRun ≤ m.tests.length := by
  unfold course
  rw [h]
  dsimp only [Bool.not_true, Bool.false_eq_true, if_false]
  cases held with
  | some held => exact Course.verdict_checked (box.reports_attend held.2 m)
  | none =>
    dsimp only
    cases box.launch launches.attempted testClasses with
    | error fault => exact ⟨⟨nofun, nofun⟩, Nat.zero_le _⟩
    | ok env => exact Course.verdict_checked (box.reports_attend env m)

/-- **Whatever the environments do**, a mutant that has had its turn is settled. -/
theorem Sandbox.settled_course (m : Mutation) :
    Outcome.Settled ⟨m, (box.course testClasses launches held m).1.verdict⟩ := by
  cases h : m.isCovered with
  | false =>
    rw [box.course_of_uncovered testClasses launches held h]
    exact ⟨nofun, fun _ => Mutation.isCovered_eq_false_iff.mp h, fun _ => rfl⟩
  | true =>
    obtain ⟨⟨hstarted, hcovered⟩, -⟩ := box.verdict_course testClasses launches held h
    refine ⟨hstarted, fun hs => absurd hs hcovered, fun htests => ?_⟩
    rw [Mutation.isCovered_eq_false_iff.mpr htests] at h
    cases h

theorem Sandbox.testsRun_course_le (m : Mutation) :
    (box.course testClasses launches held m).1.verdict.testsRun ≤ m.tests.length := by
  cases h : m.isCovered with
  | false =>
    rw [box.course_of_uncovered testClasses launches held h]
    exact Nat.zero_le _
  | true => exact (box.verdict_course testClasses launches held h).2

/-- Every mutant gets a course, in order. -/
theorem Sandbox.map_fst_courses (ms : List Mutation) :
    (box.courses testClasses launches held ms).1.map (·.1) = ms := by
  induction ms generalizing launches held with
  | nil => rfl
  | cons m ms ih =>
    unfold courses
    exact congrArg (m :: ·) (ih _ _)

variable {box testClasses launches held}

theorem Sandbox.exists_course_of_mem_courses {ms : List Mutation} {step : Mutation × Course box.Env}
    (h : step ∈ (box.courses testClasses launches held ms).1) :
    ∃ launches' held', step.2 = (box.course testClasses launches' held' step.1).1 := by
  induction ms generalizing launches held with
  | nil => cases h
  | cons m ms ih =>
    unfold courses at h
    rcases List.mem_cons.mp h with rfl | h
    · exact ⟨launches, held, rfl⟩
    · exact ih h

variable (u : FreshUnit) (before : Launches)

/-- The outcomes of a fresh unit are those of its mutations, unchanged and in order. -/
theorem FreshUnit.map_mutation_outcomes :
    (u.run box before).outcomes.map (·.mutation) = u.mutations := by
  unfold FreshRun.outcomes
  rw [List.map_map]
  exact box.map_fst_courses u.testClasses before none u.mutations

variable {u before}

theorem FreshUnit.exists_course_of_mem_outcomes {o : Outcome} (h : o ∈ (u.run box before).outcomes) :
    ∃ launches held, o = ⟨o.mutation, (box.course u.testClasses launches held o.mutation).1.verdict⟩ := by
  obtain ⟨⟨m, course⟩, hstep, rfl⟩ := List.mem_map.mp h
  obtain ⟨launches, held, hcourse⟩ := Sandbox.exists_course_of_mem_courses hstep
  exact ⟨launches, held, congrArg (fun course => (⟨m, course.verdict⟩ : Outcome)) hcourse⟩

theorem FreshUnit.settled_of_mem_outcomes {o : Outcome} (h : o ∈ (u.run box before).outcomes) :
    o.Settled := by
  obtain ⟨launches, held, ho⟩ := exists_course_of_mem_outcomes h
  rw [ho]
  exact box.settled_course u.testClasses launches held o.mutation

theorem FreshUnit.testsRun_le_of_mem_outcomes {o : Outcome} (h : o ∈ (u.run box before).outcomes) :
    o.verdict.testsRun ≤ o.mutation.tests.length := by
  obtain ⟨launches, held, ho⟩ := exists_course_of_mem_outcomes h
  rw [ho]
  exact box.testsRun_course_le u.testClasses launches held o.mutation

end Runs

/-! ## Parts of a unit -/

/-- A unit that is not a bundle. -/
inductive UnitPart where
  | known (unit : KnownUnit)
  | fresh (unit : FreshUnit)

namespace UnitPart

def unit : UnitPart → WorkUnit
  | known u => .known u
  | fresh u => .fresh u

def label : UnitPart → UnitLabel
  | known u => u.label
  | fresh u => u.label

/-- What the notices of a part say, if its end comes with `report`. -/
def notices (part : UnitPart) (report : UnitReport) : List Notice :=
  [.started part.label, .finished part.label report]

/-- A known part reports what it knows and touches no environment; a fresh part reports each of its
mutations, unchanged and settled. -/
def Settles (part : UnitPart) (report : UnitReport) (e e' : Execution) : Prop :=
  match part with
  | known u => report = ⟨u.mutators, u.outcomes⟩ ∧ e'.events = e.events ∧ e'.launches = e.launches
  | fresh u => report.mutators = u.mutators ∧ report.outcomes.map (·.mutation) = u.mutations ∧
      ∀ o ∈ report.outcomes, o.Settled

/-- The execution `e'` is `e` and then the part, announced with its report. -/
structure Reports (part : UnitPart) (report : UnitReport) (e e' : Execution) : Prop where
  notices : e'.notices = e.notices ++ part.notices report
  settles : part.Settles report e e'

variable {report : UnitReport} {e e' : Execution}

theorem exists_reports (part : UnitPart) (box : Sandbox) (e : Execution) :
    ∃ report, part.Reports report e (e.addUnit box part.unit) := by
  cases part with
  | known u =>
    refine ⟨⟨u.mutators, u.outcomes⟩, rfl, rfl, ?_, rfl⟩
    exact List.append_nil _
  | fresh u =>
    exact ⟨⟨u.mutators, (u.run box e.launches).outcomes⟩, rfl, rfl,
      u.map_mutation_outcomes e.launches, fun _ => FreshUnit.settled_of_mem_outcomes⟩

theorem Reports.outcomes_eq {part : UnitPart} (h : part.Reports report e e') :
    e'.outcomes = e.outcomes ++ report.outcomes := by
  unfold Execution.outcomes Execution.finished
  rw [h.notices, List.filterMap_append, List.flatMap_append]
  simp [UnitPart.notices]

theorem Settles.ids_eq {part : UnitPart} (h : part.Settles report e e') :
    report.outcomes.map (·.mutation.id) = part.unit.ids := by
  cases part with
  | known u =>
    obtain ⟨rfl, -⟩ := h
    rfl
  | fresh u =>
    obtain ⟨-, hmutations, -⟩ := h
    show _ = u.mutations.map (·.id)
    rw [← hmutations, List.map_map]
    rfl

end UnitPart

namespace WorkUnit

mutual

/-- The parts of a unit, in order. -/
def parts : WorkUnit → List UnitPart
  | known u => [.known u]
  | fresh u => [.fresh u]
  | bundle us => partsOfAll us

def partsOfAll : List WorkUnit → List UnitPart
  | [] => []
  | u :: us => u.parts ++ partsOfAll us

end

mutual

theorem flatMap_ids_parts : ∀ u : WorkUnit, (u.parts.flatMap fun part => part.unit.ids) = u.ids
  | known _ => List.append_nil _
  | fresh _ => List.append_nil _
  | bundle us => flatMap_ids_partsOfAll us

theorem flatMap_ids_partsOfAll :
    ∀ us : List WorkUnit, ((partsOfAll us).flatMap fun part => part.unit.ids) = idsOfAll us
  | [] => rfl
  | u :: us => by
    unfold partsOfAll idsOfAll
    rw [List.flatMap_append, flatMap_ids_parts u, flatMap_ids_partsOfAll us]

end

end WorkUnit

/-! ## Executing units -/

/-- Executing parts one after the other takes `e` to the last execution, each part with its report. -/
inductive Executes (box : Sandbox) : Execution → List (UnitPart × UnitReport) → Execution → Prop where
  | nil (e : Execution) : Executes box e [] e
  | cons {e e' : Execution} {part : UnitPart} {report : UnitReport}
      {rest : List (UnitPart × UnitReport)} :
      part.Reports report e (e.addUnit box part.unit) → Executes box (e.addUnit box part.unit) rest e' →
      Executes box e ((part, report) :: rest) e'

namespace Executes

variable {box : Sandbox} {e e' e'' : Execution} {runs runs' : List (UnitPart × UnitReport)}

theorem append (h : Executes box e runs e') (h' : Executes box e' runs' e'') :
    Executes box e (runs ++ runs') e'' := by
  induction h with
  | nil => exact h'
  | cons hreports _ ih => exact .cons hreports (ih h')

theorem notices_eq (h : Executes box e runs e') :
    e'.notices = e.notices ++ runs.flatMap fun (part, report) => part.notices report := by
  induction h with
  | nil => exact (List.append_nil _).symm
  | cons hreports _ ih => rw [ih, hreports.notices, List.append_assoc, List.flatMap_cons]

theorem outcomes_eq (h : Executes box e runs e') :
    e'.outcomes = e.outcomes ++ runs.flatMap (·.2.outcomes) := by
  induction h with
  | nil => exact (List.append_nil _).symm
  | cons hreports _ ih => rw [ih, hreports.outcomes_eq, List.append_assoc, List.flatMap_cons]

theorem ids_eq (h : Executes box e runs e') :
    (runs.flatMap (·.2.outcomes)).map (·.mutation.id) = (runs.map (·.1)).flatMap fun part => part.unit.ids := by
  induction h with
  | nil => rfl
  | cons hreports _ ih =>
    rw [List.flatMap_cons, List.map_append, ih, hreports.settles.ids_eq]
    rfl

end Executes

namespace Execution

mutual

/-- Executing a unit is executing its parts in order. -/
theorem exists_executes (box : Sandbox) (e : Execution) :
    ∀ u : WorkUnit, ∃ runs, runs.map (·.1) = u.parts ∧ Executes box e runs (e.addUnit box u)
  | .known u => by
    obtain ⟨report, h⟩ := (UnitPart.known u).exists_reports box e
    exact ⟨[(.known u, report)], rfl, .cons h (.nil _)⟩
  | .fresh u => by
    obtain ⟨report, h⟩ := (UnitPart.fresh u).exists_reports box e
    exact ⟨[(.fresh u, report)], rfl, .cons h (.nil _)⟩
  | .bundle us => exists_executes_all box e us

theorem exists_executes_all (box : Sandbox) (e : Execution) :
    ∀ us : List WorkUnit,
      ∃ runs, runs.map (·.1) = WorkUnit.partsOfAll us ∧ Executes box e runs (e.addUnits box us)
  | [] => ⟨[], rfl, .nil e⟩
  | u :: us => by
    obtain ⟨runs, hparts, hruns⟩ := exists_executes box e u
    obtain ⟨runs', hparts', hruns'⟩ := exists_executes_all box (e.addUnit box u) us
    refine ⟨runs ++ runs', ?_, hruns.append hruns'⟩
    rw [List.map_append, hparts, hparts']
    rfl

end

/-- **Execution conserves mutations.**  Whatever the environments do, and however units are bundled, the
parts of a unit are executed in order.  Each announces its start and right behind it its end; a known part
reports its outcomes as they are and launches nothing; a fresh part reports each of its mutations with a
verdict that settles it.  So the outcomes are one for each mutation of the unit, in order. -/
theorem addUnit_conserves (box : Sandbox) (e : Execution) (u : WorkUnit) :
    ∃ runs : List (UnitPart × UnitReport),
      runs.map (·.1) = u.parts ∧
      Executes box e runs (e.addUnit box u) ∧
      (e.addUnit box u).notices =
        e.notices ++ runs.flatMap (fun (part, report) => part.notices report) ∧
      (e.addUnit box u).outcomes = e.outcomes ++ runs.flatMap (·.2.outcomes) ∧
      (runs.flatMap (·.2.outcomes)).map (·.mutation.id) = u.ids ∧
      (runs.flatMap (·.2.outcomes)).length = u.count := by
  obtain ⟨runs, hparts, hruns⟩ := exists_executes box e u
  have hids : (runs.flatMap (·.2.outcomes)).map (·.mutation.id) = u.ids := by
    rw [hruns.ids_eq, hparts, WorkUnit.flatMap_ids_parts]
  refine ⟨runs, hparts, hruns, hruns.notices_eq, hruns.outcomes_eq, hids, ?_⟩
  rw [← WorkUnit.length_ids, ← hids, List.length_map]

end Execution

end StackMutants
