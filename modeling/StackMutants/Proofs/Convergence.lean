import StackMutants.Proofs.Conservation
import StackMutants.Proofs.Provenance

/-!
# Proofs.Convergence — what was run once is not run again

Without knowledge every unit is fresh, and executing fresh units settles each mutation that was found, in
order (`Execution.addUnits_of_fresh`).  A verdict that settles a mutation does not lapse, so a recall of
settled outcomes has for each mutation the outcome that it was given (`Recall.outcome_ofOutcomes`).  A group
is answered as a whole then and its unit is known (`unitFor_map_of_settled`).  Hence a build with the results
of the build before has only known units, which give the results again, however the mutations are grouped
(`recall_converges`).
-/

namespace StackMutants

/-! ## Outcomes made for the mutations of a group -/

section Groups

variable {group : List Mutation} {f : Mutation → Outcome}

theorem answers_map (hf : ∀ m, (f m).mutation = m) (hnodup : (group.map (·.key)).Nodup) :
    Answers group (group.map f) := by
  refine ⟨?_, hnodup⟩
  have hkey : ∀ m, (f m).key = m.key := fun m => congrArg Mutation.key (hf m)
  simp [Function.comp_def, hkey]

/-- Outcomes that are made for the mutations are taken as they are. -/
theorem reviewAnswer_map (hf : ∀ m, (f m).mutation = m) (hnodup : (group.map (·.key)).Nodup) :
    (reviewAnswer group (.ok (group.map f))).1 = group.map f := by
  have hanswers := answers_map hf hnodup
  rw [reviewAnswer_of_answers hanswers]
  have hfound : ∀ m ∈ group, (group.map f).find? (·.key == m.key) = some (f m) := by
    intro m hm
    exact hanswers.find?_eq_some_iff.mpr ⟨List.mem_map_of_mem hm, congrArg Mutation.key (hf m)⟩
  unfold alignedWith
  rw [List.filterMap_congr hfound]
  exact congrFun List.filterMap_eq_map group

/-- Nothing answers a group in which a mutation occurs twice. -/
theorem reviewAnswer_of_not_nodup (hnodup : ¬(group.map (·.key)).Nodup)
    (answer : Except Fault (List Outcome)) : (reviewAnswer group answer).1 = group.map .notStarted :=
  reviewAnswer_of_not_answers fun _ _ hanswers => hnodup hanswers.nodup

/-- Knowing nothing is taken as it is, too, though it may be no answer. -/
theorem reviewAnswer_map_notStarted (group : List Mutation) :
    (reviewAnswer group (.ok (group.map .notStarted))).1 = group.map .notStarted := by
  by_cases hnodup : (group.map (·.key)).Nodup
  · exact reviewAnswer_map (fun _ => rfl) hnodup
  · exact reviewAnswer_of_not_nodup hnodup _

/-- If all mutations are settled, the unit is known and gives their outcomes in the order of the group. -/
theorem unitFor_map_of_settled (hf : ∀ m, (f m).mutation = m) (hnodup : (group.map (·.key)).Nodup)
    (hsettled : ∀ m ∈ group, (f m).Settled) (mutators : List String) (settings : Settings) :
    ∃ k, unitFor mutators settings group (.ok (group.map f)) = .known k ∧ k.outcomes = group.map f := by
  have hstarted : ∀ o ∈ group.map f, o.status ≠ .notStarted := by
    intro o ho
    obtain ⟨m, hm, rfl⟩ := List.mem_map.mp ho
    exact (hsettled m hm).1
  have hrun : notStartedIn (group.map f) = [] :=
    List.filter_eq_nil_iff.mpr fun o ho => by simpa using hstarted o ho
  have hknown : settledIn (group.map f) = group.map f :=
    List.filter_eq_self.mpr fun o ho => by simpa using hstarted o ho
  unfold unitFor
  rw [reviewAnswer_map hf hnodup]
  obtain ⟨k, hk⟩ := (unitOf_eq_known_iff mutators settings _).mpr hrun
  have houtcomes := knownOutcomes_unitOf mutators settings (group.map f)
  rw [hk, WorkUnit.knownOutcomes_known, hknown] at houtcomes
  exact ⟨k, hk, houtcomes⟩

end Groups

/-! ## Builds with an analyser that does not change -/

section Batch

variable {source : ClassName → Journaled Fault (List Mutation)} {ms : ClassName → List Mutation}
  {classes : List ClassName} {settings : Settings} {os : List Mutator}

/-- The groups of a batch. -/
def groupsOfBatch (size : Nat) (ms : ClassName → List Mutation) (classes : List ClassName) :
    List (List Mutation) :=
  classes.flatMap fun c => groupsOf size (ms c)

theorem flatten_groupsOfBatch (size : Nat) (ms : ClassName → List Mutation) (classes : List ClassName) :
    (groupsOfBatch size ms classes).flatten = classes.flatMap ms := by
  unfold groupsOfBatch
  rw [List.flatten_eq_flatMap, List.flatMap_assoc]
  simp only [← List.flatten_eq_flatMap, flatten_groupsOf]

theorem ne_nil_of_mem_groupsOfBatch {size : Nat} {group : List Mutation}
    (h : group ∈ groupsOfBatch size ms classes) : group ≠ [] := by
  obtain ⟨c, -, hgroup⟩ := List.mem_flatMap.mp h
  exact ne_nil_of_mem_groupsOf hgroup

theorem sublist_of_mem_groupsOfBatch {size : Nat} {group : List Mutation}
    (h : group ∈ groupsOfBatch size ms classes) : group.Sublist (classes.flatMap ms) := by
  rw [← flatten_groupsOfBatch size ms classes]
  exact List.sublist_flatten_of_mem h

/-- If answers depend on nothing but the group, so do units. -/
theorem buildUnits_steady (answer : List Mutation → Except Fault (List Outcome))
    (hsettings : settings.validate = .ok os) (hsource : ∀ c ∈ classes, (source c).outcome = .ok (ms c)) :
    (buildUnits settings source (.steady answer) classes).outcome =
      .ok ((groupsOfBatch settings.unitSize ms classes).map fun group =>
        unitFor (os.map (·.name)) settings group (answer group)) := by
  obtain ⟨segments, hsegments, hall⟩ := buildUnits_answered (.steady answer) settings hsettings hsource
  have hunits : List.Forall₂ (fun c units => (groupsOf settings.unitSize (ms c)).map
      (fun group => unitFor (os.map (·.name)) settings group (answer group)) = units) classes segments := by
    refine hall.imp fun c units h => ?_
    have hgroups : List.Forall₂ (fun group u =>
        unitFor (os.map (·.name)) settings group (answer group) = u)
        (groupsOf settings.unitSize (ms c)) units := by
      refine h.imp ?_
      rintro group _ ⟨_, rfl⟩
      rfl
    rwa [← List.forall₂_map_left_iff (f := fun group => unitFor _ settings group (answer group)),
      List.forall₂_eq_eq_eq] at hgroups
  rw [← List.forall₂_map_left_iff (f := fun c => (groupsOf settings.unitSize (ms c)).map _),
    List.forall₂_eq_eq_eq] at hunits
  rw [hsegments, ← hunits]
  unfold groupsOfBatch
  rw [List.map_flatMap]
  rfl

end Batch

/-! ## Executing what is fresh and what is known -/

namespace Execution

variable (box : Sandbox) (e : Execution) {us : List WorkUnit}

/-- Fresh units settle each of their mutations, in order. -/
theorem addUnits_of_fresh (h : ∀ u ∈ us, ∃ f, u = .fresh f) :
    ∃ outcomes, (e.addUnits box us).outcomes = e.outcomes ++ outcomes ∧
      outcomes.map (·.mutation) = us.flatMap WorkUnit.freshMutations ∧ ∀ o ∈ outcomes, o.Settled := by
  -- the launches so far bear on each unit, so the execution is arbitrary
  induction us generalizing e with
  | nil => exact ⟨[], (List.append_nil _).symm, rfl, nofun⟩
  | cons u us ih =>
    obtain ⟨f, rfl⟩ := h u List.mem_cons_self
    obtain ⟨report, hreports⟩ := (UnitPart.fresh f).exists_reports box e
    obtain ⟨-, hmutations, hsettled⟩ := hreports.settles
    obtain ⟨outcomes, houtcomes, hrest, hall⟩ :=
      ih (e.addUnit box (.fresh f)) fun u hu => h u (List.mem_cons_of_mem _ hu)
    refine ⟨report.outcomes ++ outcomes, ?_, ?_, ?_⟩
    · rw [← List.append_assoc, ← hreports.outcomes_eq]
      exact houtcomes
    · rw [List.map_append, hmutations, hrest, List.flatMap_cons, WorkUnit.freshMutations_fresh]
    · intro o ho
      rcases List.mem_append.mp ho with ho | ho
      · exact hsettled o ho
      · exact hall o ho

/-- Known units give their outcomes and touch no environment. -/
theorem addUnits_of_known (h : ∀ u ∈ us, ∃ k, u = .known k) :
    (e.addUnits box us).outcomes = e.outcomes ++ us.flatMap WorkUnit.knownOutcomes ∧
      (e.addUnits box us).events = e.events ∧ (e.addUnits box us).launches = e.launches := by
  induction us generalizing e with
  | nil => exact ⟨(List.append_nil _).symm, rfl, rfl⟩
  | cons u us ih =>
    obtain ⟨k, rfl⟩ := h u List.mem_cons_self
    obtain ⟨report, hreports⟩ := (UnitPart.known k).exists_reports box e
    obtain ⟨rfl, hevents, hlaunches⟩ := hreports.settles
    obtain ⟨houtcomes, hevents', hlaunches'⟩ :=
      ih (e.addUnit box (.known k)) fun u hu => h u (List.mem_cons_of_mem _ hu)
    refine ⟨?_, hevents'.trans hevents, hlaunches'.trans hlaunches⟩
    rw [List.flatMap_cons, WorkUnit.knownOutcomes_known, ← List.append_assoc]
    exact houtcomes.trans (congrArg (· ++ _) hreports.outcomes_eq)

end Execution

/-! ## Recalling settled outcomes -/

namespace Recall

variable {rs : List Outcome}

/-- If no mutation has two outcomes, each is found again. -/
theorem verdict?_ofOutcomes (hsettled : ∀ r ∈ rs, r.Settled) (hnodup : (rs.map (·.key)).Nodup)
    {r : Outcome} (hr : r ∈ rs) : (ofOutcomes rs).verdict? r.key = some r.verdict := by
  have hall : rs.filter (·.status ≠ .notStarted) = rs :=
    List.filter_eq_self.mpr fun o ho => by simpa using (hsettled o ho).1
  have hreverse : (rs.reverse.map (·.key)).Nodup := by
    rw [List.map_reverse]
    exact List.nodup_reverse.mpr hnodup
  have hfind : rs.reverse.find? (·.key == r.key) = some r :=
    (Sequence.find?_key_eq_some_iff hreverse).mpr ⟨List.mem_reverse.mpr hr, rfl⟩
  simp only [beq_eq_decide] at hfind
  unfold verdict? ofOutcomes
  rw [hall, hfind]
  rfl

/-- The outcome of a mutation that was settled is the one that settled it: a verdict of no coverage does not
lapse, because there were no covering tests and there are none. -/
theorem outcome_ofOutcomes (hsettled : ∀ r ∈ rs, r.Settled) (hnodup : (rs.map (·.key)).Nodup)
    {r : Outcome} (hr : r ∈ rs) : (ofOutcomes rs).outcome r.mutation = r := by
  have hcurrent : (r.status = .noCoverage && r.mutation.isCovered) = false := by
    by_cases hstatus : r.status = .noCoverage
    · have htests := (hsettled r hr).2.mp hstatus
      rw [Mutation.isCovered_eq_false_iff.mpr htests, Bool.and_false]
    · simp [hstatus]
  have hverdict : (ofOutcomes rs).verdict? r.mutation.key = some r.verdict :=
    verdict?_ofOutcomes hsettled hnodup hr
  have hlapse : (ofOutcomes rs).current? r.mutation = some r.verdict := by
    unfold current?
    rw [hverdict, Option.filter_some, if_pos]
    show (!(r.status = .noCoverage && r.mutation.isCovered)) = true
    rw [hcurrent]
    rfl
  unfold outcome
  rw [hlapse]
  rfl

end Recall

/-! ## The second build -/

section Converge

variable {source : ClassName → Journaled Fault (List Mutation)} {ms : ClassName → List Mutation}
  {classes : List ClassName} {settings : Settings} {os : List Mutator}

/-- Without knowledge every unit is fresh, and together the units have what was found, in order. -/
theorem buildUnits_unknowing (hsettings : settings.validate = .ok os)
    (hsource : ∀ c ∈ classes, (source c).outcome = .ok (ms c)) :
    ∃ units, (buildUnits settings source .unknowing classes).outcome = .ok units ∧
      (∀ u ∈ units, ∃ f, u = .fresh f) ∧
      units.flatMap WorkUnit.freshMutations = classes.flatMap ms := by
  refine ⟨_, buildUnits_steady _ hsettings hsource, ?_⟩
  set groups := groupsOfBatch settings.unitSize ms classes
  set unit := fun group : List Mutation =>
    unitFor (os.map (·.name)) settings group (.ok (group.map .notStarted))
  have hunit : ∀ group ∈ groups, ∃ f, unit group = .fresh f ∧ f.mutations = group :=
    fun group hgroup => unitFor_of_review_notStarted (ne_nil_of_mem_groupsOfBatch hgroup)
      (reviewAnswer_map_notStarted group) _ settings
  have hmutations : ∀ group ∈ groups, (unit group).freshMutations = id group := by
    intro group hgroup
    obtain ⟨f, hf, hgroup⟩ := hunit group hgroup
    rw [hf, WorkUnit.freshMutations_fresh, hgroup, id]
  constructor
  · intro u hu
    obtain ⟨group, hgroup, rfl⟩ := List.mem_map.mp hu
    obtain ⟨f, hf, -⟩ := hunit group hgroup
    exact ⟨f, hf⟩
  · calc (groups.map unit).flatMap WorkUnit.freshMutations
        = groups.flatMap id := by rw [List.flatMap_map, List.flatMap_congr hmutations]
      _ = classes.flatMap ms := by
          rw [← List.flatten_eq_flatMap]
          exact flatten_groupsOfBatch settings.unitSize ms classes

/-- The first run settles each mutation that was found, in order. -/
theorem execute_buildUnits_unknowing (hsettings : settings.validate = .ok os)
    (hsource : ∀ c ∈ classes, (source c).outcome = .ok (ms c)) (box : Sandbox) :
    ∃ units, (buildUnits settings source .unknowing classes).outcome = .ok units ∧
      (execute box units).outcomes.map (·.mutation) = classes.flatMap ms ∧
      ∀ r ∈ (execute box units).outcomes, r.Settled := by
  obtain ⟨units, hunits, hfresh, hmutations⟩ := buildUnits_unknowing hsettings hsource
  obtain ⟨outcomes, houtcomes, hmap, hsettled⟩ := ({} : Execution).addUnits_of_fresh box hfresh
  have hresults : (execute box units).outcomes = outcomes := houtcomes
  refine ⟨units, hunits, ?_⟩
  rw [hresults]
  exact ⟨hmap.trans hmutations, hsettled⟩

/-- With a recall of settled outcomes, one for each mutation that was found, there is nothing to run. -/
theorem buildUnits_recall {rs : List Outcome} (hsettings : settings.validate = .ok os)
    (hsource : ∀ c ∈ classes, (source c).outcome = .ok (ms c))
    (hnodup : ((classes.flatMap ms).map (·.key)).Nodup)
    (hrs : rs.map (·.mutation) = classes.flatMap ms) (hsettled : ∀ r ∈ rs, r.Settled) :
    ∃ units, (buildUnits settings source (Recall.ofOutcomes rs).analyser classes).outcome = .ok units ∧
      (∀ u ∈ units, ∃ k, u = .known k) ∧ units.flatMap WorkUnit.knownOutcomes = rs := by
  refine ⟨_, buildUnits_steady _ hsettings hsource, ?_⟩
  set groups := groupsOfBatch settings.unitSize ms classes
  set recalled := (Recall.ofOutcomes rs).outcome
  set unit := fun group : List Mutation =>
    unitFor (os.map (·.name)) settings group (.ok (group.map recalled))
  have hkeys : (rs.map (·.key)).Nodup := by
    rw [← hrs, List.map_map] at hnodup
    exact hnodup
  have hrecall : ∀ r ∈ rs, recalled r.mutation = r :=
    fun r hr => Recall.outcome_ofOutcomes hsettled hkeys hr
  have hunit : ∀ group ∈ groups, ∃ k, unit group = .known k ∧ k.outcomes = group.map recalled := by
    intro group hgroup
    have hsub := sublist_of_mem_groupsOfBatch hgroup
    refine unitFor_map_of_settled (fun _ => rfl) (hnodup.sublist (hsub.map _)) (fun m hm => ?_) _ settings
    have hm' : m ∈ rs.map (·.mutation) := hrs ▸ hsub.subset hm
    obtain ⟨r, hr, rfl⟩ := List.mem_map.mp hm'
    rw [hrecall r hr]
    exact hsettled r hr
  have houtcomes : ∀ group ∈ groups, (unit group).knownOutcomes = group.map recalled := by
    intro group hgroup
    obtain ⟨k, hk, houtcomes⟩ := hunit group hgroup
    rw [hk, WorkUnit.knownOutcomes_known, houtcomes]
  constructor
  · intro u hu
    obtain ⟨group, hgroup, rfl⟩ := List.mem_map.mp hu
    obtain ⟨k, hk, -⟩ := hunit group hgroup
    exact ⟨k, hk⟩
  · calc (groups.map unit).flatMap WorkUnit.knownOutcomes
        = groups.flatMap fun group => group.map recalled := by
          rw [List.flatMap_map, List.flatMap_congr houtcomes]
      _ = (classes.flatMap ms).map recalled := by
          rw [← flatten_groupsOfBatch settings.unitSize ms classes, List.map_flatten, List.flatMap_def]
      _ = rs := by
          rw [← hrs, List.map_map]
          exact (List.map_congr_left hrecall).trans (List.map_id rs)

/-- **What was run once is not run again.**  Let the units of a build without knowledge be executed, whatever
the environments do.  With a recall of the outcomes the units of a second build are all known, also with
other settings; together they give the same outcomes in the same order, and executing them launches nothing
and gives the outcomes again. -/
theorem recall_converges {settings' : Settings} {os' : List Mutator}
    (hsettings : settings.validate = .ok os) (hsettings' : settings'.validate = .ok os')
    (hsource : ∀ c ∈ classes, (source c).outcome = .ok (ms c))
    (hnodup : ((classes.flatMap ms).map (·.key)).Nodup) (box : Sandbox) :
    ∃ units results, (buildUnits settings source .unknowing classes).outcome = .ok units ∧
      (execute box units).outcomes = results ∧
      results.map (·.mutation) = classes.flatMap ms ∧
      ∃ units',
        (buildUnits settings' source (Recall.ofOutcomes results).analyser classes).outcome = .ok units' ∧
        (∀ u ∈ units', ∃ k, u = .known k) ∧
        units'.flatMap WorkUnit.knownOutcomes = results ∧
        ∀ box', (execute box' units').outcomes = results ∧ (execute box' units').events = [] ∧
          (execute box' units').launches = {} := by
  obtain ⟨units, hunits, hresults, hsettled⟩ :=
    execute_buildUnits_unknowing hsettings hsource box
  obtain ⟨units', hunits', hknown, houtcomes⟩ :=
    buildUnits_recall hsettings' hsource hnodup hresults hsettled
  refine ⟨units, _, hunits, rfl, hresults, units', hunits', hknown, houtcomes, fun box' => ?_⟩
  obtain ⟨hagain, hevents, hlaunches⟩ := ({} : Execution).addUnits_of_known box' hknown
  exact ⟨hagain.trans houtcomes, hevents, hlaunches⟩

end Converge

/-- Environments in which every test fails. -/
def failing : Sandbox where
  Env := Unit
  launch _ _ := .ok ()
  load _ _ := (.prompt (.ok ()), ())
  runTest _ _ := (.prompt (.failed "expected 3"), ())
  hasKillSwitch _ := false

/-- A point that a test covers and one that no test covers. -/
def mixedPoints : List Mutation := coveredPoint :: twoPoints.drop 1

theorem recall_converges_mixedPoints :
    singly.validate = .ok [.math] ∧ ({ mutators := ["MATH"] } : Settings).validate = .ok [.math] ∧
    (mixedPoints.map Mutation.key).Nodup ∧
    ∃ units results, (buildUnits singly (fun _ => pure mixedPoints) .unknowing [⟨"Calc"⟩]).outcome =
        .ok units ∧
      (execute failing units).outcomes = results ∧
      results.map (·.mutation) = mixedPoints ∧
      ∃ units', (buildUnits { mutators := ["MATH"] } (fun _ => pure mixedPoints)
          (Recall.ofOutcomes results).analyser [⟨"Calc"⟩]).outcome = .ok units' ∧
        (∀ u ∈ units', ∃ k, u = .known k) ∧
        units'.flatMap WorkUnit.knownOutcomes = results ∧
        ∀ box', (execute box' units').outcomes = results ∧ (execute box' units').events = [] ∧
          (execute box' units').launches = {} := by
  have hsettings : singly.validate = .ok [.math] := rfl
  have hsettings' : ({ mutators := ["MATH"] } : Settings).validate = .ok [.math] := rfl
  have hsource : ∀ c ∈ [(⟨"Calc"⟩ : ClassName)],
      (pure mixedPoints : Journaled Fault (List Mutation)).outcome = .ok ((fun _ => mixedPoints) c) :=
    fun _ _ => rfl
  have hnodup : (mixedPoints.map Mutation.key).Nodup := by decide
  exact ⟨hsettings, hsettings', hnodup, recall_converges hsettings hsettings' hsource hnodup failing⟩

end StackMutants
