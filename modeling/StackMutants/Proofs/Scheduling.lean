import StackMutants.Proofs.Scan
import StackMutants.Proofs.Grouping

/-!
# Proofs.Scheduling — how often a mutation is scheduled

A build looks at the classes of a configuration one after the other, a class that is listed twice as often
as it is listed.  So identifiers are scheduled once exactly if no class with mutations is listed twice
(`buildUnits_ids_nodup_iff`).  The classes of a program have different names, but nothing is said about those
that a configuration lists (`not_nodup_ids_of_every_config`).
-/

namespace StackMutants

section Batch

variable {source : ClassName → Journaled Fault (List Mutation)} {ms : ClassName → List Mutation}

/-- The units of a batch have the identifiers that were found. -/
theorem buildUnits_ids_perm (a : Analyser) {settings : Settings} {os : List Mutator}
    {classes : List ClassName} (hsettings : settings.validate = .ok os)
    (hsource : ∀ name ∈ classes, (source name).outcome = .ok (ms name)) :
    ∃ units, (buildUnits settings source a classes).outcome = .ok units ∧
      (units.flatMap WorkUnit.ids).Perm (classes.flatMap fun name => (ms name).map (·.id)) := by
  obtain ⟨segments, hsegments, hall⟩ := buildUnits_answered a settings hsettings hsource
  refine ⟨segments.flatten, hsegments, ?_⟩
  rw [← List.map_flatMap]
  refine flatMap_perm_of_segments (hall.imp fun name units hunits => hunits.imp ?_)
  rintro group _ ⟨s, rfl⟩
  exact (unitFor_covers _ settings group _).ids_perm

/-- The targets repeat a class if and only if the configuration does, among the classes that count. -/
theorem Config.nodup_filter_targets_iff (c : Config) {p : Program} (hp : p.validate = .ok ())
    (counts : ClassName → Bool) :
    ((c.targets p).filter counts).Nodup ↔ (c.classes.filter counts).Nodup := by
  unfold targets
  split
  · rename_i hempty
    rw [List.isEmpty_iff.mp hempty]
    exact iff_of_true ((Program.nodup_classNames hp).filter _) List.nodup_nil
  · exact Iff.rfl

/-- **When a build schedules nothing twice**: if and only if the configuration lists no class twice that has
mutations. -/
theorem buildUnits_ids_nodup_iff (a : Analyser) {c : Config} {p : Program} {os : List Mutator}
    (hsettings : c.settings.validate = .ok os) (hp : p.validate = .ok ())
    (hsource : ∀ name ∈ c.targets p, (source name).outcome = .ok (ms name))
    (howner : ∀ name ∈ c.targets p, ∀ m ∈ ms name, m.id.owner = name)
    (hids : ∀ name ∈ c.targets p, ((ms name).map (·.id)).Nodup) :
    ∃ units, (buildUnits c.settings source a (c.targets p)).outcome = .ok units ∧
      ((units.flatMap WorkUnit.ids).Nodup ↔ (c.classes.filter fun name => !(ms name).isEmpty).Nodup) := by
  obtain ⟨units, hunits, hperm⟩ := buildUnits_ids_perm a hsettings hsource
  refine ⟨units, hunits, ?_⟩
  have hdisjoint : ∀ name ∈ c.targets p, ∀ name' ∈ c.targets p, name ≠ name' →
      ((ms name).map (·.id)).Disjoint ((ms name').map (·.id)) := by
    intro name hname name' hname' hne id hid hid'
    obtain ⟨m, hm, rfl⟩ := List.mem_map.mp hid
    obtain ⟨m', hm', heq⟩ := List.mem_map.mp hid'
    have howner' : m'.id.owner = m.id.owner := congrArg MutationId.owner heq
    rw [howner name hname m hm, howner name' hname' m' hm'] at howner'
    exact hne howner'.symm
  rw [hperm.nodup_iff, Sequence.nodup_flatMap_iff hids hdisjoint]
  simp only [List.isEmpty_map]
  exact c.nodup_filter_targets_iff hp _

end Batch

/-- A configuration for the class of `sumProgram`, and another one, which has no mutations, twice. -/
def idleClassTwice : Config :=
  { version := "1.0", settings := singly, classes := [⟨"Idle"⟩, ⟨"Calc"⟩, ⟨"Idle"⟩] }

/-- Two points in one class, and none in any other. -/
def pointsOf (name : ClassName) : List Mutation := if name = ⟨"Calc"⟩ then twoPoints else []

theorem buildUnits_ids_nodup_iff_idleClassTwice :
    idleClassTwice.settings.validate = .ok [.math] ∧ Program.sumProgram.validate = .ok () ∧
    (∀ name ∈ idleClassTwice.targets Program.sumProgram, ∀ m ∈ pointsOf name, m.id.owner = name) ∧
    (∀ name ∈ idleClassTwice.targets Program.sumProgram, ((pointsOf name).map (·.id)).Nodup) ∧
    ∃ units, (buildUnits idleClassTwice.settings (fun name => pure (pointsOf name)) lateAnalyser
        (idleClassTwice.targets Program.sumProgram)).outcome = .ok units ∧
      ((units.flatMap WorkUnit.ids).Nodup ↔
        (idleClassTwice.classes.filter fun name => !(pointsOf name).isEmpty).Nodup) := by
  have hsettings : idleClassTwice.settings.validate = .ok [.math] := rfl
  have hp : Program.sumProgram.validate = .ok () := rfl
  have hsource : ∀ name ∈ idleClassTwice.targets Program.sumProgram,
      (pure (pointsOf name) : Journaled Fault (List Mutation)).outcome = .ok (pointsOf name) :=
    fun _ _ => rfl
  have howner : ∀ name ∈ idleClassTwice.targets Program.sumProgram,
      ∀ m ∈ pointsOf name, m.id.owner = name := by decide
  have hids : ∀ name ∈ idleClassTwice.targets Program.sumProgram,
      ((pointsOf name).map (·.id)).Nodup := by decide
  exact ⟨hsettings, hp, howner, hids,
    buildUnits_ids_nodup_iff lateAnalyser hsettings hp hsource howner hids⟩

/-- **A configuration may have a mutation scheduled twice**, by listing its class twice. -/
theorem not_nodup_ids_of_every_config :
    ¬ ∀ (c : Config) (p : Program) (os : List Mutator)
        (source : ClassName → Journaled Fault (List Mutation)) (ms : ClassName → List Mutation)
        (a : Analyser) (units : List WorkUnit),
      c.settings.validate = .ok os → p.validate = .ok () →
      (∀ name ∈ c.targets p, (source name).outcome = .ok (ms name)) →
      (∀ name ∈ c.targets p, ∀ m ∈ ms name, m.id.owner = name) →
      (∀ name ∈ c.targets p, ((ms name).map (·.id)).Nodup) →
      (buildUnits c.settings source a (c.targets p)).outcome = .ok units →
      (units.flatMap WorkUnit.ids).Nodup := by
  intro h
  have hsource : ∀ name ∈ [(⟨"Calc"⟩ : ClassName), ⟨"Calc"⟩],
      (pure twoPoints : Journaled Fault (List Mutation)).outcome = .ok twoPoints := fun _ _ => rfl
  have hnodup := h { version := "1.0", settings := { mutators := ["MATH"] }, classes := [⟨"Calc"⟩, ⟨"Calc"⟩] }
    Program.sumProgram [.math] (fun _ => pure twoPoints) (fun _ => twoPoints) .unknowing
    (List.replicate 2 (unitFor ["MATH"] { mutators := ["MATH"] } twoPoints (.ok (twoPoints.map .notStarted))))
    rfl rfl hsource (by decide) (by decide) rfl
  exact absurd hnodup (by decide)

end StackMutants
