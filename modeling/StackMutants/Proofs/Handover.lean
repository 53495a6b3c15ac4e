import StackMutants.Run.Handover

/-!
# Proofs.Handover — what becomes of an environment when a check ends

Of the actions of a schedule three tell what becomes of the environment: the end of the budget, the
sending of the message, and the unit's leaving.  Where a handover can stand is a list of stages, each with
the order in which those three have come so far (`Handover.Stage`); every action leads from a stage to a
stage (`Handover.Stage.step`), so every schedule leads to one (`Handover.Run.stage`).

So an environment that is not kept is shut down once, by the unit or by the worker, unless the message is
sent on the unit's way out, behind the end of the budget and before the unit has left.  Then nobody shuts it
down.  In all other schedules its end is that of `Course.aftermath`.
-/

namespace StackMutants

/-- Whether the event is a shutdown, by the unit or by the worker. -/
def Event.isShutdown : Event → Bool
  | shutdown _ _ => true
  | launch _ _ | call _ _ | kill _ => false

namespace Handover

/-- Whether the action counts for what becomes of the environment. -/
def Action.isMark : Action → Bool
  | expire | send | leave => true
  | _ => false

/-- Those actions of a schedule that count for what becomes of the environment. -/
def marks (actions : List Action) : List Action := actions.filter Action.isMark

theorem marks_concat (actions : List Action) (a : Action) :
    marks (actions ++ [a]) = marks actions ++ marks [a] := List.filter_append ..

theorem expire_mem_marks {actions : List Action} : .expire ∈ marks actions ↔ .expire ∈ actions := by
  simp [marks, Action.isMark]

/-- The message is sent after the budget has run out and before the unit has left. -/
def Crossed (actions : List Action) : Prop := [Action.expire, .send, .leave].Sublist actions

instance (actions : List Action) : Decidable (Crossed actions) :=
  inferInstanceAs (Decidable (List.Sublist _ _))

theorem crossed_marks_iff {actions : List Action} : Crossed (marks actions) ↔ Crossed actions :=
  ⟨fun h => h.trans List.filter_sublist, fun h => h.filter Action.isMark⟩

/-! ## Stages -/

/-- The marks of a unit that has not been sent a message. -/
def unitMarks : UnitPhase → List Action
  | .waiting | .told _ => []
  | .expired | .leaving => [.expire]
  | .gone _ => [.expire, .leave]

/-- What a unit that has not been sent a message has done to the environment. -/
def unitEvents (env : Nat) (killable : Bool) : UnitPhase → List Event
  | .waiting | .told _ | .expired => []
  | .leaving | .gone _ => if killable then [.kill env] else []

variable (env : Nat) (killable : Bool)

/-- Where a handover can stand, with the marks of the schedules that lead there. -/
inductive Stage : Handover → List Action → Prop where
  | checking {unit : UnitPhase} : (∀ verdict, unit ≠ .told verdict) → unit ≠ .gone true →
      Stage ⟨unit, .checking, none, unitEvents env killable unit⟩ (unitMarks unit)
  | finished {unit : UnitPhase} {verdict : Verdict} : (∀ verdict, unit ≠ .told verdict) →
      unit ≠ .gone true →
      Stage ⟨unit, .finished verdict, none, unitEvents env killable unit⟩ (unitMarks unit)
  | died {unit : UnitPhase} {events : List Event} {marks : List Action} :
      Stage ⟨unit, .died, none, events⟩ marks
  | sent {unit : UnitPhase} {verdict : Verdict} : (∀ verdict, unit ≠ .told verdict) →
      (∀ kept, unit ≠ .gone kept) →
      Stage ⟨unit, .ended verdict, some verdict, unitEvents env killable unit⟩ (unitMarks unit ++ [.send])
  | told {verdict : Verdict} : Stage ⟨.told verdict, .ended verdict, none, []⟩ [.send]
  | kept {verdict : Verdict} : verdict.status.leavesUsable = true →
      Stage ⟨.gone true, .ended verdict, none, []⟩ [.send]
  | closed {verdict : Verdict} : verdict.status.leavesUsable = false →
      Stage ⟨.gone false, .ended verdict, none, [.shutdown env .unit]⟩ [.send]
  /-- The message was in the channel when the unit left. -/
  | lost {verdict : Verdict} :
      Stage ⟨.gone false, .ended verdict, none, unitEvents env killable (.gone false)⟩
        [.expire, .send, .leave]
  | refused {verdict : Verdict} :
      Stage ⟨.gone false, .refused verdict, none, unitEvents env killable (.gone false)⟩
        [.expire, .leave, .send]
  | closedByWorker {verdict : Verdict} :
      Stage ⟨.gone false, .ended verdict, none,
        unitEvents env killable (.gone false) ++ [.shutdown env .worker]⟩ [.expire, .leave, .send]

variable {env killable} {s s' : Handover} {a : Action} {actions ms : List Action}

theorem Stage.step (hstage : Stage env killable s ms) (hstep : Step env killable s a s') :
    Stage env killable s' (ms ++ marks [a]) := by
  cases hstage with
  | @checking unit htold hkept =>
    cases hstep with
    | expire => exact .checking (fun _ => nofun) nofun
    | kill => exact .checking (fun _ => nofun) nofun
    | leave => exact .checking (fun _ => nofun) nofun
    | keep => exact absurd rfl (htold _)
    | close => exact absurd rfl (htold _)
    | finish =>
      rw [show marks _ = [] from rfl, List.append_nil]
      exact .finished htold hkept
    | die => exact .died
  | @finished unit verdict htold hkept =>
    cases hstep with
    | expire => exact .finished (fun _ => nofun) nofun
    | kill => exact .finished (fun _ => nofun) nofun
    | leave => exact .finished (fun _ => nofun) nofun
    | keep => exact absurd rfl (htold _)
    | close => exact absurd rfl (htold _)
    | deliver hgone => exact .sent htold hgone
    | @refuse kept =>
      cases kept with
      | true => exact absurd rfl hkept
      | false => exact .refused
  | died =>
    cases hstep with
    | keep => exact .died
    | close => exact .died
    | expire => exact .died
    | kill => exact .died
    | leave => exact .died
    | disconnect => exact .died
  | @sent unit verdict htold hgone =>
    -- The worker is through, and what the unit does next decides about the message.
    cases hstep with
    | receive => exact .told
    | kill => exact .sent (fun _ => nofun) (fun _ => nofun)
    | leave => exact .lost
    | keep => exact absurd rfl (htold _)
    | close => exact absurd rfl (htold _)
  | told =>
    cases hstep with
    | keep husable => exact .kept husable
    | close husable => exact .closed husable
  | kept husable => cases hstep
  | closed husable => cases hstep
  | lost => cases hstep
  | refused =>
    cases hstep with
    | shutDown => exact .closedByWorker
  | closedByWorker => cases hstep

theorem Run.stage (h : Run env killable actions s) : Stage env killable s (marks actions) := by
  induction h with
  | start => exact .checking (fun _ => nofun) nofun
  | step _ hstep ih =>
    rw [marks_concat]
    exact ih.step hstep

/-- Whether both sides are through. -/
def Complete (s : Handover) : Prop :=
  (∃ kept, s.unit = .gone kept) ∧ ((∃ verdict, s.worker = .ended verdict) ∨ s.worker = .died)

theorem Stage.exists_step (h : Stage env killable s ms) : s.Complete ∨ ∃ a s', Step env killable s a s' := by
  cases h with
  | checking _ _ => exact .inr ⟨_, _, .die⟩
  | @finished unit verdict _ _ =>
    by_cases hgone : ∃ kept, unit = .gone kept
    · obtain ⟨kept, rfl⟩ := hgone
      exact .inr ⟨_, _, .refuse⟩
    · exact .inr ⟨_, _, .deliver fun kept hunit => hgone ⟨kept, hunit⟩⟩
  | @died unit events _ =>
    cases unit with
    | waiting => exact .inr ⟨_, _, .disconnect⟩
    | expired => exact .inr ⟨_, _, .kill⟩
    | leaving => exact .inr ⟨_, _, .leave⟩
    | told verdict =>
      cases husable : verdict.status.leavesUsable with
      | true => exact .inr ⟨_, _, .keep husable⟩
      | false => exact .inr ⟨_, _, .close husable⟩
    | gone kept => exact .inl ⟨⟨kept, rfl⟩, .inr rfl⟩
  | @sent unit _ htold hgone =>
    cases unit with
    | waiting => exact .inr ⟨_, _, .receive⟩
    | expired => exact .inr ⟨_, _, .kill⟩
    | leaving => exact .inr ⟨_, _, .leave⟩
    | told verdict => exact absurd rfl (htold verdict)
    | gone kept => exact absurd rfl (hgone kept)
  | @told verdict =>
    cases husable : verdict.status.leavesUsable with
    | true => exact .inr ⟨_, _, .keep husable⟩
    | false => exact .inr ⟨_, _, .close husable⟩
  | @kept verdict _ => exact .inl ⟨⟨true, rfl⟩, .inl ⟨verdict, rfl⟩⟩
  | @closed verdict _ => exact .inl ⟨⟨false, rfl⟩, .inl ⟨verdict, rfl⟩⟩
  | @lost verdict => exact .inl ⟨⟨false, rfl⟩, .inl ⟨verdict, rfl⟩⟩
  | refused => exact .inr ⟨_, _, .shutDown⟩
  | @closedByWorker verdict => exact .inl ⟨⟨false, rfl⟩, .inl ⟨verdict, rfl⟩⟩

/-- No handover gets stuck before both sides are through. -/
theorem Run.exists_step (h : Run env killable actions s) : s.Complete ∨ ∃ a s', Step env killable s a s' :=
  h.stage.exists_step

/-! ## Complete schedules -/

/-- Whether the check comes to the verdict in a schedule with these actions: it overruns if the budget runs
out. -/
def Ends {Env : Type} (c : Check Env) (verdict : Verdict) (actions : List Action) : Prop :=
  (∃ e, c.ending = .ok (verdict, e)) ∧ (c.overran = true ↔ .expire ∈ actions)

theorem ends_marks_iff {Env : Type} {c : Check Env} {verdict : Verdict} :
    Ends c verdict (marks actions) ↔ Ends c verdict actions := by
  unfold Ends
  rw [expire_mem_marks]

variable {kept : Bool} {verdict : Verdict} {message : Option Verdict} {events : List Event}

theorem countP_isShutdown_unitEvents (unit : UnitPhase) :
    (unitEvents env killable unit).countP Event.isShutdown = 0 := by
  cases unit <;> cases killable <;> rfl

/-- At the end of a schedule an environment that is not kept has been shut down once, if the message was not
sent on the unit's way out, and not at all otherwise. -/
theorem Stage.countP_isShutdown
    (h : Stage env killable ⟨.gone kept, .ended verdict, message, events⟩ ms) :
    (kept = true → events.countP Event.isShutdown = 0 ∧ ¬Crossed ms) ∧
      (kept = false → events.countP Event.isShutdown = if Crossed ms then 0 else 1) := by
  cases h with
  | sent _ hgone => exact absurd rfl (hgone kept)
  | kept _ => exact ⟨fun _ => ⟨rfl, by decide⟩, nofun⟩
  | closed _ => exact ⟨nofun, fun _ => rfl⟩
  | lost => exact ⟨nofun, fun _ => countP_isShutdown_unitEvents _⟩
  | closedByWorker =>
    refine ⟨nofun, fun _ => ?_⟩
    rw [List.countP_append, countP_isShutdown_unitEvents]
    rfl

/-- Unless the message is lost, what has happened to the environment is what `Course.aftermath` says of the
check. -/
theorem Stage.events_eq_aftermath {Env : Type} {c : Check Env}
    (h : Stage env killable ⟨.gone kept, .ended verdict, message, events⟩ ms) (hcrossed : ¬Crossed ms)
    (hends : Ends c verdict ms) :
    events = Course.aftermath env killable c ∧
      ((Course.checked env none killable c).held none).isSome = kept := by
  obtain ⟨calls, overran, ending⟩ := c
  obtain ⟨⟨e, rfl⟩, hoverran⟩ := hends
  have hprompt : ms = [.send] → overran = false := by
    rintro rfl
    exact Bool.eq_false_iff.mpr fun h => by simpa using hoverran.mp h
  cases h with
  | sent _ hgone => exact absurd rfl (hgone kept)
  | kept husable =>
    cases hprompt rfl
    simp [Course.aftermath, Course.held, husable]
  | closed husable =>
    cases hprompt rfl
    simp [Course.aftermath, Course.held, husable]
  | lost => exact absurd (List.Sublist.refl _) hcrossed
  | closedByWorker =>
    cases hoverran.mpr List.mem_cons_self
    exact ⟨rfl, rfl⟩

/-- **Handover of an environment.**  In every schedule in which both sides get through and the worker does not
die, an environment that is not kept is shut down exactly once, unless the message is sent between the end
of the budget and the unit's leaving: then it is not shut down at all.  In the schedules in which that does
not happen, what happens to the environment, and whether it is kept, is what the course of the check says. -/
theorem Run.shutDown_once_unless_crossed
    (h : Run env killable actions ⟨.gone kept, .ended verdict, message, events⟩) :
    (kept = true → events.countP Event.isShutdown = 0 ∧ ¬Crossed actions) ∧
      (kept = false → events.countP Event.isShutdown = if Crossed actions then 0 else 1) ∧
      (¬Crossed actions → ∀ {Env : Type} (c : Check Env), Ends c verdict actions →
        events = Course.aftermath env killable c ∧
          ((Course.checked env none killable c).held none).isSome = kept) := by
  have hstage := h.stage
  obtain ⟨hkept, hgone⟩ := hstage.countP_isShutdown
  simp only [crossed_marks_iff] at hkept hgone
  refine ⟨hkept, hgone, fun hcrossed Env c hends => ?_⟩
  exact hstage.events_eq_aftermath (mt crossed_marks_iff.mp hcrossed) (ends_marks_iff.mpr hends)

/-- The unit times out and leaves before the worker is through. -/
theorem shutDown_once_of_refusal :
    Run 0 true [.expire, .kill, .leave, .finish { status := .survived }, .send, .shutDown]
        ⟨.gone false, .ended { status := .survived }, none, [.kill 0, .shutdown 0 .worker]⟩ ∧
      [Event.kill 0, .shutdown 0 .worker].countP Event.isShutdown = 1 := by
  have hrun : Run 0 true [.expire, .kill, .leave, .finish { status := .survived }, .send, .shutDown]
      ⟨.gone false, .ended { status := .survived }, none, [.kill 0, .shutdown 0 .worker]⟩ :=
    ((((((Run.start).step .expire).step .kill).step .leave).step .finish).step .refuse).step .shutDown
  exact ⟨hrun, (hrun.shutDown_once_unless_crossed.2.1 rfl).trans (if_neg (by decide))⟩

/-- The kill switch lets the worker get through, and its message reaches the channel before the unit has
left. -/
theorem not_shutDown_of_every_run :
    ¬∀ (env : Nat) (killable : Bool) (actions : List Action) (verdict : Verdict) (events : List Event),
      Run env killable actions ⟨.gone false, .ended verdict, none, events⟩ →
        events.countP Event.isShutdown = 1 := by
  intro h
  have hrun : Run 0 true [.expire, .kill, .finish { status := .survived }, .send, .leave]
      ⟨.gone false, .ended { status := .survived }, none, [.kill 0]⟩ :=
    (((((Run.start).step .expire).step .kill).step .finish).step (.deliver fun _ => nofun)).step .leave
  have hcount := h 0 true _ _ _ hrun
  exact absurd hcount (by decide)

end Handover

end StackMutants
