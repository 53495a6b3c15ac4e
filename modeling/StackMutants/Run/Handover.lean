import StackMutants.Run.FreshRun

/-!
# Run.Handover — how a check ends between the unit and its worker

The worker makes the calls of a check and then sends the environment back with the verdict, over a channel
that holds one message.  The unit waits for the message until the budget has run out.  Then it kills the
environment and leaves, and its end of the channel goes with it.  A worker whose message is refused because
the unit has left shuts the environment down itself.  A message that is in the channel when the unit leaves
is lost with the channel, and the environment with the message.

The two act in any order.  What either can do is a relation between states (`Handover.Step`), and a schedule
is a list of actions (`Handover.Run`).
-/

namespace StackMutants

/-- What the unit is doing about a check. -/
inductive UnitPhase where
  | waiting
  /-- The budget has run out, and the environment has not been killed yet. -/
  | expired
  | leaving
  | told (verdict : Verdict)
  /-- The unit has left, with the environment or without. -/
  | gone (kept : Bool)
deriving DecidableEq, Repr

/-- What the worker is doing about a check. -/
inductive WorkerPhase where
  | checking
  | finished (verdict : Verdict)
  /-- The message came back, and the environment has not been shut down yet. -/
  | refused (verdict : Verdict)
  | ended (verdict : Verdict)
  | died
deriving DecidableEq, Repr

structure Handover where
  unit : UnitPhase := .waiting
  worker : WorkerPhase := .checking
  /-- The verdict of the message in the channel. -/
  message : Option Verdict := none
  /-- What has happened to the environment since the calls of the check. -/
  events : List Event := []
deriving DecidableEq, Repr

namespace Handover

inductive Action where
  /-- The unit takes the message. -/
  | receive
  /-- The unit keeps the environment that it was sent, or shuts it down. -/
  | settle
  /-- The budget runs out. -/
  | expire
  | kill
  | leave
  /-- The unit notices that the worker has died. -/
  | disconnect
  | finish (verdict : Verdict)
  | die
  | send
  /-- The worker shuts the environment down. -/
  | shutDown
deriving DecidableEq, Repr

/-- The actions, each with the states that it can be taken in and what comes of it.  `env` is the number of
the environment, and `killable` says whether it has a kill switch. -/
inductive Step (env : Nat) (killable : Bool) : Handover → Action → Handover → Prop where
  | receive {worker : WorkerPhase} {verdict : Verdict} {events : List Event} :
      Step env killable ⟨.waiting, worker, some verdict, events⟩ .receive
        ⟨.told verdict, worker, none, events⟩
  | keep {verdict : Verdict} {worker : WorkerPhase} {message : Option Verdict} {events : List Event} :
      verdict.status.leavesUsable = true →
      Step env killable ⟨.told verdict, worker, message, events⟩ .settle
        ⟨.gone true, worker, message, events⟩
  | close {verdict : Verdict} {worker : WorkerPhase} {message : Option Verdict} {events : List Event} :
      verdict.status.leavesUsable = false →
      Step env killable ⟨.told verdict, worker, message, events⟩ .settle
        ⟨.gone false, worker, message, events ++ [.shutdown env .unit]⟩
  | expire {worker : WorkerPhase} {events : List Event} :
      Step env killable ⟨.waiting, worker, none, events⟩ .expire ⟨.expired, worker, none, events⟩
  | kill {worker : WorkerPhase} {message : Option Verdict} {events : List Event} :
      Step env killable ⟨.expired, worker, message, events⟩ .kill
        ⟨.leaving, worker, message, events ++ if killable then [.kill env] else []⟩
  | leave {worker : WorkerPhase} {message : Option Verdict} {events : List Event} :
      Step env killable ⟨.leaving, worker, message, events⟩ .leave ⟨.gone false, worker, none, events⟩
  | disconnect {events : List Event} :
      Step env killable ⟨.waiting, .died, none, events⟩ .disconnect ⟨.gone false, .died, none, events⟩
  | finish {unit : UnitPhase} {verdict : Verdict} {message : Option Verdict} {events : List Event} :
      Step env killable ⟨unit, .checking, message, events⟩ (.finish verdict)
        ⟨unit, .finished verdict, message, events⟩
  | die {unit : UnitPhase} {message : Option Verdict} {events : List Event} :
      Step env killable ⟨unit, .checking, message, events⟩ .die ⟨unit, .died, message, events⟩
  /-- As long as the unit has not left, a message is accepted if there is room for it. -/
  | deliver {unit : UnitPhase} {verdict : Verdict} {events : List Event} : (∀ kept, unit ≠ .gone kept) →
      Step env killable ⟨unit, .finished verdict, none, events⟩ .send
        ⟨unit, .ended verdict, some verdict, events⟩
  | refuse {kept : Bool} {verdict : Verdict} {message : Option Verdict} {events : List Event} :
      Step env killable ⟨.gone kept, .finished verdict, message, events⟩ .send
        ⟨.gone kept, .refused verdict, message, events⟩
  | shutDown {unit : UnitPhase} {verdict : Verdict} {message : Option Verdict} {events : List Event} :
      Step env killable ⟨unit, .refused verdict, message, events⟩ .shutDown
        ⟨unit, .ended verdict, message, events ++ [.shutdown env .worker]⟩

/-- The states that schedules lead to from the start of a check. -/
inductive Run (env : Nat) (killable : Bool) : List Action → Handover → Prop where
  | start : Run env killable [] {}
  | step {actions : List Action} {s s' : Handover} {a : Action} :
      Run env killable actions s → Step env killable s a s' → Run env killable (actions ++ [a]) s'

end Handover

end StackMutants
