/-!
# Journal — what a computation writes down on its way

A journaled computation ends in a value or in a fault, and in both cases leaves the entries that it
made until then.  `outcome` commutes with sequencing, so a theorem about values need not look at
entries.
-/

namespace StackMutants

namespace Journal

/-- How severe an entry is, most severe first. -/
inductive Level where
  | error
  | warn
  | info
  | debug
deriving DecidableEq, Repr

def Level.rank : Level → Nat
  | error => 0
  | warn => 1
  | info => 2
  | debug => 3

def Level.name : Level → String
  | error => "ERROR"
  | warn => "WARN"
  | info => "INFO"
  | debug => "DEBUG"

structure Entry where
  level : Level
  text : String
deriving DecidableEq, Repr

def Entry.line (e : Entry) : String := s!"{e.level.name} {e.text}"

/-- The lines of the entries that are at least as severe as a level. -/
def lines (level : Level) (entries : List Entry) : List String :=
  (entries.filter (·.level.rank ≤ level.rank)).map (·.line)

end Journal

/-- A computation that ends in a value or a fault and keeps a journal. -/
structure Journaled (ε α : Type) where
  entries : List Journal.Entry
  outcome : Except ε α

namespace Journaled

variable {ε α β : Type}

protected def pure (a : α) : Journaled ε α := ⟨[], .ok a⟩

protected def bind (x : Journaled ε α) (f : α → Journaled ε β) : Journaled ε β :=
  match x.outcome with
  | .error e => ⟨x.entries, .error e⟩
  | .ok a => ⟨x.entries ++ (f a).entries, (f a).outcome⟩

instance : Monad (Journaled ε) where
  pure := Journaled.pure
  bind := Journaled.bind

/-- Stops with a fault. -/
def fail (e : ε) : Journaled ε α := ⟨[], .error e⟩

/-- Goes on with the value of a computation that keeps no journal, or stops with its fault. -/
def ofExcept (x : Except ε α) : Journaled ε α := ⟨[], x⟩

/-- Makes entries. -/
def write (entries : List Journal.Entry) : Journaled ε Unit := ⟨entries, .ok ()⟩

def warn (text : String) : Journaled ε Unit := write [⟨.warn, text⟩]

def debug (text : String) : Journaled ε Unit := write [⟨.debug, text⟩]

@[simp] theorem outcome_pure (a : α) : (pure a : Journaled ε α).outcome = .ok a := rfl

@[simp] theorem outcome_bind (x : Journaled ε α) (f : α → Journaled ε β) :
    (x >>= f).outcome = x.outcome.bind fun a => (f a).outcome := by
  show (Journaled.bind x f).outcome = _
  unfold Journaled.bind
  cases x.outcome <;> rfl

theorem outcome_bind_eq_ok {x : Journaled ε α} {f : α → Journaled ε β} {b : β} :
    (x >>= f).outcome = .ok b ↔ ∃ a, x.outcome = .ok a ∧ (f a).outcome = .ok b := by
  rw [outcome_bind]
  cases x.outcome <;> simp [Except.bind]

@[simp] theorem outcome_fail (e : ε) : (fail e : Journaled ε α).outcome = .error e := rfl

@[simp] theorem outcome_ofExcept (x : Except ε α) : (ofExcept x).outcome = x := rfl

@[simp] theorem outcome_write (entries : List Journal.Entry) :
    (write entries : Journaled ε Unit).outcome = .ok () := rfl

@[simp] theorem outcome_warn (text : String) : (warn text : Journaled ε Unit).outcome = .ok () := rfl

@[simp] theorem outcome_debug (text : String) :
    (debug text : Journaled ε Unit).outcome = .ok () := rfl

end Journaled

end StackMutants
