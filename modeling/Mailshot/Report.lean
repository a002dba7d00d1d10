import Mailshot.Fault

/-!
# Reports

Every operation leaves a journal of what it did, also when it fails half-way.

* `Entry` — a line of the journal with its level.
* `Report` — the journal of a computation and its outcome.  In a sequence the journals are joined,
  and nothing after a fault is entered.
-/

namespace Mailshot

/-- How much attention a line of the journal asks for. -/
inductive Level
  | debug
  | info
  | warning
  | error
deriving DecidableEq, Repr

/-- The word for a level. -/
def Level.label : Level → String
  | .debug => "DEBUG"
  | .info => "INFO"
  | .warning => "WARNING"
  | .error => "ERROR"

/-- A line of the journal. -/
structure Entry where
  level : Level
  text : Text
deriving DecidableEq

/-- The journal of a computation, in order, and its result or the fault that ended it. -/
structure Report (α : Type) where
  journal : List Entry
  outcome : Except Fault α

namespace Report

/-- A result that leaves no trace in the journal. -/
def ofOutcome {α : Type} (outcome : Except Fault α) : Report α := ⟨[], outcome⟩

/-- One line of the journal. -/
def enter (level : Level) (text : Text) : Report Unit := ⟨[⟨level, text⟩], .ok ()⟩

/-- One report after the other; a fault ends the sequence. -/
protected def bind {α β : Type} (first : Report α) (next : α → Report β) : Report β :=
  match first.outcome with
  | .error fault => ⟨first.journal, .error fault⟩
  | .ok a =>
      let rest := next a
      ⟨first.journal ++ rest.journal, rest.outcome⟩

instance : Monad Report where
  pure a := ⟨[], .ok a⟩
  bind := Report.bind

instance : MonadLift (Except Fault) Report := ⟨ofOutcome⟩

end Report

end Mailshot
