import Mailshot.Config.Edit
import Mailshot.Document
import Mailshot.PlainText

/-!
# Editing sessions

A session keeps every version of a configuration that its edits made, so that each step can start
from any of them.

* `Session` — the versions in the order in which they were made, and the ids drawn so far.
* `Step` — an edit, which makes a version, or a look at one, which makes none.
* `Session.take`, `Session.run` — one step, and a list of steps; a step that fails makes no version
  and the next ones go on.
-/

namespace Mailshot

/-- A look at a version. -/
inductive Look
  | config
  | html (escaped : Bool)
  | plainText
  | title

/-- What a look shows of a configuration. -/
def Look.view (config : Value) : Look → Report Value
  | .config => pure config
  | .html escaped => Value.text <$> Document.html config escaped
  | .plainText => Report.ofOutcome ((PlainText.ofConfig config).map .text)
  | .title => Report.ofOutcome (Section.title config)

/-- What is done to a version. -/
inductive Action
  | edit (e : Edit)
  | look (l : Look)

/-- A step of a session: what is done, and to which version; to the newest where none is given. -/
structure Step where
  version : Option Nat
  action : Action

/-- What a step answers: a value or a fault, and the number of the version that it made. -/
structure Answer where
  report : Report Value
  version : Option Nat

/-- A session: its first version, the later ones in order, and the number of ids drawn. -/
structure Session where
  first : Value
  later : List Value
  drawn : Nat

namespace Session

/-- A session that starts from a configuration. -/
def start (config : Value) : Session := ⟨config, [], 0⟩

/-- The number of the newest version. -/
def newest (s : Session) : Nat := s.later.length

/-- The version with a number, the first one if there is none. -/
def version (s : Session) (n : Nat) : Value := (s.first :: s.later).getD n s.first

/-- The session after a step, and the answer of the step. -/
def take (ids : Nat → Text) (s : Session) (step : Step) : Session × Answer :=
  let config := s.version (step.version.getD s.newest)
  match step.action with
  | .look l => (s, ⟨l.view config, none⟩)
  | .edit e =>
      match e.run ids s.drawn config with
      | (.ok edited, drawn) =>
          (⟨s.first, s.later ++ [edited], drawn⟩, ⟨pure edited, some (s.newest + 1)⟩)
      | (.error fault, drawn) =>
          (⟨s.first, s.later, drawn⟩, ⟨Report.ofOutcome (.error fault), none⟩)

/-- The session after a list of steps, and their answers. -/
def run (ids : Nat → Text) (s : Session) : List Step → Session × List Answer
  | [] => (s, [])
  | step :: rest =>
      let (next, answer) := s.take ids step
      let (last, answers) := run ids next rest
      (last, answer :: answers)

end Session

end Mailshot
