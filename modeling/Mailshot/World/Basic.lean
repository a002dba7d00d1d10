import Mailshot.Report
import Mailshot.Value.SetOrder
import Mailshot.World.FileTree
import Mailshot.World.Mail

/-!
# The world of a run

* `Environment` — the variables that a run reads.
* `Copying` — the copies that a run makes of its configuration.
* `World` — files, environment and mail server, with the journal and what the server was told.
* `Work` — work in a world; what was done before a fault stays done.
-/

namespace Mailshot

/-- The variables that a run reads. -/
structure Environment where
  /-- The path of the configuration file. -/
  configPath : Option Text
  /-- The address of a test send. -/
  recipient : Option Text
  /-- The account that sends. -/
  user : Option Text
  /-- The password of the account. -/
  password : Option Text

/-- The names of the variables. -/
def Environment.names : List String :=
  ["CAMPAIGN_CONFIG", "EMAIL_RECIPIENT", "GMAIL_USER", "GMAIL_APP_PASSWORD"]

/-- The environment that a look-up of variables by name gives. -/
def Environment.ofLookup (lookup : String → Option Text) : Environment where
  configPath := lookup "CAMPAIGN_CONFIG"
  recipient := lookup "EMAIL_RECIPIENT"
  user := lookup "GMAIL_USER"
  password := lookup "GMAIL_APP_PASSWORD"

/-- When a run copies its configuration. -/
inductive Copying
  | loading
  | compiling

/-- The order of the sets in a copy, as far as it is known. -/
def Copying.order : Copying → SetOrder
  | .loading => .loaded
  | .compiling => .copied

/-- What a run reads and changes. -/
structure World where
  files : FileTree
  environment : Environment
  /-- The order of the sets in the copies of the configuration. -/
  sets : Copying → SetOrder
  /-- How the mail server breaks off, if it does. -/
  failures : List Mail.Failure
  /-- What the mail server was told. -/
  said : List Mail.Event
  journal : List Entry

/-- A world in which nothing happened yet. -/
def World.initial (files : FileTree) (environment : Environment)
    (failure : Option Mail.Failure) : World :=
  ⟨files, environment, Copying.order, failure.toList, [], []⟩

/-- Work in a world. -/
abbrev Work (α : Type) := ExceptT Fault (StateM World) α

namespace Work

/-- The outcome of work in a world, and the world after it. -/
def runIn {α : Type} (world : World) (work : Work α) : Except Fault α × World :=
  (ExceptT.run work).run world

/-- A report is made: its journal is added to that of the world. -/
def ofReport {α : Type} (report : Report α) : Work α := do
  modify fun world => { world with journal := world.journal ++ report.journal }
  match report.outcome with
  | .ok a => pure a
  | .error fault => throw fault

instance : MonadLift Report Work := ⟨ofReport⟩

/-- Work on the files of the world. -/
def ofFiles {α : Type} (work : FileWork α) : Work α := do
  let (outcome, files) := work.runOn (← get).files
  modify fun world => { world with files := files }
  match outcome with
  | .ok a => pure a
  | .error fault => throw fault

/-- A line is entered in the journal. -/
def enter (level : Level) (text : Text) : Work Unit := ofReport (Report.enter level text)

end Work

end Mailshot
