import Mailshot.Campaign.Load
import Mailshot.Campaign.Delivery
import Mailshot.Document

/-!
# A run

A run loads the configuration, compiles it, writes the document and, where a recipient is configured,
sends a test copy.

* `Campaign.Output` — where the document goes and whether it is escaped.
* `Campaign.build`, `Campaign.send` — the two halves of a run.
* `Campaign.run` — the whole; a fault in the first half is reported and ends the run as failed, one
  in the second half is the run's own.
-/

namespace Mailshot.Campaign

/-! ## Settings -/

/-- Where the document goes where nothing else is configured. -/
def defaultOutput : String := "campaign.html"

/-- The configuration file where the environment names no other. -/
def defaultConfig : String := "config.yaml"

/-- Where the document goes, and whether it is escaped. -/
structure Output where
  path : Value
  escaped : Bool

/-- The output that a configuration asks for. -/
def Output.ofConfig (config : Value) : Except Fault Output := do
  let output ← ((← config.fields).look "output").fieldsOrNone
  let path := output.look "path"
  return ⟨if path.truthy then path else .text defaultOutput, (output.look "escape").truthy⟩

/-- The configuration file of a run. -/
def configPath (environment : Environment) : Path :=
  let path := Text.trim (environment.configPath.getD [])
  if path.isEmpty then defaultConfig else path

/-- A value without the blanks at either end. -/
def trimmed : Value → Except Fault Value
  | .text t => .ok (.text (Text.trim t))
  | .bytes b => .ok (.bytes (Text.trimBy (fun byte => Text.isPlainBlank (Char.ofNat byte.toNat)) b))
  | _ => .error .notTrimmable

/-- The address of a test send, empty where there is none. -/
def recipient (config : Value) (environment : Environment) : Except Fault Value := do
  let address := (← config.fields).look "email_recipient"
  trimmed (if address.truthy then address else .text (environment.recipient.getD []))

/-! ## Build -/

/-- The recommended cuts for a configuration, entered in the journal. -/
def enterHints (config : Value) : Report Unit := do
  let layout ← config.field "layout"
  let template ← config.field "template"
  let content ← layout.field "content_width"
  let size ← layout.field "product_image_size"
  let hint ← imageHint template content (Tier.ofValue size)
  Report.enter .info ("Recommended image cut: " ++ hint ++ " (hero: " ++ (← heroHint content) ++ ")")

/-- A configuration is compiled and written; the answer is the document and its path. -/
def build (config : Value) : Work (Text × Value) := do
  let output ← Output.ofConfig config
  let html ← Document.html config output.escaped ((← get).sets .compiling)
  enterHints config
  return (html, ← write (.text html) output.path)

/-! ## Send -/

/-- The subject of a message where the document has no title. -/
def defaultSubject : String := "Campaign preview"

/-- A test copy of a document is sent to the recipient, if there is one. -/
def send (config html : Value) : Work Unit := do
  let address ← recipient config (← get).environment
  if address.truthy then
    let title ← Section.title config
    let plain ← PlainText.ofConfig config
    let subject := if title.truthy then title else .text defaultSubject
    match ← sendTest subject html address (.text plain) with
    | none => pure ()
    | some reason => Work.enter .error ("Test send failed: " ++ reason)
  else Work.enter .info "No email recipient configured — skipping test send."

/-! ## The whole -/

/-- How a run ends. -/
inductive Ending
  | done
  | failed
deriving DecidableEq, Repr

/-- A fault as the report of a failed run names it. -/
def faultText (fault : Fault) : Text :=
  match fault.message? with
  | some message => fault.label ++ ": " ++ message
  | none => fault.label

/-- The first half of a run: a configuration is loaded and built. -/
def prepare (path : Path) : Work (Fields × Text) := do
  let config ← load path
  let (html, _) ← build (.map config)
  return (config, html)

/-- A run. -/
def run : Work Ending := do
  let path := configPath (← get).environment
  let prepared ← tryCatch (some <$> prepare path) fun fault => do
    Work.enter .error ("Failed to build campaign from " ++ path ++ ": " ++ faultText fault)
    return none
  match prepared with
  | none => return .failed
  | some (config, html) =>
      send (.map config) (.text html)
      return .done

end Mailshot.Campaign
