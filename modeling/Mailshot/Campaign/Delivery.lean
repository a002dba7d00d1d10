import Mailshot.World.Basic
import Mailshot.PlainText

/-!
# Handing a document over

* `Campaign.write` — a document written to a file, folders made on the way.
* `Campaign.sendTest` — one test copy handed to the mail server, with the reason if it fails.
-/

namespace Mailshot.Campaign

/-! ## Writing -/

/-- The path that a value is. -/
def pathOf : Value → Except Fault Path
  | .text path => .ok path
  | .bytes name => .ok (Text.ofBytes name)
  | _ => .error .notPath

/-- A text as bytes; one that holds halves of characters has none. -/
def encoded (text : Text) : Except Fault ByteArray :=
  match text.string? with
  | some s => .ok s.toUTF8
  | none => .error .notEncodable

/-- A document is written to a file; the answer is the value that names its path.  The file is there,
and empty, before the document is looked at. -/
def fill (target : Path) (html path : Value) : Work Value := do
  Work.ofFiles (FileWork.write target .empty)
  match html.text? with
  | none => throw .notText
  | some text =>
      let content ← encoded text
      Work.ofFiles (FileWork.write target content)
      Work.enter .info ("Campaign HTML written to " ++ path.display ++ " (" ++
        Text.ofNat text.length ++ " chars)")
      return path

/-- A document is written to the path that a value gives, folders made on the way; the answer is that
value. -/
def write (html path : Value) : Work Value := do
  let target ← pathOf path
  unless target.folder.isEmpty do
    Work.ofFiles (FileWork.makeFolders target.folder)
  fill target html path

/-! ## Sending -/

/-- The reason for which nothing is sent without an account and its password. -/
def missingCredentials : String :=
  "Test sends need GMAIL_USER and GMAIL_APP_PASSWORD in the environment."

/-- A setting of the environment that is there and not empty. -/
def present (setting : Option Text) : Option Text := setting.filter fun text => !text.isEmpty

/-- The text of a part of a message; as in the name of a file, stray bytes may stand in it. -/
def messagePart (v : Value) : Except Fault Text :=
  match v.text? with
  | none => .error .notMessagePart
  | some text => if text.byteCount?.isSome then .ok text else .error .notEncodable

/-- One copy of a document is handed to the mail server, with its plain-text version in front of it.
The answer is the reason why it was not delivered, if it was not; a failure that is not the mail's
own is a fault. -/
def sendTest (subject html recipient plain : Value) : Work (Option Text) := do
  let environment := (← get).environment
  match present environment.user, present environment.password with
  | some user, some password =>
      let plain ← messagePart plain
      let html ← messagePart html
      let message : Mail.Message := ⟨subject, user, recipient, plain, html⟩
      let address ← recipient.written
      Work.enter .info ("Sending campaign test " ++ (← subject.named) ++ " to " ++ address ++
        " via " ++ Text.ofString Mail.server.host)
      let (said, ending) := Mail.dialogue (← get).failures password message
      modify fun world => { world with said := world.said ++ said }
      match ending with
      | none =>
          Work.enter .info ("Campaign test delivered to " ++ address)
          return none
      | some failure =>
          if failure.isDelivery then
            Work.enter .error ("Campaign test send to " ++ address ++ " failed: " ++ failure.text)
            return some failure.text
          else throw (.foreign failure.label)
  | _, _ =>
      Work.enter .warning "Test send skipped: SMTP credentials missing"
      return some missingCredentials

end Mailshot.Campaign
