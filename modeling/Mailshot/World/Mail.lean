import Mailshot.Value.Basic

/-!
# The mail server

* `Mail.Message` — a message in two alternative versions, plain text first.
* `Mail.Event` — what is said to the server.
* `Mail.Failure`, `Mail.breakOff?` — how the server breaks off, and at which stage; it may do so more
  than once.
* `Mail.dialogue` — all that is said for one message, and how it ended.
-/

namespace Mailshot.Mail

/-- A message in two alternative versions.  Subject and recipient are kept as they are given. -/
structure Message where
  subject : Value
  sender : Text
  recipient : Value
  plain : Text
  html : Text

/-- The stages at which a server can break off. -/
inductive Stage
  | connect
  | greet
  | secure
  | logIn
  | send
  | close
deriving DecidableEq, Repr

/-- Where a server takes messages: the name of its host, and the number of the service there. -/
structure Server where
  host : String
  service : Nat
deriving DecidableEq, Repr

/-- What is said to a server. -/
inductive Event
  | connect (server : Server)
  | greet
  | secure
  | logIn (user password : Text)
  | send (message : Message)
  | close

/-- How a server breaks off: at a stage, with a class of failure and a text. -/
structure Failure where
  stage : Stage
  label : Text
  text : Text
deriving DecidableEq

/-- The classes of failure that are the mail's or the connection's own. -/
def deliveryLabels : List String := [
  "SMTPException", "SMTPServerDisconnected", "SMTPResponseException", "SMTPSenderRefused",
  "SMTPRecipientsRefused", "SMTPDataError", "SMTPConnectError", "SMTPHeloError",
  "SMTPAuthenticationError", "SMTPNotSupportedError",
  "OSError", "IOError", "EnvironmentError", "BlockingIOError", "ChildProcessError",
  "ConnectionError", "BrokenPipeError", "ConnectionAbortedError", "ConnectionRefusedError",
  "ConnectionResetError", "FileExistsError", "FileNotFoundError", "InterruptedError",
  "IsADirectoryError", "NotADirectoryError", "PermissionError", "ProcessLookupError",
  "TimeoutError", "gaierror", "herror", "SSLError", "SSLCertVerificationError"]

/-- Whether a failure is reported as a failed delivery; any other ends the run. -/
def Failure.isDelivery (failure : Failure) : Bool :=
  deliveryLabels.any fun label => Text.ofString label = failure.label

/-- Whether a failure says that the server is gone already. -/
def Failure.isGone (failure : Failure) : Bool := failure.label = Text.ofString "SMTPServerDisconnected"

/-- How a server breaks off at a stage, if it does: by the first failure for that stage. -/
def breakOff? (failures : List Failure) (stage : Stage) : Option Failure :=
  failures.find? fun failure => failure.stage = stage

/-! ## Dialogue -/

/-- The server to which messages are handed. -/
def server : Server := ⟨"smtp.gmail.com", 587⟩

/-- Events said one after the other, up to and with the one at which the server breaks off. -/
def exchange (failures : List Failure) : List (Stage × Event) → List Event × Option Failure
  | [] => ([], none)
  | (stage, event) :: rest =>
      match breakOff? failures stage with
      | some failure => ([event], some failure)
      | none =>
          let (said, ending) := exchange failures rest
          (event :: said, ending)

/-- All that is said for one message.  A connection that was opened is closed at the end, however the
rest went.  That, too, can go wrong, and is then what went wrong, unless the server was gone. -/
def dialogue (failures : List Failure) (password : Text) (message : Message) :
    List Event × Option Failure :=
  match exchange failures [(.connect, .connect server)] with
  | (said, some failure) => (said, some failure)
  | (opened, none) =>
      let (said, ending) := exchange failures [(.greet, .greet), (.secure, .secure),
        (.logIn, .logIn message.sender password), (.send, .send message)]
      let (closing, late) := exchange failures [(.close, .close)]
      (opened ++ said ++ closing, (late.filter fun failure => !failure.isGone).or ending)

end Mailshot.Mail
