import Mailshot.Campaign.Delivery
import Mailshot.Proofs.Working

/-!
# What is handed over

A document is written as a whole or not at all, but for one case: where it has no bytes, the file is
emptied before that is seen.  And what the mail server is told for one message ends with the
message, or before it, and then the connection is closed.

* `Campaign.Written` — how work that writes a document ends, and what it leaves of the files.
* **`Campaign.written_write`** — writing ends in one of these ways.
* `Mail.messages_dialogue`, `Mail.closed_dialogue`, `Mail.ended_dialogue` — the messages handed over in
  a dialogue, what is said last, and what went wrong.
* **`Campaign.told_sendTest`** — what a test send tells the server.
-/

namespace Mailshot

open FileTree FileWork Work

/-! ## Writing -/

namespace Campaign

/-- How work that writes a document ends, and what it leaves of the files.  The results of the work
are told apart by the paths and the documents that they go with. -/
inductive Written {α : Type} (before : FileTree) (Goes : α → Path → Text → Prop) :
    Except Fault α → FileTree → Prop
  /-- The file holds the document. -/
  | whole {result : α} {target : Path} {html : Text} {content : ByteArray} {after : FileTree} :
      Goes result target html → encoded html = .ok content → Wrote before target content after →
      Written before Goes (.ok result) after
  /-- No file is touched. -/
  | nothing {fault : Fault} {after : FileTree} : Grown before after →
      Written before Goes (.error fault) after
  /-- The document has no bytes, and the file is empty. -/
  | emptied {result : α} {target : Path} {html : Text} {after : FileTree} :
      Goes result target html → html.string? = none → Wrote before target .empty after →
      Written before Goes (.error .notEncodable) after

lemma Written.map {α β : Type} {before after : FileTree} {Goes : α → Path → Text → Prop}
    {Goes' : β → Path → Text → Prop} {outcome : Except Fault α} (f : α → β)
    (hf : ∀ {result target html}, Goes result target html → Goes' (f result) target html)
    (h : Written before Goes outcome after) : Written before Goes' (outcome.map f) after := by
  cases h with
  | whole hgoes hcontent hwrote => exact .whole (hf hgoes) hcontent hwrote
  | nothing hgrown => exact .nothing hgrown
  | emptied hgoes hstring hempty => exact .emptied (hf hgoes) hstring hempty

/-- A path goes with the document that is written there. -/
def GoesTo (path : Value) (text : Text) (result : Value) (target : Path) (html : Text) : Prop :=
  result = path ∧ pathOf path = .ok target ∧ html = text

/-- A text has no bytes only where it holds half a character. -/
lemma encoded_eq_error {text : Text} {fault : Fault} (h : encoded text = .error fault) :
    text.string? = none ∧ fault = .notEncodable := by
  unfold encoded at h
  cases hstring : text.string? with
  | some s =>
      rw [hstring] at h
      cases h
  | none =>
      rw [hstring] at h
      cases h
      exact ⟨rfl, rfl⟩

/-- A file is filled after nothing but folders were made. -/
lemma written_fill {before : FileTree} {w : World} (hgrown : Grown before w.files) {text : Text}
    {path : Value} {target : Path} (hpath : pathOf path = .ok target) :
    Written before (GoesTo path text) ((fill target (.text text) path).runIn w).1
      ((fill target (.text text) path).runIn w).2.files := by
  have hgoes : GoesTo path text path target text := ⟨rfl, hpath, rfl⟩
  unfold fill
  rw [runIn_bind, runIn_ofFiles]
  rcases runOn_write_of_grown hgrown target .empty with ⟨emptied, hrun, hempty⟩ | ⟨fault, hrun⟩
  · rw [hrun]
    simp only [Value.text?]
    rw [runIn_bind, runIn_lift]
    cases hcontent : encoded text with
    | error fault =>
        obtain ⟨hstring, rfl⟩ := encoded_eq_error hcontent
        exact .emptied hgoes hstring hempty
    | ok content =>
        dsimp only
        obtain ⟨after, hwrite, hwrote⟩ := hempty.runOn_write content
        rw [runIn_bind, runIn_ofFiles]
        dsimp only
        rw [hwrite]
        exact .whole hgoes hcontent hwrote
  · rw [hrun]
    exact .nothing hgrown

/-- **A document is written as a whole or not at all**, unless it has no bytes. -/
theorem written_write (w : World) (text : Text) (path : Value) :
    Written w.files (GoesTo path text) ((write (.text text) path).runIn w).1
      ((write (.text text) path).runIn w).2.files := by
  unfold write
  cases hpath : pathOf path with
  | error fault => exact .nothing (.refl _)
  | ok target =>
      rw [runIn_ok_bind]
      split
      · exact written_fill (.refl _) hpath
      · rw [runIn_bind, runIn_ofFiles]
        have hgrown := grows_makeFolders target.folder w.files
        unfold runOn
        generalize (ExceptT.run (makeFolders target.folder)).run w.files = result at hgrown ⊢
        obtain ⟨outcome, files⟩ := result
        cases outcome with
        | error fault => exact .nothing hgrown
        | ok _ => exact written_fill hgrown hpath

/-- Writing a document tells the mail server nothing. -/
lemma keeps_write (html path : Value) : Leaves (Same World.mail) (write html path) := by
  have hfill (target : Path) : Leaves (Same World.mail) (fill target html path) := by
    refine (keeps_ofFiles (fun _ _ => rfl) _).bind fun _ => ?_
    split
    · exact .throw _
    · refine (Leaves.lift _).bind fun content => (keeps_ofFiles (fun _ _ => rfl) _).bind fun _ => ?_
      exact (keeps_ofReport (fun _ _ => rfl) _).bind fun _ => .pure _
  refine (Leaves.lift _).bind fun target => ?_
  dsimp only
  split
  · exact hfill target
  · exact (keeps_ofFiles (fun _ _ => rfl) _).bind fun _ => hfill target

end Campaign

/-! ## The dialogue -/

namespace Mail

/-- The message that an event hands over. -/
def Event.message? : Event → Option Message
  | .send message => some message
  | _ => none

/-- The messages that were handed over. -/
def messages (said : List Event) : List Message := said.filterMap Event.message?

variable (failures : List Failure) (password : Text) (message : Message)

/-- What is said is what was to be said, up to some point. -/
lemma exchange_isPrefix (steps : List (Stage × Event)) :
    (exchange failures steps).1 <+: steps.map Prod.snd := by
  induction steps with
  | nil => exact List.prefix_rfl
  | cons step rest ih =>
      obtain ⟨stage, event⟩ := step
      rw [exchange, List.map_cons]
      cases breakOff? failures stage with
      | some failure => exact (List.prefix_cons_inj event).mpr List.nil_prefix
      | none => exact (List.prefix_cons_inj event).mpr ih

/-- What goes wrong is the first thing that does. -/
lemma exchange_ending (steps : List (Stage × Event)) :
    (exchange failures steps).2 = (steps.map Prod.fst).findSome? (breakOff? failures) := by
  induction steps with
  | nil => rfl
  | cons step rest ih =>
      obtain ⟨stage, event⟩ := step
      rw [exchange, List.map_cons, List.findSome?_cons]
      cases breakOff? failures stage with
      | some failure => rfl
      | none => exact ih

lemma exchange_single (stage : Stage) (event : Event) :
    exchange failures [(stage, event)] = ([event], breakOff? failures stage) := by
  rw [exchange]
  cases breakOff? failures stage <;> rfl

/-- A dialogue opens a connection; where that succeeds, it closes it at the end. -/
lemma dialogue_eq : ∃ said, said <+: [.greet, .secure, .logIn message.sender password, .send message] ∧
    (dialogue failures password message).1 =
      if (breakOff? failures .connect).isSome then [.connect server]
      else .connect server :: said ++ [.close] := by
  refine ⟨_, exchange_isPrefix failures [(.greet, .greet), (.secure, .secure),
    (.logIn, .logIn message.sender password), (.send, .send message)], ?_⟩
  unfold dialogue
  rw [exchange_single]
  cases breakOff? failures .connect with
  | some failure => rfl
  | none =>
      dsimp only
      rw [exchange_single]
      rfl

/-- **At most one message is handed over**, and it is the one that the dialogue is about. -/
theorem messages_dialogue : messages (dialogue failures password message).1 <+: [message] := by
  obtain ⟨said, hsaid, heq⟩ := dialogue_eq failures password message
  rw [heq]
  split
  · exact List.nil_prefix
  · have hmessages : messages (.connect server :: said ++ [.close]) = messages said := by
      simp [messages, List.filterMap_cons, List.filterMap_append, Event.message?]
    rw [hmessages]
    exact hsaid.filterMap Event.message?

/-- **A connection that was opened is closed** as the last of the dialogue. -/
theorem closed_dialogue (h : breakOff? failures .connect = none) :
    (dialogue failures password message).1.getLast? = some .close := by
  obtain ⟨said, -, heq⟩ := dialogue_eq failures password message
  rw [heq, h]
  exact List.getLast?_concat

/-- **How a dialogue ends** once a connection is open: as its close goes wrong, unless the server was
gone by then, and else as the first of the other stages that did. -/
theorem ended_dialogue (h : breakOff? failures .connect = none) :
    (dialogue failures password message).2 =
      ((breakOff? failures .close).filter fun late => !late.isGone).or
        ([.greet, .secure, .logIn, .send].findSome? (breakOff? failures)) := by
  unfold dialogue
  rw [exchange_single, h]
  dsimp only
  rw [exchange_single, exchange_ending]
  rfl

/-- A message is refused, and then the server does not answer any more. -/
example : (dialogue [⟨.send, "SMTPDataError", "refused"⟩, ⟨.close, "TimeoutError", "timed out"⟩]
    password message).2 = some ⟨.close, "TimeoutError", "timed out"⟩ := by
  rw [ended_dialogue _ _ _ (by decide)]
  decide

end Mail

/-! ## Sending -/

namespace Campaign

/-- What a test send tells the server: nothing, or one dialogue about a message with the document,
which takes an account and its password. -/
def Told (before : World) (html : Text) (recipient : Value) (said : List Mail.Event) : Prop :=
  said = before.said ∨ ∃ password message,
    present before.environment.user = some message.sender ∧
    present before.environment.password = some password ∧
    message.recipient = recipient ∧ message.html = html ∧
    said = before.said ++ (Mail.dialogue before.failures password message).1

lemma messagePart_text {text part : Text} (h : messagePart (.text text) = .ok part) : part = text := by
  unfold messagePart at h
  simp only [Value.text?] at h
  split at h
  · exact (Except.ok.inj h).symm
  · cases h

/-- **A test send tells the server of the document it was given or of nothing**, and changes nothing
else but the journal. -/
theorem told_sendTest (w : World) (subject : Value) (html : Text) (recipient plain : Value) :
    ∃ said journal, ((sendTest subject (.text html) recipient plain).runIn w).2 =
      { w with said := said, journal := journal } ∧ Told w html recipient said := by
  have hnothing (journal : List Entry) : ∃ said journal', { w with journal := journal } =
      { w with said := said, journal := journal' } ∧ Told w html recipient said :=
    ⟨w.said, journal, rfl, .inl rfl⟩
  unfold sendTest
  rw [runIn_get_bind]
  dsimp only
  split
  · next user password huser hpassword =>
      cases messagePart plain with
      | error fault => exact hnothing w.journal
      | ok plain =>
      rw [runIn_ok_bind]
      cases hhtml : messagePart (.text html) with
      | error fault => exact hnothing w.journal
      | ok part =>
      obtain rfl := messagePart_text hhtml
      rw [runIn_ok_bind]
      cases recipient.written with
      | error fault => exact hnothing w.journal
      | ok address =>
      rw [runIn_ok_bind]
      cases subject.named with
      | error fault => exact hnothing w.journal
      | ok named =>
      rw [runIn_ok_bind, runIn_bind, runIn_enter]
      dsimp only
      rw [runIn_get_bind, runIn_bind, runIn_modify]
      have htold : Told w part recipient (w.said ++
          (Mail.dialogue w.failures password ⟨subject, user, recipient, plain, part⟩).1) :=
        .inr ⟨password, _, huser, hpassword, rfl, rfl, rfl⟩
      dsimp only
      -- what is left only reports how the dialogue ended
      split
      · exact ⟨_, _, rfl, htold⟩
      · split
        · exact ⟨_, _, rfl, htold⟩
        · exact ⟨_, _, rfl, htold⟩
  · exact hnothing _

end Campaign

end Mailshot
