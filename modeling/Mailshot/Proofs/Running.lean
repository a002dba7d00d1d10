import Mailshot.Campaign.Run
import Mailshot.Proofs.Delivery

/-!
# What a run leaves behind

A run is all or nothing up to the test send.

* `Campaign.Compiled` — the configuration that a file holds, the document it compiles to, and the path
  where that goes.
* `Campaign.written_build`, `Campaign.written_prepare` — how a build, and the whole first half of a run,
  ends, and what it leaves of the files.
* `Campaign.Conversation` — what a run may tell the mail server.
* **`Campaign.run_all_or_nothing`** — a run that failed told the server nothing and left nothing but new
  folders, or an emptied file for a document without bytes; any other left its document, as a whole, and
  what it told the server was about that document.
-/

namespace Mailshot.Campaign

open FileTree FileWork Work

/-! ## Loading -/

section Loading

variable {τ : Type} {part : World → τ}

/-- Loading a configuration changes nothing but the journal. -/
lemma keeps_load (h : ∀ w journal, part { w with journal := journal } = part w) (path : Path) :
    Leaves (Same part) (load path) := by
  unfold load
  refine Leaves.get.bind fun w => ?_
  dsimp only
  split
  · exact .throw_bind _ _
  · refine (Leaves.lift _).bind fun content => (Leaves.lift _).bind fun objects => ?_
    split
    · refine (Leaves.lift _).bind fun count => (keeps_ofReport h _).bind fun _ => ?_
      exact Leaves.get.bind fun w => .lift _
    · exact .throw _

end Loading

/-! ## Building -/

/-- The document that a configuration compiles to, its sets in an order, and the path where it goes. -/
def Compiles (config : Value) (ρ : SetOrder) (target : Path) (html : Text) : Prop :=
  ∃ output, Output.ofConfig config = .ok output ∧ pathOf output.path = .ok target ∧
    (Document.html config output.escaped ρ).outcome = .ok html

/-- **A build writes its document as a whole or not at all**, unless that has no bytes. -/
theorem written_build (w : World) (config : Value) :
    Written w.files (fun result target html => result.1 = html ∧
        Compiles config (w.sets .compiling) target html)
      ((build config).runIn w).1 ((build config).runIn w).2.files := by
  unfold build
  cases houtput : Output.ofConfig config with
  | error fault => exact .nothing (.refl _)
  | ok output =>
  rw [runIn_ok_bind, runIn_get_bind, runIn_bind, runIn_report]
  cases hhtml : (Document.html config output.escaped (w.sets .compiling)).outcome with
  | error fault => exact .nothing (.refl _)
  | ok html =>
  dsimp only
  rw [runIn_bind, runIn_report]
  cases (enterHints config).outcome with
  | error fault => exact .nothing (.refl _)
  | ok _ =>
  dsimp only
  rw [runIn_bind_pure]
  generalize w.journal ++ _ ++ _ = journal
  have hwritten := written_write { w with journal := journal } html output.path
  refine hwritten.map (Prod.mk html) ?_
  rintro _ target _ ⟨-, hpath, rfl⟩
  exact ⟨rfl, output, houtput, hpath, hhtml⟩

/-- A build tells the mail server nothing. -/
lemma keeps_build (config : Value) : Leaves (Same World.mail) (build config) := by
  refine (Leaves.lift _).bind fun output => Leaves.get.bind fun w => ?_
  refine (keeps_ofReport (fun _ _ => rfl) _).bind fun html => ?_
  refine (keeps_ofReport (fun _ _ => rfl) _).bind fun _ => (keeps_write _ _).bind fun _ => .pure _

/-! ## Both together -/

/-- The configuration that the file at a path holds, the document it compiles to, and the path where
that goes. -/
structure Compiled (before : World) (source : Path) (config : Fields) (target : Path)
    (html : Text) : Prop where
  loaded : ((load source).runIn before).1 = .ok config
  compiles : Compiles (.map config) (before.sets .compiling) target html

/-- **The first half of a run writes its document as a whole or not at all**, unless that has no
bytes. -/
theorem written_prepare (w : World) (source : Path) :
    Written w.files (fun result target html => result.2 = html ∧
        Compiled w source result.1 target html)
      ((prepare source).runIn w).1 ((prepare source).runIn w).2.files := by
  unfold prepare
  rw [runIn_bind]
  have hfiles : (runIn w (load source)).2.files = w.files := keeps_load (fun _ _ => rfl) source w
  have hsets : (runIn w (load source)).2.sets = w.sets := keeps_load (fun _ _ => rfl) source w
  cases hload : runIn w (load source) with
  | mk loaded middle =>
  rw [hload] at hfiles hsets
  cases loaded with
  | error fault => exact .nothing fun _ => .inl (by rw [hfiles])
  | ok config =>
  have hloaded : ((load source).runIn w).1 = .ok config := by rw [hload]
  dsimp only at hfiles hsets ⊢
  rw [← hfiles, runIn_bind_pure]
  refine (written_build middle (.map config)).map (fun built => (config, built.1)) ?_
  rintro _ target html ⟨hhtml, hcompiles⟩
  exact ⟨hhtml, hloaded, hsets ▸ hcompiles⟩

lemma keeps_prepare (source : Path) : Leaves (Same World.mail) (prepare source) := by
  refine (keeps_load (fun _ _ => rfl) source).bind fun config => ?_
  exact (keeps_build (.map config)).bind fun _ => .pure _

/-! ## Sending -/

/-- **A run's test send** needs a recipient, and changes nothing but the journal and what the server
was told. -/
theorem told_send (w : World) (config : Value) (html : Text) :
    ∃ said journal, ((send config (.text html)).runIn w).2 =
      { w with said := said, journal := journal } ∧
      (said = w.said ∨ ∃ address, recipient config w.environment = .ok address ∧
        address.truthy = true ∧ Told w html address said) := by
  unfold send
  rw [runIn_get_bind]
  cases recipient config w.environment with
  | error fault => exact ⟨_, _, rfl, .inl rfl⟩
  | ok address =>
  rw [runIn_ok_bind]
  split
  · next htruthy =>
      cases Section.title config with
      | error fault => exact ⟨_, _, rfl, .inl rfl⟩
      | ok title =>
      rw [runIn_ok_bind]
      cases PlainText.ofConfig config with
      | error fault => exact ⟨_, _, rfl, .inl rfl⟩
      | ok plain =>
      rw [runIn_ok_bind, runIn_bind]
      generalize (if title.truthy then title else .text defaultSubject) = subject
      obtain ⟨said, journal, hafter, htold⟩ := told_sendTest w subject html address (.text plain)
      generalize runIn w (sendTest subject (.text html) address (.text plain)) = result at hafter ⊢
      obtain ⟨outcome, after⟩ := result
      obtain rfl := hafter
      rcases outcome with fault | ⟨_ | reason⟩
      all_goals exact ⟨_, _, rfl, .inr ⟨address, rfl, htruthy, htold⟩⟩
  · exact ⟨_, _, rfl, .inl rfl⟩

/-- What a run may tell the mail server once its document is written. -/
structure Conversation (environment : Environment) (failures : List Mail.Failure) (config : Fields)
    (html : Text) (said : List Mail.Event) : Prop where
  /-- At most one message is handed over. -/
  once : (Mail.messages said).length ≤ 1
  /-- Its second version is the document. -/
  document : ∀ message ∈ Mail.messages said, message.html = html
  /-- The server is told nothing without a recipient. -/
  addressed : said ≠ [] → ∃ address, recipient (.map config) environment = .ok address ∧
    address.truthy = true
  /-- The server is told nothing without an account and its password. -/
  credentials : said ≠ [] →
    (present environment.user).isSome = true ∧ (present environment.password).isSome = true
  /-- A connection that was opened is closed in the end. -/
  closed : said ≠ [] → Mail.breakOff? failures .connect = none → said.getLast? = some .close

/-- The test send of a run, in a world where nothing was said yet. -/
lemma conversation_send {w : World} (hsaid : w.said = []) (config : Fields) (html : Text) :
    ∃ said journal, ((send (.map config) (.text html)).runIn w).2 =
      { w with said := said, journal := journal } ∧
      Conversation w.environment w.failures config html said := by
  obtain ⟨said, journal, hafter, htold⟩ := told_send w (.map config) html
  refine ⟨said, journal, hafter, ?_⟩
  have hsilent : Conversation w.environment w.failures config html w.said := by
    rw [hsaid]
    exact ⟨by simp [Mail.messages], by simp [Mail.messages], by simp, by simp, by simp⟩
  rcases htold with rfl | ⟨address, hrecipient, htruthy, rfl | ⟨password, message, htold⟩⟩
  · exact hsilent
  · exact hsilent
  · obtain ⟨huser, hpassword, -, hhtml, rfl⟩ := htold
    rw [hsaid, List.nil_append]
    have hmessages := Mail.messages_dialogue w.failures password message
    refine ⟨hmessages.length_le, fun other hother => ?_, fun _ => ⟨address, hrecipient, htruthy⟩,
      fun _ => ⟨by rw [huser]; rfl, by rw [hpassword]; rfl⟩, fun _ h => Mail.closed_dialogue _ _ _ h⟩
    obtain rfl := List.mem_singleton.mp (hmessages.subset hother)
    exact hhtml

/-! ## The whole -/

section Whole

variable {w middle : World}

/-- A run whose first half fails reports that, and does nothing more. -/
lemma run_of_error {fault : Fault}
    (h : (prepare (configPath w.environment)).runIn w = (.error fault, middle)) :
    ∃ journal, run.runIn w = (.ok .failed, { middle with journal := journal }) := by
  unfold run
  rw [runIn_get_bind, runIn_bind, runIn_tryCatch, ← bind_pure_comp, runIn_bind, h]
  exact ⟨_, rfl⟩

/-- A run whose first half succeeds goes on to the test send, and does not end as failed. -/
lemma run_of_ok {config : Fields} {html : Text}
    (h : (prepare (configPath w.environment)).runIn w = (.ok (config, html), middle)) :
    ∃ ending, ending ≠ .ok .failed ∧
      run.runIn w = (ending, ((send (.map config) (.text html)).runIn middle).2) := by
  unfold run
  rw [runIn_get_bind, runIn_bind, runIn_tryCatch, ← bind_pure_comp, runIn_bind, h]
  dsimp only [runIn_pure]
  rw [runIn_bind]
  rcases runIn middle (send (.map config) (.text html)) with ⟨fault | _, after⟩
  · exact ⟨.error fault, by simp, rfl⟩
  · exact ⟨.ok .done, by simp, rfl⟩

end Whole

/-- **A run is all or nothing up to the test send**, at whatever stages the mail server breaks off and in
whatever order sets show.  A run that failed told the mail server nothing and changed nothing but by new
folders; only where the document has no bytes the file that it should go to is left empty.  A run whose
first half succeeds does not fail, however the test send goes: the document is in its file as a whole, no
other file is changed, and what the server was told is a conversation about that document. -/
theorem run_all_or_nothing (files : FileTree) (environment : Environment)
    (sets : Copying → SetOrder) (failures : List Mail.Failure) :
    let before : World := ⟨files, environment, sets, failures, [], []⟩
    let source := configPath environment
    let prepared := ((prepare source).runIn before).1
    let ending := (run.runIn before).1
    let after := (run.runIn before).2
    (ending = .ok .failed ↔ ∃ fault, prepared = .error fault) ∧
    (ending = .ok .failed → after.said = [] ∧
      (Grown files after.files ∨ ∃ config target html, Compiled before source config target html ∧
        html.string? = none ∧ Wrote files target .empty after.files)) ∧
    ∀ config html, prepared = .ok (config, html) →
      (∃ target content, Compiled before source config target html ∧
        encoded html = .ok content ∧ Wrote files target content after.files) ∧
      Conversation environment failures config html after.said := by
  intro before source
  dsimp only
  have hprepared := written_prepare before source
  have hmail : (runIn before (prepare source)).2.mail = before.mail := keeps_prepare source before
  generalize hfirst : runIn before (prepare source) = first at hprepared hmail ⊢
  obtain ⟨outcome, written, environment', sets', failures', said, journal⟩ := first
  obtain ⟨rfl, rfl, rfl⟩ : environment' = environment ∧ failures' = failures ∧ said = [] := by
    simpa [World.mail, before] using hmail
  cases hprepared with
  | nothing hgrown =>
      obtain ⟨entries, hrun⟩ := run_of_error hfirst
      rw [hrun]
      exact ⟨⟨fun _ => ⟨_, rfl⟩, fun _ => rfl⟩, fun _ => ⟨rfl, .inl hgrown⟩, fun _ _ h => by cases h⟩
  | emptied hgoes hstring hempty =>
      obtain ⟨entries, hrun⟩ := run_of_error hfirst
      rw [hrun]
      exact ⟨⟨fun _ => ⟨_, rfl⟩, fun _ => rfl⟩,
        fun _ => ⟨rfl, .inr ⟨_, _, _, hgoes.2, hstring, hempty⟩⟩, fun _ _ h => by cases h⟩
  | @whole result target html content _ hgoes hcontent hwrote =>
      obtain ⟨config, html⟩ := result
      obtain ⟨rfl, hcompiled⟩ := hgoes
      obtain ⟨ending, hending, hrun⟩ := run_of_ok hfirst
      obtain ⟨told, entries, hafter, htold⟩ := conversation_send
        (w := ⟨written, environment', sets', failures', [], journal⟩) rfl config html
      rw [hrun, hafter]
      refine ⟨⟨fun h => absurd h hending, fun ⟨_, h⟩ => by cases h⟩, fun h => absurd h hending,
        fun _ _ h => ?_⟩
      cases h
      exact ⟨⟨target, content, hcompiled, hcontent, hwrote⟩, htold⟩

/-! ### Two runs -/

/-- A working directory with nothing but a configuration file. -/
def configured (content : String) : FileTree :=
  FileTree.empty.withFile ⟨.above 0, [defaultConfig]⟩ content.toUTF8

/-- The files of a small campaign. -/
def named : FileTree := configured "company:\n  name: Acme\n"

/-- An environment with a recipient and an account. -/
def addressed : Environment := ⟨none, some "you@acme", some "me@acme", some "key"⟩

/-- A run that hands its document over. -/
theorem run_all_or_nothing_addressed :
    (Mail.messages (run.runIn (World.initial named addressed none)).2.said).length = 1 ∧
    ∃ config html,
      ((prepare (configPath addressed)).runIn (World.initial named addressed none)).1 =
        .ok (config, html) ∧
      (∃ target content,
        Compiled (World.initial named addressed none) (configPath addressed) config target html ∧
        encoded html = .ok content ∧
        Wrote named target content (run.runIn (World.initial named addressed none)).2.files) ∧
      Conversation addressed [] config html
        (run.runIn (World.initial named addressed none)).2.said := by
  have hsent : (Mail.messages (run.runIn (World.initial named addressed none)).2.said).length = 1 := by
    decide +kernel
  obtain ⟨hfailed, hsilent, hdone⟩ := run_all_or_nothing named addressed Copying.order []
  cases hprepared :
      ((prepare (configPath addressed)).runIn (World.initial named addressed none)).1 with
  | error fault =>
      -- a run that failed would have told the server nothing
      have hnone :
          (Mail.messages (run.runIn (World.initial named addressed none)).2.said).length = 0 := by
        rw [show (run.runIn (World.initial named addressed none)).2.said = [] from
          (hsilent (hfailed.mpr ⟨fault, hprepared⟩)).1]
        rfl
      exact absurd (hsent.symm.trans hnone) (by decide)
  | ok prepared => exact ⟨hsent, prepared.1, prepared.2, rfl, hdone _ _ hprepared⟩

/-- The files of a campaign with half a character in its title. -/
def halved : FileTree := configured "company:\n  name: \"\\ud800\"\n"

/-- **A run may fail and leave a file**, the one that it emptied for a document without bytes. -/
theorem run_failed_emptied :
    (run.runIn (World.initial halved ⟨none, none, none, none⟩ none)).1.toOption = some .failed ∧
      FileTree.changes halved
          (run.runIn (World.initial halved ⟨none, none, none, none⟩ none)).2.files =
        [(⟨.above 0, [defaultOutput]⟩, .empty)] := by
  decide +kernel

end Mailshot.Campaign
