import Mailshot.Proofs.Files
import Mailshot.World.Basic

/-!
# Work in a world

What a step of a run does to its world: to the files, to the mail server and to the journal.

* `Work.runIn_bind` and its companions — the outcome of work, and the world after it, step by step.
* `World.mail`, `Keeps` — what there is to know about the mail, and work that leaves a part of the
  world as it was, also where it fails.
* `Work.leaves_ofFiles` — work on the files changes a world as it changes the files.
-/

namespace Mailshot

/-- What there is to know about the mail: the environment, the server, and what it was told. -/
def World.mail (world : World) : Environment × List Mail.Failure × List Mail.Event :=
  (world.environment, world.failures, world.said)

/-- Two states that agree in some part. -/
def Same {σ τ : Type} (part : σ → τ) (before after : σ) : Prop := part after = part before

instance {σ τ : Type} (part : σ → τ) : IsPreorder σ (Same part) where
  refl _ := rfl
  trans _ _ _ h h' := Eq.trans h' h

namespace Work

variable {α β : Type} {w : World}

/-! ## Step by step -/

lemma runIn_bind (w : World) (x : Work α) (f : α → Work β) :
    runIn w (x >>= f) = match runIn w x with
      | (.ok a, after) => runIn after (f a)
      | (.error fault, after) => (.error fault, after) := by
  unfold runIn
  rw [run_bind]
  rcases (ExceptT.run x).run w with ⟨_ | _, after⟩ <;> rfl

/-- Work that has a result had one at every step. -/
lemma runIn_bind_eq_ok {w : World} {x : Work α} {f : α → Work β} {b : β} :
    (runIn w (x >>= f)).1 = .ok b ↔
      ∃ a, (runIn w x).1 = .ok a ∧ (runIn (runIn w x).2 (f a)).1 = .ok b := by
  rw [runIn_bind]
  rcases runIn w x with ⟨_ | a, after⟩ <;> simp

/-- Work whose result is changed at the end. -/
lemma runIn_bind_pure (w : World) (x : Work α) (f : α → β) :
    runIn w (x >>= fun a => pure (f a)) = ((runIn w x).1.map f, (runIn w x).2) := by
  rw [runIn_bind]
  rcases runIn w x with ⟨_ | _, after⟩ <;> rfl

lemma runIn_tryCatch (w : World) (x : Work α) (f : Fault → Work α) :
    runIn w (tryCatch x f) = match runIn w x with
      | (.ok a, after) => (.ok a, after)
      | (.error fault, after) => runIn after (f fault) := by
  unfold runIn
  rw [run_tryCatch]
  rcases (ExceptT.run x).run w with ⟨_ | _, after⟩ <;> rfl

@[simp] lemma runIn_pure (w : World) (a : α) : runIn w (pure a) = (.ok a, w) := rfl

lemma runIn_get_bind (w : World) (f : World → Work α) : runIn w (get >>= f) = runIn w (f w) := rfl

@[simp] lemma runIn_modify (w : World) (f : World → World) : runIn w (modify f) = (.ok (), f w) := rfl

@[simp] lemma runIn_lift (w : World) (x : Except Fault α) :
    runIn w (liftM x : Work α) = (x, w) := by
  cases x <;> rfl

lemma runIn_ok_bind (w : World) (a : α) (f : α → Work β) :
    runIn w (liftM (.ok a : Except Fault α) >>= f) = runIn w (f a) := rfl

/-- A report adds its journal to that of the world. -/
lemma runIn_ofReport (w : World) (x : Report α) :
    runIn w (ofReport x) = (x.outcome, { w with journal := w.journal ++ x.journal }) := by
  unfold ofReport
  rw [runIn_bind, runIn_modify]
  dsimp only
  cases x.outcome <;> rfl

lemma runIn_report (w : World) (x : Report α) :
    runIn w (liftM x : Work α) = (x.outcome, { w with journal := w.journal ++ x.journal }) :=
  runIn_ofReport w x

lemma runIn_enter (w : World) (level : Level) (text : Text) :
    runIn w (enter level text) = (.ok (), { w with journal := w.journal ++ [⟨level, text⟩] }) :=
  runIn_ofReport w _

/-- Work on the files changes them and nothing else. -/
lemma runIn_ofFiles (w : World) (x : FileWork α) :
    runIn w (ofFiles x) = ((x.runOn w.files).1, { w with files := (x.runOn w.files).2 }) := by
  unfold ofFiles
  rw [runIn_get_bind, runIn_bind, runIn_modify]
  dsimp only
  cases (x.runOn w.files).1 <;> rfl

/-! ## What steps leave as it was -/

variable {τ : Type} {part : World → τ}

lemma keeps_ofReport (h : ∀ w journal, part { w with journal := journal } = part w) (x : Report α) :
    Leaves (Same part) (ofReport x) := by
  intro w
  show part (runIn w (ofReport x)).2 = part w
  rw [runIn_ofReport]
  exact h w _

lemma keeps_ofFiles (h : ∀ w files, part { w with files := files } = part w) (x : FileWork α) :
    Leaves (Same part) (ofFiles x) := by
  intro w
  show part (runIn w (ofFiles x)).2 = part w
  rw [runIn_ofFiles]
  exact h w _

end Work

end Mailshot
