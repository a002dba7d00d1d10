import Mathlib.Data.List.Forall2
import Mathlib.Order.RelClasses
import Mathlib.Tactic.Common
import Mailshot.Report

/-!
# Outcomes, one and two at a time

A computation ends in a result or in a fault, and most of what is proved about the compiler is
about one computation that succeeds, or about two that run side by side.

* `bind_eq_ok`, `mapM_eq_ok` — what a sequence of steps that succeeds did at each step.
* `run_bind`, `run_tryCatch` — the same for steps that change a state.
* `Leaves` — what such steps leave of the state, also where they fail; `Leaves.bind`,
  `Leaves.tryCatch` follow it along a sequence.
* `Report.outcome_bind` and its companions — the outcome of a report is that of its steps; the
  journal plays no part in it.
* `Outcome.Only` — a computation that ends in no other faults than those of a kind.
* `Outcome.Hinges` — a computation that succeeds exactly where a condition holds.
* `Outcome.Alike` — two computations that end in related results or in the same fault.  The
  relation may be *loose*: then one of the two may also fail where the other does not.
* **`Outcome.Alike.bind`**, `Outcome.Alike.mapM` — it is enough to compare the steps.
-/

namespace Mailshot

/-! ## One computation -/

section Steps

variable {ε α β : Type}

@[simp] lemma ok_bind (a : α) (f : α → Except ε β) : (Except.ok a >>= f) = f a := rfl

@[simp] lemma error_bind (e : ε) (f : α → Except ε β) :
    ((Except.error e : Except ε α) >>= f) = .error e := rfl

lemma bind_eq_ok {x : Except ε α} {f : α → Except ε β} {b : β} :
    (x >>= f) = .ok b ↔ ∃ a, x = .ok a ∧ f a = .ok b := by
  cases x with
  | ok a => simp
  | error e => simp

/-- What is known to succeed by computing it ends in the result that it computes. -/
lemma eq_ok_of_isOk [Inhabited α] {x : Except ε α} (h : x.isOk = true) :
    x = .ok (x.toOption.getD default) := by
  cases x with
  | ok a => rfl
  | error e => exact absurd h (by simp [Except.isOk, Except.toBool])

lemma map_eq_ok {x : Except ε α} {f : α → β} {b : β} :
    x.map f = .ok b ↔ ∃ a, x = .ok a ∧ f a = b := by
  cases x with
  | ok a => simp [Except.map]
  | error e => simp [Except.map]

/-- A list of steps succeeds with the results of its steps, in order. -/
lemma mapM_eq_ok {f : α → Except ε β} : ∀ {as : List α} {bs : List β},
    as.mapM f = .ok bs ↔ List.Forall₂ (fun a b => f a = .ok b) as bs
  | [], bs => by cases bs <;> simp [pure, Except.pure]
  | a :: as, bs => by
      rw [List.mapM_cons, bind_eq_ok]
      constructor
      · rintro ⟨b, hb, h⟩
        obtain ⟨rest, hrest, h⟩ := bind_eq_ok.mp h
        cases h
        exact .cons hb (mapM_eq_ok.mp hrest)
      · intro h
        cases h with
        | cons hb hrest => exact ⟨_, hb, bind_eq_ok.mpr ⟨_, mapM_eq_ok.mpr hrest, rfl⟩⟩

/-- What every step ensures of its result is true of all results. -/
lemma forall_of_mapM_eq_ok {f : α → Except ε β} {Q : β → Prop} {as : List α} {bs : List β}
    (h : as.mapM f = .ok bs) (hf : ∀ a ∈ as, ∀ b, f a = .ok b → Q b) : ∀ b ∈ bs, Q b := by
  replace h := mapM_eq_ok.mp h
  induction h with
  | nil => exact fun _ hb => absurd hb List.not_mem_nil
  | cons hab _ ih =>
      obtain ⟨ha, hrest⟩ := List.forall_mem_cons.mp hf
      exact List.forall_mem_cons.mpr ⟨ha _ hab, ih hrest⟩

/-- Every step of a list that succeeds does, and its result is one of the results. -/
lemma exists_of_mapM_eq_ok {f : α → Except ε β} {as : List α} {bs : List β}
    (h : as.mapM f = .ok bs) : ∀ a ∈ as, ∃ b ∈ bs, f a = .ok b := by
  replace h := mapM_eq_ok.mp h
  induction h with
  | nil => exact fun _ ha => absurd ha List.not_mem_nil
  | cons hab _ ih =>
      refine List.forall_mem_cons.mpr ⟨⟨_, List.mem_cons_self, hab⟩, fun a ha => ?_⟩
      obtain ⟨b, hb, hab⟩ := ih a ha
      exact ⟨b, List.mem_cons_of_mem _ hb, hab⟩

/-- Two steps taken along a list, one after the other or both at each item. -/
lemma mapM_bind_eq_ok {γ : Type} {f : α → Except ε β} {g : β → Except ε γ} {as : List α}
    {cs : List γ} : (as.mapM fun a => f a >>= g) = .ok cs ↔
      ∃ bs, as.mapM f = .ok bs ∧ bs.mapM g = .ok cs := by
  simp only [mapM_eq_ok, bind_eq_ok]
  constructor
  · intro h
    induction h with
    | nil => exact ⟨[], .nil, .nil⟩
    | cons hac _ ih =>
        obtain ⟨b, hb, hc⟩ := hac
        obtain ⟨bs, hbs, hcs⟩ := ih
        exact ⟨b :: bs, .cons hb hbs, .cons hc hcs⟩
  · rintro ⟨bs, hbs, hcs⟩
    induction hbs generalizing cs with
    | nil =>
        cases hcs
        exact .nil
    | cons hab _ ih =>
        cases hcs with
        | cons hbc hcs => exact .cons ⟨_, hab, hbc⟩ (ih hcs)

/-- Steps that end as others do, with their results changed, do so along a whole list. -/
lemma mapM_eq_map {γ δ : Type} {f : α → Except ε β} {f' : γ → Except ε δ} {g : β → δ} {as : List α}
    {cs : List γ} (h : List.Forall₂ (fun a c => f' c = (f a).map g) as cs) :
    cs.mapM f' = (as.mapM f).map (List.map g) := by
  induction h with
  | nil => rfl
  | @cons a c as cs hac _ ih =>
      rw [List.mapM_cons, List.mapM_cons, hac, ih]
      cases f a with
      | error e => rfl
      | ok b => cases as.mapM f <;> rfl

end Steps

/-! ## Computations that change a state -/

section States

variable {σ α β : Type}

/-- A sequence of steps that change a state; a fault ends it, and leaves the state as it is then. -/
lemma run_bind (s : σ) (x : ExceptT Fault (StateM σ) α) (f : α → ExceptT Fault (StateM σ) β) :
    (ExceptT.run (x >>= f)).run s = match (ExceptT.run x).run s with
      | (.ok a, after) => (ExceptT.run (f a)).run after
      | (.error fault, after) => (.error fault, after) := by
  show (ExceptT.run x >>= ExceptT.bindCont f).run s = _
  rw [StateT.run_bind]
  rcases (ExceptT.run x).run s with ⟨outcome, after⟩
  cases outcome <;> rfl

/-- A fault that is dealt with in the state that it left. -/
lemma run_tryCatch (s : σ) (x : ExceptT Fault (StateM σ) α)
    (f : Fault → ExceptT Fault (StateM σ) α) :
    (ExceptT.run (tryCatch x f)).run s = match (ExceptT.run x).run s with
      | (.ok a, after) => (.ok a, after)
      | (.error fault, after) => (ExceptT.run (f fault)).run after := by
  simp only [tryCatch, tryCatchThe, MonadExceptOf.tryCatch, ExceptT.run, ExceptT.tryCatch, ExceptT.mk]
  rw [StateT.run_bind]
  rcases StateT.run x s with ⟨outcome, after⟩
  cases outcome <;> rfl

/-- A computation that leaves the state in some relation to what it was, also where it fails. -/
def Leaves (R : σ → σ → Prop) (x : ExceptT Fault (StateM σ) α) : Prop :=
  ∀ s, R s ((ExceptT.run x).run s).2

namespace Leaves

variable {R S T : σ → σ → Prop} {x : ExceptT Fault (StateM σ) α}

/-- Two steps in a sequence; the second may not be reached. -/
lemma bind_of {f : α → ExceptT Fault (StateM σ) β} (hx : Leaves R x) (hf : ∀ a, Leaves S (f a))
    (hfirst : ∀ {s t}, R s t → T s t) (hboth : ∀ {s t u}, R s t → S t u → T s u) :
    Leaves T (x >>= f) := by
  intro s
  have h := hx s
  rw [run_bind]
  generalize (ExceptT.run x).run s = result at h ⊢
  obtain ⟨outcome, after⟩ := result
  cases outcome with
  | ok a => exact hboth h (hf a after)
  | error fault => exact hfirst h

section Preorders

variable [IsPreorder σ R]

lemma bind {f : α → ExceptT Fault (StateM σ) β} (hx : Leaves R x) (hf : ∀ a, Leaves R (f a)) :
    Leaves R (x >>= f) :=
  hx.bind_of hf id (trans_of R)

lemma tryCatch {f : Fault → ExceptT Fault (StateM σ) α} (hx : Leaves R x)
    (hf : ∀ fault, Leaves R (f fault)) : Leaves R (tryCatch x f) := by
  intro s
  have h := hx s
  rw [run_tryCatch]
  generalize (ExceptT.run x).run s = result at h ⊢
  obtain ⟨outcome, after⟩ := result
  cases outcome with
  | ok a => exact h
  | error fault => exact trans_of R h (hf fault after)

/-- What comes after a fault is not reached. -/
lemma throw_bind (fault : Fault) (f : α → ExceptT Fault (StateM σ) β) :
    Leaves R ((throw fault : ExceptT Fault (StateM σ) α) >>= f) := fun s => refl_of R s

lemma pure (a : α) : Leaves R (pure a : ExceptT Fault (StateM σ) α) := fun s => refl_of R s

lemma throw (fault : Fault) : Leaves R (throw fault : ExceptT Fault (StateM σ) α) :=
  fun s => refl_of R s

lemma get : Leaves R (get : ExceptT Fault (StateM σ) σ) := fun s => refl_of R s

lemma lift (x : Except Fault α) : Leaves R (liftM x : ExceptT Fault (StateM σ) α) := by
  cases x with
  | ok a => exact pure a
  | error fault => exact throw fault

end Preorders

end Leaves

end States

/-! ## Outcomes of reports -/

namespace Report

variable {α β : Type}

@[simp] lemma outcome_pure (a : α) : (pure a : Report α).outcome = .ok a := rfl

@[simp] lemma outcome_bind (x : Report α) (f : α → Report β) :
    (x >>= f).outcome = x.outcome >>= fun a => (f a).outcome := by
  show (Report.bind x f).outcome = _
  unfold Report.bind
  cases x.outcome <;> rfl

@[simp] lemma outcome_lift (x : Except Fault α) : (liftM x : Report α).outcome = x := rfl

/-- A step that succeeds and leaves no trace. -/
@[simp] lemma lift_ok_bind (a : α) (f : α → Report β) :
    ((liftM (.ok a : Except Fault α) : Report α) >>= f) = f a := rfl

/-- A step that fails ends the sequence. -/
@[simp] lemma error_bind (e : Fault) (f : α → Report β) :
    ((ofOutcome (.error e) : Report α) >>= f) = ofOutcome (.error e) := rfl

@[simp] lemma lift_error_bind (e : Fault) (f : α → Report β) :
    ((liftM (.error e : Except Fault α) : Report α) >>= f) = ofOutcome (.error e) := rfl

@[simp] lemma outcome_enter (level : Level) (text : Text) : (enter level text).outcome = .ok () := rfl

end Report

/-! ## The faults of a computation -/

namespace Outcome

/-- A computation that ends in no other faults than those of a kind. -/
def Only (P : Fault → Prop) {α : Type} (x : Except Fault α) : Prop := ∀ f, x = .error f → P f

namespace Only

variable {P : Fault → Prop} {α β : Type}

@[simp] lemma ok (a : α) : Only P (.ok a : Except Fault α) := fun _ h => by cases h

@[simp] lemma error_iff {f : Fault} : Only P (.error f : Except Fault α) ↔ P f := by
  constructor
  · exact fun h => h f rfl
  · intro h g hg
    cases hg
    exact h

/-- A sequence ends in the faults of its steps. -/
lemma bind {x : Except Fault α} {f : α → Except Fault β} (hx : Only P x)
    (hf : ∀ a, x = .ok a → Only P (f a)) : Only P (x >>= f) := by
  cases x with
  | ok a => exact hf a rfl
  | error e => exact error_iff.mpr (error_iff.mp hx)

lemma mapM {f : α → Except Fault β} {as : List α} (h : ∀ a ∈ as, Only P (f a)) :
    Only P (as.mapM f) := by
  induction as with
  | nil => exact ok _
  | cons a rest ih =>
      obtain ⟨ha, hrest⟩ := List.forall_mem_cons.mp h
      rw [List.mapM_cons]
      exact ha.bind fun b _ => (ih hrest).bind fun bs _ => ok _

end Only

/-- A computation that succeeds exactly where a condition holds, and ends in the given fault where it
does not. -/
structure Hinges (Q : Prop) (fault : Fault) {α : Type} (x : Except Fault α) : Prop where
  ok : Q → ∃ a, x = .ok a
  error : ¬ Q → x = .error fault

namespace Hinges

variable {Q R : Prop} {fault : Fault} {α β : Type}

lemma succeeds (a : α) : Hinges True fault (.ok a : Except Fault α) :=
  ⟨fun _ => ⟨a, rfl⟩, fun h => absurd trivial h⟩

lemma congr {x : Except Fault α} (hx : Hinges Q fault x) (h : Q ↔ R) : Hinges R fault x :=
  ⟨fun hr => hx.ok (h.mpr hr), fun hr => hx.error fun hq => hr (h.mp hq)⟩

/-- A sequence succeeds where both steps do. -/
lemma bind {x : Except Fault α} {f : α → Except Fault β} (hx : Hinges Q fault x)
    (hf : ∀ a, x = .ok a → Hinges R fault (f a)) : Hinges (Q ∧ R) fault (x >>= f) := by
  by_cases hq : Q
  · obtain ⟨a, rfl⟩ := hx.ok hq
    exact (hf a rfl).congr (and_iff_right hq).symm
  · rw [hx.error hq, error_bind]
    exact ⟨fun h => absurd h.1 hq, fun _ => rfl⟩

/-- A list of steps succeeds where all of them do. -/
lemma mapM {f : α → Except Fault β} {P : α → Prop} {as : List α}
    (h : ∀ a ∈ as, Hinges (P a) fault (f a)) : Hinges (∀ a ∈ as, P a) fault (as.mapM f) := by
  induction as with
  | nil => exact (succeeds []).congr (by simp)
  | cons a rest ih =>
      obtain ⟨ha, hrest⟩ := List.forall_mem_cons.mp h
      rw [List.mapM_cons]
      have hboth := ha.bind fun b _ => (ih hrest).bind fun bs _ => succeeds (b :: bs)
      exact hboth.congr (by rw [and_true, List.forall_mem_cons])

end Hinges

end Outcome

/-! ## Two computations -/

namespace Outcome

variable {loose : Prop} {α β γ δ : Type}

/-- Both computations end in related results, or both in the same fault; where the comparison is
loose, either may also end in a fault of its own. -/
inductive Alike (loose : Prop) (R : α → β → Prop) : Except Fault α → Except Fault β → Prop
  | ok {a : α} {b : β} : R a b → Alike loose R (.ok a) (.ok b)
  | fault (f : Fault) : Alike loose R (.error f) (.error f)
  | left (f : Fault) (y : Except Fault β) : loose → Alike loose R (.error f) y
  | right (x : Except Fault α) (f : Fault) : loose → Alike loose R x (.error f)

namespace Alike

variable {R : α → β → Prop} {S : γ → δ → Prop} {x : Except Fault α} {y : Except Fault β}

@[simp] lemma ok_iff {a : α} {b : β} : Alike loose R (.ok a) (.ok b) ↔ R a b := by
  constructor
  · intro h
    cases h with
    | ok h => exact h
  · exact .ok

/-- What two computations that succeed are compared by. -/
lemma results {a : α} {b : β} (h : Alike loose R x y) (hx : x = .ok a) (hy : y = .ok b) : R a b := by
  subst hx hy
  exact ok_iff.mp h

/-- A strict comparison carries success over. -/
lemma result {a : α} (h : Alike False R x y) (hx : x = .ok a) : ∃ b, y = .ok b ∧ R a b := by
  subst hx
  cases h with
  | ok h => exact ⟨_, rfl, h⟩
  | right _ _ h => exact h.elim

/-- And back. -/
lemma result' {b : β} (h : Alike False R x y) (hy : y = .ok b) : ∃ a, x = .ok a ∧ R a b := by
  subst hy
  cases h with
  | ok h => exact ⟨_, rfl, h⟩
  | left _ _ h => exact h.elim

/-- A strict comparison by equality is equality. -/
lemma eq {x y : Except Fault α} (h : Alike False (· = ·) x y) : x = y := by
  cases h with
  | ok h => rw [h]
  | fault f => rfl
  | left _ _ h => exact h.elim
  | right _ _ h => exact h.elim

/-- For a loose comparison only two successes count. -/
lemma of_results (hl : loose) (h : ∀ a b, x = .ok a → y = .ok b → R a b) : Alike loose R x y := by
  cases x with
  | error f => exact .left f y hl
  | ok a =>
      cases y with
      | error f => exact .right _ f hl
      | ok b => exact .ok (h a b rfl rfl)

/-- **Steps compared one after the other.**  The second steps need to be compared only at results
that the first ones gave. -/
theorem bind_of {f : α → Except Fault γ} {g : β → Except Fault δ} (h : Alike loose R x y)
    (hfg : ∀ a b, x = .ok a → y = .ok b → R a b → Alike loose S (f a) (g b)) :
    Alike loose S (x >>= f) (y >>= g) := by
  cases h with
  | ok h => exact hfg _ _ rfl rfl h
  | fault f => exact .fault f
  | left f _ hl => exact .left f _ hl
  | right _ f hl => exact .right _ f hl

lemma bind {f : α → Except Fault γ} {g : β → Except Fault δ} (h : Alike loose R x y)
    (hfg : ∀ a b, R a b → Alike loose S (f a) (g b)) : Alike loose S (x >>= f) (y >>= g) :=
  h.bind_of fun a b _ _ => hfg a b

lemma map {f : α → γ} {g : β → δ} (h : Alike loose R x y) (hfg : ∀ a b, R a b → S (f a) (g b)) :
    Alike loose S (x.map f) (y.map g) := by
  cases h with
  | ok h => exact .ok (hfg _ _ h)
  | fault f => exact .fault f
  | left f _ hl => exact .left f _ hl
  | right _ f hl => exact .right _ f hl

lemma refl {R : α → α → Prop} (h : ∀ a, R a a) (x : Except Fault α) : Alike loose R x x := by
  cases x with
  | ok a => exact .ok (h a)
  | error f => exact .fault f

/-- Steps taken along two lists, item by item. -/
lemma mapM {f : α → Except Fault γ} {g : β → Except Fault δ}
    (hfg : ∀ a b, R a b → Alike loose S (f a) (g b)) :
    ∀ {as : List α} {bs : List β}, List.Forall₂ R as bs →
      Alike loose (List.Forall₂ S) (as.mapM f) (bs.mapM g)
  | _, _, .nil => .ok .nil
  | _, _, .cons h hrest => by
      rw [List.mapM_cons, List.mapM_cons]
      refine (hfg _ _ h).bind fun c d hcd => ?_
      exact (mapM hfg hrest).bind fun cs ds hcds => .ok (.cons hcd hcds)

end Alike

end Outcome

end Mailshot
