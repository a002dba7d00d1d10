import Mailshot.Proofs.Lineage.Basic

/-!
# Ids through a session

The origins of products are followed along a session, edit by edit and without a look at any id.  In
every version the products bear the ids of their origins, which are different ones.

* `Traced` — a version whose products bear the ids of their origins.
* `Traced.append`, `Traced.escape` and their companions, **`Edit.run_traced`** — what one edit
  keeps.
* `Session.follow`, `Session.lineage` — the origins in all versions, after a step and after a
  session.
* `Session.take_traces`, **`Session.run_traces`** — what a step keeps, and a session.
* **`Session.ids_unique`** — in every version the ids are apart, and added products keep theirs.
-/

namespace Mailshot

open Text

/-! ## One edit -/

/-- What is known of a version: it can be edited, its products have different origins, and they bear
the ids of these. -/
structure Traced (given : List Text) (ids : Nat → Text) (drawn : Nat) (c : Fields) (escapes : Nat)
    (origins : List Origin) : Prop where
  editable : Config.Editable c
  bears : Config.Bears c (origins.map (Origin.idAfter given ids escapes))
  nodup : origins.Nodup
  within : ∀ o ∈ origins, o.Within given.length drawn

section Traced

variable {given : List Text} {ids : Nat → Text} {drawn n escapes : Nat} {c : Fields}
  {origins : List Origin}

lemma Traced.mono (h : Traced given ids drawn c escapes origins) (hn : drawn ≤ n) :
    Traced given ids n c escapes origins where
  editable := h.editable
  bears := h.bears
  nodup := h.nodup
  within o ho := (h.within o ho).mono hn

lemma Traced.length_listed (h : Traced given ids drawn c escapes origins) :
    (Config.listed c).length = origins.length := by
  simpa using h.bears.length_listed

/-- **A new product** has an origin that no product had. -/
lemma Traced.append (h : Traced given ids drawn c escapes origins) {p : Fields} (hp : p.Distinct)
    (hid : p.look "id" = .text (ids drawn)) :
    Traced given ids (drawn + 1)
      (Config.withListed c ((Change.append p).apply (Config.listed c))) escapes
      (origins ++ [.added drawn]) where
  editable := Change.Proper.editable (show (Change.append p).Proper from hp) h.editable
  bears := by
    rw [List.map_append]
    exact h.bears.append hid
  nodup := by
    have hnew : .added drawn ∉ origins := fun hmem => Nat.lt_irrefl drawn (h.within _ hmem)
    simpa [List.nodup_append] using ⟨h.nodup, fun o ho heq => hnew (heq ▸ ho)⟩
  within := by
    rw [List.forall_mem_append]
    exact ⟨fun o ho => (h.within o ho).mono (Nat.le_succ drawn),
      List.forall_mem_singleton.mpr (Nat.lt_succ_self drawn)⟩

lemma Traced.set (h : Traced given ids drawn c escapes origins) {key : Scalar}
    (hfield : Product.isField key = true) (hkey : key ≠ .text (ofString "id")) (place : Nat)
    (value : Value) :
    Traced given ids drawn
      (Config.withListed c ((Change.set place key value).apply (Config.listed c))) escapes
      origins where
  editable :=
    Change.Proper.editable (show (Change.set place key value).Proper from hfield) h.editable
  bears := h.bears.set hkey place value
  nodup := h.nodup
  within := h.within

lemma Traced.erase (h : Traced given ids drawn c escapes origins) (place : Nat) :
    Traced given ids drawn
      (Config.withListed c ((Change.erase place).apply (Config.listed c))) escapes
      (origins.eraseIdx place) where
  editable := Change.Proper.editable (show (Change.erase place).Proper from trivial) h.editable
  bears := by
    rw [← List.eraseIdx_map]
    exact h.bears.erase place
  nodup := h.nodup.eraseIdx place
  within o ho := h.within o (List.mem_of_mem_eraseIdx ho)

lemma Traced.completed (h : Traced given ids drawn c escapes origins) :
    Traced given ids drawn (Config.completed c) escapes origins where
  editable := Config.editable_completed c
  bears := h.bears.completed h.editable
  nodup := h.nodup
  within := h.within

lemma Traced.escape (hids : FreshIds given ids drawn)
    (h : Traced given ids drawn c escapes origins) :
    Traced given ids drawn (Fields.escape c) (escapes + 1) origins where
  editable := h.editable.escape
  bears := by
    have hescape : (origins.map (Origin.idAfter given ids escapes)).map Text.escape =
        origins.map (Origin.idAfter given ids (escapes + 1)) := by
      rw [List.map_map]
      exact List.map_congr_left fun o ho => hids.escape_idAfter (h.within o ho)
    rw [← hescape]
    exact h.bears.escape h.editable
  nodup := h.nodup
  within := h.within

/-- **An edit** that leaves the ids to the session makes a version whose products are traced too. -/
theorem Edit.run_traced {e : Edit} (he : e.KeepsIds) (hids : FreshIds given ids drawn)
    (h : Traced given ids drawn c escapes origins) {v : Value}
    (hrun : (e.run ids drawn (.map c)).1 = .ok v) :
    ∃ d escapes', v = .map d ∧
      Traced given ids (e.run ids drawn (.map c)).2 d escapes' (e.origins drawn origins) := by
  have hlists := h.editable.lists
  cases e with
  | add product =>
      obtain rfl : product = none := he
      obtain ⟨change, hchange, rfl, hdrawn⟩ :=
        exists_change_of_run (e := .add none) hlists trivial hrun
      simp only [Edit.change] at hchange
      obtain ⟨p, hp, rfl⟩ := map_eq_ok.mp hchange
      rw [hdrawn]
      exact ⟨_, escapes, rfl,
        h.append (Product.distinct_fresh hp) (Product.look_id_fresh (by simp) hp)⟩
  | addFresh chosen =>
      obtain ⟨change, hchange, rfl, hdrawn⟩ :=
        exists_change_of_run (e := .addFresh chosen) hlists trivial hrun
      obtain ⟨p, hp, rfl⟩ := map_eq_ok.mp hchange
      rw [hdrawn]
      exact ⟨_, escapes, rfl, h.append (Product.distinct_fresh hp) (Product.look_id_fresh he hp)⟩
  | update index field value =>
      obtain ⟨change, hchange, rfl, hdrawn⟩ :=
        exists_change_of_run (e := .update index field value) hlists trivial hrun
      obtain ⟨key, hkey, hchange⟩ := bind_eq_ok.mp hchange
      obtain ⟨place, -, hchange⟩ := bind_eq_ok.mp hchange
      cases hchange
      obtain ⟨rfl, hfield⟩ := Config.productField_eq_ok.mp hkey
      have hid : key ≠ .text (ofString "id") := fun hkey => he (congrArg Value.scalar hkey)
      rw [hdrawn]
      exact ⟨_, escapes, rfl, h.set hfield hid place value⟩
  | remove index =>
      obtain ⟨change, hchange, rfl, hdrawn⟩ :=
        exists_change_of_run (e := .remove index) hlists trivial hrun
      obtain ⟨place, hplace, rfl⟩ := map_eq_ok.mp hchange
      have herase : (Edit.remove index).origins drawn origins = origins.eraseIdx place := by
        simp only [Edit.origins, ← h.length_listed, hplace]
      rw [hdrawn, herase]
      exact ⟨_, escapes, rfl, h.erase place⟩
  | resolve =>
      rw [run, Config.resolve_of_editable h.editable] at hrun
      cases hrun
      exact ⟨_, escapes, rfl, h.completed⟩
  | escape =>
      obtain ⟨-, rfl⟩ := run_escape_eq_ok.mp hrun
      exact ⟨_, escapes + 1, rfl, h.escape hids⟩

end Traced

/-- An edit gives no id back. -/
lemma Edit.drawn_le_run (ids : Nat → Text) (drawn : Nat) (v : Value) (e : Edit) :
    drawn ≤ (e.run ids drawn v).2 := by
  cases e with
  | add product =>
      cases product with
      | some p => exact Nat.le_refl drawn
      | none =>
          simp only [run]
          split
          · exact Nat.le_succ drawn
          · exact Nat.le_refl drawn
  | addFresh chosen =>
      simp only [run]
      split
      · exact Nat.le_succ drawn
      · exact Nat.le_refl drawn
  | update index field value => exact Nat.le_refl drawn
  | remove index => exact Nat.le_refl drawn
  | resolve => exact Nat.le_refl drawn
  | escape => exact Nat.le_refl drawn

/-! ## Sessions -/

/-- Two lists that are related item by item are related at every place, and beyond. -/
lemma forall₂_getD {α β : Type} {R : α → β → Prop} {as : List α} {bs : List β} {a : α} {b : β}
    (h : List.Forall₂ R as bs) (hab : R a b) (n : Nat) : R (as.getD n a) (bs.getD n b) := by
  induction h generalizing n with
  | nil => exact hab
  | cons hfirst _ ih =>
      cases n with
      | zero => exact hfirst
      | succ n => exact ih n

namespace Session

/-- The origins in all versions after a step, from those in all versions before. -/
def follow (ids : Nat → Text) (s : Session) (known : List (List Origin)) (step : Step) :
    List (List Origin) :=
  match step.action, (s.take ids step).2.version with
  | .edit e, some _ =>
      let before := known.getD (step.version.getD s.newest) (known.headD [])
      known ++ [e.origins s.drawn before]
  | _, _ => known

/-- The origins of the products in all versions, the first one in front, after a list of steps. -/
def lineage (ids : Nat → Text) (s : Session) (known : List (List Origin)) :
    List Step → List (List Origin)
  | [] => known
  | step :: rest => lineage ids (s.take ids step).1 (s.follow ids known step) rest

variable {given : List Text} {ids : Nat → Text} {s : Session} {known : List (List Origin)}
  {step : Step}

/-- All versions are traced. -/
def Traces (given : List Text) (ids : Nat → Text) (s : Session) (known : List (List Origin)) :
    Prop :=
  List.Forall₂ (fun v origins => ∃ c escapes, v = .map c ∧
    Traced given ids s.drawn c escapes origins) s.versions known

/-- So is the version with a number, which is the first one where there is none. -/
lemma Traces.version (h : Traces given ids s known) (n : Nat) : ∃ c escapes,
    s.version n = .map c ∧ Traced given ids s.drawn c escapes (known.getD n (known.headD [])) := by
  cases known with
  | nil => cases h
  | cons origins rest => exact forall₂_getD h (List.forall₂_cons.mp h).1 n

lemma drawn_le_take (ids : Nat → Text) (s : Session) (step : Step) :
    s.drawn ≤ (s.take ids step).1.drawn := by
  obtain ⟨n, action⟩ := step
  cases action with
  | look l => exact Nat.le_refl _
  | edit e =>
      have hle := e.drawn_le_run ids s.drawn (s.version (n.getD s.newest))
      unfold take
      dsimp only
      split
      · next hrun => rwa [hrun] at hle
      · next hrun => rwa [hrun] at hle

lemma drawn_le_run (ids : Nat → Text) (s : Session) (steps : List Step) :
    s.drawn ≤ (s.run ids steps).1.drawn := by
  induction steps generalizing s with
  | nil => exact Nat.le_refl _
  | cons step rest ih => exact (drawn_le_take ids s step).trans (ih _)

/-- **A step** keeps all versions traced. -/
theorem take_traces (hstep : ∀ e, step.action = .edit e → e.KeepsIds)
    (hids : FreshIds given ids s.drawn) (h : Traces given ids s known) :
    Traces given ids (s.take ids step).1 (s.follow ids known step) := by
  have hle := drawn_le_take ids s step
  have hold : List.Forall₂ (fun v origins => ∃ c escapes, v = .map c ∧
      Traced given ids (s.take ids step).1.drawn c escapes origins) s.versions known :=
    h.imp fun _ _ ⟨c, escapes, hc, ht⟩ => ⟨c, escapes, hc, ht.mono hle⟩
  obtain ⟨n, action⟩ := step
  cases action with
  | look l => exact hold
  | edit e =>
      obtain ⟨c, escapes, hc, ht⟩ := h.version (n.getD s.newest)
      have hedited := fun v => Edit.run_traced (hstep e rfl) hids ht (v := v)
      rw [← hc] at hedited
      simp only [Traces, follow, take] at hold ⊢
      generalize e.run ids s.drawn (s.version (n.getD s.newest)) = result at hold hedited ⊢
      obtain ⟨outcome, drawn⟩ := result
      cases outcome with
      | error fault => exact hold
      | ok edited =>
          obtain ⟨d, escapes', rfl, hd⟩ := hedited edited rfl
          exact List.rel_append hold (.cons ⟨d, escapes', rfl, hd⟩ .nil)

/-- **A session** keeps all versions traced. -/
theorem run_traces {steps : List Step}
    (hsteps : ∀ step ∈ steps, ∀ e, step.action = .edit e → e.KeepsIds)
    (hids : FreshIds given ids (s.run ids steps).1.drawn) (h : Traces given ids s known) :
    Traces given ids (s.run ids steps).1 (s.lineage ids known steps) := by
  induction steps generalizing s known with
  | nil => exact h
  | cons step rest ih =>
      obtain ⟨hstep, hrest⟩ := List.forall_mem_cons.mp hsteps
      exact ih hrest hids (take_traces hstep (hids.anti (drawn_le_run ids s (step :: rest))) h)

lemma map_idAfter_given (given : List Text) (ids : Nat → Text) :
    ((List.range given.length).map Origin.given).map (Origin.idAfter given ids 0) = given := by
  rw [List.map_map]
  refine List.ext_getElem (by simp) fun place _ hplace => ?_
  simp [Origin.idAfter, hplace]

/-- A session starts with one version, traced. -/
lemma start_traces {c : Fields} (hc : Config.Editable c) (hgiven : Config.Bears c given) :
    Traces given ids (start (.map c)) [(List.range given.length).map .given] := by
  refine .cons ⟨c, 0, rfl, hc, ?_, ?_, ?_⟩ .nil
  · rwa [map_idAfter_given]
  · exact List.nodup_range.map fun _ _ h => Origin.given.inj h
  · rw [List.forall_mem_map]
    exact fun place hplace => List.mem_range.mp hplace

/-- **Ids stay unique.**  The sample campaign, or any configuration that lists products with
different texts for ids, is edited: products are added with ids drawn for them, their other fields are
set, they are taken out, and versions are completed and escaped, each step from any version.  If the
ids that the session draws are different ones of thirty-two hexadecimal digits, none of them given,
then in every version the products bear the ids of their origins, and all of these are different: an
added product bears the id that was drawn for it, and a given one its own, escaped as often as the
version was. -/
theorem ids_unique :
    (Config.Editable Config.sample ∧ Config.Bears Config.sample ["1", "2", "3"] ∧
      (["1", "2", "3"] : List Text).Nodup ∧
      ∀ id : Text, id.IsHexId → id ∉ (["1", "2", "3"] : List Text)) ∧
    ∀ (c : Fields) (given : List Text) (ids : Nat → Text) (steps : List Step), Config.Editable c →
      Config.Bears c given → given.Nodup →
      (∀ step ∈ steps, ∀ e, step.action = .edit e → e.KeepsIds) →
      let last := ((start (.map c)).run ids steps).1
      FreshIds given ids last.drawn →
      List.Forall₂ (fun v origins => ∃ d escapes, v = .map d ∧ Config.Editable d ∧
          Config.Bears d (origins.map (Origin.idAfter given ids escapes)) ∧
          (origins.map (Origin.idAfter given ids escapes)).Nodup)
        last.versions
        ((start (.map c)).lineage ids [(List.range given.length).map .given] steps) := by
  refine ⟨⟨Config.sample_compilable.editable, by unfold Config.Bears; rfl, by decide, ?_⟩, ?_⟩
  · rintro id ⟨hlength, -⟩ hmem
    have hshort : ∀ t ∈ (["1", "2", "3"] : List Text), t.length = 1 := by decide
    exact absurd (hlength.symm.trans (hshort id hmem)) (by decide)
  · intro c given ids steps hc hbears hgiven hsteps last hids
    refine (run_traces hsteps hids (start_traces hc hbears)).imp ?_
    rintro v origins ⟨d, escapes, rfl, ht⟩
    exact ⟨d, escapes, rfl, ht.editable, ht.bears, hids.nodup hgiven ht.nodup ht.within⟩

/-- Products whose ids are markup, one of them escaped already. -/
def tagged : Fields := Fields.named [
  ("products", .list [.map (Fields.named [("id", .text "<")]),
    .map (Fields.named [("id", .text "&lt;"), ("name", .null)])])]

/-- Ids of zeros, but for the last digit. -/
def zeros (n : Nat) : Text := List.replicate 31 (.char '0') ++ [.char (Nat.digitChar n)]

theorem ids_unique_tagged :
    let steps : List Step := [⟨none, .edit (.add none)⟩, ⟨none, .edit .escape⟩,
      ⟨some 0, .edit (.addFresh [("name", .text "Bolt")])⟩, ⟨some 2, .edit (.remove (.int 0))⟩,
      ⟨none, .edit (.update (.int 5) (.text "price") .null)⟩, ⟨none, .edit .resolve⟩,
      ⟨none, .edit (.add none)⟩]
    let last := ((start (.map tagged)).run zeros steps).1
    Config.Editable tagged ∧ Config.Bears tagged ["<", "&lt;"] ∧
      (["<", "&lt;"] : List Text).Nodup ∧
      (∀ step ∈ steps, ∀ e, step.action = .edit e → e.KeepsIds) ∧
      FreshIds ["<", "&lt;"] zeros last.drawn ∧ last.newest = 6 ∧
      ∃ d escapes, last.current = .map d ∧
        Config.Bears d [Text.escape^[escapes] "&lt;", zeros 0, zeros 2] := by
  intro steps last
  have hdrawn : last.drawn = 3 := rfl
  have htagged : Config.Editable tagged :=
    ⟨by decide, .inr ⟨[Fields.named [("id", .text "<")],
      Fields.named [("id", .text "&lt;"), ("name", .null)]], rfl⟩, by decide⟩
  have hbears : Config.Bears tagged ["<", "&lt;"] := by
    unfold Config.Bears
    rfl
  have hsteps : ∀ step ∈ steps, ∀ e, step.action = .edit e → e.KeepsIds := by
    have hname : ofString "name" ≠ ofString "id" := by decide
    have hprice : ofString "price" ≠ ofString "id" := by decide
    simp [steps, Edit.KeepsIds, hname, hprice]
  have hids : FreshIds ["<", "&lt;"] zeros last.drawn := by
    rw [hdrawn]
    exact ⟨by decide, by decide, by decide⟩
  have hversions :=
    ids_unique.2 tagged ["<", "&lt;"] zeros steps htagged hbears (by decide) hsteps hids
  obtain ⟨d, escapes, hd, -, hborne, -⟩ :=
    forall₂_getD hversions (List.forall₂_cons.mp hversions).1 6
  exact ⟨htagged, hbears, by decide, hsteps, hids, rfl, d, escapes, hd, hborne⟩

end Session

end Mailshot
