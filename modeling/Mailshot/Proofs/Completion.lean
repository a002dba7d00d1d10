import Mailshot.Config.Session
import Mailshot.Proofs.Editing
import Mailshot.Proofs.Steady

/-!
# Completing early or late

An edit reads nothing of a configuration but how many products there are, and completing a
configuration changes neither that number nor what an edit can do.  So a session of edits may start
from a configuration or from what it is completed to: each edit does to one what it does to the other.
Only sets tell the two apart, for whatever is completed is copied, and a copy may show a set in another
order.

* `Config.Editable`, `Config.completed` — the configurations that are edited, and what they are
  completed to.
* `Change.map_apply`, `Config.completed_apply` — a change made before or after the completion.
* `Related`, `Edit.run_related` — two versions that are completed to the same, and one edit of each.
* **`Session.run_alike`** — all edits of a session.
* **`Session.completed_early_or_late`** — a session whose configuration is completed first, last or
  in between.
-/

namespace Mailshot

/-! ## Complete configurations -/

namespace Config

variable {c : Fields} {products : List Fields}

/-- A configuration that can be edited: it lists its products, and its keys and theirs are apart. -/
structure Editable (c : Fields) : Prop where
  config : c.Distinct
  lists : ListsProducts c
  products : ∀ p ∈ listed c, p.Distinct

/-- What such a configuration is completed to. -/
def completed (c : Fields) : Fields :=
  withListed (Fields.merge defaults c) ((listed c).map (Fields.merge Product.blank))

lemma resolve_of_editable (h : Editable c) : resolve (.map c) = .ok (completed c) :=
  resolve_eq_ok.mpr ⟨c, _, _, Value.fieldsOrNone_map c, items_of_listsProducts h.config h.lists,
    mapM_resolveProduct _, rfl⟩

@[simp] lemma listed_completed (c : Fields) :
    listed (completed c) = (listed c).map (Fields.merge Product.blank) :=
  listed_withListed _ _

lemma Editable.withListed (h : Editable c) (hp : ∀ p ∈ products, p.Distinct) :
    Editable (withListed c products) where
  config := h.config.put _ _
  lists := listsProducts_withListed c products
  products := by rwa [listed_withListed]

/-- What is completed can be edited. -/
lemma editable_completed (c : Fields) : Editable (completed c) where
  config := (Fields.distinct_merge defaults_distinct c).put _ _
  lists := listsProducts_withListed _ _
  products := by
    rw [listed_completed, List.forall_mem_map]
    exact fun p _ => Fields.distinct_merge blank_distinct p

/-- Other products put into a configuration before or after it is completed. -/
lemma completed_withListed (h : c.Distinct) (products : List Fields) :
    Config.completed (Config.withListed c products) =
      Config.withListed (Config.completed c) (products.map (Fields.merge Product.blank)) := by
  unfold Config.completed
  rw [listed_withListed]
  unfold Config.withListed
  rw [Fields.merge_put h rfl rfl, Fields.put_put, Fields.put_put]

/-- A complete configuration is completed to itself. -/
lemma completed_completed (h : c.Distinct) : completed (completed c) = completed c := by
  have hmerge : Fields.merge defaults (Fields.merge defaults c) = Fields.merge defaults c :=
    Fields.merge_merge defaults_sectioned defaults_distinct h
  have hproducts : ((listed c).map (Fields.merge Product.blank)).map (Fields.merge Product.blank) =
      (listed c).map (Fields.merge Product.blank) := by
    rw [List.map_map]
    exact List.map_congr_left fun p _ => Fields.merge_merge_of_flat blank_flat blank_distinct p
  conv_lhs => rw [completed, listed_completed, hproducts]
  unfold completed withListed
  rw [Fields.merge_put (Fields.distinct_merge defaults_distinct c) rfl rfl, hmerge, Fields.put_put]

/-- So is what is completed, its sets in another order. -/
lemma editable_ordered (h : Editable c) (ρ : SetOrder) : Editable ((completed c).ordered ρ) where
  config := (editable_completed c).config.ordered
  lists := .inr ⟨_, look_products_ordered (look_products (resolve_of_editable h))⟩
  products := by
    rw [listed_ordered (look_products (resolve_of_editable h))]
    intro p hp
    obtain ⟨i, hi, rfl⟩ := List.mem_mapIdx.mp hp
    exact ((editable_completed c).products _ (List.getElem_mem hi)).ordered

/-- And it is complete. -/
lemma completed_ordered (h : Editable c) (ρ : SetOrder) :
    completed ((completed c).ordered ρ) = (completed c).ordered ρ := by
  have hcomplete : resolve (.map (completed c)) = .ok (completed c) := by
    rw [resolve_of_editable (editable_completed c), completed_completed h.config]
  have hordered := resolve_ordered hcomplete ρ
  rw [resolve_of_editable (editable_ordered h ρ)] at hordered
  exact Except.ok.inj hordered

end Config

/-! ## Changes -/

namespace Product

/-- A field that products carry is a text under which the blank product holds no mapping. -/
lemma exists_of_isField {key : Scalar} (h : isField key = true) :
    ∃ t b, key = .text t ∧ Fields.find? blank (.text t) = some b ∧ b.asMap = none := by
  obtain ⟨f, hf, hkey⟩ := List.any_eq_true.mp h
  have htext : ∀ f ∈ blank, f.1.isText = true := by decide +kernel
  obtain ⟨t, ht⟩ := Scalar.isText_iff.mp (htext f hf)
  obtain ⟨b, hb⟩ := Option.isSome_iff_exists.mp (Fields.isSome_find? hf ht)
  obtain ⟨g, hg, -, rfl⟩ := Fields.exists_mem_of_find? hb
  rw [ht] at hkey
  exact ⟨t, g.2, Scalar.text_same.mp hkey, hb, Config.blank_flat.asMap_eq_none hg⟩

lemma placeholder_distinct : Fields.Distinct placeholder := by decide +kernel

/-- The keys of a new product are apart. -/
lemma distinct_fresh {id : Text} {chosen : List (Text × Value)} {p : Fields}
    (h : fresh id chosen = .ok p) : p.Distinct := by
  unfold fresh at h
  dsimp only at h
  split at h
  · cases h
    exact Fields.distinct_putAll (placeholder_distinct.put _ _) _
  · cases h

end Product

namespace Change

variable {change : Change} {products : List Fields}

/-- A change by a product whose keys are apart, or under a key that products carry. -/
def Proper : Change → Prop
  | append product => product.Distinct
  | set _ key _ => Product.isField key = true
  | erase _ => True

/-- The change with the product that it brings completed. -/
def completed : Change → Change
  | append product => append (Fields.merge Product.blank product)
  | set place key value => set place key value
  | erase place => erase place

lemma distinct_apply (h : change.Proper) (hp : ∀ p ∈ products, p.Distinct) :
    ∀ p ∈ change.apply products, p.Distinct := by
  cases change with
  | append product =>
      rw [apply, List.forall_mem_append]
      exact ⟨hp, List.forall_mem_singleton.mpr h⟩
  | set place key value =>
      intro p hmem
      rcases exists_of_mem_modify hmem with hmem | ⟨q, hq, rfl⟩
      · exact hp p hmem
      · exact (hp q hq).put key value
  | erase place => exact fun p hmem => hp p (List.mem_of_mem_eraseIdx hmem)

/-- A configuration can still be edited after a proper change. -/
lemma Proper.editable (h : change.Proper) {c : Fields} (hc : Config.Editable c) :
    Config.Editable (Config.withListed c (change.apply (Config.listed c))) :=
  hc.withListed (distinct_apply h hc.products)

/-- **Products changed before or after they are completed.** -/
theorem map_apply (h : change.Proper) (hp : ∀ p ∈ products, p.Distinct) :
    (change.apply products).map (Fields.merge Product.blank) =
      change.completed.apply (products.map (Fields.merge Product.blank)) := by
  cases change with
  | append product => simp [apply, completed]
  | set place key value =>
      obtain ⟨t, b, rfl, hb, hflat⟩ := Product.exists_of_isField h
      exact map_modify (fun p hmem => Fields.merge_put (hp p hmem) hb hflat value) place
  | erase place => exact (List.eraseIdx_map ..).symm

end Change

/-- Every change that an ordinary edit makes is proper. -/
lemma Edit.proper_of_change {e : Edit} {ids : Nat → Text} {drawn count : Nat} {change : Change}
    (he : e.Ordinary) (h : e.change ids drawn count = .ok change) : change.Proper := by
  unfold Edit.change at h
  cases e with
  | add product =>
      cases product with
      | none =>
          obtain ⟨p, hp, rfl⟩ := map_eq_ok.mp h
          exact Product.distinct_fresh hp
      | some product =>
          obtain ⟨fields, rfl, hd⟩ := he
          cases h
          exact hd
  | addFresh chosen =>
      obtain ⟨p, hp, rfl⟩ := map_eq_ok.mp h
      exact Product.distinct_fresh hp
  | update index field value =>
      obtain ⟨key, hkey, h⟩ := bind_eq_ok.mp h
      obtain ⟨place, -, h⟩ := bind_eq_ok.mp h
      cases h
      exact (Config.productField_eq_ok.mp hkey).2
  | remove index =>
      obtain ⟨place, -, rfl⟩ := map_eq_ok.mp h
      trivial
  | resolve => exact he.elim
  | escape => exact he.elim

/-! ## One edit of two versions -/

/-- Two versions that can be edited and are completed to the same. -/
def Related (v w : Value) : Prop :=
  ∃ c d : Fields, v = .map c ∧ w = .map d ∧ Config.Editable c ∧ Config.Editable d ∧
    Config.completed c = Config.completed d

namespace Related

variable {v w : Value} {c : Fields}

/-- Related versions are completed to the same configuration. -/
lemma resolve (h : Related v w) : ∃ r, Config.resolve v = .ok r ∧ Config.resolve w = .ok r := by
  obtain ⟨c, d, rfl, rfl, hc, hd, heq⟩ := h
  exact ⟨_, Config.resolve_of_editable hc, by rw [heq]; exact Config.resolve_of_editable hd⟩

/-- A configuration and what it is completed to are related. -/
lemma of_completed (h : Config.Editable c) : Related (.map (Config.completed c)) (.map c) :=
  ⟨_, _, rfl, rfl, Config.editable_completed c, h, Config.completed_completed h.config⟩

lemma refl (h : Config.Editable c) : Related (.map c) (.map c) := ⟨c, c, rfl, rfl, h, h, rfl⟩

/-- Related versions have equal numbers of products. -/
lemma length_listed {d : Fields} (h : Config.completed c = Config.completed d) :
    (Config.listed c).length = (Config.listed d).length := by
  have hlisted := congrArg (fun r => (Config.listed r).length) h
  simpa using hlisted

/-- **A change keeps versions related.** -/
lemma apply {d : Fields} {change : Change} (hc : Config.Editable c) (hd : Config.Editable d)
    (h : Config.completed c = Config.completed d) (hp : change.Proper) :
    Related (.map (Config.withListed c (change.apply (Config.listed c))))
      (.map (Config.withListed d (change.apply (Config.listed d)))) := by
  refine ⟨_, _, rfl, rfl, hp.editable hc, hp.editable hd, ?_⟩
  rw [Config.completed_withListed hc.config, Config.completed_withListed hd.config,
    Change.map_apply hp hc.products, Change.map_apply hp hd.products, ← Config.listed_completed,
    ← Config.listed_completed, h]

end Related

/-- **One edit of two related versions** draws the same ids, and makes related versions or fails for
the same cause. -/
theorem Edit.run_related {e : Edit} {v w : Value} (ids : Nat → Text) (drawn : Nat) (he : e.Ordinary)
    (h : Related v w) : (e.run ids drawn v).2 = (e.run ids drawn w).2 ∧
      Outcome.Alike False Related (e.run ids drawn v).1 (e.run ids drawn w).1 := by
  obtain ⟨c, d, rfl, rfl, hc, hd, heq⟩ := h
  rw [run_eq hc.lists he, run_eq hd.lists he, Related.length_listed heq]
  cases hchange : e.change ids drawn (Config.listed d).length with
  | error fault => exact ⟨rfl, .fault fault⟩
  | ok change => exact ⟨rfl, .ok (Related.apply hc hd heq (proper_of_change he hchange))⟩

/-! ## Sessions -/

/-- The fault that an answer reports. -/
def Answer.fault? (a : Answer) : Option Fault :=
  match a.report.outcome with
  | .ok _ => none
  | .error fault => some fault

namespace Session

variable (ids : Nat → Text) {s t : Session} {e : Edit}

/-- The newest version. -/
def current (s : Session) : Value := s.version s.newest

/-- Edits, each of the newest version. -/
def edits (es : List Edit) : List Step := es.map fun e => ⟨none, .edit e⟩

@[simp] lemma current_append (first v : Value) (later : List Value) (drawn : Nat) :
    (Session.mk first (later ++ [v]) drawn).current = v := by
  simp [current, version, newest]

/-- Two sessions whose newest versions are related, with as many ids drawn. -/
structure Alike (s t : Session) : Prop where
  drawn : s.drawn = t.drawn
  current : Related s.current t.current

lemma take_edit (s : Session) (e : Edit) : s.take ids ⟨none, .edit e⟩ =
    match e.run ids s.drawn s.current with
    | (.ok edited, drawn) =>
        (⟨s.first, s.later ++ [edited], drawn⟩, ⟨pure edited, some (s.newest + 1)⟩)
    | (.error fault, drawn) =>
        (⟨s.first, s.later, drawn⟩, ⟨Report.ofOutcome (.error fault), none⟩) := rfl

/-- **A step** keeps sessions alike, and both report the same fault or none. -/
theorem take_alike (he : e.Ordinary) (h : Alike s t) :
    Alike (s.take ids ⟨none, .edit e⟩).1 (t.take ids ⟨none, .edit e⟩).1 ∧
      (s.take ids ⟨none, .edit e⟩).2.fault? = (t.take ids ⟨none, .edit e⟩).2.fault? := by
  obtain ⟨hdrawn, hresult⟩ := Edit.run_related ids t.drawn he h.current
  rw [take_edit, take_edit, h.drawn]
  generalize e.run ids t.drawn s.current = first at hdrawn hresult ⊢
  generalize e.run ids t.drawn t.current = second at hdrawn hresult ⊢
  obtain ⟨x, m⟩ := first
  obtain ⟨y, n⟩ := second
  cases hresult with
  | ok hnext => exact ⟨⟨hdrawn, by simpa using hnext⟩, rfl⟩
  | fault fault => exact ⟨⟨hdrawn, h.current⟩, rfl⟩
  | left _ _ hl => exact hl.elim
  | right _ _ hl => exact hl.elim

/-- **A session** keeps sessions alike: their steps report the same faults. -/
theorem run_alike {es : List Edit} (he : ∀ e ∈ es, e.Ordinary) (h : Alike s t) :
    Alike (s.run ids (edits es)).1 (t.run ids (edits es)).1 ∧
      (s.run ids (edits es)).2.map Answer.fault? = (t.run ids (edits es)).2.map Answer.fault? := by
  induction es generalizing s t with
  | nil => exact ⟨h, rfl⟩
  | cons e rest ih =>
      obtain ⟨hfirst, hrest⟩ := List.forall_mem_cons.mp he
      obtain ⟨hnext, hfault⟩ := take_alike ids hfirst h
      obtain ⟨hlast, hfaults⟩ := ih hrest hnext
      exact ⟨hlast, congrArg₂ List.cons hfault hfaults⟩

/-- A step that completes the newest version gives a session that is alike. -/
lemma take_resolve (h : Alike s s) :
    Alike (s.take ids ⟨none, .edit .resolve⟩).1 s ∧
      (s.take ids ⟨none, .edit .resolve⟩).2.fault? = none := by
  obtain ⟨c, -, hcurrent, -, hc, -⟩ := h.current
  have hrun : Edit.run ids s.drawn s.current .resolve = (.ok (.map (Config.completed c)), s.drawn) := by
    rw [hcurrent, Edit.run, Config.resolve_of_editable hc]
    rfl
  rw [take_edit, hrun]
  refine ⟨⟨rfl, ?_⟩, rfl⟩
  rw [hcurrent, current_append]
  exact .of_completed hc

/-- Steps one after the other. -/
lemma run_append (s : Session) (xs ys : List Step) : s.run ids (xs ++ ys) =
    (((s.run ids xs).1.run ids ys).1, (s.run ids xs).2 ++ ((s.run ids xs).1.run ids ys).2) := by
  induction xs generalizing s with
  | nil => rfl
  | cons step rest ih =>
      simp only [List.cons_append, run, ih]

lemma insertIdx_length_append {α : Type} (as bs : List α) (a : α) :
    (as ++ bs).insertIdx as.length a = as ++ a :: bs := by
  induction as with
  | nil => simp
  | cons b rest ih => simp [ih]

lemma length_run (s : Session) (xs : List Step) : (s.run ids xs).2.length = xs.length := by
  induction xs generalizing s with
  | nil => rfl
  | cons step rest ih => exact congrArg Nat.succ (ih _)

/-- Sessions whose newest versions are completed to one configuration, with as many ids drawn.  The same
is made of both, but for the order of sets. -/
structure SameEnd (s t : Session) : Prop where
  drawn : s.drawn = t.drawn
  resolved : ∃ r, Config.resolve s.current = .ok r ∧ Config.resolve t.current = .ok r
  made : Document.SameButForSets s.current t.current

lemma Alike.sameEnd (h : Alike s t) : SameEnd s t := by
  obtain ⟨r, hs, ht⟩ := h.current.resolve
  exact ⟨h.drawn, ⟨r, hs, ht⟩, Document.sameButForSets (hs.trans ht.symm)⟩

/-- **Completing early or late makes no difference**, but for the order of sets.  A session of edits may
complete its configuration before the first edit, after the last or at any time in between: it ends in
versions that are completed to the same and have the same documents, draws the same ids, and the same
edits fail for the same causes. -/
theorem completed_early_or_late {c : Fields} (hc : Config.Editable c)
    (before after : List Edit) (he : ∀ e ∈ before ++ after, e.Ordinary) :
    ∃ r, Config.resolve (.map c) = .ok r ∧
      let late := (start (.map c)).run ids (edits (before ++ after))
      let early := (start (.map r)).run ids (edits (before ++ after))
      let between := (start (.map c)).run ids (edits (before ++ .resolve :: after))
      SameEnd early.1 late.1 ∧ SameEnd between.1 late.1 ∧
        early.2.map Answer.fault? = late.2.map Answer.fault? ∧
        between.2.map Answer.fault? = (late.2.map Answer.fault?).insertIdx before.length none := by
  refine ⟨_, Config.resolve_of_editable hc, ?_⟩
  intro late early between
  obtain ⟨hbefore, hafter⟩ := List.forall_mem_append.mp he
  obtain ⟨hearly, hfaults⟩ :=
    run_alike ids he (s := start (.map (Config.completed c))) (t := start (.map c))
      ⟨rfl, .of_completed hc⟩
  -- the session up to the completion, which is like itself with its newest version completed
  set middle := (start (.map c)).run ids (edits before) with hmiddle
  obtain ⟨hself, -⟩ := run_alike ids hbefore (s := start (.map c)) ⟨rfl, .refl hc⟩
  obtain ⟨hresolved, hnone⟩ := take_resolve ids hself
  obtain ⟨hrest, hrestFaults⟩ := run_alike ids hafter hresolved
  have hlate : late = ((middle.1.run ids (edits after)).1,
      middle.2 ++ (middle.1.run ids (edits after)).2) := by
    simp only [late, edits, List.map_append, run_append]
    rfl
  have hbetween : between =
      (((middle.1.take ids ⟨none, .edit .resolve⟩).1.run ids (edits after)).1,
        middle.2 ++ (middle.1.take ids ⟨none, .edit .resolve⟩).2 ::
          ((middle.1.take ids ⟨none, .edit .resolve⟩).1.run ids (edits after)).2) := by
    simp only [between, edits, List.map_append, List.map_cons, run_append]
    rfl
  refine ⟨hearly.sameEnd, ?_, hfaults, ?_⟩
  · rw [hlate, hbetween]
    exact hrest.sameEnd
  · have hlength : before.length = (middle.2.map Answer.fault?).length := by
      rw [List.length_map, hmiddle, length_run, edits, List.length_map]
    rw [hlate, hbetween, List.map_append, List.map_append, List.map_cons, hnone, hrestFaults,
      hlength, insertIdx_length_append]

/-- A configuration that leaves out most of what it may. -/
def sketch : Fields := Fields.named [
  ("hero", .null), ("products", .list [.map (Fields.named [("name", .text "Bolt")])])]

theorem completed_early_or_late_sketch :
    let edits := [Edit.add none, .update (.int 2) (.text "price") .null,
      .update (.int 0) (.text "pricing_mode") (.list []), .remove (.int (-1))]
    let late := (start (.map sketch)).run Text.ofNat (Session.edits edits)
    Config.Editable sketch ∧ (∀ e ∈ edits, e.Ordinary) ∧
      late.2.map Answer.fault? =
        [none, some (.noProduct (.int 2) 2), none, some (.noProduct (.int (-1)) 2)] ∧
      ∃ r, Config.resolve (.map sketch) = .ok r ∧
        SameEnd ((start (.map r)).run Text.ofNat (Session.edits edits)).1 late.1 := by
  intro edits late
  have hsketch : Config.Editable sketch :=
    ⟨by decide, .inr ⟨[Fields.named [("name", .text "Bolt")]], rfl⟩, by decide⟩
  have hordinary : ∀ e ∈ edits, e.Ordinary := by simp [edits, Edit.Ordinary]
  obtain ⟨r, hr, hearly, -⟩ :=
    completed_early_or_late Text.ofNat hsketch [.add none] edits.tail hordinary
  exact ⟨hsketch, hordinary, rfl, r, hr, hearly⟩

/-- A session without edits: what is completed early is copied once more before it is compiled, and the
document shows a set the other way round. -/
theorem completed_early_or_late_contending :
    ∃ r, Config.resolve (.map Document.contending) = .ok r ∧
      let late := ((start (.map Document.contending)).run Text.ofNat (edits [])).1
      let early := ((start (.map (r.ordered .copied))).run Text.ofNat (edits [])).1
      ∃ d d', (Document.html early.current false).outcome = .ok d ∧
        (Document.html late.current false).outcome = .ok d' ∧ d ≠ d' := by
  exact ⟨_, eq_ok_of_isOk (by decide +kernel), _, _, eq_ok_of_isOk (by decide +kernel),
    eq_ok_of_isOk (by decide +kernel), by decide +kernel⟩

end Session

end Mailshot
