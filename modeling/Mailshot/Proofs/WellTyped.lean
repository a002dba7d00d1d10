import Mailshot.Proofs.Reachable

/-!
# Configurations of the right kinds

A configuration that is written by hand leaves sections out, or empties them, and may have products
with nothing in them.  Where its sections and products are of the right kind it compiles all the
same, whatever its other fields are: a product that is null is completed as an empty one is, and the
completion puts in every field that is read without asking.

* `Config.WellTyped`, `Config.IsWidth` — such configurations, and the widths they may give.
* `Config.filled` — the configuration with every null product made an empty one.
* `Config.resolve_filled`, `Config.WellTyped.compilable` — it has the same completion, and editing
  could reach it.
* **`Document.compiles_of_wellTyped`** — its documents.
-/

namespace Mailshot

namespace Config

variable {c : Fields} {v : Value}

/-! ## The right kinds -/

/-- A width that the compiler takes: none, a truth value, a finite number, or an integer of no more
than a thousand bits. -/
def IsWidth : Option Value → Prop
  | none | some (.bool _) => True
  | some (.int i) => |i| ≤ 2 ^ 1000
  | some (.float x) => x.isFinite = true
  | some _ => False

lemma IsWidth.moderate {v? : Option Value} (h : IsWidth v?) :
    ∃ n, (v?.getD Layout.defaultContent).number? = some n ∧ n.Moderate := by
  match v? with
  | none => exact ⟨_, rfl, Number.moderate_of_small (by decide)⟩
  | some (.bool b) => exact ⟨_, rfl, Number.moderate_of_small (by cases b <;> decide)⟩
  | some (.int i) => exact ⟨_, rfl, h⟩
  | some (.float x) => exact ⟨_, rfl, h⟩

/-- A value that may be left out, and is a mapping if it is given. -/
def IsOptionalMap (v : Value) : Prop := v = .null ∨ ∃ fields, v = .map fields

/-- A configuration whose sections are mappings, if they are given, whose products are null or a list
of mappings and nulls, and whose width is one.  Everything else may be of any kind. -/
structure WellTyped (c : Fields) : Prop where
  sections : ∀ key ∈ sectionNames, IsOptionalMap (c.look key)
  products : c.look "products" = .null ∨
    ∃ items, c.look "products" = .list items ∧ ∀ v ∈ items, IsOptionalMap v
  width : IsWidth ((sectionFields c "layout").find? (.text (Text.ofString "content_width")))

/-! ## Null products -/

/-- The products as they are listed. -/
def entries (c : Fields) : List Value :=
  match c.look "products" with
  | .list items => items
  | _ => []

lemma mem_entries (h : v ∈ entries c) : ∃ items, c.look "products" = .list items ∧ v ∈ items := by
  unfold entries at h
  split at h
  · next items hitems => exact ⟨items, hitems, h⟩
  · exact absurd h List.not_mem_nil

/-- The configuration with every product that is no mapping made an empty one. -/
def filled (c : Fields) : Fields := withListed c ((entries c).map fun v => v.asMap.getD [])

/-- The products of a configuration are completed as they are given. -/
lemma itemsOrNone_merge (hc : c.Distinct) :
    ((Fields.merge defaults c).look "products").itemsOrNone = (c.look "products").itemsOrNone := by
  have hbase : defaults.find? (.text (Text.ofString "products")) = some (.list []) := rfl
  unfold Fields.look
  rw [Fields.find?_merge _ hc, hbase]
  cases c.find? (.text (Text.ofString "products")) with
  | none => rfl
  | some v =>
      dsimp only [Option.getD_some]
      rw [Fields.mergeInto_of_not_map (b := some (.list [])) rfl]

/-- A null product is completed as an empty one is. -/
lemma resolveProduct_eq (h : IsOptionalMap v) :
    resolveProduct v = .ok (.map (Fields.merge Product.blank (v.asMap.getD []))) := by
  refine resolveProduct_eq_ok.mpr ⟨_, ?_, rfl⟩
  rcases h with rfl | ⟨fields, rfl⟩
  · rfl
  · exact Value.fieldsOrNone_map fields

lemma editable_filled (h : Apart c) : Editable (filled c) where
  config := h.config.put _ _
  lists := listsProducts_withListed _ _
  products := by
    unfold filled
    rw [listed_withListed, List.forall_mem_map]
    intro v hv
    cases hm : v.asMap with
    | none => exact Fields.distinct_nil
    | some p =>
        refine h.products p ?_
        obtain ⟨items, hitems, hv⟩ := mem_entries hv
        unfold listed
        rw [hitems]
        exact List.mem_filterMap.mpr ⟨v, hv, hm⟩

namespace WellTyped

lemma itemsOrNone (h : WellTyped c) : (c.look "products").itemsOrNone = .ok (entries c) := by
  unfold entries
  rcases h.products with hn | ⟨items, hitems, -⟩
  · rw [hn]
    rfl
  · rw [hitems, Value.itemsOrNone_list]

lemma isOptionalMap_entries (h : WellTyped c) : ∀ v ∈ entries c, IsOptionalMap v := by
  unfold entries
  rcases h.products with hn | ⟨items, hitems, hall⟩
  · simp [hn]
  · rwa [hitems]

/-- **A configuration is completed as it is with its null products filled.** -/
theorem resolve_filled (h : WellTyped c) (hc : Apart c) :
    resolve (.map c) = resolve (.map (filled c)) := by
  have hproducts : (entries c).mapM resolveProduct = .ok ((((entries c).map fun v =>
      v.asMap.getD []).map (Fields.merge Product.blank)).map .map) := by
    rw [mapM_eq_ok, List.forall₂_map_right_iff, List.forall₂_map_right_iff,
      List.forall₂_map_right_iff, List.forall₂_same]
    exact fun v hv => resolveProduct_eq (h.isOptionalMap_entries v hv)
  have hresolve := resolve_eq_ok.mpr ⟨c, _, _, Value.fieldsOrNone_map c,
    (itemsOrNone_merge hc.config).trans h.itemsOrNone, hproducts, rfl⟩
  rw [hresolve, resolve_of_editable (editable_filled hc), filled, completed_withListed hc.config]
  unfold completed withListed
  rw [Fields.put_put]

/-- **And so filled it is one that editing could reach.** -/
theorem compilable (h : WellTyped c) (hc : Apart c) : Compilable (filled c) := by
  have hsection {key : String} (hk : key ∈ sectionNames) :
      sectionFields (filled c) key = sectionFields c key :=
    sectionFields_congr (look_withListed hk c _)
  refine ⟨editable_filled hc, ⟨fun key hk => ?_, listsProducts_withListed _ _⟩, fun key hk => ?_, ?_⟩
  · unfold filled
    rw [look_withListed hk]
    exact h.sections key hk
  · rw [hsection hk]
    exact hc.sections key
  · unfold contentWidth
    rw [hsection (by decide)]
    exact h.width.moderate

end WellTyped

/-- Filling products keeps a hereditary property. -/
lemma hereditary_filled {K : Scalar → Prop} {Q : Value → Prop} (hQ : Value.Hereditary K Q)
    (hkey : K (.text (Text.ofString "products"))) (hc : Q (.map c)) : Q (.map (filled c)) := by
  refine hQ.put hc hkey (hQ.list.mpr ?_)
  rw [List.map_map, List.forall_mem_map]
  intro v hv
  cases hm : v.asMap with
  | none => simpa [hm] using hQ.empty
  | some p =>
      obtain rfl := Value.asMap_eq_some.mp hm
      have hproducts : Q (c.look "products") := hQ.look hc
      obtain ⟨items, hitems, hv⟩ := mem_entries hv
      rw [hitems] at hproducts
      exact hQ.list.mp hproducts _ hv

end Config

/-! ## Documents -/

namespace Document

/-- **A configuration of the right kinds compiles**, with and without escaping.  What is left to go
wrong is an integer that is too long to be shown or, where it is escaped, a configuration that holds
itself. -/
theorem compiles_of_wellTyped {c : Fields} (htidy : (Value.map c).isTidy = true)
    (h : Config.WellTyped c) : Compiles (.map c) := by
  have hc := Config.apart_of_isTidy htidy
  intro escaped ρ
  rw [html_congr (h.resolve_filled hc)]
  rcases compiles (h.compilable hc) escaped ρ with hd | ⟨hfault, hfilled⟩ | ⟨hfault, hescaped, hfilled⟩
  · exact .inl hd
  · refine .inr (.inl ⟨hfault, ?_⟩)
    by_contra hshows
    have hshown := Config.hereditary_filled Value.hereditary_isShowable rfl
      (Bool.not_eq_false _ ▸ hshows)
    exact Bool.noConfusion (hfilled.symm.trans hshown)
  · refine .inr (.inr ⟨hfault, hescaped, ?_⟩)
    by_contra hfinite
    have hended := Config.hereditary_filled Value.hereditary_isFinite trivial
      (Bool.not_eq_true _ ▸ hfinite)
    exact Bool.noConfusion (hfilled.symm.trans hended)

/-- A truth value for the width, lists and mappings where texts are meant, an unknown key, and a product
that is null. -/
def mixed : Fields := Fields.named [
  ("template", .list [.text "modern"]),
  ("layout", .map (Fields.named [("content_width", .bool true), ("product_image_size", .map [])])),
  ("theme", .null),
  ("hero", .map (Fields.named [("title", .list [.null]), ("show", .text "no")])),
  ("intro", .int 7),
  ("products", .list [.null, .map (Fields.named [("price", .int 20), ("pricing_mode", .list [])])])]

theorem compiles_of_wellTyped_mixed : (Value.map mixed).isTidy = true ∧ Config.WellTyped mixed ∧
    ∀ escaped ρ, ∃ d, (html (.map mixed) escaped ρ).outcome = .ok d := by
  have htidy : (Value.map mixed).isTidy = true := by decide
  have htyped : Config.WellTyped mixed := by
    refine ⟨fun key hk => ?_, .inr ⟨_, rfl, ?_⟩, trivial⟩
    · simp only [Config.sectionNames, List.mem_cons, List.not_mem_nil, or_false] at hk
      rcases hk with rfl | rfl | rfl | rfl | rfl
      exacts [.inr ⟨_, rfl⟩, .inl rfl, .inl rfl, .inr ⟨_, rfl⟩, .inl rfl]
    · intro v hv
      simp only [List.mem_cons, List.not_mem_nil, or_false] at hv
      rcases hv with rfl | rfl
      exacts [.inl rfl, .inr ⟨_, rfl⟩]
  refine ⟨htidy, htyped, fun escaped ρ => ?_⟩
  rcases compiles_of_wellTyped htidy htyped escaped ρ with hd | ⟨-, hshows⟩ | ⟨-, -, hendless⟩
  · exact hd
  · cases hshows
  · cases hendless

end Document

end Mailshot
