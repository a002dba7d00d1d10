import Mailshot.Config.Resolve
import Mailshot.Proofs.Escape
import Mailshot.Proofs.Merge
import Mailshot.Proofs.Outcome

/-!
# Complete configurations

What a configuration is once everything that it leaves out is filled in.

* `Config.listed` — the products of a complete configuration; all of them are mappings
  (`Config.look_products`).
* `Config.WellFormed` — sections that are missing, null or mappings, and products that are missing,
  null or a list of mappings.  Such a configuration can always be completed (`Config.resolve_ok`), and
  its sections and products are merges over the defaults (`Config.look_section`,
  `Config.listed_resolve`).
* `Config.Apart` — keys that are apart in a configuration, in its sections and in its products.
* **`Config.resolve_of_settled`**, **`Config.resolve_resolve`** — when a configuration is complete; one
  that was completed is.
-/

namespace Mailshot

/-! ## Parts that may be left out -/

namespace Value

@[simp] lemma fields_map (fields : Fields) : (Value.map fields).fields = .ok fields := rfl

@[simp] lemma fieldsOrNone_map (fields : Fields) :
    (Value.map fields).fieldsOrNone = .ok fields := by
  cases fields with
  | nil => rfl
  | cons f rest => rfl

@[simp] lemma itemsOrNone_list (items : List Value) :
    (Value.list items).itemsOrNone = .ok items := by
  cases items with
  | nil => rfl
  | cons v rest => rfl

lemma fields_eq_ok {v : Value} {fields : Fields} : v.fields = .ok fields ↔ v = .map fields := by
  cases v <;> simp [Value.fields]

lemma fields_eq_error {v : Value} (h : v.asMap = none) : v.fields = .error .notMapping := by
  cases v with
  | map fields => cases h
  | _ => rfl

lemma field_eq_error {v : Value} (h : v.asMap = none) (name : String) :
    v.field name = .error .notIndexable := by
  cases v with
  | map fields => cases h
  | _ => rfl

/-- A field that must be there is there in a mapping. -/
lemma field_eq_ok {v w : Value} {name : String} : v.field name = .ok w ↔
    ∃ fields, v = .map fields ∧ Fields.find? fields (.text (Text.ofString name)) = some w := by
  match v with
  | .map fields =>
      simp only [field, Value.map.injEq, exists_eq_left']
      cases Fields.find? fields (.text (Text.ofString name)) <;> simp
  | .scalar _ | .list _ | .pair _ _ | .set _ | .again _ => simp [field]

end Value

namespace Fields

variable {fields : Fields}

@[simp] lemma look_put_self (fields : Fields) (name : String) (v : Value) :
    (fields.put (.text (Text.ofString name)) v).look name = v := by
  simp [look]

/-- What is not null was found. -/
lemma find?_of_look {name : String} {v : Value} (h : fields.look name = v) (hv : v ≠ .null) :
    fields.find? (.text (Text.ofString name)) = some v := by
  unfold look at h
  cases hf : fields.find? (.text (Text.ofString name)) with
  | none =>
      rw [hf] at h
      exact absurd h.symm hv
  | some w =>
      rw [hf] at h
      exact congrArg some h

/-- A write under another name is not seen. -/
lemma look_put_of_ne {key name : String} (h : key ≠ name) (fields : Fields) (v : Value) :
    (fields.put (.text (Text.ofString name)) v).look key = fields.look key := by
  unfold look
  rw [find?_put_of_ne]
  exact fun heq => h (Text.ofString_injective (Scalar.text.inj heq)).symm

end Fields

namespace Config

/-! ## The parts of a resolution -/

lemma defaults_sectioned : Fields.Sectioned defaults := by decide +kernel

lemma defaults_distinct : Fields.Distinct defaults := by decide +kernel

lemma blank_flat : Fields.Flat Product.blank := by decide +kernel

lemma blank_distinct : Fields.Distinct Product.blank := by decide +kernel

/-- What a resolution that succeeds is made of. -/
lemma resolve_eq_ok {c : Value} {r : Fields} :
    resolve c = .ok r ↔ ∃ fields items products,
      c.fieldsOrNone = .ok fields ∧
      ((Fields.merge defaults fields).look "products").itemsOrNone = .ok items ∧
      items.mapM resolveProduct = .ok products ∧
      r = (Fields.merge defaults fields).put (.text (Text.ofString "products")) (.list products) := by
  simp only [resolve, bind_eq_ok]
  constructor
  · rintro ⟨fields, hf, items, hi, products, hp, h⟩
    cases h
    exact ⟨fields, items, products, hf, hi, hp, rfl⟩
  · rintro ⟨fields, items, products, hf, hi, hp, rfl⟩
    exact ⟨fields, hf, items, hi, products, hp, rfl⟩

lemma resolveProduct_eq_ok {v w : Value} :
    resolveProduct v = .ok w ↔
      ∃ fields, v.fieldsOrNone = .ok fields ∧ w = .map (Fields.merge Product.blank fields) := by
  simp only [resolveProduct, bind_eq_ok]
  constructor
  · rintro ⟨fields, hf, h⟩
    cases h
    exact ⟨fields, hf, rfl⟩
  · rintro ⟨fields, hf, rfl⟩
    exact ⟨fields, hf, rfl⟩

/-- The products of a complete configuration. -/
def listed (config : Fields) : List Fields :=
  match config.look "products" with
  | .list items => items.filterMap Value.asMap
  | _ => []

lemma listed_of_look {config : Fields} {products : List Fields}
    (h : config.look "products" = .list (products.map .map)) : listed config = products := by
  simp only [listed, h]
  rw [List.filterMap_map]
  exact List.filterMap_some

lemma look_products_of_look {config : Fields} {products : List Fields}
    (h : config.look "products" = .list (products.map .map)) :
    config.look "products" = .list ((listed config).map .map) := by
  rw [listed_of_look h, h]

/-- **The products of a complete configuration are mappings.** -/
theorem look_products {c : Value} {r : Fields} (h : resolve c = .ok r) :
    r.look "products" = .list ((listed r).map .map) := by
  obtain ⟨fields, items, products, -, -, hp, rfl⟩ := resolve_eq_ok.mp h
  suffices ∃ ps : List Fields, products = ps.map .map by
    obtain ⟨ps, rfl⟩ := this
    rw [listed_of_look (Fields.look_put_self _ _ _)]
    exact Fields.look_put_self _ _ _
  have hall := mapM_eq_ok.mp hp
  clear hp h
  induction hall with
  | nil => exact ⟨[], rfl⟩
  | cons hw _ ih =>
      obtain ⟨g, -, rfl⟩ := resolveProduct_eq_ok.mp hw
      obtain ⟨ps, rfl⟩ := ih
      exact ⟨_ :: ps, rfl⟩

/-! ## Well-formed configurations -/

/-- The sections that are merged field by field. -/
def sectionNames : List String := ["layout", "theme", "company", "hero", "footer"]

/-- The fields of a section; one that is no mapping has none. -/
def sectionFields (config : Fields) (key : String) : Fields := (config.look key).asMap.getD []

lemma sectionFields_escape (config : Fields) (key : String) :
    sectionFields config.escape key = (sectionFields config key).escape := by
  unfold sectionFields
  rw [Fields.look_escape, Value.asMap_escape]
  cases (config.look key).asMap <;> rfl

/-- Products that are missing, null or a list of mappings. -/
def ListsProducts (config : Fields) : Prop :=
  config.look "products" = .null ∨
    ∃ products : List Fields, config.look "products" = .list (products.map .map)

/-- Sections that are missing, null or mappings, and products that are missing, null or a list of
mappings. -/
structure WellFormed (config : Fields) : Prop where
  sections : ∀ key ∈ sectionNames, config.look key = .null ∨ ∃ fields, config.look key = .map fields
  products : config.look "products" = .null ∨
    ∃ products : List Fields, config.look "products" = .list (products.map .map)

section WellFormed

variable {c r : Fields} {key : String}

/-- The keys are apart in a configuration, in its sections and in its products. -/
structure Apart (c : Fields) : Prop where
  config : c.Distinct
  sections : ∀ key, (sectionFields c key).Distinct
  products : ∀ p ∈ listed c, p.Distinct

lemma apart_of_isTidy (h : (Value.map c).isTidy = true) : Apart c := by
  obtain ⟨hc, hfields⟩ := Value.isTidy_map.mp h
  have hlook : ∀ key, (c.look key).isTidy = true := by
    intro key
    unfold Fields.look
    cases hf : c.find? (.text (Text.ofString key)) with
    | none => rfl
    | some v => exact Fields.isTidy_of_find? hfields hf
  refine ⟨hc, ?_, ?_⟩
  · intro key
    have htidy := hlook key
    unfold sectionFields
    cases hm : (c.look key).asMap with
    | none => exact Fields.distinct_nil
    | some fields =>
        rw [Value.asMap_eq_some.mp hm] at htidy
        exact (Value.isTidy_map.mp htidy).1
  · intro p hp
    have htidy := hlook "products"
    unfold listed at hp
    split at hp
    · next items hitems =>
        rw [hitems] at htidy
        obtain ⟨v, hv, hvp⟩ := List.mem_filterMap.mp hp
        have hvt := Value.isTidy_list.mp htidy v hv
        rw [Value.asMap_eq_some.mp hvp] at hvt
        exact (Value.isTidy_map.mp hvt).1
    · exact absurd hp List.not_mem_nil

lemma sectionFields_of_look {fields : Fields} (h : c.look key = .map fields) :
    sectionFields c key = fields := by
  simp [sectionFields, h, Value.asMap]

/-- What is known of every section of the defaults. -/
lemma defaults_section (h : key ∈ sectionNames) :
    Fields.find? defaults (.text (Text.ofString key)) = some (.map (sectionFields defaults key)) ∧
      (sectionFields defaults key).Flat ∧ (sectionFields defaults key).Distinct := by
  simp only [sectionNames, List.mem_cons, List.not_mem_nil, or_false] at h
  rcases h with rfl | rfl | rfl | rfl | rfl <;> exact ⟨rfl, by decide +kernel, by decide +kernel⟩

lemma ListsProducts.look_products (h : ListsProducts c) :
    c.look "products" = .null ∧ listed c = [] ∨ c.look "products" = .list ((listed c).map .map) := by
  rcases h with hn | ⟨ps, hps⟩
  · exact .inl ⟨hn, by simp [listed, hn]⟩
  · rw [listed_of_look hps]
    exact .inr hps

lemma WellFormed.listsProducts (h : WellFormed c) : ListsProducts c := h.products

/-- A field other than the products, after the completion. -/
lemma find?_resolve (h : resolve (.map c) = .ok r) (hc : c.Distinct) (hk : key ≠ "products") :
    r.find? (.text (Text.ofString key)) = match c.find? (.text (Text.ofString key)) with
      | some v => some (Value.mergeInto (defaults.find? (.text (Text.ofString key))) v)
      | none => defaults.find? (.text (Text.ofString key)) := by
  obtain ⟨fields, items, products, hf, -, -, rfl⟩ := resolve_eq_ok.mp h
  rw [Value.fieldsOrNone_map] at hf
  cases hf
  have hne : Scalar.text (Text.ofString "products") ≠ .text (Text.ofString key) := by
    intro hkey
    exact hk (Text.ofString_injective (Scalar.text.inj hkey)).symm
  rw [Fields.find?_put_of_ne _ _ hne]
  exact Fields.find?_merge _ hc _

/-- **A completed section** is the merge of what was given over the defaults. -/
theorem look_section (h : resolve (.map c) = .ok r) (hc : c.Distinct) (hw : WellFormed c)
    (hk : key ∈ sectionNames) :
    r.look key = .map (Fields.merge (sectionFields defaults key) (sectionFields c key)) := by
  have hne : key ≠ "products" := by
    rintro rfl
    exact absurd hk (by decide)
  have hbase := (defaults_section hk).1
  have hr := find?_resolve h hc hne
  rw [hbase] at hr
  have hs := hw.sections key hk
  unfold Fields.look at hs ⊢
  rw [hr]
  cases hf : c.find? (.text (Text.ofString key)) with
  | none =>
      have hempty : sectionFields c key = [] := by
        simp [sectionFields, Fields.look, hf, Value.asMap]
      rw [hempty]
      simp [Fields.merge, Fields.mergeFields]
  | some v =>
      rw [hf, Option.getD_some] at hs
      rcases hs with rfl | ⟨fields, rfl⟩
      · have hempty : sectionFields c key = [] := by
          simp [sectionFields, Fields.look, hf, Value.asMap]
        rw [hempty]
        simp [Value.mergeInto, Fields.merge, Fields.mergeFields]
      · have hfields : sectionFields c key = fields := by
          simp [sectionFields, Fields.look, hf, Value.asMap]
        rw [hfields]
        simp [Value.mergeInto, Fields.merge]

/-- The products that are completed are those that were given. -/
lemma look_merge_products (hc : c.Distinct) (h : ListsProducts c) :
    (Fields.merge defaults c).look "products" = .null ∧ listed c = [] ∨
      (Fields.merge defaults c).look "products" = .list ((listed c).map .map) := by
  have hbase : defaults.find? (.text (Text.ofString "products")) = some (.list []) := rfl
  have hp := h.look_products
  unfold Fields.look at hp ⊢
  rw [Fields.find?_merge _ hc, hbase]
  cases hf : c.find? (.text (Text.ofString "products")) with
  | none =>
      have hempty : listed c = [] := by simp [listed, Fields.look, hf]
      rw [hempty]
      exact .inr rfl
  | some v =>
      rw [hf, Option.getD_some] at hp
      simp only [Option.getD_some]
      rwa [Fields.mergeInto_of_not_map (b := some (.list [])) rfl]

lemma items_of_listsProducts (hc : c.Distinct) (h : ListsProducts c) :
    ((Fields.merge defaults c).look "products").itemsOrNone = .ok ((listed c).map .map) := by
  rcases look_merge_products hc h with ⟨hn, hempty⟩ | hp
  · rw [hn, hempty]
    rfl
  · rw [hp, Value.itemsOrNone_list]

lemma mapM_resolveProduct (ps : List Fields) :
    (ps.map Value.map).mapM resolveProduct =
      .ok ((ps.map (Fields.merge Product.blank)).map .map) := by
  rw [mapM_eq_ok, List.forall₂_map_left_iff, List.forall₂_map_right_iff, List.forall₂_map_right_iff,
    List.forall₂_same]
  intro p _
  exact resolveProduct_eq_ok.mpr ⟨p, Value.fieldsOrNone_map p, rfl⟩

/-- **The completed products** are the products that were given, each over the blank one. -/
theorem listed_resolve (h : resolve (.map c) = .ok r) (hc : c.Distinct) (hw : WellFormed c) :
    listed r = (listed c).map (Fields.merge Product.blank) := by
  obtain ⟨fields, items, products, hf, hi, hp, rfl⟩ := resolve_eq_ok.mp h
  rw [Value.fieldsOrNone_map] at hf
  cases hf
  rw [items_of_listsProducts hc hw.listsProducts] at hi
  cases hi
  rw [mapM_resolveProduct] at hp
  cases hp
  exact listed_of_look (Fields.look_put_self _ _ _)

/-- **Well-formed configurations can be completed.** -/
theorem resolve_ok (hc : c.Distinct) (hw : WellFormed c) : ∃ r, resolve (.map c) = .ok r :=
  ⟨_, resolve_eq_ok.mpr ⟨c, _, _, Value.fieldsOrNone_map c, items_of_listsProducts hc hw.listsProducts,
    mapM_resolveProduct _, rfl⟩⟩

end WellFormed

/-! ## Resolving twice -/

/-- The fields of a tidy configuration are apart. -/
lemma distinct_of_fieldsOrNone {c : Value} {fields : Fields} (hc : c.isTidy = true)
    (h : c.fieldsOrNone = .ok fields) : fields.Distinct := by
  unfold Value.fieldsOrNone at h
  split at h
  · rw [Value.fields_eq_ok.mp h] at hc
    exact (Value.isTidy_map.mp hc).1
  · cases h
    exact Fields.distinct_nil

lemma distinct_of_fieldsOrNone_map {c fields : Fields} (hc : c.Distinct)
    (h : (Value.map c).fieldsOrNone = .ok fields) : fields.Distinct := by
  rw [Value.fieldsOrNone_map] at h
  exact Except.ok.inj h ▸ hc

/-- Whatever the defaults have is there after the completion. -/
lemma find?_resolve_isSome {c : Value} {r : Fields} {t : Text} (hc : c.isTidy = true)
    (h : resolve c = .ok r) (ht : (defaults.find? (.text t)).isSome = true) :
    (r.find? (.text t)).isSome = true := by
  obtain ⟨fields, items, products, hf, -, -, rfl⟩ := resolve_eq_ok.mp h
  rw [Fields.find?_put, Fields.find?_merge _ (distinct_of_fieldsOrNone hc hf)]
  split
  · rfl
  · split
    · rfl
    · exact ht

/-- A complete configuration is settled over the defaults. -/
lemma settled_of_resolve {c : Value} {r : Fields}
    (hc : ∀ fields, c.fieldsOrNone = .ok fields → fields.Distinct) (h : resolve c = .ok r) :
    Fields.Settled defaults r := by
  obtain ⟨given, items, products, hf, -, -, rfl⟩ := resolve_eq_ok.mp h
  -- the products are a list, which the empty list of the defaults leaves alone
  refine (defaults_sectioned.settled_merge (hc given hf)).put fun b _ => ?_
  cases b <;> simp [Value.mergeInto]

/-- Its keys are apart. -/
lemma distinct_resolve {c : Value} {r : Fields} (h : resolve c = .ok r) : r.Distinct := by
  obtain ⟨given, items, products, -, -, -, rfl⟩ := resolve_eq_ok.mp h
  exact (Fields.distinct_merge defaults_distinct _).put _ _

/-- And nothing is missing in its products. -/
lemma merge_blank_of_listed {c : Value} {r p : Fields} (h : resolve c = .ok r) (hp : p ∈ listed r) :
    Fields.merge Product.blank p = p := by
  obtain ⟨fields, items, products, -, -, hproducts, rfl⟩ := resolve_eq_ok.mp h
  have hmade : ∀ v ∈ products, ∃ given, v = .map (Fields.merge Product.blank given) :=
    forall_of_mapM_eq_ok hproducts fun _ _ _ hv =>
      (resolveProduct_eq_ok.mp hv).imp fun _ hgiven => hgiven.2
  rw [listed, Fields.look_put_self] at hp
  obtain ⟨v, hv, hmap⟩ := List.mem_filterMap.mp hp
  obtain ⟨given, rfl⟩ := hmade v hv
  cases hmap
  exact Fields.merge_merge_of_flat blank_flat blank_distinct given

/-- **What is settled over the defaults**, and lists products that nothing is missing in, is complete. -/
theorem resolve_of_settled {fields : Fields} {ps : List Fields} (h : Fields.Settled defaults fields)
    (hd : fields.Distinct) (hp : fields.look "products" = .list (ps.map .map))
    (hps : ∀ p ∈ ps, Fields.merge Product.blank p = p) : resolve (.map fields) = .ok fields := by
  have hfixed := Fields.merge_eq_of_settled h hd
  have hfind := Fields.find?_of_look hp (by simp)
  refine resolve_eq_ok.mpr ⟨fields, _, _, Value.fieldsOrNone_map fields, ?_, mapM_resolveProduct ps, ?_⟩
  · rw [hfixed, hp, Value.itemsOrNone_list]
  · rw [hfixed, List.map_congr_left hps, List.map_id', Fields.put_eq_self hfind]

lemma resolve_resolve_of_apart {c : Value} {r : Fields}
    (hc : ∀ fields, c.fieldsOrNone = .ok fields → fields.Distinct) (h : resolve c = .ok r) :
    resolve (.map r) = .ok r :=
  resolve_of_settled (settled_of_resolve hc h) (distinct_resolve h) (look_products h) fun _ hp =>
    merge_blank_of_listed h hp

/-- **A complete configuration is complete**: to fill it in again changes nothing. -/
theorem resolve_resolve {c : Value} {r : Fields} (hc : c.isTidy = true) (h : resolve c = .ok r) :
    resolve (.map r) = .ok r :=
  resolve_resolve_of_apart (fun _ => distinct_of_fieldsOrNone hc) h

end Config

end Mailshot
