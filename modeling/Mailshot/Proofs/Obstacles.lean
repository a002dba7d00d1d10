import Mailshot.Proofs.Commuting
import Mailshot.Proofs.WellTyped

/-!
# What stands in the way of completion

A configuration of any kind is completed unless something in it that counts cannot be read: it is no
mapping, its products cannot be visited, or one of those that are visited is no mapping.  What is
false counts as left out, and never stands in the way.

* `Value.Visits` — what is visited in a value, kind by kind.
* `Config.Obstacle` — what stands in the way, by the class of the fault that it causes.
* `Config.entry`, `Config.Completes` — what one product becomes, and what the whole becomes.
* `Config.products_cases`, `Config.resolve_cases` — the two ways in which the products, and the whole,
  can go.
* **`Config.resolve_iff`** — a configuration is completed exactly where nothing stands in the way.
-/

namespace Mailshot

/-! ## What is visited -/

namespace Value

/-- What is visited in a value, one after the other: the items of a list, the letters of a text, the
numbers of bytes and the keys of a mapping. -/
inductive Visits : Value → List Value → Prop
  | items (items : List Value) : Visits (.list items) items
  | letters (t : Text) : Visits (.text t) (t.map fun letter => .text [letter])
  | numbers (b : List UInt8) : Visits (.bytes b) (b.map fun byte => .int byte.toNat)
  | keys (fields : Fields) : Visits (.map fields) (fields.map fun field => .scalar field.1)

/-- What is visited in a value that may be left out. -/
def VisitsOrNone (v : Value) (items : List Value) : Prop :=
  (v.truthy = true ∧ v.Visits items) ∨ (v.truthy = false ∧ items = [])

variable {v : Value} {items : List Value}

/-- Nothing else is visited in a plain value. -/
lemma items_eq_ok (h : v.isPlain = true) : v.items = .ok items ↔ v.Visits items := by
  match v with
  | .list _ | .text _ | .bytes _ | .map _ =>
      constructor
      · rintro ⟨⟩
        constructor
      · rintro ⟨⟩
        rfl
  | .null | .bool _ | .int _ | .float _ | .scalar (.date _) | .scalar (.moment _) =>
      constructor <;> rintro ⟨⟩
  | .pair _ _ | .set _ | .again _ => cases h

/-- A value whose items cannot be visited has none to visit. -/
lemma items_eq_error {e : Fault} (h : v.items = .error e) : e = .notIterable := by
  match v with
  | .null | .bool _ | .int _ | .float _ | .scalar (.date _) | .scalar (.moment _) | .again _ =>
      cases h
      rfl
  | .list _ | .text _ | .bytes _ | .map _ | .pair _ _ | .set _ => cases h

/-- Items that may be left out are visited, or there is no way to. -/
lemma itemsOrNone_cases (h : v.isPlain = true) :
    (∃ items, v.itemsOrNone = .ok items ∧ v.VisitsOrNone items) ∨
      v.truthy = true ∧ (∀ items, ¬ v.Visits items) ∧ v.itemsOrNone = .error .notIterable := by
  unfold itemsOrNone VisitsOrNone
  cases ht : v.truthy with
  | false => exact .inl ⟨[], rfl, .inr ⟨rfl, rfl⟩⟩
  | true =>
      rw [if_pos rfl]
      cases hi : v.items with
      | ok items => exact .inl ⟨items, rfl, .inl ⟨rfl, (items_eq_ok h).mp hi⟩⟩
      | error e =>
          refine .inr ⟨rfl, fun items hv => ?_, congrArg _ (items_eq_error hi)⟩
          rw [(items_eq_ok h).mpr hv] at hi
          cases hi

/-- Fields that may be left out are those of a mapping, or there are none to read. -/
lemma fieldsOrNone_cases (v : Value) :
    v.fieldsOrNone = .ok (v.asMap.getD []) ∧ (v.truthy = true → ∃ fields, v = .map fields) ∨
      v.truthy = true ∧ v.asMap = none ∧ v.fieldsOrNone = .error .notMapping := by
  match v with
  | .map fields => exact .inl ⟨fieldsOrNone_map fields, fun _ => ⟨fields, rfl⟩⟩
  | .scalar _ | .list _ | .pair _ _ | .set _ | .again _ =>
      unfold fieldsOrNone
      split
      · next ht => exact .inr ⟨ht, rfl, rfl⟩
      · next hf => exact .inl ⟨rfl, fun ht => absurd ht hf⟩

end Value

namespace Config

variable {c : Value} {fields r : Fields} {kind : Text}

/-! ## Obstacles -/

/-- What stands in the way of completing a configuration, by the class of the fault that it causes. -/
inductive Obstacle (c : Value) : Text → Prop
  /-- It is no mapping. -/
  | config : c.truthy = true → c.asMap = none → Obstacle c "AttributeError"
  /-- Its products cannot be visited. -/
  | products {fields : Fields} : c = .map fields → (fields.look "products").truthy = true →
      (∀ items, ¬ (fields.look "products").Visits items) → Obstacle c "TypeError"
  /-- One that is visited among them is no mapping. -/
  | product {fields : Fields} {items : List Value} {v : Value} : c = .map fields →
      (fields.look "products").truthy = true → (fields.look "products").Visits items → v ∈ items →
      v.truthy = true → v.asMap = none → Obstacle c "AttributeError"

/-! ## What is completed -/

/-- What a product becomes: a mapping goes over the blank product, and anything else leaves it. -/
def entry : Value → Fields
  | .map fields => Fields.merge Product.blank fields
  | _ => Product.blank

/-- The keys of a complete configuration. -/
def keys : List String := ["template", "layout", "theme", "company", "hero", "products", "footer"]

/-- What a configuration becomes: it has all its keys, its sections have theirs unless they are given
as something else than mappings, and of everything that is visited in its products there is one
product, with every field. -/
structure Completes (c : Value) (r : Fields) : Prop where
  keys : ∀ key ∈ keys, (r.find? (.text (Text.ofString key))).isSome = true
  sections : ∀ key ∈ sectionNames, IsOptionalMap ((c.asMap.getD []).look key) →
    ∃ s : Fields, r.look key = .map s ∧ ∀ f ∈ sectionFields defaults key, (s.find? f.1).isSome = true
  products : ∃ items, ((c.asMap.getD []).look "products").VisitsOrNone items ∧
    r.look "products" = .list (items.map fun v => .map (entry v))
  fields : ∀ v : Value, ∀ f ∈ Product.blank, ((entry v).find? f.1).isSome = true

/-- A merge keeps every key of its base. -/
lemma isSome_find?_merge {base layer : Fields} {key : Scalar}
    (h : (base.find? key).isSome = true) : ((Fields.merge base layer).find? key).isSome = true := by
  unfold Fields.merge
  induction layer generalizing base with
  | nil => rwa [Fields.mergeFields]
  | cons f rest ih =>
      obtain ⟨k, v⟩ := f
      rw [Fields.mergeFields_cons]
      refine ih ?_
      rw [Fields.find?_put]
      split
      · rfl
      · exact h

/-- A key of a mapping is found there. -/
lemma isSome_find?_of_mem {f : Scalar × Value} (h : f ∈ fields) :
    (fields.find? f.1).isSome = true := by
  induction fields with
  | nil => cases h
  | cons g rest ih =>
      unfold Fields.find?
      split
      · rfl
      · next hg =>
          rcases List.mem_cons.mp h with rfl | hmem
          · exact absurd (Scalar.same_self _) hg
          · exact ih hmem

lemma isSome_find?_entry (v : Value) {f : Scalar × Value} (h : f ∈ Product.blank) :
    ((entry v).find? f.1).isSome = true := by
  match v with
  | .map _ => exact isSome_find?_merge (isSome_find?_of_mem h)
  | .scalar _ | .list _ | .pair _ _ | .set _ | .again _ => exact isSome_find?_of_mem h

/-! ## The two ways -/

/-- A product is completed, or it is no mapping. -/
lemma resolveProduct_cases (v : Value) :
    resolveProduct v = .ok (.map (entry v)) ∧ (v.truthy = true → ∃ fields, v = .map fields) ∨
      v.truthy = true ∧ v.asMap = none ∧ resolveProduct v = .error .notMapping := by
  unfold resolveProduct
  rcases v.fieldsOrNone_cases with ⟨hv, hmap⟩ | ⟨ht, hm, hv⟩
  · refine .inl ⟨?_, hmap⟩
    rw [hv, ok_bind]
    cases v <;> rfl
  · refine .inr ⟨ht, hm, ?_⟩
    rw [hv]
    rfl

/-- So are the products that are visited, all of them, or one of them is no mapping. -/
lemma products_cases (items : List Value) :
    items.mapM resolveProduct = .ok (items.map fun v => .map (entry v)) ∧
      (∀ v ∈ items, v.truthy = true → ∃ fields, v = .map fields) ∨
    (∃ v ∈ items, v.truthy = true ∧ v.asMap = none) ∧
      items.mapM resolveProduct = .error .notMapping := by
  induction items with
  | nil => exact .inl ⟨rfl, fun _ hv => absurd hv List.not_mem_nil⟩
  | cons v rest ih =>
      rw [List.mapM_cons]
      rcases resolveProduct_cases v with ⟨hv, hmap⟩ | ⟨ht, hm, hv⟩
      · rw [hv, ok_bind]
        rcases ih with ⟨hrest, hall⟩ | ⟨⟨w, hw, hbad⟩, hrest⟩
        · rw [hrest]
          exact .inl ⟨rfl, List.forall_mem_cons.mpr ⟨hmap, hall⟩⟩
        · rw [hrest]
          exact .inr ⟨⟨w, List.mem_cons_of_mem _ hw, hbad⟩, rfl⟩
      · rw [hv]
        exact .inr ⟨⟨v, List.mem_cons_self, ht, hm⟩, rfl⟩

/-- A section that is given as a mapping, as null or not at all has the keys of the defaults. -/
lemma isSome_section (h : resolve (.map fields) = .ok r) (hc : fields.Distinct) {key : String}
    (hk : key ∈ sectionNames) (hs : IsOptionalMap (fields.look key)) :
    ∃ s : Fields, r.look key = .map s ∧
      ∀ f ∈ sectionFields defaults key, (s.find? f.1).isSome = true := by
  obtain ⟨hdefault, -⟩ := defaults_section hk
  have hfind := find?_resolve h hc (ne_products hk)
  rw [hdefault] at hfind
  unfold Fields.look at hs ⊢
  rw [hfind]
  cases hf : fields.find? (.text (Text.ofString key)) with
  | none => exact ⟨_, rfl, fun f hmem => isSome_find?_of_mem hmem⟩
  | some v =>
      rw [hf, Option.getD_some] at hs
      rcases hs with rfl | ⟨layer, rfl⟩
      · exact ⟨_, by simp [Value.mergeInto], fun f hmem => isSome_find?_of_mem hmem⟩
      · refine ⟨Fields.merge (sectionFields defaults key) layer, ?_, fun f hmem =>
          isSome_find?_merge (isSome_find?_of_mem hmem)⟩
        simp [Value.mergeInto, Fields.merge]

/-- What a configuration becomes whose products are completed. -/
lemma completes_of_ok (hc : c.isTidy = true) (hf : c.fieldsOrNone = .ok (c.asMap.getD []))
    {items : List Value} (hv : ((c.asMap.getD []).look "products").VisitsOrNone items)
    (hi : ((c.asMap.getD []).look "products").itemsOrNone = .ok items)
    (hp : items.mapM resolveProduct = .ok (items.map fun v => .map (entry v))) :
    ∃ r, resolve c = .ok r ∧ Completes c r := by
  have hdistinct := distinct_of_fieldsOrNone hc hf
  have hr : resolve c = .ok _ :=
    resolve_eq_ok.mpr ⟨_, _, _, hf, (itemsOrNone_merge hdistinct).trans hi, hp, rfl⟩
  refine ⟨_, hr, ⟨fun key hk => find?_resolve_isSome hc hr ?_, fun key hk hs => ?_,
    ⟨items, hv, Fields.look_put_self _ _ _⟩, fun v f hf => isSome_find?_entry v hf⟩⟩
  · simp only [keys, List.mem_cons, List.not_mem_nil, or_false] at hk
    rcases hk with rfl | rfl | rfl | rfl | rfl | rfl | rfl <;> rfl
  · refine isSome_section ?_ hdistinct hk hs
    rw [← hr, resolve, resolve, hf, Value.fieldsOrNone_map]

/-- The completion of a configuration whose fields can be read: only its products are read again. -/
lemma resolve_eq (hc : c.isTidy = true) (hf : c.fieldsOrNone = .ok fields) : resolve c =
    (do let products ← (← (fields.look "products").itemsOrNone).mapM resolveProduct
        return (Fields.merge defaults fields).put (.text (Text.ofString "products"))
          (.list products)) := by
  have hitems := itemsOrNone_merge (distinct_of_fieldsOrNone hc hf)
  unfold resolve
  rw [hf, ok_bind]
  dsimp only
  rw [hitems]

/-! ## What stands in the way -/

/-- What is visited in a value is one list. -/
lemma visits_unique {v : Value} {items others : List Value} (h : v.Visits items)
    (h' : v.Visits others) : others = items := by
  cases h <;> cases h' <;> rfl

/-- A configuration whose products are true is a mapping. -/
lemma eq_map_of_truthy (ht : ((c.asMap.getD []).look "products").truthy = true) :
    c = .map (c.asMap.getD []) := by
  cases hm : c.asMap with
  | none =>
      rw [hm] at ht
      cases ht
  | some fields => exact Value.asMap_eq_some.mp hm

/-- If the configuration itself is in the way, nothing else is. -/
lemma obstacle_config_iff (ht : c.truthy = true) (hm : c.asMap = none) :
    Obstacle c kind ↔ kind = "AttributeError" := by
  constructor
  · rintro (⟨-, -⟩ | ⟨rfl, -, -⟩ | -)
    · rfl
    · cases hm
    · rfl
  · rintro rfl
    exact .config ht hm

/-- Nor is anything else if one of the products is. -/
lemma obstacle_product_iff {items : List Value} {v : Value}
    (hv : ((c.asMap.getD []).look "products").VisitsOrNone items) (hmem : v ∈ items)
    (hvt : v.truthy = true) (hvm : v.asMap = none) : Obstacle c kind ↔ kind = "AttributeError" := by
  obtain ⟨ht, hvisits⟩ : ((c.asMap.getD []).look "products").truthy = true ∧
      ((c.asMap.getD []).look "products").Visits items := by
    rcases hv with hv | ⟨-, rfl⟩
    · exact hv
    · cases hmem
  constructor
  · rintro (⟨-, -⟩ | ⟨rfl, -, hnone⟩ | -)
    · rfl
    · exact absurd hvisits (hnone _)
    · rfl
  · rintro rfl
    exact .product (eq_map_of_truthy ht) ht hvisits hmem hvt hvm

section Mapping

variable (hmap : c.truthy = true → ∃ fields, c = .map fields)

include hmap

/-- Nor if the products as a whole are. -/
lemma obstacle_products_iff (ht : ((c.asMap.getD []).look "products").truthy = true)
    (hnone : ∀ items, ¬ ((c.asMap.getD []).look "products").Visits items) :
    Obstacle c kind ↔ kind = "TypeError" := by
  constructor
  · rintro (⟨hc, hm⟩ | ⟨-, -, -⟩ | ⟨rfl, -, hvisits, -, -, -⟩)
    · obtain ⟨fields, rfl⟩ := hmap hc
      cases hm
    · rfl
    · exact absurd hvisits (hnone _)
  · rintro rfl
    exact .products (eq_map_of_truthy ht) ht hnone

/-- Nothing is in the way where all that are visited are mappings or false. -/
lemma not_obstacle {items : List Value}
    (hv : ((c.asMap.getD []).look "products").VisitsOrNone items)
    (hall : ∀ v ∈ items, v.truthy = true → ∃ fields, v = .map fields) : ¬ Obstacle c kind := by
  rintro (⟨hc, hm⟩ | ⟨rfl, ht, hnone⟩ | ⟨rfl, ht, hvisits, hmem, hvt, hvm⟩)
  · obtain ⟨fields, rfl⟩ := hmap hc
    cases hm
  · rcases hv with ⟨-, hv⟩ | ⟨hfalse, -⟩
    · exact hnone _ hv
    · exact Bool.noConfusion (ht.symm.trans hfalse)
  · rcases hv with ⟨-, hv⟩ | ⟨hfalse, -⟩
    · obtain rfl := visits_unique hv hvisits
      obtain ⟨_, rfl⟩ := hall _ hmem hvt
      cases hvm
    · exact Bool.noConfusion (ht.symm.trans hfalse)

end Mapping

/-- **The two ways a completion can go**: it ends in a complete configuration, and nothing stands in
the way, or in a fault, and what stands in the way is of its class and no other. -/
theorem resolve_cases (hc : c.isTidy = true) (hplain : c.isPlain = true) :
    (∃ r, resolve c = .ok r ∧ Completes c r) ∧ (∀ kind, ¬ Obstacle c kind) ∨
      ∃ fault, resolve c = .error fault ∧ ∀ kind, Obstacle c kind ↔ kind = fault.label := by
  rcases c.fieldsOrNone_cases with ⟨hf, hmap⟩ | ⟨ht, hm, hf⟩
  · have hproducts : ((c.asMap.getD []).look "products").isPlain = true :=
      Value.hereditary_isPlain.look (isPlain_of_fieldsOrNone hplain hf)
    rcases Value.itemsOrNone_cases hproducts with ⟨items, hi, hv⟩ | ⟨ht, hnone, hi⟩
    · rcases products_cases items with ⟨hp, hall⟩ | ⟨⟨v, hmem, hvt, hvm⟩, hp⟩
      · exact .inl ⟨completes_of_ok hc hf hv hi hp, fun _ => not_obstacle hmap hv hall⟩
      · refine .inr ⟨.notMapping, ?_, fun _ => obstacle_product_iff hv hmem hvt hvm⟩
        rw [resolve_eq hc hf, hi, ok_bind, hp, error_bind]
    · refine .inr ⟨.notIterable, ?_, fun _ => obstacle_products_iff hmap ht hnone⟩
      rw [resolve_eq hc hf, hi, error_bind]
  · refine .inr ⟨.notMapping, ?_, fun _ => obstacle_config_iff ht hm⟩
    unfold resolve
    rw [hf]
    rfl

/-- **When a configuration is completed.**  A plain configuration, of whatever kind, ends in a fault of
a class exactly where something of that class stands in its way; where nothing does, it is completed,
with all its keys and those of its sections, and with one product for each that is visited, in
order. -/
theorem resolve_iff (hc : c.isTidy = true) (hplain : c.isPlain = true) :
    (∀ kind, (∃ fault, resolve c = .error fault ∧ fault.label = kind) ↔ Obstacle c kind) ∧
      ((∀ kind, ¬ Obstacle c kind) → ∃ r, resolve c = .ok r ∧ Completes c r) := by
  rcases resolve_cases hc hplain with ⟨⟨r, hr, hcomplete⟩, hnone⟩ | ⟨fault, hr, hall⟩
  · refine ⟨fun kind => ⟨?_, fun hob => absurd hob (hnone kind)⟩, fun _ => ⟨r, hr, hcomplete⟩⟩
    rintro ⟨fault, herror, -⟩
    rw [hr] at herror
    cases herror
  · refine ⟨fun kind => ⟨?_, fun hob => ⟨fault, hr, ((hall kind).mp hob).symm⟩⟩, fun hnone => ?_⟩
    · rintro ⟨other, herror, rfl⟩
      rw [hr] at herror
      cases herror
      exact (hall _).mpr rfl
    · exact absurd ((hall _).mpr rfl) (hnone _)

/-- A configuration whose products are a mapping with two keys that are false. -/
def keyed : Fields := Fields.named [
  ("hero", .null),
  ("layout", .map (Fields.named [("content_width", .int 500)])),
  ("products", .map [(.text [], .text "a"), (.int 0, .list [])])]

/-- A configuration whose products are a word. -/
def spelled : Fields := Fields.named [("products", .text "none")]

theorem resolve_iff_odd :
    (∃ fault, resolve (.map spelled) = .error fault ∧ fault.label = "AttributeError") ∧
      ∃ r, resolve (.map keyed) = .ok r ∧ Completes (.map keyed) r := by
  have hspelled := (resolve_iff (c := .map spelled) (by decide +kernel) (by decide +kernel)).1
  obtain ⟨hkind, hcompletes⟩ :=
    resolve_iff (c := .map keyed) (by decide +kernel) (by decide +kernel)
  constructor
  · -- the first letter is no mapping
    refine (hspelled _).mpr (.product rfl rfl (.letters _) List.mem_cons_self rfl rfl)
  · refine hcompletes fun kind hob => ?_
    obtain ⟨fault, herror, -⟩ := (hkind kind).mpr hob
    rw [eq_ok_of_isOk (x := resolve (.map keyed)) (by decide +kernel)] at herror
    cases herror

end Config

end Mailshot
