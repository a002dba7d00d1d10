import Mailshot.Proofs.Escape
import Mailshot.Proofs.Resolve

/-!
# Hereditary properties

Some properties a collection has exactly when everything in it has them.  What keeps such a property
is said here once for all of them.

* `Value.Hereditary` — such a property; the keys of a mapping may have to meet a condition of their
  own.
* `Value.Hereditary.put`, `Value.Hereditary.merge` — writing and merging keep it.
* **`Value.Hereditary.resolve`** — so does completing a configuration.
* `Value.isPlain` — whether a value is built of single values, lists and mappings.
* `Value.hereditary_isPlain`, `Value.hereditary_isShowable`, `Value.hereditary_isFinite` — being
  plain is hereditary, and so are showing and not holding oneself.
-/

namespace Mailshot

namespace Value

/-- A property of null and of all texts that a list has exactly when its items have it, and a mapping
when its values have it and its keys meet a condition. -/
structure Hereditary (K : Scalar → Prop) (P : Value → Prop) : Prop where
  null : P .null
  text : ∀ t, P (.text t)
  list : ∀ {items : List Value}, P (.list items) ↔ ∀ v ∈ items, P v
  map : ∀ {fields : Fields}, P (.map fields) ↔ ∀ f ∈ fields, K f.1 ∧ P f.2

namespace Hereditary

variable {K : Scalar → Prop} {P : Value → Prop} {fields base layer : Fields} {key : Scalar}
  {v : Value} {name : String}

/-! ## Look-ups, writes and merges -/

lemma empty (h : Hereditary K P) : P (.map []) := h.map.mpr fun _ hf => absurd hf List.not_mem_nil

/-- What is found in a mapping has the property that the mapping has. -/
lemma of_find? (h : Hereditary K P) (hf : P (.map fields)) (hv : fields.find? key = some v) :
    P v := by
  obtain ⟨f, hmem, -, rfl⟩ := Fields.exists_mem_of_find? hv
  exact (h.map.mp hf f hmem).2

/-- A named field has it too, also where it counts as null. -/
lemma look (h : Hereditary K P) (hf : P (.map fields)) : P (fields.look name) := by
  unfold Fields.look
  cases hv : fields.find? (.text (Text.ofString name)) with
  | none => exact h.null
  | some v => exact h.of_find? hf hv

/-- Or where it shows as nothing. -/
lemma shown (h : Hereditary K P) (hf : P (.map fields)) : P (fields.shown name) := by
  unfold Fields.shown
  cases hv : fields.find? (.text (Text.ofString name)) with
  | none => exact h.text []
  | some v => exact h.of_find? hf hv

lemma put (h : Hereditary K P) (hf : P (.map fields)) (hk : K key) (hv : P v) :
    P (.map (fields.put key v)) := by
  rw [h.map] at hf ⊢
  exact Fields.forall_put hf hk hv

/-- **Merging** keeps the property.  The induction is on the layer, into its values as well. -/
theorem merge (h : Hereditary K P) : ∀ {base layer : Fields},
    P (.map base) → P (.map layer) → P (.map (Fields.merge base layer))
  | base, [], hb, _ => by rwa [Fields.merge, Fields.mergeFields]
  | base, (key, v) :: rest, hb, hl => by
      obtain ⟨⟨hk, hv⟩, hrest⟩ := List.forall_mem_cons.mp (h.map.mp hl)
      rw [Fields.merge, Fields.mergeFields_cons]
      refine h.merge (h.put hb hk ?_) (h.map.mpr hrest)
      refine Fields.mergeInto_cases ?_ ?_ hv
      · rintro inner layer hfind rfl
        exact h.merge (h.of_find? hb hfind) hv
      · intro inner hfind _
        exact h.of_find? hb hfind
termination_by _ layer => sizeOf layer

/-! ## Complete configurations -/

/-- What is visited in a value that is no pair is a single value, which is never a mapping, or an item
of a list. -/
lemma of_items (h : Hereditary K P) {items : List Value} (hp : ∀ a b, v ≠ .pair a b)
    (hv : P v) (hi : v.items = .ok items) : ∀ w ∈ items, ∀ fields, w = .map fields → P w := by
  match v with
  | .list _ =>
      cases hi
      exact fun w hw _ _ => h.list.mp hv w hw
  | .text _ | .bytes _ | .map _ | .set _ =>
      cases hi
      intro w hw fields hmap
      obtain ⟨_, -, rfl⟩ := List.mem_map.mp hw
      cases hmap
  | .pair a b => exact absurd rfl (hp a b)
  | .null | .bool _ | .int _ | .float _ | .scalar (.date _) | .scalar (.moment _) | .again _ => cases hi

/-- A completed product has the property if the blank one has it, and the product if it is a
mapping. -/
lemma resolveProduct (h : Hereditary K P) (hblank : P (.map Product.blank)) {w : Value}
    (hv : ∀ fields, v = .map fields → P v) (hw : Config.resolveProduct v = .ok w) : P w := by
  obtain ⟨fields, hf, rfl⟩ := Config.resolveProduct_eq_ok.mp hw
  refine h.merge hblank ?_
  unfold Value.fieldsOrNone at hf
  split at hf
  · obtain rfl := Value.fields_eq_ok.mp hf
    exact hv fields rfl
  · cases hf
    exact h.empty

/-- **Completing** a configuration keeps the property, if the defaults and the blank product have it
and the products are no pair. -/
theorem resolve (h : Hereditary K P) (hdefaults : P (.map Config.defaults))
    (hblank : P (.map Product.blank)) {c r : Fields} (hc : P (.map c))
    (hpair : ∀ a b, (Fields.merge Config.defaults c).look "products" ≠ .pair a b)
    (hr : Config.resolve (.map c) = .ok r) : P (.map r) := by
  obtain ⟨_, items, products, hf, hi, hp, rfl⟩ := Config.resolve_eq_ok.mp hr
  rw [Value.fieldsOrNone_map] at hf
  cases hf
  have hmerged := h.merge hdefaults hc
  have hkey : K (.text (Text.ofString "products")) :=
    (h.map.mp hdefaults (_, .list []) (by simp [Config.defaults, Fields.named])).1
  refine h.put hmerged hkey (h.list.mpr ?_)
  refine forall_of_mapM_eq_ok hp fun item hitem w hw => h.resolveProduct hblank ?_ hw
  unfold Value.itemsOrNone at hi
  split at hi
  · exact h.of_items hpair (h.look hmerged) hi item hitem
  · cases hi
    exact absurd hitem List.not_mem_nil

end Hereditary

/-! ## Plain values -/

/-- An item of a list is smaller than the list. -/
lemma sizeOf_lt_list {items : List Value} {v : Value} (h : v ∈ items) :
    sizeOf v < sizeOf (Value.list items) := by
  have := List.sizeOf_lt_of_mem h
  simp
  omega

/-- A value of a mapping is smaller than the mapping. -/
lemma sizeOf_lt_map {fields : Fields} {f : Scalar × Value} (h : f ∈ fields) :
    sizeOf f.2 < sizeOf (Value.map fields) := by
  obtain ⟨k, v⟩ := f
  have := List.sizeOf_lt_of_mem h
  simp at this ⊢
  omega

mutual

/-- Whether a value is built of single values, lists and mappings. -/
def isPlain : Value → Bool
  | .scalar _ => true
  | .list items => allPlain items
  | .map fields => allFieldsPlain fields
  | .pair _ _ | .set _ | .again _ => false

/-- Whether all items of a list are plain. -/
def allPlain : List Value → Bool
  | [] => true
  | item :: rest => isPlain item && allPlain rest

/-- Whether the values of all fields are plain. -/
def allFieldsPlain : List (Scalar × Value) → Bool
  | [] => true
  | (_, value) :: rest => isPlain value && allFieldsPlain rest

end

lemma allPlain_iff {items : List Value} : allPlain items = true ↔ ∀ v ∈ items, v.isPlain = true := by
  induction items with
  | nil => simp [allPlain]
  | cons v rest ih => simp [allPlain, ih]

lemma allFieldsPlain_iff {fields : Fields} :
    allFieldsPlain fields = true ↔ ∀ f ∈ fields, f.2.isPlain = true := by
  induction fields with
  | nil => simp [allFieldsPlain]
  | cons f rest ih =>
      obtain ⟨k, v⟩ := f
      simp only [allFieldsPlain, Bool.and_eq_true, ih, List.forall_mem_cons]

/-- Being plain is hereditary. -/
theorem hereditary_isPlain : Hereditary (fun _ => True) fun v => v.isPlain = true where
  null := rfl
  text _ := rfl
  list := by simp [isPlain, allPlain_iff]
  map := by simp [isPlain, allFieldsPlain_iff]

/-- **A plain value** has every hereditary property that single values have and that asks nothing of
keys. -/
theorem Hereditary.of_isPlain {P : Value → Prop} (h : Hereditary (fun _ => True) P)
    (hscalar : ∀ s, P (.scalar s)) : ∀ v : Value, v.isPlain = true → P v
  | .scalar s, _ => hscalar s
  | .list items, hv =>
      h.list.mpr fun v hmem => h.of_isPlain hscalar v (hereditary_isPlain.list.mp hv v hmem)
  | .map fields, hv =>
      h.map.mpr fun f hmem =>
        ⟨trivial, h.of_isPlain hscalar f.2 (hereditary_isPlain.map.mp hv f hmem).2⟩
termination_by v => sizeOf v
decreasing_by
  · exact sizeOf_lt_list hmem
  · exact sizeOf_lt_map hmem

/-! ## Values that show -/

lemma allShowable_iff {items : List Value} :
    allShowable items = true ↔ ∀ v ∈ items, v.isShowable = true := by
  induction items with
  | nil => simp [allShowable]
  | cons v rest ih => simp [allShowable, ih]

lemma allFieldsShowable_iff {fields : Fields} : allFieldsShowable fields = true ↔
    ∀ f ∈ fields, f.1.isShowable = true ∧ f.2.isShowable = true := by
  induction fields with
  | nil => simp [allFieldsShowable]
  | cons f rest ih =>
      obtain ⟨k, v⟩ := f
      simp only [allFieldsShowable, Bool.and_eq_true, ih, List.forall_mem_cons]

/-- Showing is hereditary; here the keys count too. -/
theorem hereditary_isShowable :
    Hereditary (fun k => k.isShowable = true) fun v => v.isShowable = true where
  null := rfl
  text _ := rfl
  list := by simp [isShowable, allShowable_iff]
  map := by simp [isShowable, allFieldsShowable_iff]

/-! ## Values that do not hold themselves -/

lemma anyEndless_iff {items : List Value} :
    anyEndless items = false ↔ ∀ v ∈ items, v.isEndless = false := by
  induction items with
  | nil => simp [anyEndless]
  | cons v rest ih => simp [anyEndless, ih]

lemma anyFieldEndless_iff {fields : Fields} :
    anyFieldEndless fields = false ↔ ∀ f ∈ fields, f.2.isEndless = false := by
  induction fields with
  | nil => simp [anyFieldEndless]
  | cons f rest ih =>
      obtain ⟨k, v⟩ := f
      simp only [anyFieldEndless, Bool.or_eq_false_iff, ih, List.forall_mem_cons]

/-- Not holding oneself is hereditary. -/
theorem hereditary_isFinite : Hereditary (fun _ => True) fun v => v.isEndless = false where
  null := rfl
  text _ := rfl
  list := by simp [isEndless, anyEndless_iff]
  map := by simp [isEndless, anyFieldEndless_iff]

/-- A plain value does not hold itself. -/
lemma isEndless_of_isPlain {v : Value} (h : v.isPlain = true) : v.isEndless = false :=
  hereditary_isFinite.of_isPlain (fun _ => rfl) v h

end Value

end Mailshot
