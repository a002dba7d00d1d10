import Mailshot.Proofs.Display
import Mailshot.Proofs.Fields
import Mailshot.Product.Parts
import Mailshot.Value.Escape

/-!
# Escaped values

Escaping changes the texts inside a value and nothing else: what the compiler decides by is the same
before and after.

* `Value.truthy_escape`, `Value.number?_escape`, `Value.isText_escape`, `Value.isShowable_escape` —
  the truth of a value, the number it is, the name it is, and whether it shows.
* `Fields.find?_escape` and its companions — the fields of an escaped mapping are its fields,
  escaped.
* `Value.fields_escape`, `Value.field_escape`, `Config.look_products_escape` — the sections and the
  products of an escaped configuration.
* `Template.ofValue?_escape`, `Tier.ofValue_escape`, `Product.ofProduct_escape` — so is the template,
  the tier and the pricing mode that a value names.
* **`Value.display_escape`** — what an escaped single value shows is what the value shows, escaped.
-/

namespace Mailshot

open Text Text.Entity

/-! ## Values -/

namespace Value

lemma escapeItems_eq_map (items : List Value) : escapeItems items = items.map escape := by
  induction items with
  | nil => rfl
  | cons v rest ih => rw [escapeItems, ih, List.map_cons]

@[simp] lemma escape_map (fields : Fields) : (Value.map fields).escape = .map fields.escape := rfl

@[simp] lemma escape_list (items : List Value) :
    (Value.list items).escape = .list (items.map escape) := by
  rw [escape, escapeItems_eq_map]

@[simp] lemma truthy_escape (v : Value) : v.escape.truthy = v.truthy := by
  match v with
  | .text t => simp [escape, Scalar.escape, truthy, Scalar.truthy]
  | .null | .bool _ | .int _ | .float _ | .bytes _ | .scalar (.date _) | .scalar (.moment _) => rfl
  | .list items => cases items <;> rfl
  | .map fields => cases fields <;> rfl
  | .pair _ _ | .set _ | .again _ => rfl

@[simp] lemma number?_escape (v : Value) : v.escape.number? = v.number? := by
  match v with
  | .null | .bool _ | .int _ | .float _ | .text _ | .bytes _ | .scalar (.date _)
  | .scalar (.moment _) | .list _ | .map _ | .pair _ _ | .set _ | .again _ => rfl

lemma text?_eq_some {v : Value} {t : Text} : v.text? = some t ↔ v = .text t := by
  match v with
  | .text u => simp [text?]
  | .null | .bool _ | .int _ | .float _ | .bytes _ | .scalar (.date _) | .scalar (.moment _)
  | .list _ | .map _ | .pair _ _ | .set _ | .again _ => simp [text?]

lemma text?_escape (v : Value) : v.escape.text? = v.text?.map Text.escape := by
  match v with
  | .null | .bool _ | .int _ | .float _ | .text _ | .bytes _ | .scalar (.date _)
  | .scalar (.moment _) | .list _ | .map _ | .pair _ _ | .set _ | .again _ => rfl

lemma escape_of_text?_eq_none {v : Value} (hs : v.isSingle = true) (h : v.text? = none) :
    v.escape = v := by
  match v with
  | .null | .bool _ | .int _ | .float _ | .scalar (.date _) | .scalar (.moment _) => rfl

lemma escape_text_of_unmarked {t : Text} (h : Unmarked t) : (Value.text t).escape = .text t := by
  simp [escape, Scalar.escape, escape_of_unmarked h]

/-- A number has no texts to escape. -/
lemma escape_of_number {v : Value} (h : v.number?.isSome = true) : v.escape = v :=
  escape_of_text?_eq_none (isSingle_of_number h) (text?_of_number h)

/-- A name without marks is the name of a value before and after escaping. -/
lemma isText_escape (v : Value) {s : String} (h : Unmarked (ofString s)) :
    v.escape.isText s = v.isText s := by
  unfold isText
  rw [text?_escape]
  cases v.text? with
  | none => rfl
  | some t =>
      rw [Option.map_some, Bool.eq_iff_iff]
      simp [escape_eq_iff_of_unmarked h]

mutual

/-- Whether a value shows does not depend on its texts. -/
theorem isShowable_escape : ∀ v : Value, v.escape.isShowable = v.isShowable
  | .scalar s => by cases s <;> rfl
  | .list items => by
      simp only [escape, isShowable]
      exact allShowable_escapeItems items
  | .map fields => by
      simp only [escape, isShowable]
      exact allFieldsShowable_escapeFields fields
  | .pair _ _ | .set _ | .again _ => by simp only [escape]

theorem allShowable_escapeItems :
    ∀ items : List Value, allShowable (escapeItems items) = allShowable items
  | [] => rfl
  | v :: rest => by
      simp only [escapeItems, allShowable, isShowable_escape v, allShowable_escapeItems rest]

theorem allFieldsShowable_escapeFields : ∀ fields : List (Scalar × Value),
    allFieldsShowable (escapeFields fields) = allFieldsShowable fields
  | [] => rfl
  | (key, v) :: rest => by
      simp only [escapeFields, allFieldsShowable, isShowable_escape v,
        allFieldsShowable_escapeFields rest]

end

/-- **What an escaped single value shows** is what the value shows, escaped. -/
theorem display_escape {v : Value} (h : v.isSingle = true) :
    v.escape.display = Text.escape v.display := by
  cases ht : v.text? with
  | none => rw [escape_of_text?_eq_none h ht, escape_of_unmarked (display_unmarked h ht)]
  | some t =>
      rw [text?_eq_some.mp ht]
      rfl

end Value

/-! ## Fields -/

namespace Fields

lemma escape_eq_map (fields : Fields) : fields.escape = fields.map fun f => (f.1, f.2.escape) := by
  unfold escape
  induction fields with
  | nil => rfl
  | cons f rest ih =>
      obtain ⟨k, v⟩ := f
      rw [Value.escapeFields, ih, List.map_cons]

@[simp] lemma find?_escape (fields : Fields) (key : Scalar) :
    fields.escape.find? key = (fields.find? key).map Value.escape := by
  induction fields with
  | nil => rfl
  | cons f rest ih =>
      obtain ⟨k, v⟩ := f
      simp only [escape, Value.escapeFields, find?] at ih ⊢
      split
      · rfl
      · exact ih

@[simp] lemma look_escape (fields : Fields) (name : String) :
    fields.escape.look name = (fields.look name).escape := by
  simp only [look, find?_escape]
  cases fields.find? (.text (ofString name)) <;> rfl

@[simp] lemma shown_escape (fields : Fields) (name : String) :
    fields.escape.shown name = (fields.shown name).escape := by
  simp only [shown, find?_escape]
  cases fields.find? (.text (ofString name)) <;> rfl

end Fields

/-! ## Sections and products -/

lemma Value.fields_escape (v : Value) : v.escape.fields = v.fields.map Fields.escape := by
  match v with
  | .map fields => rfl
  | .scalar _ | .list _ | .pair _ _ | .set _ | .again _ => rfl

lemma Value.field_escape (v : Value) (name : String) :
    v.escape.field name = (v.field name).map Value.escape := by
  match v with
  | .map fields =>
      simp only [Value.escape_map, Value.field, Fields.find?_escape]
      cases Fields.find? fields (.text (Text.ofString name)) <;> rfl
  | .scalar _ | .list _ | .pair _ _ | .set _ | .again _ => rfl

lemma Value.asMap_escape (v : Value) : v.escape.asMap = v.asMap.map Fields.escape := by
  match v with
  | .map fields => rfl
  | .scalar _ | .list _ | .pair _ _ | .set _ | .again _ => rfl

/-- What is a mapping after escaping was one before. -/
lemma Value.exists_map_of_escape {v : Value} {fields : Fields} (h : v.escape = .map fields) :
    ∃ fields, v = .map fields := by
  have hmap := v.asMap_escape
  rw [h] at hmap
  obtain ⟨fields, hfields, -⟩ := Option.map_eq_some_iff.mp hmap.symm
  exact ⟨fields, Value.asMap_eq_some.mp hfields⟩

/-- Escaping touches no key. -/
lemma Fields.Distinct.escape {fields : Fields} (h : fields.Distinct) : fields.escape.Distinct := by
  rw [Fields.escape_eq_map]
  exact List.pairwise_map.mpr h

/-- The products of an escaped configuration are its products, escaped. -/
lemma Config.look_products_escape {config : Fields} {products : List Fields}
    (h : config.look "products" = .list (products.map .map)) :
    config.escape.look "products" = .list ((products.map Fields.escape).map .map) := by
  rw [Fields.look_escape, h, Value.escape_list, List.map_map, List.map_map]
  rfl

/-! ## What values name -/

lemma Template.name_unmarked (t : Template) : Unmarked (ofString t.name) := by
  cases t <;> decide

lemma Tier.name_unmarked (t : Tier) : Unmarked (ofString t.name) := by
  cases t <;> decide

@[simp] lemma Template.ofValue?_escape (v : Value) :
    Template.ofValue? v.escape = Template.ofValue? v := by
  unfold Template.ofValue?
  congr 1
  funext t
  exact v.isText_escape t.name_unmarked

@[simp] lemma Tier.ofValue?_escape (v : Value) : Tier.ofValue? v.escape = Tier.ofValue? v := by
  unfold Tier.ofValue?
  congr 1
  funext t
  exact v.isText_escape t.name_unmarked

@[simp] lemma Tier.ofValue_escape (v : Value) : Tier.ofValue v.escape = Tier.ofValue v := by
  unfold Tier.ofValue
  rw [Tier.ofValue?_escape]

namespace Product

lemma Pricing.name_unmarked (mode : Pricing) : Unmarked (ofString mode.name) := by
  cases mode <;> decide

@[simp] lemma ofProduct_escape (p : Fields) : Pricing.ofProduct p.escape = Pricing.ofProduct p := by
  unfold Pricing.ofProduct
  rw [Fields.look_escape]
  congr 2
  funext mode
  exact Value.isText_escape _ mode.name_unmarked

@[simp] lemma isImageOnly_escape (p : Fields) : isImageOnly p.escape = isImageOnly p := by
  unfold isImageOnly
  rw [Fields.look_escape]
  exact Value.isText_escape _ (by decide)

end Product

end Mailshot
