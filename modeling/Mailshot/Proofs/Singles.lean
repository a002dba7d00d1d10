import Mailshot.Proofs.Escape
import Mailshot.Proofs.Likeness.Document

/-!
# What configurations hold for texts

The fields that show in a document are meant for texts, but a configuration may hold anything in
them.  What is said of escaping is said of configurations that hold values of some kind there.

* `Section.texts`, `Product.texts` — the fields that show, section by section, and of a product.
* `Config.Texts` — configurations that hold values of one kind in all of them.
* `Config.SingleTexts` — the kind being that of single values.
* `Config.Texts.shown_blank`, `Config.Texts.escape` — completing a product, and escaping a
  configuration, gives values of the same kind or of another one.
-/

namespace Mailshot

/-! ## Fields that show -/

/-- The sections with the fields that show. -/
def Section.texts : List (String × List String) := [
  ("theme", Likeness.themeColours),
  ("company", ["name", "logo_url", "website_url"]),
  ("hero", ["image_url", "title", "subtitle", "cta_text", "cta_link"]),
  ("footer", ["address", "text"])]

lemma Section.theme_texts : ("theme", Likeness.themeColours) ∈ Section.texts := by decide

/-- The fields of a product that show. -/
def Product.texts : List String :=
  ["name", "description", "brand_name", "brand_logo_url", "price", "discount_text", "link",
    "image_url"]

lemma Product.mem_texts_of_image {name : String} (h : name ∈ ["link", "image_url"]) :
    name ∈ texts := by
  revert name
  decide

lemma Product.mem_texts_of_words {name : String}
    (h : name ∈ ["name", "description", "brand_name", "brand_logo_url"]) : name ∈ texts := by
  revert name
  decide

/-- A blank product shows texts. -/
lemma Product.exists_text_blank {name : String} (h : name ∈ texts) :
    ∃ t, Fields.shown blank name = .text t := by
  have hblank : ∀ name ∈ texts, (Fields.shown blank name).text?.isSome = true := by decide +kernel
  obtain ⟨t, ht⟩ := Option.isSome_iff_exists.mp (hblank name h)
  exact ⟨t, Value.text?_eq_some.mp ht⟩

/-- Every field that shows holds a value of a kind, in all sections that are mappings and in all
products. -/
structure Config.Texts (P : Value → Prop) (config : Fields) : Prop where
  sections : ∀ s ∈ Section.texts, ∀ fields ∈ (config.look s.1).asMap, ∀ name ∈ s.2,
    P (fields.shown name)
  products : ∀ product ∈ Config.listed config, ∀ name ∈ Product.texts, P (product.shown name)

instance (P : Value → Prop) [DecidablePred P] (config : Fields) : Decidable (Config.Texts P config) :=
  decidable_of_iff
    ((∀ s ∈ Section.texts, ∀ fields ∈ (config.look s.1).asMap, ∀ name ∈ s.2,
        P (fields.shown name)) ∧
      ∀ product ∈ Config.listed config, ∀ name ∈ Product.texts, P (product.shown name))
    ⟨fun h => ⟨h.1, h.2⟩, fun h => ⟨h.sections, h.products⟩⟩

/-- Every field that shows holds a single value. -/
abbrev Config.SingleTexts (config : Fields) : Prop :=
  Config.Texts (fun v => v.isSingle = true) config

namespace Config.Texts

variable {P : Value → Prop} {config fields product : Fields} {names : List String}
  {name key : String}

lemma imp {Q : Value → Prop} (h : Texts P config) (hPQ : ∀ v, P v → Q v) : Texts Q config where
  sections s hs fields hf name hn := hPQ _ (h.sections s hs fields hf name hn)
  products product hp name hn := hPQ _ (h.products product hp name hn)

/-- Over a blank that holds such values, such values. -/
lemma shown_merge {base layer : Fields} (hbase : base.Flat) (hlayer : layer.Distinct)
    (hb : P (base.shown name)) (hl : P (layer.shown name)) : P ((base.merge layer).shown name) := by
  unfold Fields.shown at hb hl ⊢
  rw [hbase.find?_merge hlayer]
  cases hf : layer.find? (.text (Text.ofString name)) with
  | none => exact hb
  | some v => rwa [hf] at hl

/-- So of a product over the blank one. -/
lemma shown_blank (hP : ∀ t, P (.text t)) (hp : product.Distinct) (hn : name ∈ Product.texts)
    (h : P (product.shown name)) : P ((Fields.merge Product.blank product).shown name) := by
  obtain ⟨t, ht⟩ := Product.exists_text_blank hn
  exact shown_merge Config.blank_flat hp (ht ▸ hP t) h

/-- A section of any configuration; one that is missing shows empty texts. -/
lemma sectionFields (h : Texts P config) (hP : ∀ t, P (.text t)) (hs : (key, names) ∈ Section.texts)
    (hn : name ∈ names) : P ((Config.sectionFields config key).shown name) := by
  unfold Config.sectionFields
  cases hf : (config.look key).asMap with
  | none => exact hP _
  | some fields => exact h.sections _ hs fields hf _ hn

/-- Escaping the configuration, where it takes one kind of values to another. -/
lemma escape {Q : Value → Prop} (h : Texts P config) {ps : List Fields}
    (hp : config.look "products" = .list (ps.map .map)) (hPQ : ∀ v, P v → Q v.escape) :
    Texts Q config.escape where
  sections s hs fields hf name hn := by
    rw [Fields.look_escape, Value.asMap_escape] at hf
    obtain ⟨given, hgiven, rfl⟩ := Option.map_eq_some_iff.mp hf
    rw [Fields.shown_escape]
    exact hPQ _ (h.sections s hs given hgiven name hn)
  products product hmem name hn := by
    rw [Config.listed_of_look (Config.look_products_escape hp)] at hmem
    obtain ⟨given, hgiven, rfl⟩ := List.mem_map.mp hmem
    rw [Fields.shown_escape]
    exact hPQ _ (h.products given (Config.listed_of_look hp ▸ hgiven) name hn)

/-- A field that shows, in a section. -/
lemma shown (h : Texts P config) (hs : (key, names) ∈ Section.texts)
    (hf : config.look key = .map fields) (hn : name ∈ names) : P (fields.shown name) :=
  h.sections _ hs fields (Value.asMap_eq_some.mpr hf) _ hn

/-- The same where the field must be there. -/
lemma field (h : Texts P config) {v : Value} (hs : (key, names) ∈ Section.texts)
    (hv : (config.look key).field name = .ok v) (hn : name ∈ names) : P v := by
  obtain ⟨fields, hf, hv⟩ := Value.field_eq_ok.mp hv
  have hshown := h.shown hs hf hn
  rwa [Fields.shown, hv, Option.getD_some] at hshown

end Config.Texts

end Mailshot
