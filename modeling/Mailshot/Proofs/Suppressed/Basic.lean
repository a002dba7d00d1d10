import Mailshot.Proofs.Likeness.Product
import Mailshot.Proofs.Ordered

/-!
# Suppressed data

A configuration may hold what nobody is to see: the price of a product that hides it, the words of a
product that is only an image, a hero that is not shown, and anything that the compiler does not know.

* `Product.suppressed`, `Section.suppressedHero` — the fields that are suppressed.
* `Config.Agree` — configurations that agree in all fields that are known and not suppressed.
* **`Config.Agree.resolve`**, **`Config.Agree.escape`**, **`Config.Agree.ordered`** — completing and
  escaping keep the agreement, and so does another order of the sets.
-/

namespace Mailshot

open Text

/-! ## What is suppressed -/

namespace Product

/-- The fields of a product that the compiler knows. -/
def known : List String :=
  ["id", "name", "price", "discount_text", "pricing_mode", "description", "image_url", "link",
    "brand_name", "brand_logo_url", "render_mode"]

/-- The fields of a product that are suppressed: always its id, all words of one that is only an
image, and of any other the prices that its mode does not show. -/
def suppressed (product : Fields) : List String :=
  "id" ::
    if isImageOnly product then
      ["name", "description", "brand_name", "brand_logo_url", "price", "discount_text",
        "pricing_mode"]
    else
      match Pricing.ofProduct product with
      | .hidden => ["price", "discount_text"]
      | .discount => ["price"]
      | .standard => ["discount_text"]

/-- The fields of a product that are known and not suppressed. -/
def visible (product : Fields) : List String :=
  known.filter fun name => name ∉ suppressed product

end Product

namespace Section

/-- The sections other than the hero with the fields that the compiler knows. -/
def known : List (String × List String) := [
  ("layout", ["content_width", "product_image_size"]),
  ("theme", Likeness.themeColours),
  ("company", ["name", "logo_url", "website_url"]),
  ("footer", ["address", "text"])]

/-- The fields of a hero beside its switch. -/
def heroTexts : List String := ["image_url", "title", "subtitle", "cta_text", "cta_link"]

/-- The fields of a hero that are suppressed: all but the switch, if that is false.  A hero without a
switch is shown. -/
def suppressedHero (hero : Fields) : List String :=
  if ((hero.find? (.text (ofString "show"))).getD (.bool true)).truthy then [] else heroTexts

/-- The fields of a hero that are known and not suppressed. -/
def visibleHero (hero : Fields) : List String :=
  ("show" :: heroTexts).filter fun name => name ∉ suppressedHero hero

end Section

/-! ## Agreement -/

/-- Mappings that hold the same under some names, or both nothing. -/
def Fields.AgreeOn (names : List String) (f g : Fields) : Prop :=
  ∀ name ∈ names, f.find? (.text (ofString name)) = g.find? (.text (ofString name))

namespace Fields.AgreeOn

variable {names : List String} {f g : Fields} {name : String}

lemma look (h : AgreeOn names f g) (hn : name ∈ names) : f.look name = g.look name := by
  rw [Fields.look, Fields.look, h name hn]

lemma shown (h : AgreeOn names f g) (hn : name ∈ names) : f.shown name = g.shown name := by
  rw [Fields.shown, Fields.shown, h name hn]

lemma escape (h : AgreeOn names f g) : AgreeOn names f.escape g.escape := by
  intro name hn
  rw [Fields.find?_escape, Fields.find?_escape, h name hn]

lemma ordered {ρ : SetOrder} {way : Way} (h : AgreeOn names f g) :
    AgreeOn names (f.ordered ρ way) (g.ordered ρ way) := by
  intro name hn
  rw [Fields.find?_ordered, Fields.find?_ordered, h name hn]

lemma merge {base : Fields} (h : AgreeOn names f g) (hf : f.Distinct) (hg : g.Distinct) :
    AgreeOn names (base.merge f) (base.merge g) := by
  intro name hn
  rw [Fields.find?_merge _ hf, Fields.find?_merge _ hg, h name hn]

end Fields.AgreeOn

/-- Products that agree in what is visible of them. -/
def Product.Agree (p q : Fields) : Prop := Fields.AgreeOn (visible p) p q

/-- Heroes that agree in what is visible of them. -/
def Section.HeroAgree (f g : Fields) : Prop := Fields.AgreeOn (visibleHero f) f g

/-- Configurations that differ in suppressed values only. -/
structure Config.Agree (c c' : Fields) : Prop where
  template : Fields.AgreeOn ["template"] c c'
  sections : ∀ s ∈ Section.known,
    Fields.AgreeOn s.2 (sectionFields c s.1) (sectionFields c' s.1)
  hero : Section.HeroAgree (sectionFields c "hero") (sectionFields c' "hero")
  products : List.Forall₂ Product.Agree (listed c) (listed c')

/-! ## Products that agree -/

namespace Product

variable {p q : Fields} {name : String}

lemma mem_visible (h : name ∈ ["render_mode", "image_url", "link"]) : name ∈ visible p := by
  revert name
  unfold visible suppressed
  cases isImageOnly p <;> cases Pricing.ofProduct p <;> decide

lemma mem_visible_words (hi : isImageOnly p = false)
    (h : name ∈ ["name", "description", "brand_name", "brand_logo_url", "pricing_mode"]) :
    name ∈ visible p := by
  revert name
  unfold visible suppressed
  rw [hi]
  cases Pricing.ofProduct p <;> decide

lemma mem_visible_price (hi : isImageOnly p = false) (hp : Pricing.ofProduct p = .standard) :
    "price" ∈ visible p := by
  unfold visible suppressed
  rw [hi, hp]
  decide

lemma mem_visible_discount (hi : isImageOnly p = false) (hp : Pricing.ofProduct p = .discount) :
    "discount_text" ∈ visible p := by
  unfold visible suppressed
  rw [hi, hp]
  decide

namespace Agree

lemma isImageOnly_eq (h : Agree p q) : isImageOnly p = isImageOnly q := by
  unfold isImageOnly
  rw [Fields.AgreeOn.look h (mem_visible (by decide))]

lemma ofProduct_eq (h : Agree p q) (hi : isImageOnly p = false) :
    Pricing.ofProduct p = Pricing.ofProduct q := by
  unfold Pricing.ofProduct
  rw [Fields.AgreeOn.look h (mem_visible_words hi (by decide))]

end Agree

/-- A suppressed field of a product may be anything. -/
lemma agree_put (h : name ∈ suppressed p) (v : Value) :
    Agree p (p.put (.text (ofString name)) v) := by
  intro other hother
  rw [Fields.find?_put_of_ne]
  intro hname
  rw [← ofString_injective (Scalar.text.inj hname)] at hother
  have hvisible := (List.mem_filter.mp hother).2
  exact (of_decide_eq_true hvisible) h

lemma visible_escape (p : Fields) : visible p.escape = visible p := by
  unfold visible suppressed
  rw [isImageOnly_escape, ofProduct_escape]

lemma Agree.escape (h : Agree p q) : Agree p.escape q.escape := by
  unfold Agree
  rw [visible_escape]
  exact Fields.AgreeOn.escape h

lemma visible_ordered {ρ : SetOrder} {way : Way} (p : Fields) :
    visible (p.ordered ρ way) = visible p := by
  unfold visible suppressed
  rw [isImageOnly_ordered, ofProduct_ordered]

lemma Agree.ordered {ρ : SetOrder} {way : Way} (h : Agree p q) :
    Agree (p.ordered ρ way) (q.ordered ρ way) := by
  unfold Agree
  rw [visible_ordered]
  exact Fields.AgreeOn.ordered h

/-- A blank product has the modes of one that names none. -/
lemma visible_merge (hp : p.Distinct) : visible (Fields.merge blank p) = visible p := by
  have hmode : isImageOnly (Fields.merge blank p) = isImageOnly p := by
    unfold isImageOnly Fields.look
    rw [Config.blank_flat.find?_merge hp]
    cases p.find? (.text (ofString "render_mode")) with
    | none => decide
    | some v => rfl
  have hpricing : Pricing.ofProduct (Fields.merge blank p) = Pricing.ofProduct p := by
    unfold Pricing.ofProduct Fields.look
    rw [Config.blank_flat.find?_merge hp]
    cases p.find? (.text (ofString "pricing_mode")) with
    | none => decide
    | some v => rfl
  unfold visible suppressed
  rw [hmode, hpricing]

lemma Agree.merge (h : Agree p q) (hp : p.Distinct) (hq : q.Distinct) :
    Agree (Fields.merge blank p) (Fields.merge blank q) := by
  unfold Agree
  rw [visible_merge hp]
  exact Fields.AgreeOn.merge h hp hq

end Product

/-! ## Heroes that agree -/

namespace Section

variable {f g : Fields} {name : String}

lemma show_mem_visibleHero : "show" ∈ visibleHero f := by
  unfold visibleHero suppressedHero
  split <;> decide

lemma mem_visibleHero (hf : (f.look "show").truthy = true) (h : name ∈ heroTexts) :
    name ∈ visibleHero f := by
  have hshow : ((f.find? (.text (ofString "show"))).getD (.bool true)).truthy = true := by
    unfold Fields.look at hf
    cases hs : f.find? (.text (ofString "show")) with
    | none => rfl
    | some v => rwa [hs] at hf
  unfold visibleHero suppressedHero
  rw [if_pos hshow]
  revert name
  decide

namespace HeroAgree

lemma look_show (h : HeroAgree f g) : f.look "show" = g.look "show" :=
  Fields.AgreeOn.look h show_mem_visibleHero

lemma escape (h : HeroAgree f g) : HeroAgree f.escape g.escape := by
  have hvisible : visibleHero f.escape = visibleHero f := by
    unfold visibleHero suppressedHero
    rw [Fields.find?_escape]
    cases f.find? (.text (ofString "show")) with
    | none => rfl
    | some v => simp
  unfold HeroAgree
  rw [hvisible]
  exact Fields.AgreeOn.escape h

lemma ordered {ρ : SetOrder} {way : Way} (h : HeroAgree f g) :
    HeroAgree (f.ordered ρ way) (g.ordered ρ way) := by
  have hvisible : visibleHero (f.ordered ρ way) = visibleHero f := by
    unfold visibleHero suppressedHero
    rw [Fields.find?_ordered]
    cases f.find? (.text (ofString "show")) with
    | none => rfl
    | some v => simp
  unfold HeroAgree
  rw [hvisible]
  exact Fields.AgreeOn.ordered h

/-- A hero without a switch is shown before and after it is completed. -/
lemma merge (h : HeroAgree f g) (hf : f.Distinct) (hg : g.Distinct) :
    HeroAgree ((Config.sectionFields Config.defaults "hero").merge f)
      ((Config.sectionFields Config.defaults "hero").merge g) := by
  have hflat := (Config.defaults_section (by decide : "hero" ∈ Config.sectionNames)).2.1
  have hvisible : visibleHero ((Config.sectionFields Config.defaults "hero").merge f) =
      visibleHero f := by
    unfold visibleHero suppressedHero
    rw [hflat.find?_merge hf]
    cases f.find? (.text (ofString "show")) with
    | none => rfl
    | some v => rfl
  unfold HeroAgree
  rw [hvisible]
  exact Fields.AgreeOn.merge h hf hg

end HeroAgree

end Section

/-! ## Completed configurations -/

namespace Config

variable {c c' r r' : Fields}

/-- A configuration whose sections are all mappings, and whose products are a list of mappings. -/
structure Complete (r : Fields) : Prop where
  sections : ∀ key ∈ sectionNames, r.look key = .map (sectionFields r key)
  products : r.look "products" = .list ((listed r).map .map)

/-- What is completed is complete. -/
lemma complete_of_resolve (h : resolve (.map c) = .ok r) (hc : c.Distinct) (hw : WellFormed c) :
    Complete r := by
  refine ⟨?_, look_products h⟩
  intro key hk
  have hs := look_section h hc hw hk
  rw [sectionFields_of_look hs, hs]

namespace Complete

lemma listed_escape (h : Complete r) : listed r.escape = (listed r).map Fields.escape :=
  listed_of_look (look_products_escape h.products)

lemma ordered {ρ : SetOrder} (h : Complete r) : Complete (r.ordered ρ) := by
  refine ⟨?_, ?_⟩
  · intro key hk
    rw [sectionFields_ordered, Fields.look_ordered, h.sections key hk, Value.ordered_map]
    rfl
  · rw [listed_ordered h.products, look_products_ordered h.products]

lemma escape (h : Complete r) : Complete r.escape := by
  refine ⟨?_, ?_⟩
  · intro key hk
    rw [sectionFields_escape, Fields.look_escape, h.sections key hk, Value.escape_map]
  · rw [h.listed_escape, look_products_escape h.products]

end Complete

namespace Agree

/-- **Completing keeps the agreement.** -/
theorem resolve (h : Agree c c') (hr : Config.resolve (.map c) = .ok r)
    (hr' : Config.resolve (.map c') = .ok r') (hc : Apart c) (hc' : Apart c') (hw : WellFormed c)
    (hw' : WellFormed c') : Agree r r' := by
  constructor
  case template =>
    intro name hn
    obtain rfl := List.mem_singleton.mp hn
    have hfind := h.template _ hn
    rw [find?_resolve hr hc.config (by decide), find?_resolve hr' hc'.config (by decide), hfind]
  case sections =>
    intro s hs
    have hk : s.1 ∈ sectionNames := by
      revert s
      decide
    rw [sectionFields_of_look (look_section hr hc.config hw hk),
      sectionFields_of_look (look_section hr' hc'.config hw' hk)]
    exact (h.sections s hs).merge (hc.sections _) (hc'.sections _)
  case hero =>
    have hk : "hero" ∈ sectionNames := by decide
    rw [sectionFields_of_look (look_section hr hc.config hw hk),
      sectionFields_of_look (look_section hr' hc'.config hw' hk)]
    exact h.hero.merge (hc.sections _) (hc'.sections _)
  case products =>
    rw [listed_resolve hr hc.config hw, listed_resolve hr' hc'.config hw',
      List.forall₂_map_left_iff, List.forall₂_map_right_iff, List.forall₂_iff_zip]
    have hp := List.forall₂_iff_zip.mp h.products
    refine ⟨hp.1, fun {p q} hpq => (hp.2 hpq).merge ?_ ?_⟩
    · exact hc.products p (List.of_mem_zip hpq).1
    · exact hc'.products q (List.of_mem_zip hpq).2

/-- **Another order of the sets keeps the agreement**, the same order for both. -/
theorem ordered {ρ : SetOrder} (h : Agree r r') (hr : Complete r) (hr' : Complete r') :
    Agree (r.ordered ρ) (r'.ordered ρ) := by
  constructor
  case template => exact h.template.ordered
  case sections =>
    intro s hs
    rw [sectionFields_ordered, sectionFields_ordered]
    exact (h.sections s hs).ordered
  case hero =>
    rw [sectionFields_ordered, sectionFields_ordered]
    exact h.hero.ordered
  case products =>
    rw [listed_ordered hr.products, listed_ordered hr'.products]
    have hp := List.forall₂_iff_get.mp h.products
    refine List.forall₂_iff_get.mpr ⟨by simp [hp.1], fun i hi hi' => ?_⟩
    rw [List.get_eq_getElem, List.get_eq_getElem, List.getElem_mapIdx, List.getElem_mapIdx]
    exact (hp.2 i (by simpa using hi) (by simpa using hi')).ordered

/-- **Escaping keeps the agreement.** -/
theorem escape (h : Agree r r') (hr : Complete r) (hr' : Complete r') :
    Agree r.escape r'.escape := by
  constructor
  case template => exact h.template.escape
  case sections =>
    intro s hs
    rw [sectionFields_escape, sectionFields_escape]
    exact (h.sections s hs).escape
  case hero =>
    rw [sectionFields_escape, sectionFields_escape]
    exact h.hero.escape
  case products =>
    rw [hr.listed_escape, hr'.listed_escape, List.forall₂_map_left_iff, List.forall₂_map_right_iff]
    exact h.products.imp fun _ _ => Product.Agree.escape

end Agree

end Config

end Mailshot
