import Mailshot.PlainText
import Mailshot.Proofs.Likeness.Document
import Mailshot.Proofs.Suppressed.Basic

/-!
# Suppressed data reaches neither rendering

Two configurations that differ in suppressed values only are told apart neither by their documents nor
by their plain-text versions.

* `Likeness.config_equal` — complete configurations that agree are compiled alike, value by value.
* `PlainText.ofConfig_eq` — and have the same lines.
* **`Config.Agree.renderings`** — the documents are the same, and so are the plain-text versions.
  Escaped documents are the same too, unless one of the configurations alone holds itself.
-/

namespace Mailshot

open Text

/-! ## Documents -/

namespace Likeness

variable {p q f g : Fields} {names names' : List String}

lemma item_equal (h : Product.Agree p q) : equal.Item p q := by
  have himage : ∀ name ∈ ["link", "image_url"], name ∈ ["render_mode", "image_url", "link"] := by
    decide
  have hwords : ∀ name ∈ ["name", "description", "brand_name", "brand_logo_url"],
      name ∈ ["name", "description", "brand_name", "brand_logo_url", "pricing_mode"] := by
    decide
  refine ⟨h.isImageOnly_eq, ?_, ?_⟩
  · intro name hn
    exact Fields.AgreeOn.shown h (Product.mem_visible (himage name hn))
  intro hi
  have hlook : ∀ name ∈ ["name", "description", "brand_name", "brand_logo_url", "pricing_mode"],
      p.look name = q.look name := by
    intro name hn
    exact Fields.AgreeOn.look h (Product.mem_visible_words hi hn)
  refine ⟨?_, ?_, ?_, ?_⟩
  · intro name hn
    exact Fields.AgreeOn.shown h (Product.mem_visible_words hi (hwords name hn))
  · rw [hlook _ (by decide)]
  · rw [hlook _ (by decide)]
  · have hmode := h.ofProduct_eq hi
    unfold Product.priced?
    rw [← hmode]
    cases hp : Product.Pricing.ofProduct p with
    | hidden => exact .none
    | discount =>
        have hshown := Fields.AgreeOn.shown h (Product.mem_visible_discount hi hp)
        exact .some ⟨.inr rfl, hshown⟩
    | standard =>
        have hshown := Fields.AgreeOn.shown h (Product.mem_visible_price hi hp)
        exact .some ⟨.inr rfl, hshown⟩

/-- A field that must be there, in sections that agree. -/
lemma field_equal {key name : String} {names : List String} {r r' : Fields}
    (h : Fields.AgreeOn names (Config.sectionFields r key) (Config.sectionFields r' key))
    (hr : r.look key = .map (Config.sectionFields r key))
    (hr' : r'.look key = .map (Config.sectionFields r' key)) (hn : name ∈ names) :
    (r.look key).field name = (r'.look key).field name := by
  rw [hr, hr', Value.field, Value.field, h name hn]

/-- **Complete configurations that agree** are compiled alike, value by value. -/
theorem config_equal {r r' : Fields} (h : Config.Agree r r') (hr : Config.Complete r)
    (hr' : Config.Complete r') : equal.Config r r' := by
  have hlayout := h.sections ("layout", ["content_width", "product_image_size"]) (by decide)
  have htheme := h.sections ("theme", themeColours) (by decide)
  have hlr := hr.sections "layout" (by decide)
  have hlr' := hr'.sections "layout" (by decide)
  have htr := hr.sections "theme" (by decide)
  have htr' := hr'.sections "theme" (by decide)
  constructor
  case template =>
    rw [h.template.look (by decide)]
    exact .refl (fun _ => rfl) _
  case layout =>
    rw [hlr, hlr']
    have hwidth := hlayout "content_width" (by decide)
    refine .ok ⟨.inr ?_, ?_, .inr ?_⟩
    · show Tier.ofValue (Fields.look _ _) = Tier.ofValue (Fields.look _ _)
      rw [hlayout.look (by decide)]
    · exact congrArg (Option.getD · Layout.defaultContent) hwidth
    · exact congrArg (Value.number? <| Option.getD · Layout.defaultContent) hwidth
  case content =>
    rw [field_equal hlayout hlr hlr' (by decide)]
    exact .refl (fun _ => ⟨rfl, .inr rfl⟩) _
  case size =>
    rw [field_equal hlayout hlr hlr' (by decide)]
    exact .refl (fun _ => .inr rfl) _
  case theme =>
    rw [htr, htr']
    refine .ok ?_
    intro a ha b _ hab
    obtain rfl := hab.resolve_left id
    exact htheme.shown ha
  case ground =>
    rw [field_equal htheme htr htr' (by decide)]
    exact .refl (fun _ => rfl) _
  case company =>
    have hcompany := h.sections ("company", ["name", "logo_url", "website_url"]) (by decide)
    rw [hr.sections "company" (by decide), hr'.sections "company" (by decide)]
    refine .ok ⟨fun _ hn => hcompany.shown hn, ?_⟩
    rw [hcompany.look (by decide)]
  case hero =>
    rw [hr.sections "hero" (by decide), hr'.sections "hero" (by decide)]
    refine .ok ⟨?_, ?_⟩
    · rw [h.hero.look_show]
    · intro hshow name hn
      exact Fields.AgreeOn.shown h.hero (Section.mem_visibleHero hshow hn)
  case footer =>
    have hfooter := h.sections ("footer", ["address", "text"]) (by decide)
    rw [hr.sections "footer" (by decide), hr'.sections "footer" (by decide)]
    exact .ok fun _ hn => hfooter.shown hn
  case products =>
    exact ⟨_, _, hr.products, hr'.products, h.products.imp fun _ _ => item_equal⟩

end Likeness

/-! ## Plain text -/

namespace PlainText

variable {p q f g : Fields}

lemma indented_eq {names : List String} {name : String} (h : Fields.AgreeOn names p q)
    (hn : name ∈ names) : indented p name = indented q name := by
  unfold indented
  rw [h.look hn]

lemma price_eq (h : Product.Agree p q) (hi : Product.isImageOnly p = false) : price p = price q := by
  have hmode := h.ofProduct_eq hi
  unfold price Product.shownPrice?
  rw [← hmode]
  cases hp : Product.Pricing.ofProduct p with
  | hidden => rfl
  | discount => rw [Fields.AgreeOn.shown h (Product.mem_visible_discount hi hp)]
  | standard => rw [Fields.AgreeOn.shown h (Product.mem_visible_price hi hp)]

lemma productLines_eq (h : Product.Agree p q) :
    productLines (.map p) = productLines (.map q) := by
  have hlink : "link" ∈ Product.visible p := Product.mem_visible (by decide)
  unfold productLines
  simp only [Value.fields_map, ok_bind]
  rw [← h.isImageOnly_eq]
  split
  · rw [Fields.AgreeOn.shown h hlink]
  · next hi =>
      have hi := Bool.eq_false_iff.mpr hi
      rw [price_eq h hi, Fields.AgreeOn.shown h (Product.mem_visible_words hi (by decide)),
        indented_eq h (Product.mem_visible_words hi (by decide)), indented_eq h hlink]

lemma heroLines_eq (h : Section.HeroAgree f g) : heroLines f = heroLines g := by
  unfold heroLines
  rw [← h.look_show]
  split
  · next hshow =>
      have hmem : ∀ name ∈ Section.heroTexts, name ∈ Section.visibleHero f := by
        intro name hn
        exact Section.mem_visibleHero hshow hn
      unfold callLine
      rw [Fields.AgreeOn.shown h (hmem "title" (by decide)),
        Fields.AgreeOn.shown h (hmem "subtitle" (by decide)),
        Fields.AgreeOn.shown h (hmem "cta_text" (by decide)),
        Fields.AgreeOn.look h (hmem "cta_link" (by decide))]
  · rfl

/-- **Complete configurations that agree have the same lines.** -/
theorem ofConfig_eq {r r' : Fields} (h : Config.Agree r r') (hr : Config.Complete r)
    (hr' : Config.Complete r') : ofConfig (.map r) = ofConfig (.map r') := by
  have hcompany := h.sections ("company", ["name", "logo_url", "website_url"]) (by decide)
  have hfooter := h.sections ("footer", ["address", "text"]) (by decide)
  have hproducts : ((Config.listed r).map Value.map).mapM productLines =
      ((Config.listed r').map Value.map).mapM productLines := by
    have hp := h.products
    generalize Config.listed r = ps at hp
    generalize Config.listed r' = qs at hp
    induction hp with
    | nil => rfl
    | cons hpq _ ih =>
        rw [List.map_cons, List.map_cons, List.mapM_cons, List.mapM_cons, productLines_eq hpq, ih]
  unfold ofConfig lines
  simp only [Value.fields_map, ok_bind, hr.sections "company" (by decide),
    hr'.sections "company" (by decide), hr.sections "hero" (by decide),
    hr'.sections "hero" (by decide), hr.sections "footer" (by decide),
    hr'.sections "footer" (by decide), hr.products, hr'.products, Value.fieldsOrNone_map,
    Value.itemsOrNone_list]
  rw [hproducts, heroLines_eq h.hero, hcompany.shown (by decide : "name" ∈ _),
    hcompany.shown (by decide : "website_url" ∈ _), hfooter.shown (by decide : "address" ∈ _),
    hfooter.shown (by decide : "text" ∈ _)]

end PlainText

/-! ## Both renderings -/

namespace Config

/-- **Suppressed data reaches neither rendering.**  Well-formed configurations that differ in
suppressed values only can both be completed, end in the same document or the same fault, and have the
same plain-text version.  The same is true of their escaped documents, where both or neither hold
themselves: escaping visits every value, the suppressed ones too. -/
theorem Agree.renderings {c c' : Fields} (h : Agree c c') (hw : WellFormed c)
    (hw' : WellFormed c') (ht : (Value.map c).isTidy = true) (ht' : (Value.map c').isTidy = true)
    (ρ : SetOrder) :
    ∃ r r', Config.resolve (.map c) = .ok r ∧ Config.resolve (.map c') = .ok r' ∧
      (Document.html (.map c) false ρ).outcome = (Document.html (.map c') false ρ).outcome ∧
      (r.isEndless = r'.isEndless →
        (Document.html (.map c) true ρ).outcome = (Document.html (.map c') true ρ).outcome) ∧
      PlainText.ofConfig (.map r) = PlainText.ofConfig (.map r') := by
  have hc := apart_of_isTidy ht
  have hc' := apart_of_isTidy ht'
  obtain ⟨r, hr⟩ := resolve_ok hc.config hw
  obtain ⟨r', hr'⟩ := resolve_ok hc'.config hw'
  have hcomplete := complete_of_resolve hr hc.config hw
  have hcomplete' := complete_of_resolve hr' hc'.config hw'
  have hagree := h.resolve hr hr' hc hc' hw hw'
  have hordered : Agree (r.ordered ρ) (r'.ordered ρ) := hagree.ordered hcomplete hcomplete'
  refine ⟨r, r', hr, hr', ?_, ?_, PlainText.ofConfig_eq hagree hcomplete hcomplete'⟩
  · have hdocument := (Likeness.config_equal hordered hcomplete.ordered hcomplete'.ordered).document
    rw [Document.outcome_html, Document.outcome_html, Document.outcome_markup hr,
      Document.outcome_markup hr']
    exact (hdocument.map fun _ _ => Likeness.text_eq).eq
  · intro hendless
    have hescape := hordered.escape hcomplete.ordered hcomplete'.ordered
    have hdocument :=
      (Likeness.config_equal hescape hcomplete.ordered.escape hcomplete'.ordered.escape).document
    rw [Document.outcome_html, Document.outcome_html, Document.outcome_markup hr,
      Document.outcome_markup hr', hendless]
    split
    · rfl
    · exact (hdocument.map fun _ _ => Likeness.text_eq).eq

/-! ## Configurations that give products only -/

/-- A configuration that leaves everything out but the products. -/
def ofProducts (products : List Fields) : Fields :=
  Fields.named [("products", .list (products.map .map))]

section OfProducts

variable {ps qs : List Fields}

lemma find?_ofProducts {key : String} (h : key ≠ "products") :
    (ofProducts ps).find? (.text (ofString key)) = none := by
  refine Fields.find?_eq_none ?_
  intro f hf
  rw [List.mem_singleton.mp hf, Bool.eq_false_iff]
  intro hs
  exact h (ofString_injective (Scalar.text.inj (Scalar.same_text.mp hs))).symm

lemma look_ofProducts : (ofProducts ps).look "products" = .list (ps.map .map) := by
  simp [ofProducts, Fields.look, Fields.named, Fields.find?]

lemma wellFormed_ofProducts : WellFormed (ofProducts ps) := by
  refine ⟨fun key hk => .inl ?_, .inr ⟨ps, look_ofProducts⟩⟩
  rw [Fields.look, find?_ofProducts]
  · rfl
  · rintro rfl
    exact absurd hk (by decide)

lemma agree_ofProducts (h : List.Forall₂ Product.Agree ps qs) :
    Agree (ofProducts ps) (ofProducts qs) := by
  have hsection : ∀ key, key ≠ "products" →
      sectionFields (ofProducts ps) key = sectionFields (ofProducts qs) key := by
    intro key hk
    rw [sectionFields, sectionFields, Fields.look, Fields.look, find?_ofProducts hk,
      find?_ofProducts hk]
  have hknown : ∀ s ∈ Section.known, s.1 ≠ "products" := by decide
  refine ⟨fun name hn => ?_, fun s hs name _ => ?_, ?_, ?_⟩
  · obtain rfl := List.mem_singleton.mp hn
    rw [find?_ofProducts (by decide), find?_ofProducts (by decide)]
  · rw [hsection s.1 (hknown s hs)]
  · rw [hsection "hero" (by decide)]
    exact fun _ _ => rfl
  · rwa [listed_of_look look_ofProducts, listed_of_look look_ofProducts]

end OfProducts

/-- A product that hides its price. -/
def hiddenPrice : Fields := Fields.named [
  ("name", .text "Camera"),
  ("price", .text "$1200"),
  ("pricing_mode", .text "hidden")]

/-- A product that is only an image. -/
def onlyImage : Fields := Fields.named [
  ("render_mode", .text "image-only"),
  ("name", .text "Headphones"),
  ("image_url", .text "https://example.com/a.png")]

/-- A hidden price and the name of an image may be anything. -/
theorem renderings_hiddenPrice :
    (Document.html (.map (ofProducts [hiddenPrice, onlyImage])) false).outcome =
      (Document.html (.map (ofProducts
        [hiddenPrice.put (.text (ofString "price")) (.list [.null]),
          onlyImage.put (.text (ofString "name")) (.int 7)])) false).outcome := by
  have hagree := agree_ofProducts <| .cons
    (Product.agree_put (p := hiddenPrice) (by decide : "price" ∈ _) (.list [.null])) <| .cons
    (Product.agree_put (p := onlyImage) (by decide : "name" ∈ _) (.int 7)) .nil
  obtain ⟨_, _, -, -, h, -⟩ := hagree.renderings wellFormed_ofProducts wellFormed_ofProducts
    (by decide +kernel) (by decide +kernel) .copied
  exact h

/-- A suppressed value that holds itself is visited all the same where the texts are escaped: of two
configurations that differ in the id of a product only, one has an escaped document and one has
none. -/
theorem escaped_differs_of_endless_id : ∃ c c' : Fields, Agree c c' ∧ WellFormed c ∧ WellFormed c' ∧
    (Value.map c).isTidy = true ∧ (Value.map c').isTidy = true ∧
    (Document.html (.map c) true).outcome ≠ (Document.html (.map c') true).outcome := by
  refine ⟨ofProducts [[]], ofProducts [Fields.put [] (.text (ofString "id"))
      (.list [.again .list])], ?_, wellFormed_ofProducts, wellFormed_ofProducts,
    by decide +kernel, by decide +kernel, fun h => ?_⟩
  · exact agree_ofProducts (.cons (Product.agree_put (by decide) _) .nil)
  · have hok : (Document.html (.map (ofProducts [[]])) true).outcome.isOk = true := by
      decide +kernel
    rw [h] at hok
    exact absurd hok (by decide +kernel)

end Config

end Mailshot
