import Mailshot.Proofs.Assembly
import Mailshot.Proofs.Hereditary
import Mailshot.Proofs.Widths

/-!
# Configurations that compile

The compiler reads fields that the completion fills in and computes widths from a number that is in
range.  All that is left to go wrong is a value that does not show.

* `Value.Shows` — a value that shows, unless the fault of one that does not is allowed.
* `Section.header_only` and its companions — the parts of a document fail for no other reason.
* `Config.Sound` — complete configurations with a moderate width.
* **`Document.only_ofResolved`** — the document of such a configuration.
-/

namespace Mailshot

open Outcome

variable {P : Fault → Prop}

/-! ## Values and parts -/

namespace Value

/-- A value that shows, unless the fault of one that does not is allowed. -/
def Shows (P : Fault → Prop) (v : Value) : Prop := v.isShowable = true ∨ P .tooManyDigits

lemma hereditary_shows : Hereditary (fun k => k.isShowable = true ∨ P .tooManyDigits) (Shows P) where
  null := .inl rfl
  text _ := .inl rfl
  list := by
    intro items
    by_cases hP : P .tooManyDigits
    · simp [Shows, hP]
    · simpa [Shows, hP] using hereditary_isShowable.list
  map := by
    intro fields
    by_cases hP : P .tooManyDigits
    · simp [Shows, hP]
    · simpa [Shows, hP] using hereditary_isShowable.map

variable {v : Value} {fields : Fields}

@[simp] lemma shows_text (t : Text) : (Value.text t).Shows P := .inl rfl

lemma Shows.shown (h : (Value.map fields).Shows P) (name : String) : (fields.shown name).Shows P :=
  hereditary_shows.shown h

lemma Shows.look (h : (Value.map fields).Shows P) (name : String) : (fields.look name).Shows P :=
  hereditary_shows.look h

/-- What stands in a field shows if the mapping does. -/
lemma Shows.field {w : Value} {name : String} (h : v.Shows P) (hw : v.field name = .ok w) :
    w.Shows P := by
  obtain ⟨fields, rfl, hfind⟩ := field_eq_ok.mp hw
  exact hereditary_shows.of_find? h hfind

lemma Shows.escape (h : v.Shows P) : v.escape.Shows P := by
  unfold Shows
  rwa [isShowable_escape]

lemma Shows.ordered (h : v.Shows P) (ρ : SetOrder) (way : Way) : (v.ordered ρ way).Shows P := by
  unfold Shows
  rwa [isShowable_ordered]

lemma Shows.written (h : v.Shows P) : Only P v.written := by
  unfold Value.written
  split
  · exact .ok _
  · next hv => exact Only.error_iff.mpr (h.resolve_left hv)

@[simp] lemma shown_map (fields : Fields) (name : String) :
    (Value.map fields).shown name = .ok (fields.shown name) := rfl

end Value

namespace Part

@[simp] lemma only_fixed (text : String) : Only P (fixed text) := .ok _

@[simp] lemma only_pixels (n : Int) : Only P (pixels n) := .ok _

@[simp] lemma only_tableAttributes : Only P tableAttributes := .ok _

@[simp] lemma only_ofValue {v : Value} (h : v.Shows P) : Only P (ofValue v) :=
  h.written.bind fun _ _ => .ok _

/-- Parts that are joined fail for the reasons of the parts. -/
lemma only_join {parts : List Part} (h : ∀ part ∈ parts, Only P part) : Only P (join parts) := by
  induction parts with
  | nil => exact .ok _
  | cons part rest ih =>
      obtain ⟨hpart, hrest⟩ := List.forall_mem_cons.mp h
      exact hpart.bind fun front _ => (ih hrest).bind fun back _ => .ok _

end Part

/-! ## Products -/

lemma buttonStyle_only {colour : Value} (h : colour.Shows P) (size : ButtonSize) :
    Only P (buttonStyle colour size) :=
  Part.only_join (by simp [h])

namespace Product

variable {p θ : Fields} (hp : ∀ name, (p.shown name).Shows P) (hθ : ∀ name, (θ.shown name).Shows P)

include hp

lemma logo_only : Only P (logo p) := by
  unfold logo
  dsimp only
  split
  · exact Part.only_join (by simp [hp])
  · exact Part.only_join (by simp)

lemma brandName_only : Only P (brandName p) := by
  unfold brandName
  dsimp only
  split
  · exact Part.only_join (by simp [hp])
  · exact Part.only_join (by simp)

lemma badge_only (align : Text) : Only P (badge p (.text align)) := by
  unfold badge
  split
  · exact Part.only_join (by simp [logo_only hp, brandName_only hp])
  · exact Part.only_join (by simp)

lemma brandRow_only : Only P (brandRow p) := by
  unfold brandRow
  split
  · exact Part.only_join (by simp [badge_only hp])
  · exact Part.only_join (by simp)

lemma linkedImage_only (width : Int) (style : String) : Only P (linkedImage p width style) :=
  Part.only_join (by simp [hp])

lemma image_only (width : Int) {shape : Part} (h : Only P shape) : Only P (image p width shape) :=
  Part.only_join (by simp [field, hp, h])

lemma description_only (margin size : String) : Only P (description p margin size) :=
  Part.only_join (by simp [field, hp])

lemma imageEntry_only {width : Value} (h : width.Shows P) : Only P (imageEntry p width) :=
  Part.only_join (by simp [field, hp, h])

include hθ

lemma priceLine_only (size : Text) : Only P (priceLine p (.map θ) (.text size)) := by
  have hline (colour : String) {price : Value} (h : price.Shows P) :
      Only P (pricedLine (.map θ) colour price (.text size)) :=
    Part.only_join (by simp [hθ, h])
  unfold priceLine
  split
  · exact Part.only_join (by simp)
  · exact hline _ (hp _)
  · exact hline _ (hp _)

lemma heading_only (margin size : String) : Only P (heading p (.map θ) margin size) :=
  Part.only_join (by simp [field, hp, hθ])

lemma card_only (tier : Tier) (width : Int) : Only P (card p (.map θ) tier width) := by
  unfold card
  refine Part.only_join (List.forall_mem_cons.mpr ⟨Part.only_join (by simp), ?_⟩)
  -- picture, words and button, each joined of parts of its own
  refine List.forall_mem_cons.mpr ⟨Part.only_join ?_, List.forall_mem_cons.mpr
    ⟨Part.only_join ?_, List.forall_mem_cons.mpr ⟨Part.only_join ?_, by simp⟩⟩⟩
  · simp [image_only hp, Part.only_join]
  · simp [badge_only hp, heading_only hp hθ, description_only hp, priceLine_only hp hθ]
  · simp [field, hp, hθ]

lemma entry_only (size : Int) : Only P (entry p (.map θ) size) := by
  have hpicture : Only P (image p size (Part.join
      ["display: block; border-radius: 6px; object-fit: cover; height: ", .pixels size,
        "px; width: ", .pixels size, "px;"])) := image_only hp _ (Part.only_join (by simp))
  unfold entry
  refine Part.only_join ?_
  simp [Part.only_join, hpicture, field, hp, hθ, badge_only hp, heading_only hp hθ,
    description_only hp, priceLine_only hp hθ]

lemma block_only (tier : Tier) (width : Int) : Only P (block p (.map θ) tier width) := by
  unfold block
  refine Part.only_join (List.forall_mem_cons.mpr ⟨Part.only_join (by simp), ?_⟩)
  -- picture and panel; the panel ends with the offer
  refine List.forall_mem_cons.mpr ⟨Part.only_join ?_, List.forall_mem_cons.mpr
    ⟨Part.only_join ?_, by simp⟩⟩
  · simp [image_only hp, Part.only_join]
  · simp [Part.only_join, field, hp, hθ, brandRow_only hp, heading_only hp hθ, description_only hp,
      priceLine_only hp hθ, buttonStyle_only]

end Product

/-! ## Arrangements -/

namespace Listing

variable {ps : List Fields} {θ l : Fields} {content : Value} {n : Number}
  (hps : ∀ p ∈ ps, ∀ name, (p.shown name).Shows P) (hθ : ∀ name, (θ.shown name).Shows P)

lemma table_only (rows : List Markup) : Only P (table rows) := Part.only_join (by simp)

include hps in
/-- The items of products that are mappings. -/
lemma items_only {form : Fields → Part}
    (h : ∀ p : Fields, (∀ name, (p.shown name).Shows P) → Only P (form p)) :
    Only P ((ps.map Value.map).mapM fun product => product.fields >>= form) := by
  refine .mapM ?_
  rw [List.forall_mem_map]
  exact fun p hp => h p (hps p hp)

include hps hθ in
/-- **The products of every template** can be laid out by a moderate width. -/
theorem ofTemplate_only (template : Template)
    (hc : (Value.map l).field "content_width" = .ok content)
    (hn : content.number? = some n) (hm : n.Moderate) :
    Only P (ofTemplate template (.list (ps.map .map)) (.map l) (.map θ)) := by
  have hlayout : Layout.ofValue (.map l) =
      .ok ⟨Tier.ofValue (l.look "product_image_size"), content⟩ := by
    obtain ⟨_, heq, hfind⟩ := Value.field_eq_ok.mp hc
    cases heq
    unfold Layout.ofValue
    rw [Value.fields_map, ok_bind, hfind]
    rfl
  cases template with
  | classic =>
      obtain ⟨width, hwidth⟩ := Width.image_ok hn hm .classic (Tier.ofValue (l.look "product_image_size"))
      replace hwidth : Width.grid content _ = .ok width := hwidth
      simp only [ofTemplate, grid, hlayout, ok_bind, hwidth]
      refine (items_only hps fun p hp => ?_).bind fun _ _ => table_only _
      unfold gridItem
      split
      · exact Product.linkedImage_only hp _ _
      · exact Product.card_only hp hθ _ _
  | modern =>
      obtain ⟨full, hfull, hshows⟩ := Width.fullBleed_ok hn hm
      simp only [ofTemplate, list, hlayout, ok_bind, hfull]
      refine (items_only hps fun p hp => ?_).bind fun _ _ => table_only _
      unfold listItem
      split
      · exact Product.imageEntry_only hp (.inl hshows)
      · exact Product.entry_only hp hθ _
  | banner =>
      obtain ⟨width, hwidth⟩ := Width.image_ok hn hm .banner (Tier.ofValue (l.look "product_image_size"))
      replace hwidth : Width.banner content _ = .ok width := hwidth
      simp only [ofTemplate, stack, hlayout, ok_bind, hwidth]
      refine (items_only hps fun p hp => ?_).bind fun _ _ => table_only _
      unfold stackItem
      split
      · exact Product.linkedImage_only hp _ _
      · exact Product.block_only hp hθ _ _

end Listing

/-! ## Sections -/

namespace Section

variable {company hero footer θ : Fields} {content : Value}
  (hθ : ∀ name, (θ.shown name).Shows P)

include hθ

theorem header_only (hcompany : ∀ name, (company.shown name).Shows P) :
    Only P (header (.map company) (.map θ)) := by
  have hmark : Only P (mark company (.map θ)) := by
    unfold mark
    dsimp only
    split <;> exact Part.only_join (by simp [hcompany, hθ])
  exact hmark.bind fun _ _ => Part.only_join (by simp [hcompany, hθ])

theorem hero_only (hhero : ∀ name, (hero.shown name).Shows P) (hcontent : content.Shows P)
    (template : Option Template) :
    Only P (Section.hero (.map hero) (.map θ) template content) := by
  have himage : Only P (heroImage hero content) := Part.only_join (by simp [hhero, hcontent])
  have hpanel {ground : Part} (hground : Only P ground) : Only P (heroPanel hero (.map θ) ground) :=
    Part.only_join (by simp [hhero, hθ, hground, buttonStyle_only])
  unfold Section.hero heroGround
  simp only [Value.fields_map, ok_bind]
  split
  · split
    · exact Part.only_join (by simp [himage, hpanel])
    · exact Part.only_join (by simp [himage, hpanel, hθ])
  · exact Part.only_join (by simp)

theorem footer_only (hcompany : ∀ name, (company.shown name).Shows P)
    (hfooter : ∀ name, (footer.shown name).Shows P) :
    Only P (Section.footer (.map company) (.map footer) (.map θ)) :=
  Part.only_join (by simp [hcompany, hfooter, hθ])

end Section

/-! ## Documents -/

namespace Config

/-- A complete configuration: its sections are mappings, its products too, and it has the fields that
the compiler reads without asking whether they are there.  The width of its content is moderate. -/
structure Sound (r : Fields) : Prop where
  sections : ∀ key ∈ sectionNames, ∃ fields, r.look key = .map fields
  products : r.look "products" = .list ((listed r).map .map)
  size : ∃ v, (r.look "layout").field "product_image_size" = .ok v
  ground : ∃ v, (r.look "theme").field "background_color" = .ok v
  width : ∃ v n, (r.look "layout").field "content_width" = .ok v ∧ v.number? = some n ∧ n.Moderate

/-- Escaping leaves all of this as it is. -/
lemma Sound.escape {r : Fields} (h : Sound r) : Sound r.escape where
  sections key hk := by
    obtain ⟨fields, hf⟩ := h.sections key hk
    exact ⟨Fields.escape fields, by rw [Fields.look_escape, hf]; rfl⟩
  products := look_products_of_look (look_products_escape h.products)
  size := by
    obtain ⟨v, hv⟩ := h.size
    exact ⟨v.escape, by rw [Fields.look_escape, Value.field_escape, hv]; rfl⟩
  ground := by
    obtain ⟨v, hv⟩ := h.ground
    exact ⟨v.escape, by rw [Fields.look_escape, Value.field_escape, hv]; rfl⟩
  width := by
    obtain ⟨v, n, hv, hn, hm⟩ := h.width
    refine ⟨v.escape, n, by rw [Fields.look_escape, Value.field_escape, hv]; rfl, ?_, hm⟩
    rwa [Value.number?_escape]

/-- And so does another order of the sets. -/
lemma Sound.ordered {r : Fields} (h : Sound r) (ρ : SetOrder) : Sound (r.ordered ρ) where
  sections key hk := by
    obtain ⟨fields, hf⟩ := h.sections key hk
    exact ⟨_, by rw [Fields.look_ordered, hf, Value.ordered_map]⟩
  products := look_products_of_look (look_products_ordered h.products)
  size := by
    obtain ⟨v, hv⟩ := h.size
    exact ⟨_, by rw [Fields.look_ordered, Value.field_ordered, hv]; rfl⟩
  ground := by
    obtain ⟨v, hv⟩ := h.ground
    exact ⟨_, by rw [Fields.look_ordered, Value.field_ordered, hv]; rfl⟩
  width := by
    obtain ⟨v, n, hv, hn, hm⟩ := h.width
    refine ⟨_, n, by rw [Fields.look_ordered, Value.field_ordered, hv]; rfl, ?_, hm⟩
    rwa [Value.number?_ordered]

end Config

namespace Document

variable {r : Fields}

/-- The title is that of the hero or the name of the company. -/
lemma title_only {company hero : Fields} (hcompany : r.look "company" = .map company)
    (hhero : r.look "hero" = .map hero) (hc : ∀ name, (company.shown name).Shows P)
    (hh : ∀ name, (hero.shown name).Shows P) :
    Only P (Section.title (.map r) >>= Part.ofValue) := by
  unfold Section.title
  simp only [Value.fields_map, ok_bind, hcompany, hhero, Value.fieldsOrNone_map]
  split
  · exact Part.only_ofValue (hh _)
  · exact Part.only_ofValue (hc _)

/-- The template is a fallback where a value names none, but the journal must show the value. -/
lemma template_only {v : Value} (h : v.Shows P) : Only P (Template.ofValue v).outcome := by
  rw [Template.outcome_ofValue]
  split
  · exact .ok _
  · split
    · exact .ok _
    · next hv => exact Only.error_iff.mpr (h.resolve_left hv)

/-- **The document of a sound configuration** can be compiled, unless a value does not show. -/
theorem only_ofResolved (hr : Config.Sound r) (hshows : (Value.map r).Shows P) :
    Only P (ofResolved r).outcome := by
  obtain ⟨layout, hlayout⟩ := hr.sections "layout" (by decide)
  obtain ⟨θ, htheme⟩ := hr.sections "theme" (by decide)
  obtain ⟨company, hcompany⟩ := hr.sections "company" (by decide)
  obtain ⟨hero, hhero⟩ := hr.sections "hero" (by decide)
  obtain ⟨footer, hfooter⟩ := hr.sections "footer" (by decide)
  obtain ⟨size, hsize⟩ := hr.size
  obtain ⟨ground, hground⟩ := hr.ground
  obtain ⟨content, n, hcontent, hn, hm⟩ := hr.width
  -- every value that is shown stands in a section or in a product
  have hsection {key : String} {fields : Fields} (h : r.look key = .map fields) :
      ∀ name, (fields.shown name).Shows P :=
    Value.Shows.shown (h ▸ hshows.look key)
  have hproducts : ∀ p ∈ Config.listed r, ∀ name, (p.shown name).Shows P := by
    have hlist := hshows.look "products"
    rw [hr.products, Value.hereditary_shows.list, List.forall_mem_map] at hlist
    exact fun p hp => (hlist p hp).shown
  have hcontentShows : content.Shows P := .inl (Width.isShowable_of_moderate hn hm)
  have hsizeShows : size.Shows P := (hshows.look "layout").field hsize
  have hgroundShows : ground.Shows P := (hshows.look "theme").field hground
  have htitle := title_only hcompany hhero (hsection hcompany) (hsection hhero)
  rw [hlayout] at hsize hcontent
  rw [htheme] at hground
  rw [outcome_ofResolved]
  simp only [hr.products, hlayout, htheme, hcompany, hhero, hfooter, hcontent, hsize, hground,
    Value.count, Value.items, ok_bind]
  refine (template_only (hshows.look "template")).bind fun template _ => ?_
  refine hcontentShows.written.bind fun _ _ => hsizeShows.written.bind fun _ _ => ?_
  refine (Section.header_only (hsection htheme) (hsection hcompany)).bind fun header _ => ?_
  refine (Section.hero_only (hsection htheme) (hsection hhero) hcontentShows _).bind
    fun hero _ => ?_
  refine (Listing.ofTemplate_only hproducts (hsection htheme) template hcontent hn hm).bind
    fun listing _ => ?_
  refine (Section.footer_only (hsection htheme) (hsection hcompany) (hsection hfooter)).bind
    fun footer _ => ?_
  have hopening : Only P (opening (Section.title (.map r)) content (.ok ground)) :=
    Part.only_join (by simp [htitle, hcontentShows, hgroundShows])
  have hpart : Only P (productsPart listing) := Part.only_join (by simp)
  have hclosing : Only P closing := Part.only_join (by simp)
  exact Part.only_join (by simp [hopening, hpart, hclosing])

end Document

end Mailshot
