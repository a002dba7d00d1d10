import Mailshot.PlainText
import Mailshot.Proofs.Assembly
import Mailshot.Proofs.Decoding
import Mailshot.Proofs.Holding
import Mailshot.Proofs.Suppressed.Renderings

/-!
# Campaigns with a plain-text version

A document shows any value, but lines are joined only if they are texts.  Some fields become lines as
they are: those must hold texts, and a document with any other value there has no plain-text version.

* `PlainText.Written` — the values that are written into lines show.  Those of a campaign with a
  document do (`PlainText.Written.of_assembly`).
* `PlainText.Joinable` — the values that are lines are texts.
* **`PlainText.ofConfig_hinges`** — the plain-text version hinges on just that.
* **`Document.plainText_of_html`** — and so it does wherever there is a document.
-/

namespace Mailshot

open Text

/-- The footer is made of two mappings. -/
lemma Section.fields_of_footer {company footer theme : Value} {m : Markup}
    (h : Section.footer company footer theme = .ok m) : ∃ fields, footer = .map fields := by
  obtain ⟨_, h⟩ := join_drop_eq_ok 14 h
  obtain ⟨_, _, haddress, -⟩ := join_cons_eq_ok.mp h
  obtain ⟨_, hshown, -⟩ := bind_eq_ok.mp haddress
  obtain ⟨fields, hf, -⟩ := bind_eq_ok.mp hshown
  exact ⟨fields, Value.fields_eq_ok.mp hf⟩

namespace PlainText

/-! ## Lines -/

/-- Whether a value can be a line. -/
def isLine (v : Value) : Bool := v.text?.isSome

@[simp] lemma isLine_text (t : Text) : isLine (.text t) = true := rfl

lemma line_hinges (v : Value) : Outcome.Hinges (isLine v = true) .notJoinable (line v) := by
  unfold isLine line
  cases v.text? with
  | none => exact ⟨fun h => absurd h (by decide), fun _ => rfl⟩
  | some t => exact ⟨fun _ => ⟨t, rfl⟩, fun h => absurd rfl h⟩

/-- Lines are joined if they are texts. -/
theorem joined_hinges (separator : Text) (parts : List Value) :
    Outcome.Hinges (∀ v ∈ parts, isLine v = true) .notJoinable (joined separator parts) := by
  have hlines : Outcome.Hinges (∀ v ∈ parts, isLine v = true) .notJoinable (parts.mapM line) :=
    .mapM fun v _ => line_hinges v
  have h := hlines.bind fun ts _ => Outcome.Hinges.succeeds (List.intercalate separator ts)
  exact h.congr (by rw [and_true])

lemma written_of_isShowable {v : Value} (h : v.isShowable = true) : v.written = .ok v.display := by
  rw [Value.written, if_pos h]

/-- A field shows wherever it is asked for: one that is missing shows too. -/
lemma isShowable_look (fields : Fields) (name : String) :
    (fields.look name).isShowable = (fields.shown name).isShowable := by
  unfold Fields.look Fields.shown
  cases fields.find? (.text (ofString name)) <;> rfl

/-! ## The hero -/

/-- The line that calls to follow the link is a text, if text and link show. -/
lemma callLine_ok {hero : Fields}
    (h : ∀ name ∈ ["cta_text", "cta_link"], (hero.shown name).isShowable = true) :
    ∃ ls, callLine hero = .ok ls ∧ ∀ v ∈ ls, isLine v = true := by
  have htext := written_of_isShowable (h "cta_text" (by decide))
  have hlink := written_of_isShowable ((isShowable_look hero _).trans (h "cta_link" (by decide)))
  simp only [callLine, htext, hlink, ok_bind]
  split
  · exact ⟨_, rfl, by simp⟩
  · exact ⟨[], rfl, by simp⟩

/-- The lines of a hero are texts if it is hidden, or its title and subtitle are texts. -/
lemma heroLines_ok {hero : Fields} (h : (hero.look "show").truthy = true →
      ∀ name ∈ ["cta_text", "cta_link"], (hero.shown name).isShowable = true) :
    ∃ ls, heroLines hero = .ok ls ∧ ((∀ v ∈ ls, isLine v = true) ↔
      ((hero.look "show").truthy = true →
        ∀ name ∈ ["title", "subtitle"], isLine (hero.shown name) = true)) := by
  unfold heroLines
  split
  · next hshow =>
      obtain ⟨ls, hls, hlines⟩ := callLine_ok (h hshow)
      rw [hls, ok_bind]
      refine ⟨_, rfl, ?_⟩
      rw [List.forall_mem_append, List.forall_mem_append, and_iff_left (by simp),
        and_iff_left hlines]
      simp [hshow]
  · next hshow => exact ⟨[], rfl, by simp [hshow]⟩

/-! ## The products -/

/-- The indented line of a field is a text, if the field shows. -/
lemma indented_ok {product : Fields} {name : String}
    (h : (product.shown name).isShowable = true) : ∃ ls, indented product name = .ok ls := by
  simp only [indented, written_of_isShowable ((isShowable_look product name).trans h), ok_bind]
  split
  · exact ⟨_, rfl⟩
  · exact ⟨[], rfl⟩

lemma isLine_of_indented {product : Fields} {name : String} {ls : List Value}
    (h : indented product name = .ok ls) : ∀ v ∈ ls, isLine v = true := by
  simp only [indented] at h
  split at h
  · obtain ⟨t, -, h⟩ := bind_eq_ok.mp h
    cases h
    simp
  · cases h
    simp

/-- A product whose name and price are texts, as far as its bullet has them. -/
def Bulleted (product : Fields) : Prop :=
  Product.isImageOnly product = false →
    ∀ v ∈ [product.shown "name", price product], v.truthy = true → isLine v = true

/-- The lines of a product hinge on its name and its price. -/
lemma productLines_hinges {product : Fields}
    (hlink : (product.shown "link").isShowable = true)
    (hdescription : Product.isImageOnly product = false →
      (product.shown "description").isShowable = true) :
    Outcome.Hinges (Bulleted product) .notJoinable (productLines (.map product)) := by
  unfold productLines Bulleted
  rw [Value.fields_map, ok_bind]
  cases hp : Product.isImageOnly product with
  | true =>
      simp only [if_true, written_of_isShowable hlink, ok_bind]
      exact (Outcome.Hinges.succeeds _).congr (by simp)
  | false =>
      obtain ⟨ds, hds⟩ := indented_ok (hdescription hp)
      obtain ⟨ls, hls⟩ := indented_ok hlink
      simp only [Bool.false_eq_true, if_false, hds, hls, ok_bind]
      refine ((joined_hinges _ _).bind fun head _ => Outcome.Hinges.succeeds _).congr ?_
      simp [List.mem_filter]

/-- All lines of a product are texts. -/
lemma isLine_of_productLines {product : Value} {ls : List Value}
    (h : productLines product = .ok ls) : ∀ v ∈ ls, isLine v = true := by
  obtain ⟨fields, -, h⟩ := bind_eq_ok.mp h
  split at h
  · obtain ⟨t, -, h⟩ := bind_eq_ok.mp h
    cases h
    simp
  · obtain ⟨head, -, h⟩ := bind_eq_ok.mp h
    obtain ⟨ds, hds, h⟩ := bind_eq_ok.mp h
    obtain ⟨ls, hls, h⟩ := bind_eq_ok.mp h
    cases h
    rw [List.forall_mem_append, List.forall_mem_cons]
    exact ⟨⟨rfl, isLine_of_indented hds⟩, isLine_of_indented hls⟩

/-! ## The campaign -/

/-- The values that are written into lines show. -/
structure Written (r : Fields) : Prop where
  sections : ∀ key ∈ ["company", "hero", "footer"], ∃ fields, r.look key = .map fields
  products : r.look "products" = .list ((Config.listed r).map .map)
  hero : ((Config.sectionFields r "hero").look "show").truthy = true →
    ∀ name ∈ ["cta_text", "cta_link"],
      ((Config.sectionFields r "hero").shown name).isShowable = true
  links : ∀ p ∈ Config.listed r, (p.shown "link").isShowable = true
  descriptions : ∀ p ∈ Config.listed r, Product.isImageOnly p = false →
    (p.shown "description").isShowable = true

/-- The values that are lines are texts: name and website of the company, title and subtitle of a
shown hero, address and closing text, and of a product that is more than an image its name and its
price, unless they are false and left out. -/
structure Joinable (r : Fields) : Prop where
  company : ∀ name ∈ ["name", "website_url"],
    isLine ((Config.sectionFields r "company").shown name) = true
  hero : ((Config.sectionFields r "hero").look "show").truthy = true →
    ∀ name ∈ ["title", "subtitle"], isLine ((Config.sectionFields r "hero").shown name) = true
  products : ∀ p ∈ Config.listed r, Bulleted p
  footer : ∀ name ∈ ["address", "text"],
    isLine ((Config.sectionFields r "footer").shown name) = true

lemma joinable_iff {r company hero footer : Fields} (hcompany : r.look "company" = .map company)
    (hhero : r.look "hero" = .map hero) (hfooter : r.look "footer" = .map footer) : Joinable r ↔
      (∀ p ∈ Config.listed r, Bulleted p) ∧
      (∀ name ∈ ["name", "website_url"], isLine (company.shown name) = true) ∧
      ((hero.look "show").truthy = true →
        ∀ name ∈ ["title", "subtitle"], isLine (hero.shown name) = true) ∧
      ∀ name ∈ ["address", "text"], isLine (footer.shown name) = true := by
  rw [← Config.sectionFields_of_look hcompany, ← Config.sectionFields_of_look hhero,
    ← Config.sectionFields_of_look hfooter]
  exact ⟨fun h => ⟨h.products, h.company, h.hero, h.footer⟩,
    fun ⟨hproducts, hcompany, hhero, hfooter⟩ => ⟨hcompany, hhero, hproducts, hfooter⟩⟩

/-- **The plain-text version** of a complete configuration hinges on the values that are lines. -/
theorem ofConfig_hinges {r : Fields} (h : Written r) :
    Outcome.Hinges (Joinable r) .notJoinable (ofConfig (.map r)) := by
  obtain ⟨company, hcompany⟩ := h.sections "company" (by decide)
  obtain ⟨hero, hhero⟩ := h.sections "hero" (by decide)
  obtain ⟨footer, hfooter⟩ := h.sections "footer" (by decide)
  have hcall := h.hero
  rw [Config.sectionFields_of_look hhero] at hcall
  obtain ⟨hs, hhs, hlines⟩ := heroLines_ok hcall
  have hentries : Outcome.Hinges (∀ p ∈ Config.listed r, Bulleted p) .notJoinable
      (((Config.listed r).map Value.map).mapM productLines) := by
    rw [List.mapM_map]
    exact .mapM fun p hp => productLines_hinges (h.links p hp) (h.descriptions p hp)
  simp only [ofConfig, lines, Value.fields_map, ok_bind, hcompany, hhero, hfooter, h.products,
    Value.fieldsOrNone_map, Value.itemsOrNone_list, hhs, bind_assoc, pure_bind]
  refine Outcome.Hinges.congr ?_ (joinable_iff hcompany hhero hfooter).symm
  refine hentries.bind fun entries he => ?_
  refine ((joined_hinges _ _).bind fun _ _ => .succeeds _).congr ?_
  -- the lines of the products are texts once they are made
  have htexts : ∀ v ∈ entries.flatten, isLine v = true := by
    rw [List.forall_mem_flatten]
    exact forall_of_mapM_eq_ok he fun _ _ _ hls => isLine_of_productLines hls
  rw [and_true, List.forall_mem_append, List.forall_mem_append, List.forall_mem_append,
    and_iff_left htexts, hlines]
  simp only [List.forall_mem_cons, List.not_mem_nil, false_implies, implies_true, isLine_text,
    and_true, true_and]
  constructor
  · rintro ⟨⟨hname, hhero⟩, haddress, htext, hwebsite⟩
    exact ⟨⟨hname, hwebsite⟩, hhero, haddress, htext⟩
  · rintro ⟨⟨hname, hwebsite⟩, hhero, haddress, htext⟩
    exact ⟨⟨hname, hhero⟩, haddress, htext, hwebsite⟩

/-! ## Campaigns with a document -/

namespace Written

variable {r : Fields} {m : Markup}

/-- **What a document shows** can be written into lines. -/
theorem of_assembly (a : Document.Assembly r m)
    (hp : r.look "products" = .list ((Config.listed r).map .map)) : Written r := by
  obtain ⟨company, hcompany⟩ := Section.fields_of_header a.ofHeader
  obtain ⟨hero, hhero⟩ := Section.fields_of_hero a.ofHero
  obtain ⟨footer, hfooter⟩ := Section.fields_of_footer a.ofFooter
  have hlisting := a.ofListing
  rw [hp, Listing.ofTemplate_eq] at hlisting
  obtain ⟨item, hitem, hlisting⟩ := bind_eq_ok.mp hlisting
  obtain ⟨items, hitems, -⟩ := bind_eq_ok.mp hlisting
  have hmade := exists_of_mapM_eq_ok hitems
  constructor
  case sections =>
    simp only [List.forall_mem_cons, List.not_mem_nil]
    exact ⟨⟨_, hcompany⟩, ⟨_, hhero⟩, ⟨_, hfooter⟩, fun _ h => h.elim⟩
  case products => exact hp
  case hero =>
    rw [Config.sectionFields_of_look hhero]
    intro hshow
    obtain ⟨hlink, htext⟩ := Section.holds_hero hhero hshow
    simp only [List.forall_mem_cons, List.not_mem_nil]
    exact ⟨(htext _ a.ofHero).1, (hlink _ a.ofHero).1, fun _ h => h.elim⟩
  case links =>
    intro p hmem
    obtain ⟨m, -, hm⟩ := hmade p hmem
    exact ((Listing.holds_form hitem p).1 m hm).1
  case descriptions =>
    intro p hmem hwords
    obtain ⟨m, -, hm⟩ := hmade p hmem
    exact ((Listing.holds_form hitem p).2.2 hwords m hm).1

/-- Values show before and after they are escaped. -/
lemma of_escape (hp : r.look "products" = .list ((Config.listed r).map .map))
    (h : Written r.escape) : Written r := by
  have hlisted := Config.listed_of_look (Config.look_products_escape hp)
  have hlinks := h.links
  have hdescriptions := h.descriptions
  rw [hlisted, List.forall_mem_map] at hlinks hdescriptions
  constructor
  case sections =>
    intro key hkey
    obtain ⟨fields, hfields⟩ := h.sections key hkey
    rw [Fields.look_escape] at hfields
    exact Value.exists_map_of_escape hfields
  case products => exact hp
  case hero =>
    have hhero := h.hero
    simp only [Config.sectionFields_escape, Fields.look_escape, Fields.shown_escape,
      Value.truthy_escape, Value.isShowable_escape] at hhero
    exact hhero
  case links => simpa only [Fields.shown_escape, Value.isShowable_escape] using hlinks
  case descriptions =>
    simpa only [Fields.shown_escape, Value.isShowable_escape, Product.isImageOnly_escape] using
      hdescriptions

/-- Values show in any order. -/
lemma of_ordered {ρ : SetOrder} (hp : r.look "products" = .list ((Config.listed r).map .map))
    (h : Written (r.ordered ρ)) : Written r := by
  constructor
  case sections =>
    intro key hkey
    obtain ⟨fields, hfields⟩ := h.sections key hkey
    rw [Fields.look_ordered] at hfields
    exact Value.exists_map_of_ordered hfields
  case products => exact hp
  case hero =>
    have hhero := h.hero
    simp only [Config.sectionFields_ordered, Fields.look_ordered, Fields.shown_ordered,
      Value.truthy_ordered, Value.isShowable_ordered] at hhero
    exact hhero
  case links =>
    intro p hmem
    obtain ⟨way, hordered⟩ := Config.exists_mem_listed_ordered hp hmem
    simpa using h.links _ hordered
  case descriptions =>
    intro p hmem hwords
    obtain ⟨way, hordered⟩ := Config.exists_mem_listed_ordered hp hmem
    simpa using h.descriptions _ hordered (by rwa [Product.isImageOnly_ordered])

end Written

end PlainText

/-- **A campaign with a document has a plain-text version exactly if its lines are texts**; if one of
them is not, they cannot be joined.  It makes no difference whether the document is escaped. -/
theorem Document.plainText_of_html {c : Value} {r : Fields} {escaped : Bool} {ρ : SetOrder} {d : Text}
    (hr : Config.resolve c = .ok r) (hd : (html c escaped ρ).outcome = .ok d) :
    ((∃ t, PlainText.ofConfig (.map r) = .ok t) ↔ PlainText.Joinable r) ∧
      (¬ PlainText.Joinable r → PlainText.ofConfig (.map r) = .error .notJoinable) := by
  have hp := Config.look_products hr
  obtain ⟨_, m, hr', -, hm, -⟩ := html_eq_ok.mp hd
  obtain rfl := Except.ok.inj (hr.symm.trans hr')
  obtain ⟨a⟩ := assembly_of_ok hm
  have hordered := Config.look_products_of_look (Config.look_products_ordered (ρ := ρ) hp)
  have hwritten : PlainText.Written r := by
    refine .of_ordered (ρ := ρ) hp ?_
    cases escaped with
    | false => exact .of_assembly a hordered
    | true =>
        have hescaped := Config.look_products_of_look (Config.look_products_escape hordered)
        exact .of_escape hordered (.of_assembly a hescaped)
  have hhinges := PlainText.ofConfig_hinges hwritten
  refine ⟨⟨fun ⟨t, ht⟩ => ?_, hhinges.ok⟩, hhinges.error⟩
  by_contra hj
  rw [hhinges.error hj] at ht
  cases ht

namespace PlainText

instance (product : Fields) : Decidable (Bulleted product) :=
  inferInstanceAs (Decidable (_ → ∀ v ∈ [_, _], _ → _))

instance (r : Fields) : Decidable (Joinable r) :=
  decidable_of_iff
    ((∀ name ∈ ["name", "website_url"],
        isLine ((Config.sectionFields r "company").shown name) = true) ∧
      (((Config.sectionFields r "hero").look "show").truthy = true →
        ∀ name ∈ ["title", "subtitle"],
          isLine ((Config.sectionFields r "hero").shown name) = true) ∧
      (∀ p ∈ Config.listed r, Bulleted p) ∧
      ∀ name ∈ ["address", "text"],
        isLine ((Config.sectionFields r "footer").shown name) = true)
    ⟨fun ⟨hcompany, hhero, hproducts, hfooter⟩ => ⟨hcompany, hhero, hproducts, hfooter⟩,
      fun h => ⟨h.company, h.hero, h.products, h.footer⟩⟩

/-- A campaign with one product, a lamp, at a price. -/
def lamp (price : Value) : Fields :=
  Config.ofProducts [Fields.named [("name", .text "Lamp"), ("price", price), ("link", .int 7)]]

end PlainText

namespace Document

/-- A price that is a text stands in a line. -/
theorem plainText_of_html_lamp : ∃ r d, Config.resolve (.map (PlainText.lamp (.text "20"))) = .ok r ∧
    (html (.map (PlainText.lamp (.text "20"))) true).outcome = .ok d ∧
    ∃ t, PlainText.ofConfig (.map r) = .ok t := by
  have hr := eq_ok_of_isOk (x := Config.resolve (.map (PlainText.lamp (.text "20"))))
    (by decide +kernel)
  have hd := eq_ok_of_isOk (x := (html (.map (PlainText.lamp (.text "20"))) true).outcome)
    (by decide +kernel)
  exact ⟨_, _, hr, hd, (plainText_of_html hr hd).1.mpr (by decide +kernel)⟩

/-- A price that is a number shows in the document, but is no line: the campaign has no plain-text
version. -/
theorem plainText_numberPrice : ∃ r d, Config.WellFormed (PlainText.lamp (.int 20)) ∧
    Config.resolve (.map (PlainText.lamp (.int 20))) = .ok r ∧
    Config.Texts (fun v => v.isScalar = true) r ∧
    (html (.map (PlainText.lamp (.int 20))) false).outcome = .ok d ∧
    PlainText.ofConfig (.map r) = .error .notJoinable := by
  obtain ⟨r, hr, hscalar, hplain⟩ : ∃ r, Config.resolve (.map (PlainText.lamp (.int 20))) = .ok r ∧
      Config.Texts (fun v => v.isScalar = true) r ∧
      PlainText.ofConfig (.map r) = .error .notJoinable :=
    ⟨_, eq_ok_of_isOk (by decide +kernel), by decide +kernel, rfl⟩
  have hd := eq_ok_of_isOk (x := (html (.map (PlainText.lamp (.int 20))) false).outcome)
    (by decide +kernel)
  exact ⟨r, _, Config.wellFormed_ofProducts, hr, hscalar, hd, hplain⟩

end Document

end Mailshot
