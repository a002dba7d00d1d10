import Mailshot.Document
import Mailshot.Proofs.Ordered
import Mailshot.Proofs.Escape
import Mailshot.Proofs.Outcome
import Mailshot.Proofs.Resolve

/-!
# What a document is joined of

A compilation that succeeds made every part of the document on its way.

* `Document.Assembly` — the parts of a document with the computations that gave them.
* **`Document.assembly_of_ok`** — every document that is compiled has such parts.
* `Document.html_eq_ok` — a document is the text of the compiled markup of the complete
  configuration.
* `Document.Assembly.number` — where there is a document, the width of its content is a number.
-/

namespace Mailshot

open Text

/-! ## The sequence of steps -/

/-- The template that a value names; where it names none the journal must show the value. -/
lemma Template.outcome_ofValue (v : Value) : (Template.ofValue v).outcome =
    match Template.ofValue? v with
    | some template => .ok template
    | none => if v.isShowable then .ok .classic else .error .tooManyDigits := by
  unfold Template.ofValue
  cases Template.ofValue? v with
  | some template => rfl
  | none =>
      simp only [Report.outcome_bind, Report.outcome_lift, Report.outcome_enter,
        Report.outcome_pure, Value.named]
      split <;> rfl

@[simp] lemma Template.outcome_ofValue_escape (v : Value) :
    (Template.ofValue v.escape).outcome = (Template.ofValue v).outcome := by
  rw [outcome_ofValue, outcome_ofValue, ofValue?_escape, Value.isShowable_escape]

@[simp] lemma Template.outcome_ofValue_ordered {ρ : SetOrder} {way : Way} (v : Value) :
    (Template.ofValue (v.ordered ρ way)).outcome = (Template.ofValue v).outcome := by
  rw [outcome_ofValue, outcome_ofValue, ofValue?_ordered, Value.isShowable_ordered]

/-- A template that a value gives is the one that it names, or the classic one. -/
lemma Template.eq_of_ofValue {v : Value} {template : Template}
    (h : (Template.ofValue v).outcome = .ok template) :
    template = (Template.ofValue? v).getD .classic := by
  rw [outcome_ofValue] at h
  cases hv : Template.ofValue? v with
  | some t =>
      rw [hv] at h
      exact (Except.ok.inj h).symm
  | none =>
      rw [hv] at h
      simp only at h
      split at h
      · exact (Except.ok.inj h).symm
      · cases h

/-- The template whose name is given is taken without a warning. -/
@[simp] lemma Template.ofValue_name (template : Template) :
    Template.ofValue (.text (ofString template.name)) = pure template := by
  cases template <;> rfl

/-- What is compiled before the parts are joined, as one sequence of steps. -/
lemma Document.outcome_ofResolved (r : Fields) :
    (Document.ofResolved r).outcome = (do
      let layout := r.look "layout"
      let theme := r.look "theme"
      let company := r.look "company"
      let products := r.look "products"
      let template ← (Template.ofValue (r.look "template")).outcome
      let content ← layout.field "content_width"
      let size ← layout.field "product_image_size"
      let _ ← products.count
      let _ ← content.written
      let _ ← size.written
      let header ← Section.header company theme
      let hero ← Section.hero (r.look "hero") theme (some template) content
      let _ ← products.count
      let listing ← Listing.ofTemplate template products layout theme
      let footer ← Section.footer company (r.look "footer") theme
      Part.join [opening (Section.title (.map r)) content (theme.field "background_color"), "\n",
        header, "\n", hero, productsPart listing, "\n", footer, closing]) := by
  simp only [Document.ofResolved, Listing.render, Report.outcome_bind, Report.outcome_lift,
    Report.outcome_enter, ok_bind, Template.ofValue_name, Report.outcome_pure, bind_assoc]

/-- The parts of a document, with the computations that gave them. -/
structure Document.Assembly (r : Fields) (m : Markup) where
  template : Template
  content : Value
  size : Value
  header : Markup
  hero : Markup
  listing : Markup
  footer : Markup
  ofTemplate : (Template.ofValue (r.look "template")).outcome = .ok template
  ofContent : (r.look "layout").field "content_width" = .ok content
  ofSize : (r.look "layout").field "product_image_size" = .ok size
  written : ∃ text, content.written = .ok text
  ofHeader : Section.header (r.look "company") (r.look "theme") = .ok header
  ofHero : Section.hero (r.look "hero") (r.look "theme") (some template) content = .ok hero
  ofListing : Listing.ofTemplate template (r.look "products") (r.look "layout") (r.look "theme") =
    .ok listing
  ofFooter : Section.footer (r.look "company") (r.look "footer") (r.look "theme") = .ok footer
  joined : Part.join [opening (Section.title (.map r)) content
    ((r.look "theme").field "background_color"), "\n", header, "\n", hero, productsPart listing,
    "\n", footer, closing] = .ok m

/-- **Every document that is compiled is joined of its parts.** -/
theorem Document.assembly_of_ok {r : Fields} {m : Markup} (h : (ofResolved r).outcome = .ok m) :
    Nonempty (Assembly r m) := by
  rw [outcome_ofResolved] at h
  obtain ⟨template, htemplate, h⟩ := bind_eq_ok.mp h
  obtain ⟨content, hcontent, h⟩ := bind_eq_ok.mp h
  obtain ⟨size, hsize, h⟩ := bind_eq_ok.mp h
  obtain ⟨_, -, h⟩ := bind_eq_ok.mp h
  obtain ⟨text, hwritten, h⟩ := bind_eq_ok.mp h
  obtain ⟨_, -, h⟩ := bind_eq_ok.mp h
  obtain ⟨header, hheader, h⟩ := bind_eq_ok.mp h
  obtain ⟨hero, hhero, h⟩ := bind_eq_ok.mp h
  obtain ⟨_, -, h⟩ := bind_eq_ok.mp h
  obtain ⟨listing, hlisting, h⟩ := bind_eq_ok.mp h
  obtain ⟨footer, hfooter, h⟩ := bind_eq_ok.mp h
  exact ⟨⟨template, content, size, header, hero, listing, footer, htemplate, hcontent, hsize,
    ⟨text, hwritten⟩, hheader, hhero, hlisting, hfooter, h⟩⟩

lemma Section.fields_of_header {company theme : Value} {m : Markup}
    (h : header company theme = .ok m) : ∃ fields, company = .map fields := by
  obtain ⟨fields, hf, -⟩ := bind_eq_ok.mp h
  exact ⟨fields, Value.fields_eq_ok.mp hf⟩

lemma Section.fields_of_hero {hero theme content : Value} {template : Option Template} {m : Markup}
    (h : Section.hero hero theme template content = .ok m) : ∃ fields, hero = .map fields := by
  obtain ⟨fields, hf, -⟩ := bind_eq_ok.mp h
  exact ⟨fields, Value.fields_eq_ok.mp hf⟩

/-! ## From the configuration to the text -/

section

variable {c : Value} {r : Fields} {escaped : Bool} {ρ : SetOrder}

/-- Configurations with one completion have one document, and leave one journal. -/
lemma Document.html_congr {c' : Value} (h : Config.resolve c = Config.resolve c') (escaped : Bool)
    (ρ : SetOrder) : html c escaped ρ = html c' escaped ρ := by
  unfold html markup
  rw [h]

/-- A document is the text of its markup. -/
lemma Document.outcome_html (c : Value) (escaped : Bool) (ρ : SetOrder) :
    (html c escaped ρ).outcome = (markup c escaped ρ).outcome.map Markup.text := by
  simp only [html, Report.outcome_bind]
  cases (markup c escaped ρ).outcome <;> rfl

/-- The markup of a configuration that can be completed. -/
lemma Document.outcome_markup (hr : Config.resolve c = .ok r) (escaped : Bool) (ρ : SetOrder) :
    (markup c escaped ρ).outcome =
      if escaped && r.isEndless then .error .endless
      else (ofResolved (if escaped then (r.ordered ρ).escape else r.ordered ρ)).outcome := by
  simp only [markup, Report.outcome_bind, Report.outcome_lift, hr, ok_bind,
    Fields.isEndless_ordered]
  split <;> rfl

/-- A document is the text of the compiled markup of the complete configuration, its sets in order; that
must not hold itself where it is escaped. -/
theorem Document.html_eq_ok {d : Text} :
    (html c escaped ρ).outcome = .ok d ↔ ∃ r m, Config.resolve c = .ok r ∧
      (escaped = true → r.isEndless = false) ∧
      (ofResolved (if escaped then (r.ordered ρ).escape else r.ordered ρ)).outcome = .ok m ∧
      m.text = d := by
  simp only [html, markup, Report.outcome_bind, Report.outcome_lift, bind_eq_ok,
    Fields.isEndless_ordered]
  constructor
  · rintro ⟨m, ⟨r, hr, h⟩, hd⟩
    split at h
    · cases h
    · next he =>
        refine ⟨r, m, hr, fun hescaped => ?_, h, Except.ok.inj hd⟩
        simpa [hescaped] using he
  · rintro ⟨r, m, hr, hendless, h, rfl⟩
    refine ⟨m, ⟨r, hr, ?_⟩, rfl⟩
    have he : (escaped && r.isEndless) = false := by
      cases escaped with
      | true => exact hendless rfl
      | false => rfl
    simpa [he] using h

end

/-! ## The width of the content -/

namespace Width

variable {content : Value} {tier : Tier}

lemma isSome_of_number {x : Number} (h : number content = .ok x) :
    content.number?.isSome = true := by
  unfold number at h
  split at h
  · next hx =>
      rw [hx]
      rfl
  · cases h

/-- Every width that is computed from the content begins by reading a number. -/
lemma isSome_of_bind {α : Type} {f : Number → Except Fault α} {a : α}
    (h : (number content >>= f) = .ok a) : content.number?.isSome = true := by
  obtain ⟨x, hx, -⟩ := bind_eq_ok.mp h
  exact isSome_of_number hx

/-- A number has a width for an item that is only an image. -/
lemma fullBleed_of_number (h : content.number?.isSome = true) :
    ∃ full, fullBleed content = .ok full := by
  obtain ⟨x, hx⟩ := Option.isSome_iff_exists.mp h
  unfold fullBleed number
  rw [hx]
  cases hless : x.less fullBleedInset with
  | int i => exact ⟨.int i, by simp [hless]; rfl⟩
  | float y => exact ⟨.float y, by simp [hless]; rfl⟩

end Width

/-- The layout of a mapping with a width. -/
lemma Layout.ofValue_map {fields : Fields} {content : Value}
    (h : fields.find? (.text (ofString "content_width")) = some content) :
    Layout.ofValue (.map fields) =
      .ok ⟨Tier.ofValue (fields.look "product_image_size"), content⟩ := by
  unfold Layout.ofValue
  rw [Value.fields_map, ok_bind, h]
  rfl

/-- Where a layout has a width, that is the one that the products are laid out by. -/
lemma Layout.content_eq {v content : Value} {layout : Layout} (h : Layout.ofValue v = .ok layout)
    (hv : v.field "content_width" = .ok content) : layout.content = content := by
  obtain ⟨fields, rfl, hw⟩ := Value.field_eq_ok.mp hv
  rw [Layout.ofValue_map hw] at h
  cases h
  rfl

/-- The layout that gives a width and a size. -/
lemma Layout.ofValue_of_fields {v content size : Value} (hc : v.field "content_width" = .ok content)
    (hs : v.field "product_image_size" = .ok size) :
    Layout.ofValue v = .ok ⟨Tier.ofValue size, content⟩ := by
  obtain ⟨fields, rfl, hwidth⟩ := Value.field_eq_ok.mp hc
  obtain ⟨_, hf, hsize⟩ := Value.field_eq_ok.mp hs
  cases hf
  rw [Layout.ofValue_map hwidth, Fields.look, hsize]
  rfl

/-- Products are laid out by a width that is a number, whatever the template. -/
lemma Listing.number_of_ofTemplate {template : Template} {products v theme content : Value}
    {m : Markup} (h : ofTemplate template products v theme = .ok m)
    (hv : v.field "content_width" = .ok content) : content.number?.isSome = true := by
  cases template with
  | classic =>
      obtain ⟨layout, hl, h⟩ := bind_eq_ok.mp h
      obtain ⟨n, hn, -⟩ := bind_eq_ok.mp h
      rw [← Layout.content_eq hl hv]
      exact Width.isSome_of_bind hn
  | modern =>
      obtain ⟨layout, hl, h⟩ := bind_eq_ok.mp h
      obtain ⟨full, hfull, -⟩ := bind_eq_ok.mp h
      rw [← Layout.content_eq hl hv]
      exact Width.isSome_of_bind hfull
  | banner =>
      obtain ⟨layout, hl, h⟩ := bind_eq_ok.mp h
      obtain ⟨n, hn, -⟩ := bind_eq_ok.mp h
      rw [← Layout.content_eq hl hv]
      exact Width.isSome_of_bind hn

/-- **Where there is a document, the width of its content is a number.** -/
theorem Document.Assembly.number {r : Fields} {m : Markup} (a : Assembly r m) :
    a.content.number?.isSome = true :=
  Listing.number_of_ofTemplate a.ofListing a.ofContent

end Mailshot
