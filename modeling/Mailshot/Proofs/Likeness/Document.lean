import Mailshot.Proofs.Assembly
import Mailshot.Proofs.Likeness.Product

/-!
# Documents side by side

What two complete configurations must have in common for their documents to be alike.

* `Likeness.Layout`, `Likeness.Company`, `Likeness.Hero` — the sections, each compared by what the
  compiler reads of it; a hidden hero is compared by nothing else.
* `Likeness.grid`, `Likeness.list`, `Likeness.stack` — the products of the three templates.
* `Likeness.Config` — complete configurations that are compared section by section and product by
  product.
* **`Likeness.Config.document`** — the documents of such configurations are alike.
-/

namespace Mailshot

open Text

/-! ## Widths -/

namespace Width

variable {v w : Value}

lemma number_congr (h : v.number? = w.number?) : number v = number w := by
  unfold number
  rw [h]

lemma grid_congr (h : v.number? = w.number?) (tier : Tier) : grid v tier = grid w tier := by
  unfold grid
  rw [number_congr h]

lemma banner_congr (h : v.number? = w.number?) (tier : Tier) : banner v tier = banner w tier := by
  unfold banner
  rw [number_congr h]

lemma fullBleed_congr (h : v.number? = w.number?) : fullBleed v = fullBleed w := by
  unfold fullBleed
  rw [number_congr h]

/-- The width of an item that is only an image is a number. -/
lemma number?_fullBleed (h : fullBleed v = .ok w) : w.number?.isSome = true := by
  obtain ⟨x, -, h⟩ := bind_eq_ok.mp h
  split at h
  · cases h
    rfl
  · cases h
    rfl

end Width

namespace Likeness

variable {L : Likeness} {v w : Value}

/-! ## Layouts -/

/-- Widths of the content that show the same and count the same. -/
def Content (L : Likeness) (v w : Value) : Prop := L.same v w ∧ (L.loose ∨ v.number? = w.number?)

/-- Layouts with the same tier and the same width. -/
def Layout (L : Likeness) (a b : Mailshot.Layout) : Prop :=
  (L.loose ∨ a.tier = b.tier) ∧ L.Content a.content b.content

/-- A width that both layouts compute. -/
lemma Layout.width {a b : Mailshot.Layout} {f : Value → Tier → Except Fault Int}
    (h : L.Layout a b)
    (hf : ∀ {v w : Value}, v.number? = w.number? → ∀ tier, f v tier = f w tier) :
    Outcome.Alike L.loose (fun m n => L.loose ∨ m = n) (f a.content a.tier) (f b.content b.tier) := by
  obtain ⟨ht, -, hc⟩ := h
  by_cases hl : L.loose
  · exact .of_results hl fun _ _ _ _ => .inl hl
  · rw [ht.resolve_left hl, hf (hc.resolve_left hl)]
    cases f b.content b.tier with
    | ok n => exact .ok (.inr rfl)
    | error e => exact .fault e

lemma Content.fullBleed (h : L.Content v w) :
    Outcome.Alike L.loose L.same (Width.fullBleed v) (Width.fullBleed w) := by
  by_cases hl : L.loose
  · exact .of_results hl fun a b ha hb =>
      L.sizes (Width.number?_fullBleed ha) (Width.number?_fullBleed hb) (.inl hl)
  · rw [Width.fullBleed_congr (h.2.resolve_left hl)]
    cases hw : Width.fullBleed w with
    | ok n => exact .ok (L.sizes (Width.number?_fullBleed hw) (Width.number?_fullBleed hw) (.inr rfl))
    | error e => exact .fault e

/-! ## Items in order -/

section Listing

variable {tier tier' : Tier} {m n : Int} {p q : Fields}

lemma Item.gridItem (h : L.Item p q) (hθ : L.Theme v w) (ht : L.loose ∨ tier = tier')
    (hw : L.loose ∨ m = n) :
    Part.Alike L (Listing.gridItem v tier m p) (Listing.gridItem w tier' n q) := by
  unfold Listing.gridItem
  rw [← h.imageOnly]
  split
  · exact linkedImage h.image hw (transparent_ofList rfl)
  · next hp => exact (h.words (Bool.eq_false_iff.mpr hp)).card h.image hθ ht hw

lemma Item.listItem (h : L.Item p q) (hθ : L.Theme v w) (hw : L.loose ∨ m = n) {full full' : Value}
    (hfull : L.same full full') :
    Part.Alike L (Listing.listItem v m full p) (Listing.listItem w n full' q) := by
  unfold Listing.listItem
  rw [← h.imageOnly]
  split
  · exact imageEntry h.image hfull
  · next hp => exact (h.words (Bool.eq_false_iff.mpr hp)).entry h.image hθ hw

lemma Item.stackItem (h : L.Item p q) (hθ : L.Theme v w) (ht : L.loose ∨ tier = tier')
    (hw : L.loose ∨ m = n) :
    Part.Alike L (Listing.stackItem v tier m p) (Listing.stackItem w tier' n q) := by
  unfold Listing.stackItem
  rw [← h.imageOnly]
  split
  · exact linkedImage h.image hw (transparent_ofList rfl)
  · next hp => exact (h.words (Bool.eq_false_iff.mpr hp)).block h.image hθ ht hw

/-- Items made of two lists of products. -/
lemma items {f g : Fields → Part} (hfg : ∀ p q, L.Item p q → Part.Alike L (f p) (g q))
    {ps qs : List Fields} (h : List.Forall₂ L.Item ps qs) :
    Outcome.Alike L.loose (List.Forall₂ (Markup.Alike L))
      ((ps.map Value.map).mapM fun product => product.fields >>= f)
      ((qs.map Value.map).mapM fun product => product.fields >>= g) := by
  refine Outcome.Alike.mapM (R := fun a b => Part.Alike L (a.fields >>= f) (b.fields >>= g))
    (fun _ _ h => h) ?_
  rw [List.forall₂_map_left_iff, List.forall₂_map_right_iff]
  exact h.imp fun p q hpq => hfg p q hpq

lemma table {rows rows' : List Markup} (h : List.Forall₂ (Markup.Alike L) rows rows') :
    Part.Alike L (Listing.table rows) (Listing.table rows') := by
  unfold Listing.table
  refine .join ?_
  simp only [List.forall₂_cons, List.forall₂_nil_left_iff, and_true]
  exact ⟨.lit rfl, .tableAttributes, .lit rfl, .markup (.flatten h), .lit rfl⟩

lemma cell {a b : Markup} (h : Markup.Alike L a b) :
    Markup.Alike L (Listing.cell a) (Listing.cell b) :=
  .cons (.fixed (transparent_ofList rfl)) <|
    h.append (.cons (.fixed (transparent_ofList rfl)) .nil)

lemma filler : Markup.Alike L Listing.filler Listing.filler :=
  .cons (.fixed (transparent_ofList rfl)) .nil

lemma row (k : Nat) {a a' b b' : Markup} (h : Markup.Alike L a b) (h' : Markup.Alike L a' b') :
    Markup.Alike L (Listing.row k a a') (Listing.row k b b') := by
  have hnumber : Transparent (toString k) :=
    transparent_of_unmarked (unmarked_ofString.mpr (clean_natString k))
  have hopening : Markup.Alike L [.fixed "<!-- GRID ROW ", .fixed (toString k), .fixed " -->\n<tr>"]
      [.fixed "<!-- GRID ROW ", .fixed (toString k), .fixed " -->\n<tr>"] :=
    .cons (.fixed (transparent_ofList rfl)) <| .cons (.fixed hnumber) <|
      .cons (.fixed (transparent_ofList rfl)) .nil
  exact ((hopening.append h).append h').append (.cons (.fixed (transparent_ofList rfl)) .nil)

/-- The rows of two grids, two items at a time. -/
lemma rows : ∀ (k : Nat) {as bs : List Markup}, List.Forall₂ (Markup.Alike L) as bs →
    List.Forall₂ (Markup.Alike L) (Listing.rows k as) (Listing.rows k bs)
  | _, [], _, .nil => .nil
  | k, [_], _, .cons h .nil => .cons (row k (cell h) filler) .nil
  | k, _ :: _ :: _, _, .cons h (.cons h' hrest) =>
      .cons (row k (cell h) (cell h')) (rows (k + 1) hrest)

lemma listRow {a b : Markup} (h : Markup.Alike L a b) :
    Markup.Alike L (Listing.listRow a) (Listing.listRow b) := by
  unfold Listing.listRow
  refine Markup.Alike.append (Markup.Alike.append ?_ h) ?_
  · exact .cons (.fixed (transparent_ofList rfl)) <| .cons (.fixed (transparent_ofList rfl)) <|
      .cons (.fixed (transparent_ofList rfl)) <| .cons (.fixed (transparent_ofList rfl)) .nil
  · exact .cons (.fixed (transparent_ofList rfl)) .nil

lemma stackRow {a b : Markup} (h : Markup.Alike L a b) :
    Markup.Alike L (Listing.stackRow a) (Listing.stackRow b) :=
  .cons (.fixed (transparent_ofList rfl)) <|
    h.append (.cons (.fixed (transparent_ofList rfl)) .nil)

variable {layout layout' : Value} {ps qs : List Fields}

theorem grid (hl : Outcome.Alike L.loose L.Layout (Layout.ofValue layout) (Layout.ofValue layout'))
    (hθ : L.Theme v w) (h : List.Forall₂ L.Item ps qs) :
    Part.Alike L (Listing.grid (.list (ps.map .map)) layout v)
      (Listing.grid (.list (qs.map .map)) layout' w) := by
  unfold Listing.grid
  refine hl.bind fun a b hab => ?_
  refine (hab.width Width.grid_congr).bind fun m n hmn => ?_
  exact (items (fun p q hpq => hpq.gridItem hθ hab.1 hmn) h).bind fun as bs hbs =>
    table (rows 1 hbs)

theorem list (hl : Outcome.Alike L.loose L.Layout (Layout.ofValue layout) (Layout.ofValue layout'))
    (hθ : L.Theme v w) (h : List.Forall₂ L.Item ps qs) :
    Part.Alike L (Listing.list (.list (ps.map .map)) layout v)
      (Listing.list (.list (qs.map .map)) layout' w) := by
  unfold Listing.list
  refine hl.bind fun a b hab => ?_
  have hsize : L.loose ∨ Width.list a.tier = Width.list b.tier := hab.1.imp_right fun h => by rw [h]
  refine hab.2.fullBleed.bind fun full full' hfull => ?_
  refine (items (fun p q hpq => hpq.listItem hθ hsize hfull) h).bind fun as bs hbs => table ?_
  rw [List.forall₂_map_left_iff, List.forall₂_map_right_iff]
  exact hbs.imp fun _ _ => listRow

theorem stack (hl : Outcome.Alike L.loose L.Layout (Layout.ofValue layout) (Layout.ofValue layout'))
    (hθ : L.Theme v w) (h : List.Forall₂ L.Item ps qs) :
    Part.Alike L (Listing.stack (.list (ps.map .map)) layout v)
      (Listing.stack (.list (qs.map .map)) layout' w) := by
  unfold Listing.stack
  refine hl.bind fun a b hab => ?_
  refine (hab.width Width.banner_congr).bind fun m n hmn => ?_
  refine (items (fun p q hpq => hpq.stackItem hθ hab.1 hmn) h).bind fun as bs hbs => table ?_
  rw [List.forall₂_map_left_iff, List.forall₂_map_right_iff]
  exact hbs.imp fun _ _ => stackRow

/-- The products under a template. -/
theorem ofTemplate (template : Template)
    (hl : Outcome.Alike L.loose L.Layout (Layout.ofValue layout) (Layout.ofValue layout'))
    (hθ : L.Theme v w) (h : List.Forall₂ L.Item ps qs) :
    Part.Alike L (Listing.ofTemplate template (.list (ps.map .map)) layout v)
      (Listing.ofTemplate template (.list (qs.map .map)) layout' w) := by
  cases template with
  | classic => exact grid hl hθ h
  | modern => exact list hl hθ h
  | banner => exact stack hl hθ h

end Listing

/-! ## Sections -/

/-- Companies that show the same, both or neither with a logo. -/
structure Company (L : Likeness) (f g : Fields) : Prop where
  texts : L.Names ["name", "logo_url", "website_url"] f g
  logo : (f.look "logo_url").truthy = (g.look "logo_url").truthy

/-- Heroes that are both hidden, or both shown and show the same. -/
structure Hero (L : Likeness) (f g : Fields) : Prop where
  visible : (f.look "show").truthy = (g.look "show").truthy
  texts : (f.look "show").truthy = true →
    L.Names ["image_url", "title", "subtitle", "cta_text", "cta_link"] f g

section Sections

variable {f g : Fields} {a b : Value}

lemma Company.mark (h : L.Company f g) (hθ : L.Theme v w) :
    Part.Alike L (Section.mark f v) (Section.mark g w) := by
  unfold Section.mark
  simp only [Fields.truthy_shown, h.logo]
  split
  · refine .join ?_
    simp only [List.forall₂_cons, List.forall₂_nil_left_iff, and_true]
    exact ⟨.lit rfl, h.texts.value (by decide), .lit rfl, h.texts.value (by decide), .lit rfl⟩
  · refine .join ?_
    simp only [List.forall₂_cons, List.forall₂_nil_left_iff, and_true]
    exact ⟨.lit rfl, hθ.colour (by decide), .lit rfl, h.texts.value (by decide), .lit rfl⟩

theorem header (h : Outcome.Alike L.loose L.Company a.fields b.fields) (hθ : L.Theme v w) :
    Part.Alike L (Section.header a v) (Section.header b w) := by
  unfold Section.header
  refine h.bind fun f g hfg => (hfg.mark hθ).bind fun m n hmn => Part.Alike.join ?_
  simp only [List.forall₂_cons, List.forall₂_nil_left_iff, and_true]
  exact ⟨.lit rfl, .lit rfl, .tableAttributes, .lit rfl, .lit rfl, .lit rfl, hθ.colour (by decide),
    .lit rfl, .lit rfl, .lit rfl, .lit rfl, hfg.texts.value (by decide), .lit rfl, .lit rfl,
    .markup hmn, .lit rfl, .lit rfl, .lit rfl, .lit rfl⟩

lemma heroGround (hθ : L.Theme v w) (template : Option Template) :
    Outcome.Alike L.loose (Part.Alike L) (Section.heroGround v template)
      (Section.heroGround w template) := by
  unfold Section.heroGround
  split
  · exact .ok (.lit rfl)
  · exact (hθ.shown (by decide) (by decide) (.inr rfl)).map fun _ _ => .value

theorem hero {content content' : Value} (h : Outcome.Alike L.loose L.Hero a.fields b.fields)
    (hθ : L.Theme v w) (hc : L.same content content') (template : Option Template) :
    Part.Alike L (Section.hero a v template content) (Section.hero b w template content') := by
  have hbutton := (hθ.shown (a := "primary_color") (b := "primary_color") (by decide) (by decide)
    (.inr rfl)).bind fun _ _ hvw => buttonStyle hvw .regular
  unfold Section.hero
  refine h.bind fun f g hfg => ?_
  rw [← hfg.visible]
  split
  · next hshow =>
      have ht := hfg.texts hshow
      refine (heroGround hθ template).bind fun m n hmn => Part.Alike.join ?_
      unfold Section.heroImage Section.heroPanel
      simp only [List.forall₂_cons, List.forall₂_nil_left_iff, and_true]
      refine ⟨.lit rfl, .lit rfl, .tableAttributes, .lit rfl, .join ?_, .join ?_, .lit rfl⟩
      · simp only [List.forall₂_cons, List.forall₂_nil_left_iff, and_true]
        exact ⟨.lit rfl, .lit rfl, .lit rfl, ht.value (by decide), .lit rfl, .lit rfl,
          ht.value (by decide), .lit rfl, ht.value (by decide), .lit rfl, .value hc, .lit rfl,
          .lit rfl, .value hc, .lit rfl, .lit rfl, .lit rfl, .lit rfl⟩
      · simp only [List.forall₂_cons, List.forall₂_nil_left_iff, and_true]
        exact ⟨.lit rfl, .lit rfl, hmn, .lit rfl, .lit rfl, .lit rfl, .lit rfl,
          hθ.colour (by decide), .lit rfl, ht.value (by decide), .lit rfl, .lit rfl, .lit rfl,
          .lit rfl, ht.value (by decide), .lit rfl, .lit rfl, ht.value (by decide), .lit rfl,
          hbutton, .lit rfl, ht.value (by decide), .lit rfl, .lit rfl, .lit rfl⟩
  · exact Part.Alike.empty

/-- A field that is read where it shows, in a section that should be a mapping. -/
lemma sectionField {name : String} {R : Fields → Fields → Prop}
    (h : Outcome.Alike L.loose R a.fields b.fields)
    (hR : ∀ f g, R f g → L.same (f.shown name) (g.shown name)) :
    Part.Alike L (a.shown name >>= Part.ofValue) (b.shown name >>= Part.ofValue) :=
  .read <| Outcome.Alike.bind h fun f g hfg => .ok (hR f g hfg)

theorem footer {foot foot' : Value} (h : Outcome.Alike L.loose L.Company a.fields b.fields)
    (hf : Outcome.Alike L.loose (L.Names ["address", "text"]) foot.fields foot'.fields)
    (hθ : L.Theme v w) : Part.Alike L (Section.footer a foot v) (Section.footer b foot' w) := by
  unfold Section.footer
  refine .join ?_
  simp only [List.forall₂_cons, List.forall₂_nil_left_iff, and_true]
  exact ⟨.lit rfl, .lit rfl, .tableAttributes, .lit rfl, .lit rfl, .lit rfl, .lit rfl, .lit rfl,
    .lit rfl, .lit rfl, .lit rfl, sectionField h fun _ _ hfg => hfg.texts _ (by decide), .lit rfl,
    .lit rfl, sectionField hf fun _ _ hfg => hfg _ (by decide), .lit rfl, .lit rfl,
    sectionField hf fun _ _ hfg => hfg _ (by decide), .lit rfl, .lit rfl, .lit rfl,
    sectionField h fun _ _ hfg => hfg.texts _ (by decide), .lit rfl, hθ.colour (by decide),
    .lit rfl, .lit rfl, .lit rfl, .lit rfl, .lit rfl⟩

/-- The titles of documents whose heroes and companies are mappings. -/
lemma title {r r' hero hero' company company' : Fields}
    (hr : r.look "hero" = .map hero) (hr' : r'.look "hero" = .map hero')
    (hc : r.look "company" = .map company) (hc' : r'.look "company" = .map company')
    (hh : L.Hero hero hero') (hcompany : L.Company company company') :
    Outcome.Alike L.loose L.same (Section.title (.map r)) (Section.title (.map r')) := by
  simp only [Section.title, Value.fields_map, ok_bind, hr, hr', hc, hc', Value.fieldsOrNone_map,
    ← hh.visible]
  split
  · next hshow => exact .ok (hh.texts hshow _ (by decide))
  · exact .ok (hcompany.texts _ (by decide))

end Sections

/-! ## The frame -/

lemma opening {title title' ground ground' : Except Fault Value} {content content' : Value}
    (ht : Outcome.Alike L.loose L.same title title') (hc : L.same content content')
    (hg : Outcome.Alike L.loose L.same ground ground') :
    Part.Alike L (Document.opening title content ground)
      (Document.opening title' content' ground') := by
  unfold Document.opening
  refine .join ?_
  simp only [List.forall₂_cons, List.forall₂_nil_left_iff, and_true]
  exact ⟨.lit rfl, .lit rfl, .lit rfl, .read ht, .lit rfl, .lit rfl, .lit rfl, .lit rfl, .lit rfl,
    .lit rfl, .lit rfl, .lit rfl, .lit rfl, .lit rfl, .lit rfl, .lit rfl, .value hc, .lit rfl,
    .lit rfl, .value hc, .lit rfl, .lit rfl, .value hc, .lit rfl, .read hg, .lit rfl, .value hc,
    .lit rfl, .lit rfl⟩

lemma productsPart {m n : Markup} (h : Markup.Alike L m n) :
    Part.Alike L (Document.productsPart m) (Document.productsPart n) := by
  unfold Document.productsPart
  refine .join ?_
  simp only [List.forall₂_cons, List.forall₂_nil_left_iff, and_true]
  exact ⟨.lit rfl, .lit rfl, .tableAttributes, .lit rfl, .lit rfl, .lit rfl, .lit rfl, .markup h,
    .lit rfl, .lit rfl, .lit rfl⟩

lemma closing : Part.Alike L Document.closing Document.closing := by
  unfold Document.closing
  refine .join ?_
  simp only [List.forall₂_cons, List.forall₂_nil_left_iff, and_true]
  exact ⟨.lit rfl, .lit rfl, .lit rfl⟩

/-! ## Whole documents -/

/-- Complete configurations whose documents are alike. -/
structure Config (L : Likeness) (r r' : Fields) : Prop where
  template : Outcome.Alike L.loose (· = ·) (Template.ofValue (r.look "template")).outcome
    (Template.ofValue (r'.look "template")).outcome
  layout : Outcome.Alike L.loose L.Layout (Layout.ofValue (r.look "layout"))
    (Layout.ofValue (r'.look "layout"))
  content : Outcome.Alike L.loose L.Content ((r.look "layout").field "content_width")
    ((r'.look "layout").field "content_width")
  size : Outcome.Alike L.loose (fun v w => L.loose ∨ v.isShowable = w.isShowable)
    ((r.look "layout").field "product_image_size") ((r'.look "layout").field "product_image_size")
  theme : L.Theme (r.look "theme") (r'.look "theme")
  ground : Outcome.Alike L.loose L.same ((r.look "theme").field "background_color")
    ((r'.look "theme").field "background_color")
  company : Outcome.Alike L.loose L.Company (r.look "company").fields (r'.look "company").fields
  hero : Outcome.Alike L.loose L.Hero (r.look "hero").fields (r'.look "hero").fields
  footer : Outcome.Alike L.loose (L.Names ["address", "text"]) (r.look "footer").fields
    (r'.look "footer").fields
  products : ∃ ps qs, r.look "products" = .list (ps.map .map) ∧
    r'.look "products" = .list (qs.map .map) ∧ List.Forall₂ L.Item ps qs

/-- **The documents of configurations that are alike** are alike, or end in the same fault. -/
theorem Config.document {r r' : Fields} (h : L.Config r r') :
    Outcome.Alike L.loose (Markup.Alike L) (Document.ofResolved r).outcome
      (Document.ofResolved r').outcome := by
  obtain ⟨ps, qs, hps, hqs, hitems⟩ := h.products
  have hcount : Outcome.Alike L.loose (fun _ _ => True) (r.look "products").count
      (r'.look "products").count := by
    rw [hps, hqs]
    exact .ok trivial
  rw [Document.outcome_ofResolved, Document.outcome_ofResolved]
  refine h.template.bind fun template _ ht => ?_
  subst ht
  refine h.content.bind fun content content' hc => h.size.bind fun size size' hs => ?_
  refine hcount.bind fun _ _ _ => (Part.Alike.written (L.shows hc.1)).bind fun _ _ _ => ?_
  refine (Part.Alike.written hs).bind fun _ _ _ => ?_
  refine (Likeness.header h.company h.theme).bind_of fun m m' hm hm' hmm => ?_
  refine (Likeness.hero h.hero h.theme hc.1 _).bind_of fun n n' hn hn' hnn => ?_
  refine hcount.bind fun _ _ _ => ?_
  have hlisting : Part.Alike L
      (Listing.ofTemplate template (r.look "products") (r.look "layout") (r.look "theme"))
      (Listing.ofTemplate template (r'.look "products") (r'.look "layout") (r'.look "theme")) := by
    rw [hps, hqs]
    exact ofTemplate template h.layout h.theme hitems
  refine hlisting.bind fun l l' hll => ?_
  refine (Likeness.footer h.company h.footer h.theme).bind fun k k' hkk => ?_
  -- the title is read last, when hero and company are known to be mappings
  obtain ⟨company, hcompany⟩ := Section.fields_of_header hm
  obtain ⟨company', hcompany'⟩ := Section.fields_of_header hm'
  obtain ⟨hero, hhero⟩ := Section.fields_of_hero hn
  obtain ⟨hero', hhero'⟩ := Section.fields_of_hero hn'
  have htitle := Likeness.title hhero hhero' hcompany hcompany'
    (h.hero.results (Value.fields_eq_ok.mpr hhero) (Value.fields_eq_ok.mpr hhero'))
    (h.company.results (Value.fields_eq_ok.mpr hcompany) (Value.fields_eq_ok.mpr hcompany'))
  refine Part.Alike.join ?_
  simp only [List.forall₂_cons, List.forall₂_nil_left_iff, and_true]
  exact ⟨opening htitle hc.1 h.ground, .lit rfl, .markup hmm, .lit rfl, .markup hnn,
    productsPart hll, .lit rfl, .markup hkk, closing⟩

end Likeness

end Mailshot
