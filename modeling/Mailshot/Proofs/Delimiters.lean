import Mailshot.Proofs.Steady

/-!
# Escaped text cannot inject markup

Tags begin and end with angle brackets, and the values of attributes with quotes.  In an escaped
document all of these are the compiler's own: which of them there are, and in which order, follows
from the *outline* of the configuration, whatever its texts hold.

* `Outline` — what decides the markup: the template, whether there is a hero and a logo, and for each
  product whether it is only an image, or else has a brand, a brand's logo and a price.
* `Text.delimiters` — the angle brackets and quotes of a text, in order.
* `Likeness.showing` — values that show texts of one kind, and **`Document.slots_of_texts`** — what an
  escaped document shows is of the kind of what the texts of its configuration show.
* **`Document.delimiters_html`** — escaped documents of one outline have the same delimiters.
-/

namespace Mailshot

open Text Text.Entity

/-! ## Delimiters -/

namespace Text

/-- Whether a letter begins or ends a tag or the value of an attribute. -/
def isDelimiter : Letter → Bool
  | .char c => c = '<' || c = '>' || c = '"'
  | .half _ => false

/-- The angle brackets and the quotes of a text, in order. -/
def delimiters (t : Text) : Text := t.filter isDelimiter

/-- A text without delimiters. -/
def Undelimited (t : Text) : Prop := ∀ l ∈ t, isDelimiter l = false

lemma isMark_of_isDelimiter {l : Letter} (h : isDelimiter l = true) : isMark l = true := by
  cases l with
  | char c =>
      simp only [isDelimiter, isMark, Bool.or_eq_true] at h ⊢
      rcases h with (h | h) | h
      · exact .inl (.inl (.inr h))
      · exact .inl (.inr h)
      · exact .inr h
  | half n => exact absurd h (by simp [isDelimiter])

lemma undelimited_of_unmarked {t : Text} (h : Unmarked t) : Undelimited t := by
  intro l hl
  by_contra hd
  have hm := isMark_of_isDelimiter ((Bool.not_eq_false _).mp hd)
  rw [h l hl] at hm
  exact Bool.false_ne_true hm

/-- What escaping leaves of the marks is no delimiter. -/
lemma undelimited_escape (t : Text) : Undelimited (escape t) := by
  intro l hl
  by_contra hd
  have hd := (Bool.not_eq_false _).mp hd
  rw [mem_escape hl (isMark_of_isDelimiter hd)] at hd
  exact absurd hd (by decide)

lemma Undelimited.delimiters_eq_nil {t : Text} (h : Undelimited t) : delimiters t = [] := by
  refine List.filter_eq_nil_iff.mpr ?_
  intro l hl
  rw [h l hl]
  exact Bool.false_ne_true

end Text

/-- An escaped single value shows no delimiters. -/
lemma Value.undelimited_display_escape {v : Value} (h : v.isSingle = true) :
    Undelimited v.escape.display := by
  rw [display_escape h]
  exact undelimited_escape _

/-! ## Outlines -/

/-- What decides the markup of a product. -/
inductive ItemOutline
  /-- It is only an image. -/
  | image
  /-- Whether its brand has a name and a logo, and whether its price is hidden. -/
  | words (brand logo hidden : Bool)
deriving DecidableEq

/-- The outline of a product. -/
def ItemOutline.ofProduct (product : Fields) : ItemOutline :=
  if Product.isImageOnly product then .image
  else .words (product.look "brand_name").truthy (product.look "brand_logo_url").truthy
    ((product.look "pricing_mode").isText Product.Pricing.hidden.name)

/-- What decides the markup of a document. -/
structure Outline where
  template : Template
  logo : Bool
  hero : Bool
  items : List ItemOutline
deriving DecidableEq

/-- The outline of a complete configuration. -/
def Outline.ofConfig (config : Fields) : Outline where
  template := (Template.ofValue? (config.look "template")).getD .classic
  logo := ((Config.sectionFields config "company").look "logo_url").truthy
  hero := ((Config.sectionFields config "hero").look "show").truthy
  items := (Config.listed config).map ItemOutline.ofProduct

/-- A price is hidden in one mode only. -/
lemma Product.ofProduct_eq_hidden {p : Fields} : Pricing.ofProduct p = .hidden ↔
    (p.look "pricing_mode").isText Pricing.hidden.name = true := by
  unfold Pricing.ofProduct Value.isText
  cases (p.look "pricing_mode").text? with
  | none => simp [Pricing.all]
  | some t =>
      by_cases hs : t = ofString "standard"
      · subst hs
        decide
      by_cases hd : t = ofString "discount"
      · subst hd
        decide
      by_cases hh : t = ofString "hidden"
      · subst hh
        decide
      · simp [Pricing.all, Pricing.name, hs, hd, hh]

namespace ItemOutline

variable {p q : Fields}

/-- The outline tells whether a product is only an image. -/
lemma isImageOnly_eq (h : ofProduct p = ofProduct q) :
    Product.isImageOnly p = Product.isImageOnly q := by
  unfold ofProduct at h
  cases hp : Product.isImageOnly p <;> cases hq : Product.isImageOnly q <;> simp_all

/-- Of any other product it tells whether there is a brand, a logo and a price. -/
lemma words_eq (h : ofProduct p = ofProduct q) (hp : Product.isImageOnly p = false) :
    (p.look "brand_name").truthy = (q.look "brand_name").truthy ∧
      (p.look "brand_logo_url").truthy = (q.look "brand_logo_url").truthy ∧
      (Product.Pricing.ofProduct p = .hidden ↔ Product.Pricing.ofProduct q = .hidden) := by
  have hq := (isImageOnly_eq h).symm.trans hp
  simp only [ofProduct, hp, hq, Bool.false_eq_true, if_false, words.injEq] at h
  obtain ⟨hbrand, hlogo, hhidden⟩ := h
  refine ⟨hbrand, hlogo, ?_⟩
  rw [Product.ofProduct_eq_hidden, Product.ofProduct_eq_hidden, hhidden]

end ItemOutline

/-! ## Escaped configurations of one outline -/

namespace Likeness

/-- Values that show no delimiters; nothing else about them is compared. -/
def undelimited : Likeness where
  same v w := Undelimited v.display ∧ Undelimited w.display
  loose := True
  shows := fun _ => .inl trivial
  words := fun ht => ⟨undelimited_of_unmarked ht, undelimited_of_unmarked ht⟩
  sizes := fun hv hw _ => ⟨undelimited_of_unmarked (Value.display_unmarked_of_number hv),
    undelimited_of_unmarked (Value.display_unmarked_of_number hw)⟩

end Likeness

lemma Piece.delimiters_text {p q : Piece} (h : Piece.Alike Likeness.undelimited p q) :
    delimiters p.text = delimiters q.text := by
  have hpixels : ∀ n : Int, Undelimited (Text.ofInt n) := by
    intro n
    exact undelimited_of_unmarked (Text.ofInt_unmarked n)
  cases h with
  | fixed _ => rfl
  | varied _ hs ht =>
      exact (undelimited_of_unmarked hs).delimiters_eq_nil.trans
        (undelimited_of_unmarked ht).delimiters_eq_nil.symm
  | slot hvw => exact hvw.1.delimiters_eq_nil.trans hvw.2.delimiters_eq_nil.symm
  | pixels n => rfl
  | @resized m n _ => exact (hpixels m).delimiters_eq_nil.trans (hpixels n).delimiters_eq_nil.symm

/-- **Markups that differ in values without delimiters** have the same delimiters. -/
theorem Markup.delimiters_text {m n : Markup} (h : Markup.Alike Likeness.undelimited m n) :
    delimiters (Markup.text m) = delimiters (Markup.text n) := by
  induction h with
  | nil => rfl
  | cons hpq _ ih =>
      have hp := Piece.delimiters_text hpq
      unfold delimiters at hp ih ⊢
      simp only [Markup.text, List.flatMap_cons, List.filter_append] at ih ⊢
      rw [hp, ih]

namespace Likeness

/-- Values that show texts of one kind, among them all texts without marks; nothing else about them
is compared. -/
def showing (P : Text → Prop) (hP : ∀ {t : Text}, Unmarked t → P t) : Likeness where
  same v w := P v.display ∧ P w.display
  loose := True
  shows := fun _ => .inl trivial
  words := fun ht => ⟨hP ht, hP ht⟩
  sizes := fun hv hw _ => ⟨hP (Value.display_unmarked_of_number hv),
    hP (Value.display_unmarked_of_number hw)⟩

section Showing

variable {P : Text → Prop} {hP : ∀ {t : Text}, Unmarked t → P t} {r r' f g p q : Fields}
  {names : List String}

lemma shown_showing {a b : String} (hf : P (f.shown a).escape.display)
    (hg : P (g.shown b).escape.display) :
    (showing P hP).same (f.escape.shown a) (g.escape.shown b) := by
  rw [Fields.shown_escape, Fields.shown_escape]
  exact ⟨hf, hg⟩

lemma names_showing (hf : ∀ name ∈ names, P (f.shown name).escape.display)
    (hg : ∀ name ∈ names, P (g.shown name).escape.display) :
    (showing P hP).Names names f.escape g.escape := by
  intro name hn
  exact shown_showing (hf name hn) (hg name hn)

/-- Prices that both show or are both hidden; which of them shows, and in which colour, makes no
difference. -/
lemma priced_showing
    (h : Product.Pricing.ofProduct p = .hidden ↔ Product.Pricing.ofProduct q = .hidden)
    (hp : ∀ name ∈ Product.texts, P (p.shown name).escape.display)
    (hq : ∀ name ∈ Product.texts, P (q.shown name).escape.display) :
    Option.Rel (fun a b => ((showing P hP).loose ∨ a.1 = b.1) ∧ (showing P hP).same a.2 b.2)
      (Product.priced? p.escape) (Product.priced? q.escape) := by
  unfold Product.priced?
  rw [Product.ofProduct_escape, Product.ofProduct_escape]
  cases hpp : Product.Pricing.ofProduct p <;> cases hqq : Product.Pricing.ofProduct q <;>
    simp only [hpp, hqq, reduceCtorEq, false_iff, iff_false, not_true_eq_false] at h
  case hidden.hidden => exact .none
  all_goals
    exact .some ⟨.inl trivial, shown_showing (hp _ (by decide)) (hq _ (by decide))⟩

/-- Products of one outline. -/
lemma item_showing (h : ItemOutline.ofProduct p = ItemOutline.ofProduct q)
    (hp : ∀ name ∈ Product.texts, P (p.shown name).escape.display)
    (hq : ∀ name ∈ Product.texts, P (q.shown name).escape.display) :
    (showing P hP).Item p.escape q.escape := by
  constructor
  case imageOnly =>
    rw [Product.isImageOnly_escape, Product.isImageOnly_escape, ItemOutline.isImageOnly_eq h]
  case image =>
    refine names_showing ?_ ?_
    · intro name hn
      exact hp name (Product.mem_texts_of_image hn)
    · intro name hn
      exact hq name (Product.mem_texts_of_image hn)
  case words =>
    intro hwords
    rw [Product.isImageOnly_escape] at hwords
    obtain ⟨hbrand, hlogo, hhidden⟩ := ItemOutline.words_eq h hwords
    refine ⟨names_showing ?_ ?_, ?_, ?_, priced_showing hhidden hp hq⟩
    · intro name hn
      exact hp name (Product.mem_texts_of_words hn)
    · intro name hn
      exact hq name (Product.mem_texts_of_words hn)
    · rw [Fields.look_escape, Fields.look_escape, Value.truthy_escape, Value.truthy_escape, hbrand]
    · rw [Fields.look_escape, Fields.look_escape, Value.truthy_escape, Value.truthy_escape, hlogo]

/-- A section of two escaped configurations. -/
lemma section_showing {R : Fields → Fields → Prop} {key : String}
    (h : ∀ f g : Fields, r.look key = .map f → r'.look key = .map g → R f.escape g.escape) :
    Outcome.Alike True R (r.escape.look key).fields (r'.escape.look key).fields := by
  refine .of_results trivial fun a b ha hb => ?_
  rw [Fields.look_escape, Value.fields_escape] at ha hb
  obtain ⟨f, hf, rfl⟩ := map_eq_ok.mp ha
  obtain ⟨g, hg, rfl⟩ := map_eq_ok.mp hb
  exact h f g (Value.fields_eq_ok.mp hf) (Value.fields_eq_ok.mp hg)

/-- **Escaped configurations of one outline**, both with a document, whose texts show as texts of one
kind. -/
theorem config_showing (hP : ∀ {t : Text}, Unmarked t → P t)
    (ho : Outline.ofConfig r = Outline.ofConfig r')
    {ps qs : List Fields} (hps : r.look "products" = .list (ps.map .map))
    (hqs : r'.look "products" = .list (qs.map .map))
    (hs : Config.Texts (fun v => P v.escape.display) r)
    (hs' : Config.Texts (fun v => P v.escape.display) r') {m m' : Markup}
    (a : Document.Assembly r.escape m) (a' : Document.Assembly r'.escape m') :
    (showing P hP).Config r.escape r'.escape := by
  obtain ⟨htemplate, hlogo, hhero, hitems⟩ := Outline.mk.inj ho
  have hcontent : (showing P hP).Content a.content a'.content :=
    ⟨(showing P hP).sizes a.number a'.number (.inl trivial), .inl trivial⟩
  constructor
  case template =>
    refine .of_results trivial ?_
    intro t t' ht ht'
    rw [Template.eq_of_ofValue ht, Template.eq_of_ofValue ht', Fields.look_escape,
      Fields.look_escape, Template.ofValue?_escape, Template.ofValue?_escape]
    exact htemplate
  case layout =>
    refine .of_results trivial fun l l' hl hl' => ⟨.inl trivial, ?_⟩
    rw [Layout.content_eq hl a.ofContent, Layout.content_eq hl' a'.ofContent]
    exact hcontent
  case content =>
    rw [a.ofContent, a'.ofContent]
    exact .ok hcontent
  case size => exact .of_results trivial fun _ _ _ _ => .inl trivial
  case theme =>
    refine section_showing ?_
    intro f g hf hg a ha b hb _
    exact shown_showing (hs.shown Section.theme_texts hf ha) (hs'.shown Section.theme_texts hg hb)
  case ground =>
    refine .of_results trivial ?_
    intro a b ha hb
    rw [Fields.look_escape, Value.field_escape] at ha hb
    obtain ⟨v, hv, rfl⟩ := map_eq_ok.mp ha
    obtain ⟨w, hw, rfl⟩ := map_eq_ok.mp hb
    exact ⟨hs.field Section.theme_texts hv (by decide), hs'.field Section.theme_texts hw (by decide)⟩
  case company =>
    refine section_showing ?_
    intro f g hf hg
    refine ⟨names_showing ?_ ?_, ?_⟩
    · intro name hn
      exact hs.shown (by decide) hf hn
    · intro name hn
      exact hs'.shown (by decide) hg hn
    · simpa [Config.sectionFields, hf, hg, Value.asMap] using hlogo
  case hero =>
    refine section_showing ?_
    intro f g hf hg
    refine ⟨?_, fun _ => names_showing ?_ ?_⟩
    · simpa [Config.sectionFields, hf, hg, Value.asMap] using hhero
    · intro name hn
      exact hs.shown (by decide) hf hn
    · intro name hn
      exact hs'.shown (by decide) hg hn
  case footer =>
    refine section_showing ?_
    intro f g hf hg
    refine names_showing ?_ ?_
    · intro name hn
      exact hs.shown (by decide) hf hn
    · intro name hn
      exact hs'.shown (by decide) hg hn
  case products =>
    refine ⟨_, _, Config.look_products_escape hps, Config.look_products_escape hqs, ?_⟩
    rw [List.forall₂_map_left_iff, List.forall₂_map_right_iff, List.forall₂_iff_zip]
    rw [Config.listed_of_look hps, Config.listed_of_look hqs, ← List.forall₂_eq_eq_eq,
      List.forall₂_map_left_iff, List.forall₂_map_right_iff, List.forall₂_iff_zip] at hitems
    refine ⟨hitems.1, fun {p q} hpq => item_showing (hitems.2 hpq) ?_ ?_⟩
    · exact hs.products p (Config.listed_of_look hps ▸ (List.of_mem_zip hpq).1)
    · exact hs'.products q (Config.listed_of_look hqs ▸ (List.of_mem_zip hpq).2)

end Showing

/-- **Escaped configurations of one outline** that hold single values for texts, both with a
document. -/
theorem config_undelimited {r r' : Fields} (ho : Outline.ofConfig r = Outline.ofConfig r')
    {ps qs : List Fields} (hps : r.look "products" = .list (ps.map .map))
    (hqs : r'.look "products" = .list (qs.map .map)) (hs : Config.SingleTexts r)
    (hs' : Config.SingleTexts r') {m m' : Markup} (a : Document.Assembly r.escape m)
    (a' : Document.Assembly r'.escape m') : undelimited.Config r.escape r'.escape :=
  config_showing undelimited_of_unmarked ho hps hqs
    (hs.imp fun _ => Value.undelimited_display_escape)
    (hs'.imp fun _ => Value.undelimited_display_escape) a a'

end Likeness

/-! ## Whole documents -/

namespace Document

/-- **What an escaped document shows** is of the kind of what the escaped texts of its configuration
show. -/
theorem slots_of_texts {P : Text → Prop} (hP : ∀ {t : Text}, Unmarked t → P t) {c : Value} {r : Fields}
    {m : Markup} (hr : Config.resolve c = .ok r) (hs : Config.Texts (fun v => P v.escape.display) r)
    (hm : (ofResolved r.escape).outcome = .ok m) {v : Value} (hv : Piece.slot v ∈ m) :
    P v.display := by
  obtain ⟨a⟩ := assembly_of_ok hm
  have halike := Likeness.config_showing hP rfl (Config.look_products hr)
    (Config.look_products hr) hs hs a a
  -- the document beside itself
  have hself : Markup.Alike (Likeness.showing P hP) m m := halike.document.results hm hm
  cases List.forall₂_same.mp hself _ hv with
  | slot hsame => exact hsame.1

/-- **Escaped text cannot inject markup.**  Two escaped documents whose configurations have the same
outline have the same angle brackets and quotes in the same order, whatever the texts, addresses,
colours and widths are. -/
theorem delimiters_html {c c' : Value} {r r' : Fields} (hr : Config.resolve c = .ok r)
    (hr' : Config.resolve c' = .ok r') (hs : Config.SingleTexts r) (hs' : Config.SingleTexts r')
    (ho : Outline.ofConfig r = Outline.ofConfig r') {ρ ρ' : SetOrder} {d d' : Text}
    (hd : (html c true ρ).outcome = .ok d) (hd' : (html c' true ρ').outcome = .ok d') :
    delimiters d = delimiters d' := by
  obtain ⟨-, m, hm, rfl⟩ :=
    (html_of_rigid hr (hs.imp fun _ => Value.isRigid_of_isSingle)).mp hd
  obtain ⟨-, m', hm', rfl⟩ :=
    (html_of_rigid hr' (hs'.imp fun _ => Value.isRigid_of_isSingle)).mp hd'
  rw [if_pos rfl] at hm hm'
  obtain ⟨a⟩ := assembly_of_ok hm
  obtain ⟨a'⟩ := assembly_of_ok hm'
  have halike := Likeness.config_undelimited ho (Config.look_products hr)
    (Config.look_products hr') hs hs' a a'
  exact Markup.delimiters_text (halike.document.results hm hm')

/-- A configuration that tries to break out of every kind of place. -/
def hostile : Value := .map (Fields.named [
  ("theme", .map (Fields.named [("primary_color", .text "\"><script>")])),
  ("hero", .map (Fields.named [("show", .bool false), ("title", .text "</title><script>")])),
  ("products", .list [.map (Fields.named [
    ("name", .text "<img src=x onerror=\"alert(1)\">"),
    ("pricing_mode", .text "discount"),
    ("link", .text "\"><b>")])])])

/-- A harmless one of the same outline. -/
def harmless : Value := .map (Fields.named [
  ("layout", .map (Fields.named [("content_width", .int 320)])),
  ("hero", .map (Fields.named [("show", .null)])),
  ("products", .list [.map (Fields.named [("name", .int 7), ("link", .null)])])])

/-- The hostile configuration gains nothing. -/
theorem delimiters_html_hostile : ∃ d d', (html hostile true).outcome = .ok d ∧
    (html harmless true).outcome = .ok d' ∧ delimiters d = delimiters d' := by
  have hr := eq_ok_of_isOk (x := Config.resolve hostile) (by decide +kernel)
  have hr' := eq_ok_of_isOk (x := Config.resolve harmless) (by decide +kernel)
  have hd := eq_ok_of_isOk (x := (html hostile true).outcome) (by decide +kernel)
  have hd' := eq_ok_of_isOk (x := (html harmless true).outcome) (by decide +kernel)
  exact ⟨_, _, hd, hd', delimiters_html hr hr' (by decide +kernel) (by decide +kernel)
    (by decide +kernel) hd hd'⟩

end Document

end Mailshot
