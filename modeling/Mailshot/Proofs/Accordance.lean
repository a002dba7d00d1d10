import Mailshot.Proofs.Delimiters
import Mailshot.Proofs.Isolation
import Mailshot.Proofs.Outline
import Mailshot.Proofs.PlainText

/-!
# What both versions say

The plain-text version and the document are written by rules of their own: each decides for itself
when a price, a hero or the words of a product are left out.  They agree all the same.

* `Part.Contains` — a part that has another one in it as a whole.
* `Product.paragraph`, `Product.Priced` — the block in which an item has its price, as the plain-text
  version has it.  **`Listing.priced_form`** finds it in the items of every template.
* `Section.shown_hero`, `Section.shown_footer`, `PlainText.shown_entry` — what is shown in the plain-text
  version is shown in the parts of the document.
* **`Document.shown_outline`** — and so in the document.
* **`Document.accordance`** — both versions of a campaign.
-/

namespace Mailshot

open Text

/-! ## Parts inside parts -/

/-- A part that, wherever it is made, has another one in it. -/
def Part.Contains (p q : Part) : Prop := ∀ m, p = .ok m → ∃ n, q = .ok n ∧ n <:+: m

namespace Part.Contains

variable {p q s : Part} {ps : List Part} {v : Value} {m : Markup}

lemma trans (h : Contains p q) (h' : Contains q s) : Contains p s := by
  intro m hm
  obtain ⟨n, hn, hinfix⟩ := h m hm
  obtain ⟨k, hk, hinfix'⟩ := h' n hn
  exact ⟨k, hk, hinfix'.trans hinfix⟩

/-- Parts that are joined are in the whole. -/
lemma part (n : Nat) (h : ps[n]? = some q) : Contains (Part.join ps) q := by
  intro m hm
  induction ps generalizing n m with
  | nil => cases h
  | cons p ps ih =>
      obtain ⟨front, back, hfront, hback, rfl⟩ := join_cons_eq_ok.mp hm
      cases n with
      | zero =>
          cases h
          exact ⟨front, hfront, (List.prefix_append _ _).isInfix⟩
      | succ n =>
          obtain ⟨k, hk, hinfix⟩ := ih n (by simpa using h) back hback
          exact ⟨k, hk, hinfix.trans (List.suffix_append _ _).isInfix⟩

/-- What is in a part that is made from what a step gives. -/
lemma bind {α : Type} {x : Except Fault α} {part : α → Part}
    (h : ∀ a, x = .ok a → Contains (part a) q) : Contains (x >>= part) q := by
  intro m hm
  obtain ⟨a, ha, hm⟩ := bind_eq_ok.mp hm
  exact h a ha m hm

end Part.Contains

/-- Parts of one piece each make a markup of these pieces. -/
lemma Part.eq_of_join {ps : List Part} {pieces m : Markup}
    (h : List.Forall₂ (fun p piece => ∀ n, p = .ok n → n = [piece]) ps pieces)
    (hm : Part.join ps = .ok m) : m = pieces := by
  induction h generalizing m with
  | nil => exact (Except.ok.inj hm).symm
  | cons hp _ ih =>
      obtain ⟨front, back, hfront, hback, rfl⟩ := join_cons_eq_ok.mp hm
      rw [hp front hfront, ih hback]
      rfl

namespace Markup

variable {m n : Markup} {v : Value}

lemma text_within (h : n <:+: m) : text n <:+: text m := by
  obtain ⟨front, back, rfl⟩ := h
  exact ⟨text front, text back, by simp [text]⟩

/-- A value stands in the text of a markup that has its slot. -/
lemma shows_of_mem (h : .slot v ∈ m) : v.display <:+: text m := by
  obtain ⟨front, back, rfl⟩ := List.append_of_mem h
  exact ⟨text front, text back, by simp [text, Piece.text]⟩

end Markup

/-- A part that has a value in it shows it. -/
lemma Part.Contains.shows {p : Part} {v : Value} {m : Markup}
    (h : Contains p (Part.ofValue v)) (hm : p = .ok m) : v.display <:+: Markup.text m := by
  obtain ⟨n, hn, hinfix⟩ := h m hm
  obtain rfl := ofValue_eq_ok hn
  exact Markup.shows_of_mem (List.IsInfix.subset hinfix List.mem_cons_self)

/-- And so does one that holds it between two texts. -/
lemma Part.Holds.shows {before after : String} {p : Part} {v : Value} {m : Markup}
    (h : Holds before v after p) (hm : p = .ok m) : v.display <:+: Markup.text m :=
  List.IsInfix.trans ⟨ofString before, ofString after, rfl⟩ (h m hm).2

/-! ## Prices -/

namespace Product

variable {p θ : Fields} {theme : Value} {made : Markup} {size : Text} {tier : Tier} {n : Int}

/-- The paragraph of a price. -/
def paragraph (colour : Value) (size : Text) (price : Value) : Markup := [
  .fixed "<p style=\"margin: 0 0 10px 0; color: ", .slot colour, .fixed "; font-weight: bold; ",
  .fixed "font-size: ", .slot (.text size), .fixed ";\">", .slot price, .fixed "</p>"]

/-- The price block of a product: nothing if the price is hidden, else a paragraph with the price as
the plain-text version has it. -/
structure Priced (p : Fields) (block : Markup) : Prop where
  empty_iff : block = [] ↔ (p.look "pricing_mode").isText "hidden" = true
  shown : (p.look "pricing_mode").isText "hidden" = false →
    ∃ colour size, block = paragraph colour size (PlainText.price p)

lemma pricedLine_eq_ok {colour : String} {price : Value}
    (h : pricedLine theme colour price (.text size) = .ok made) :
    ∃ θ : Fields, made = paragraph (θ.shown colour) size price := by
  obtain ⟨θ, -, h⟩ := bind_eq_ok.mp h
  refine ⟨θ, Part.eq_of_join ?_ h⟩
  have hfixed (s : String) : ∀ n, Part.fixed s = .ok n → n = [.fixed s] := fun _ h => by
    cases h
    rfl
  have hvalue (v : Value) : ∀ n, Part.ofValue v = .ok n → n = [.slot v] := fun _ => ofValue_eq_ok
  exact .cons (hfixed _) <| .cons (hvalue _) <| .cons (hfixed _) <| .cons (hfixed _) <|
    .cons (hvalue _) <| .cons (hfixed _) <| .cons (hvalue _) <| .cons (hfixed _) .nil

/-- **The price line** of a product is its price block. -/
theorem priced_of_priceLine (h : priceLine p theme (.text size) = .ok made) : Priced p made := by
  have hhidden : (p.look "pricing_mode").isText "hidden" = true ↔ Pricing.ofProduct p = .hidden :=
    ofProduct_eq_hidden.symm
  have hparagraph {colour : String} {price : Value} (hmode : Pricing.ofProduct p ≠ .hidden)
      (hprice : PlainText.price p = price)
      (h : pricedLine theme colour price (.text size) = .ok made) : Priced p made := by
    obtain ⟨θ, rfl⟩ := pricedLine_eq_ok h
    refine ⟨?_, fun _ => ⟨_, _, by rw [hprice]⟩⟩
    rw [hhidden]
    exact iff_of_false (List.cons_ne_nil _ _) hmode
  unfold priceLine at h
  split at h
  · next hmode =>
      cases h
      refine ⟨iff_of_true rfl (hhidden.mpr hmode), fun hshown => ?_⟩
      rw [hhidden.mpr hmode] at hshown
      cases hshown
  · next hmode =>
      exact hparagraph (by rw [hmode]; decide) (by simp [PlainText.price, shownPrice?, hmode]) h
  · next hmode =>
      exact hparagraph (by rw [hmode]; decide) (by simp [PlainText.price, shownPrice?, hmode]) h

/-- The form of a product that is more than an image. -/
abbrev HoldsPrice (p : Fields) (theme : Value) (item : Part) : Prop :=
  ∃ size : Text, item.Contains (priceLine p theme (.text size))

lemma holdsPrice_card : HoldsPrice p theme (card p theme tier n) := by
  unfold card
  exact ⟨_, .trans (.part 2 rfl) (.part 7 rfl)⟩

lemma holdsPrice_entry : HoldsPrice p theme (entry p theme n) := by
  unfold entry
  exact ⟨_, .trans (.part 5 rfl) (.part 5 rfl)⟩

lemma holdsPrice_block : HoldsPrice p theme (block p theme tier n) := by
  unfold block
  exact ⟨_, .trans (.part 2 rfl) (.trans (.part 8 rfl) (.part 7 rfl))⟩

/-! ## Names -/

/-- A part that shows the name of a product in its heading. -/
abbrev HoldsName (p : Fields) (item : Part) : Prop :=
  item.Contains (Part.ofValue (p.shown "name"))

lemma holdsName_heading (margin size : String) : HoldsName p (heading p theme margin size) :=
  .part 7 rfl

lemma holdsName_card : HoldsName p (card p theme tier n) := by
  unfold card
  exact .trans (.part 2 rfl) (.trans (.part 4 rfl) (holdsName_heading _ _))

lemma holdsName_entry : HoldsName p (entry p theme n) := by
  unfold entry
  exact .trans (.part 5 rfl) (.trans (.part 3 rfl) (holdsName_heading _ _))

lemma holdsName_block : HoldsName p (block p theme tier n) := by
  unfold block
  exact .trans (.part 2 rfl) (.trans (.part 6 rfl) (holdsName_heading _ _))

end Product

/-! ## The items of products -/

namespace Listing

variable {template : Template} {layout theme : Value} {item : Fields → Part} {p : Fields}

/-- **The item of a product** that is more than an image has its name and its price line, under every
template. -/
theorem contains_form (h : form template layout theme = .ok item)
    (hp : Product.isImageOnly p = false) :
    Product.HoldsName p (item p) ∧ Product.HoldsPrice p theme (item p) := by
  have himage {Q : Prop} (h : Product.isImageOnly p = true) : Q := by
    rw [hp] at h
    cases h
  exact form_cases (motive := fun item => Product.HoldsName p item ∧ Product.HoldsPrice p theme item)
    h p (fun h _ _ _ => himage h) (fun h _ => himage h)
    (fun _ _ _ => ⟨Product.holdsName_card, Product.holdsPrice_card⟩)
    (fun _ _ => ⟨Product.holdsName_entry, Product.holdsPrice_entry⟩)
    (fun _ _ _ => ⟨Product.holdsName_block, Product.holdsPrice_block⟩)

/-- **The price line of an item** is its price block, under every template. -/
theorem priced_form (h : form template layout theme = .ok item) (hp : Product.isImageOnly p = false)
    {m : Markup} (hm : item p = .ok m) : ∃ size block,
      Product.priceLine p theme (.text size) = .ok block ∧ block <:+: m ∧ Product.Priced p block := by
  obtain ⟨-, size, hprice⟩ := contains_form h hp
  obtain ⟨block, hblock, hinfix⟩ := hprice m hm
  exact ⟨size, block, hblock, hinfix, Product.priced_of_priceLine hblock⟩

end Listing

namespace PlainText

variable {template : Template} {layout theme : Value} {item : Fields → Part} {p : Fields}
  {m : Markup} {v : Value}

/-- A price that the plain-text version writes is in the item of its product. -/
lemma shown_price (h : Listing.form template layout theme = .ok item)
    (hp : Product.isImageOnly p = false) (hm : item p = .ok m) (htrue : (price p).truthy = true) :
    (price p).display <:+: Markup.text m := by
  obtain ⟨_, block, -, hinfix, hblock⟩ := Listing.priced_form h hp hm
  cases hmode : (p.look "pricing_mode").isText "hidden" with
  | true =>
      have hhidden : Product.Pricing.ofProduct p = .hidden := Product.ofProduct_eq_hidden.mpr hmode
      unfold price Product.shownPrice? at htrue
      rw [hhidden] at htrue
      cases htrue
  | false =>
      obtain ⟨colour, size, rfl⟩ := hblock.shown hmode
      refine (Markup.shows_of_mem ?_).trans (Markup.text_within hinfix)
      simp [Product.paragraph]

/-- **What the lines of a product show**, its item shows. -/
theorem shown_entry (h : Listing.form template layout theme = .ok item) (hm : item p = .ok m)
    {line : Markup} (hline : line ∈ entry p) (hv : .slot v ∈ line) :
    v.display <:+: Markup.text m := by
  obtain ⟨hlink, -, hdescription⟩ := Listing.holds_form h p
  rcases slot_entry hline hv with rfl | ⟨hp, rfl | rfl | ⟨rfl, htrue⟩⟩
  · exact hlink.shows hm
  · exact (Listing.contains_form h hp).1.shows hm
  · exact (hdescription hp).shows hm
  · exact shown_price h hp hm htrue

end PlainText

/-! ## The sections -/

namespace Section

variable {company hero footer : Fields} {theme content : Value} {template : Option Template}

/-- A shown hero has its title and its subtitle. -/
lemma contains_hero (hshow : (hero.look "show").truthy = true) :
    (Section.hero (.map hero) theme template content).Contains (Part.ofValue (hero.shown "title")) ∧
      (Section.hero (.map hero) theme template content).Contains
        (Part.ofValue (hero.shown "subtitle")) := by
  unfold Section.hero
  simp only [Value.fields_map, ok_bind, hshow, if_true]
  unfold heroPanel
  exact ⟨.bind fun _ _ => .trans (.part 5 rfl) (.part 9 rfl),
    .bind fun _ _ => .trans (.part 5 rfl) (.part 14 rfl)⟩

/-- And so it shows them, beside the text and the link of its button. -/
lemma shown_hero {m : Markup} (hshow : (hero.look "show").truthy = true)
    (hm : Section.hero (.map hero) theme template content = .ok m) :
    ∀ name ∈ ["title", "subtitle", "cta_text", "cta_link"],
      (hero.shown name).display <:+: Markup.text m := by
  simp only [List.forall_mem_cons, List.not_mem_nil, false_implies, implies_true, and_true]
  exact ⟨(contains_hero hshow).1.shows hm, (contains_hero hshow).2.shows hm,
    (holds_hero rfl hshow).2.shows hm, (holds_hero rfl hshow).1.shows hm⟩

/-- A footer shows the name and the website of the company, the address and the closing text. -/
lemma shown_footer {m : Markup} (hm : Section.footer (.map company) (.map footer) theme = .ok m) :
    (∀ name ∈ ["name", "website_url"], (company.shown name).display <:+: Markup.text m) ∧
      ∀ name ∈ ["address", "text"], (footer.shown name).display <:+: Markup.text m := by
  have hpart (n : Nat) {v : Value} {ps : List Part}
      (hps : Section.footer (.map company) (.map footer) theme = Part.join ps)
      (hn : ps[n]? = some (Part.ofValue v)) : v.display <:+: Markup.text m :=
    (Part.Contains.part n hn).shows (hps.symm.trans hm)
  simp only [List.forall_mem_cons, List.not_mem_nil, false_implies, implies_true, and_true]
  exact ⟨⟨hpart 11 rfl rfl, hpart 21 rfl rfl⟩, hpart 14 rfl rfl, hpart 17 rfl rfl⟩

end Section

/-! ## Both versions -/

namespace Document

variable {c : Value} {r : Fields} {m : Markup} {d : Text}

/-- The items of a document, in order, in its gaps. -/
theorem exists_weave (hp : r.look "products" = .list ((Config.listed r).map .map))
    (hm : (ofResolved r).outcome = .ok m) : ∃ template item items gaps,
      (Template.ofValue (r.look "template")).outcome = .ok template ∧
      Listing.form template (r.look "layout") (r.look "theme") = .ok item ∧
      (Config.listed r).mapM item = .ok items ∧ gaps.length = items.length + 1 ∧
      Markup.text m = weave gaps (items.map Markup.text) := by
  obtain ⟨F, items, products, hF, hitems, hstage, rfl⟩ := (ofResolved_eq_ok hp).mp hm
  obtain ⟨htemplate, hform⟩ := form_of_frame hF
  obtain ⟨places, _, hplaces, -, hcount, -⟩ := weave_stage F.template items
  refine ⟨F.template, F.form, items, _, htemplate, hform, hitems, ?_, (weave_frame hplaces hstage).symm⟩
  rw [List.length_map, length_enclose, length_splitOnP, hcount]

/-- **What the plain-text version shows, the document shows.** -/
theorem shown_outline (hp : r.look "products" = .list ((Config.listed r).map .map))
    (hm : (ofResolved r).outcome = .ok m) :
    ∀ line ∈ PlainText.outline r, ∀ v, .slot v ∈ line → v.display <:+: Markup.text m := by
  obtain ⟨a⟩ := assembly_of_ok hm
  obtain ⟨company, hcompany⟩ := Section.fields_of_header a.ofHeader
  obtain ⟨hero, hhero⟩ := Section.fields_of_hero a.ofHero
  obtain ⟨footer, hfooter⟩ := Section.fields_of_footer a.ofFooter
  have hofHero := a.ofHero
  have hofFooter := a.ofFooter
  rw [hhero] at hofHero
  rw [hcompany, hfooter] at hofFooter
  have hheroIn : Markup.text a.hero <:+: Markup.text m := by
    obtain ⟨n, hn, hinfix⟩ := Part.Contains.part 4 rfl m a.joined
    cases hn
    exact Markup.text_within hinfix
  have hfooterIn : Markup.text a.footer <:+: Markup.text m := by
    obtain ⟨n, hn, hinfix⟩ := Part.Contains.part 7 rfl m a.joined
    cases hn
    exact Markup.text_within hinfix
  intro line hline v hv
  have hslot := PlainText.slot_outline hline hv
  rw [Config.sectionFields_of_look hcompany, Config.sectionFields_of_look hhero,
    Config.sectionFields_of_look hfooter] at hslot
  rcases hslot with ⟨name, hname, rfl⟩ | ⟨hshow, name, hname, rfl⟩ | ⟨p, hmem, line, hline, hv⟩ |
    ⟨name, hname, rfl⟩
  · exact ((Section.shown_footer hofFooter).1 name hname).trans hfooterIn
  · exact (Section.shown_hero hshow hofHero name hname).trans hheroIn
  · obtain ⟨template, item, items, gaps, -, hform, hitems, hlength, hweave⟩ := exists_weave hp hm
    obtain ⟨n, hitem, hn⟩ := exists_of_mapM_eq_ok hitems p hmem
    rw [hweave]
    exact (PlainText.shown_entry hform hn hline hv).trans
      (weave_within (by rwa [List.length_map]) (List.mem_map_of_mem hitem))
  · exact ((Section.shown_footer hofFooter).2 name hname).trans hfooterIn

/-- **Both versions of a campaign say the same.**  Where the fields that show hold texts, the plain-text
version of a complete configuration with a document is the text of its outline, which has one entry
for each product, in order.  The document has one item for each of them, in the same order.  The price
block of an item that is more than an image is empty if the price is hidden, and otherwise a
paragraph with the price of the plain-text version, under every template.  And every value that the
plain-text version shows stands in the document. -/
theorem accordance (hc : c.isTidy = true) (hr : Config.resolve c = .ok r)
    (htexts : Config.Texts (fun v => v.text?.isSome = true) r)
    {ρ : SetOrder} (hd : (html (.map r) false ρ).outcome = .ok d) :
    PlainText.ofConfig (.map r) = .ok (PlainText.textOf (PlainText.outline r)) ∧
    (PlainText.outline r).filter PlainText.isBullet = (Config.listed r).map PlainText.bullet ∧
    (∃ template item items gaps, (Template.ofValue (r.look "template")).outcome = .ok template ∧
      Listing.form template (r.look "layout") (r.look "theme") = .ok item ∧
      (Config.listed r).mapM item = .ok items ∧ gaps.length = items.length + 1 ∧
      d = weave gaps (items.map Markup.text)) ∧
    (∀ template item p m, Listing.form template (r.look "layout") (r.look "theme") = .ok item →
      Product.isImageOnly p = false → item p = .ok m → ∃ size block,
        Product.priceLine p (r.look "theme") (.text size) = .ok block ∧ block <:+: m ∧
        Product.Priced p block) ∧
    ∀ line ∈ PlainText.outline r, ∀ v, .slot v ∈ line → v.display <:+: d := by
  have hp := Config.look_products hr
  have hrigid : Config.Texts (fun v => v.isRigid = true) r := htexts.imp fun _ => Value.isRigid_of_text
  obtain ⟨-, m, hm, rfl⟩ := (html_of_rigid (Config.resolve_resolve hc hr) hrigid).mp hd
  obtain ⟨a⟩ := assembly_of_ok hm
  have hsections := (PlainText.Written.of_assembly a hp).sections
  exact ⟨PlainText.ofConfig_outline hsections hp htexts, PlainText.filter_outline r,
    exists_weave hp hm, fun _ _ _ _ hform himage hitem => Listing.priced_form hform himage hitem,
    shown_outline hp hm⟩

/-- A hero with a button, and a product for each way to show one: at a price, at a discount, without a
price, and as an image. -/
def shop : Fields := Fields.named [
  ("template", .text "modern"),
  ("company", .map (Fields.named [("name", .text "Acme")])),
  ("hero", .map (Fields.named [("title", .text "Spring"), ("cta_link", .text "/spring")])),
  ("products", .list ([
    [("name", .text "Lamp"), ("price", .text "$20")],
    [("name", .text "Desk"), ("pricing_mode", .text "discount"), ("discount_text", .text "half")],
    [("name", .text "Sofa"), ("price", .text "$900"), ("pricing_mode", .text "hidden")],
    [("link", .text "/gift"), ("render_mode", .text "image-only")]].map fun p =>
      .map (Fields.named p)))]

theorem accordance_shop : ∃ r d, (Value.map shop).isTidy = true ∧
    Config.resolve (.map shop) = .ok r ∧ Config.Texts (fun v => v.text?.isSome = true) r ∧
    (html (.map r) false).outcome = .ok d ∧
    PlainText.ofConfig (.map r) = .ok (PlainText.textOf (PlainText.outline r)) ∧
    ((PlainText.outline r).filter PlainText.isBullet).map Markup.text =
      ["* Lamp — $20", "* Desk — half", "* Sofa", "* /gift"].map ofString ∧
    ∀ line ∈ PlainText.outline r, ∀ v, .slot v ∈ line → v.display <:+: d := by
  have htidy : (Value.map shop).isTidy = true := by decide +kernel
  obtain ⟨r, hr, htexts, hbullets, d, hd⟩ : ∃ r, Config.resolve (.map shop) = .ok r ∧
      Config.Texts (fun v => v.text?.isSome = true) r ∧
      ((Config.listed r).map PlainText.bullet).map Markup.text =
        ["* Lamp — $20", "* Desk — half", "* Sofa", "* /gift"].map ofString ∧
      ∃ d, (html (.map r) false).outcome = .ok d :=
    ⟨_, eq_ok_of_isOk (by decide +kernel), by decide +kernel, by decide +kernel, _,
      eq_ok_of_isOk (by decide +kernel)⟩
  obtain ⟨hplain, hfilter, -, -, hshown⟩ := accordance htidy hr htexts hd
  rw [← hfilter] at hbullets
  exact ⟨r, d, htidy, hr, htexts, hd, hplain, hbullets, hshown⟩

end Document

end Mailshot
