import Mailshot.Proofs.Assembly
import Mailshot.Proofs.Display
import Mailshot.Proofs.Images.Product

/-!
# The images of a document

A document has the logo of the company, the image of a shown hero, and the images of its products, in
this order and no others.

* `Listing.images_ofTemplate` — the images of the products under a template.
* **`Document.Assembly.images`** — the images of a whole document.
* **`Document.Assembly.container`** — the second table of a document is the inner container, as wide
  as the content.
-/

namespace Mailshot

open Text Text.Entity

/-! ## Markups one behind the other -/

namespace Markup.Yields

variable {α : Type} {f : Tag → Option α} {m n : Markup} {as bs : List α}

lemma append (hm : Yields f m as) (hn : Yields f n bs) : Yields f (m ++ n) (as ++ bs) := by
  unfold Yields at hm hn ⊢
  rw [signs_append, collect_append, hm, hn]

/-- Texts of the compiler without anything to be found. -/
lemma of_steps {ps : List Part} (h : Steps f ps none none []) (hm : Part.join ps = .ok m) :
    Yields f m [] := h.yields m hm

/-- A markup between two texts of the compiler. -/
lemma between {front back : Markup} (hfront : Yields f front []) (hm : Yields f m as)
    (hback : Yields f back []) : Yields f (front ++ m ++ back) as := by
  have h := (hfront.append hm).append hback
  rwa [List.nil_append, List.append_nil] at h

end Markup.Yields

/-! ## Products under a template -/

namespace Listing

/-- The number of a row does not end the comment in which it stands. -/
lemma not_mem_rowNumber (k : Nat) : '>' ∉ (toString k).toList := fun h =>
  absurd (clean_natString k '>' h) (by decide)

lemma rowOpening_images (k : Nat) : Markup.Yields Image.ofTag
    [.fixed "<!-- GRID ROW ", .fixed (toString k), .fixed " -->\n<tr>"] [] := by
  -- a comment is no image, since it begins with an exclamation mark
  have hsteps : Steps Image.ofTag
      ["<!-- GRID ROW ", Part.fixed (toString k), " -->\n<tr>"] none none [] :=
    .lit rfl <| .word (not_mem_rowNumber k) <|
      .close (by decide) (by simp [Product.ofTag_cons]) rfl <| .nil _
  exact .of_steps hsteps rfl

variable {g : Fields → List Image}

lemma cell_images {item : Markup} {as : List Image} (h : Markup.Yields Image.ofTag item as) :
    Markup.Yields Image.ofTag (cell item) as := by
  have hfront : Steps Image.ofTag
      ["<td width=\"50%\" valign=\"top\" style=\"padding: 10px;\">"] none none [] :=
    .lit rfl <| .nil _
  have hback : Steps Image.ofTag ["\n</td>"] none none [] := .lit rfl <| .nil _
  exact (Markup.Yields.of_steps hfront rfl).between h (Markup.Yields.of_steps hback rfl)

lemma filler_images : Markup.Yields Image.ofTag filler [] := by
  have hfiller : Steps Image.ofTag ["<!-- GRID FILLER --><td width=\"50%\"></td>"] none none [] :=
    .lit rfl <| .nil _
  exact .of_steps hfiller rfl

lemma row_images (k : Nat) {left right : Markup} {as bs : List Image}
    (hl : Markup.Yields Image.ofTag left as) (hr : Markup.Yields Image.ofTag right bs) :
    Markup.Yields Image.ofTag (row k left right) (as ++ bs) := by
  have hback : Steps Image.ofTag ["</tr>"] none none [] := .lit rfl <| .nil _
  have h := ((rowOpening_images k).append hl).append hr
  rw [List.nil_append] at h
  exact List.append_nil (as ++ bs) ▸ h.append (.of_steps hback rfl)

/-- The rows of a grid hold the images of its items, in order. -/
lemma rows_images : ∀ (k : Nat) {ps : List Fields} {items : List Markup},
    List.Forall₂ (fun p item => Markup.Yields Image.ofTag item (g p)) ps items →
      Markup.Yields Image.ofTag (rows k items).flatten (ps.flatMap g)
  | _, _, _, .nil => rfl
  | k, [p], _, .cons h .nil => by
      have hrow := row_images k (cell_images h) filler_images
      simpa [rows] using hrow
  | k, p :: q :: ps, _, .cons h (.cons h' hrest) => by
      have hrow := (row_images k (cell_images h) (cell_images h')).append (rows_images (k + 1) hrest)
      simpa [rows] using hrow

/-- And so do the rows of a list or a stack, each around one item. -/
lemma map_images {around : Markup → Markup}
    (ha : ∀ {item as}, Markup.Yields Image.ofTag item as → Markup.Yields Image.ofTag (around item) as)
    {ps : List Fields} {items : List Markup}
    (h : List.Forall₂ (fun p item => Markup.Yields Image.ofTag item (g p)) ps items) :
    Markup.Yields Image.ofTag (items.map around).flatten (ps.flatMap g) := by
  induction h with
  | nil => rfl
  | cons h _ ih => exact (ha h).append ih

lemma listRow_images {item : Markup} {as : List Image} (h : Markup.Yields Image.ofTag item as) :
    Markup.Yields Image.ofTag (listRow item) as := by
  have hfront : Steps Image.ofTag ["<!-- LIST ITEM -->\n<tr><td style=\"padding: 15px 0; ",
      "border-bottom: 1px solid ", Palette.border, ";\">"] none none [] :=
    .lit rfl <| .lit rfl <| .lit rfl <| .lit rfl <| .nil _
  have hback : Steps Image.ofTag ["\n</td></tr>"] none none [] := .lit rfl <| .nil _
  exact (Markup.Yields.of_steps hfront rfl).between h (Markup.Yields.of_steps hback rfl)

lemma stackRow_images {item : Markup} {as : List Image} (h : Markup.Yields Image.ofTag item as) :
    Markup.Yields Image.ofTag (stackRow item) as := by
  have hfront : Steps Image.ofTag
      ["<!-- BANNER ITEM -->\n<tr><td style=\"padding-bottom: 20px;\">"] none none [] :=
    .lit rfl <| .nil _
  have hback : Steps Image.ofTag ["\n</td></tr>"] none none [] := .lit rfl <| .nil _
  exact (Markup.Yields.of_steps hfront rfl).between h (Markup.Yields.of_steps hback rfl)

lemma table_images {rows : List Markup} {as : List Image}
    (h : Markup.Yields Image.ofTag rows.flatten as) : Part.Yields Image.ofTag (table rows) as := by
  unfold table
  exact List.append_nil as ▸ Steps.yields (.lit rfl <| .lit rfl <| .lit rfl <| .part h.made <|
    .lit rfl <| .nil _)

/-- The items of products that are all mappings, with the images that their form has. -/
lemma items_images {form : Fields → Part} (hf : ∀ p, Part.Yields Image.ofTag (form p) (g p))
    {ps : List Fields} {items : List Markup}
    (h : ((ps.map Value.map).mapM fun product => product.fields >>= form) = .ok items) :
    List.Forall₂ (fun p item => Markup.Yields Image.ofTag item (g p)) ps items := by
  have hall := mapM_eq_ok.mp h
  rw [List.forall₂_map_left_iff] at hall
  exact hall.imp fun p item hitem => hf p item hitem

variable (θ : Value) (tier : Tier) (n : Int) (full : Value) (p : Fields)

lemma gridItem_images :
    Part.Yields Image.ofTag (gridItem θ tier n p) (Product.images .classic n full p) := by
  unfold gridItem Product.images
  split
  · exact Product.linkedImage_images p n (.inr rfl)
  · exact Product.card_images p θ tier n

lemma listItem_images :
    Part.Yields Image.ofTag (listItem θ n full p) (Product.images .modern n full p) := by
  unfold listItem Product.images
  split
  · exact Product.imageEntry_images p full
  · exact Product.entry_images p θ n

lemma stackItem_images :
    Part.Yields Image.ofTag (stackItem θ tier n p) (Product.images .banner n full p) := by
  unfold stackItem Product.images
  split
  · exact Product.linkedImage_images p n (.inl rfl)
  · exact Product.block_images p θ tier n

/-- **The images of the products**, under any template: their width is the one that the template
gives, and in the list the one of an item that is only an image is that of the list. -/
theorem images_ofTemplate {template : Template} {ps : List Fields} {v : Value} {layout : Layout}
    {m : Markup} (hl : Layout.ofValue v = .ok layout)
    (h : ofTemplate template (.list (ps.map .map)) v θ = .ok m) :
    ∃ n full, Width.image template layout.content layout.tier = .ok n ∧
      Width.fullBleed layout.content = .ok full ∧
      Markup.Yields Image.ofTag m (ps.flatMap (Product.images template n full)) := by
  cases template with
  | classic =>
      obtain ⟨_, hl', h⟩ := bind_eq_ok.mp h
      cases hl.symm.trans hl'
      obtain ⟨n, hn, h⟩ := bind_eq_ok.mp h
      obtain ⟨full, hfull⟩ := Width.fullBleed_of_number (Width.isSome_of_bind hn)
      obtain ⟨_, hproducts, h⟩ := bind_eq_ok.mp h
      cases hproducts
      obtain ⟨items, hitems, h⟩ := bind_eq_ok.mp h
      have hrows := rows_images 1
        (items_images (fun p => gridItem_images θ layout.tier n full p) hitems)
      exact ⟨n, full, hn, hfull, table_images hrows m h⟩
  | modern =>
      obtain ⟨_, hl', h⟩ := bind_eq_ok.mp h
      cases hl.symm.trans hl'
      obtain ⟨full, hfull, h⟩ := bind_eq_ok.mp h
      obtain ⟨_, hproducts, h⟩ := bind_eq_ok.mp h
      cases hproducts
      obtain ⟨items, hitems, h⟩ := bind_eq_ok.mp h
      have hrows := map_images listRow_images
        (items_images (fun p => listItem_images θ (Width.list layout.tier) full p) hitems)
      exact ⟨_, full, rfl, hfull, table_images hrows m h⟩
  | banner =>
      obtain ⟨_, hl', h⟩ := bind_eq_ok.mp h
      cases hl.symm.trans hl'
      obtain ⟨n, hn, h⟩ := bind_eq_ok.mp h
      obtain ⟨full, hfull⟩ := Width.fullBleed_of_number (Width.isSome_of_bind hn)
      obtain ⟨_, hproducts, h⟩ := bind_eq_ok.mp h
      cases hproducts
      obtain ⟨items, hitems, h⟩ := bind_eq_ok.mp h
      have hrows := map_images stackRow_images
        (items_images (fun p => stackItem_images θ layout.tier n full p) hitems)
      exact ⟨n, full, hn, hfull, table_images hrows m h⟩

end Listing

/-! ## Sections -/

namespace Section

/-- The logo of a company, if it has one. -/
def markImages (company : Fields) : List Image :=
  if (company.look "logo_url").truthy then
    [⟨some [.slot (company.shown "logo_url")], none, none, some (Sign.ofString "50px")⟩]
  else []

/-- The image of a hero, if that is shown: as wide as the content at most. -/
def heroImages (hero : Fields) (content : Value) : List Image :=
  if (hero.look "show").truthy then
    [⟨some [.slot (hero.shown "image_url")], some [.slot content], some (Sign.ofString "100%"),
      some (Sign.ofString "auto")⟩]
  else []

variable (f g : Fields) (θ : Value)

lemma mark_images : Part.Yields Image.ofTag (mark f θ) (markImages f) := by
  unfold mark markImages
  simp only [Fields.truthy_shown]
  split
  · exact Steps.yields <| .lit rfl <| .value <| .lit rfl <| .value <| .found rfl <| .nil _
  · exact Steps.yields <| .lit rfl <| .after fun _ _ => .value <| .lit rfl <| .between <|
      .lit rfl <| .nil _

/-- **The header** has the logo of the company. -/
theorem header_images : Part.Yields Image.ofTag (header (.map f) θ) (markImages f) := by
  unfold header
  refine .after fun _ hf => ?_
  cases hf
  refine .after fun mark hmark => ?_
  have hyields := (mark_images f θ mark hmark).made
  exact List.append_nil (markImages f) ▸ Steps.yields (.lit rfl <| .lit rfl <| .lit rfl <|
    .lit rfl <| .lit rfl <| .lit rfl <| .after fun _ _ => .value <| .lit rfl <| .lit rfl <|
    .lit rfl <| .lit rfl <| .value <| .lit rfl <| .lit rfl <| .part hyields <| .lit rfl <|
    .lit rfl <| .lit rfl <| .lit rfl <| .nil _)

lemma heroImage_images (content : Value) : Part.Yields Image.ofTag (heroImage f content)
    [⟨some [.slot (f.shown "image_url")], some [.slot content], some (Sign.ofString "100%"),
      some (Sign.ofString "auto")⟩] := by
  unfold heroImage
  exact Steps.yields <| .lit rfl <| .lit rfl <| .lit rfl <| .value <| .lit rfl <| .lit rfl <|
    .value <| .lit rfl <| .value <| .lit rfl <| .value <| .lit rfl <| .lit rfl <| .value <|
    .found rfl <| .lit rfl <| .lit rfl <| .lit rfl <| .nil _

/-- The ground, a colour of the compiler or one of the theme, stands inside a tag. -/
lemma inside_of_heroGround {template : Option Template} {ground : Part}
    (h : heroGround θ template = .ok ground) : ∃ ss, ground.Inside ss := by
  unfold heroGround at h
  split at h
  · cases h
    exact ⟨_, .fixed (by decide)⟩
  · obtain ⟨colour, -, rfl⟩ := map_eq_ok.mp h
    exact ⟨_, .ofValue colour⟩

/-- The panel has no images, on whatever ground. -/
lemma heroPanel_images {template : Option Template} {ground : Part}
    (h : heroGround θ template = .ok ground) :
    Part.Yields Image.ofTag (heroPanel f θ ground) [] := by
  obtain ⟨ss, hground⟩ := inside_of_heroGround θ h
  unfold heroPanel
  refine Steps.yields <| .lit rfl <| .lit rfl <| .inside hground <| .word (by decide) <|
    .word (by decide) <| .close (by decide) (by simp [Product.ofTag_cons]) rfl <| ?_
  refine .lit rfl <| .after fun _ _ => .value <| .lit rfl <|
    .between <| .lit rfl <| .lit rfl <| .lit rfl <| .lit rfl <| .between <| .lit rfl <| .lit rfl <|
    .value <| .lit rfl <| .after fun colour _ => ?_
  -- the button
  obtain ⟨ss, hstyle⟩ := Product.buttonStyle_inside colour .regular
  exact .inside hstyle <| .close (by decide) (by simp [Product.ofTag_cons]) rfl <| .between <|
    .lit rfl <| .lit rfl <| .lit rfl <| .nil _

/-- **A hero** has its image, if it is shown. -/
theorem hero_images (template : Option Template) (content : Value) :
    Part.Yields Image.ofTag (hero (.map f) θ template content) (heroImages f content) := by
  unfold hero
  refine .after fun _ hf => ?_
  cases hf
  unfold heroImages
  split
  · refine .after fun ground hground => ?_
    exact Steps.yields <| .lit rfl <| .lit rfl <| .lit rfl <| .lit rfl <|
      .part (heroImage_images f content) <| .plain (heroPanel_images f θ hground) <| .lit rfl <|
      .nil _
  · exact Steps.yields (.nil _)

/-- **The footer** has no images. -/
theorem footer_images (company foot : Value) : Part.Yields Image.ofTag (footer company foot θ) [] := by
  unfold footer
  exact Steps.yields <| .lit rfl <| .lit rfl <| .lit rfl <| .lit rfl <| .lit rfl <| .lit rfl <|
    .lit rfl <| .lit rfl <| .lit rfl <| .lit rfl <| .lit rfl <| .after fun _ _ => .between <|
    .lit rfl <| .lit rfl <| .after fun _ _ => .between <| .lit rfl <| .lit rfl <|
    .after fun _ _ => .between <| .lit rfl <| .lit rfl <| .lit rfl <| .after fun _ _ => .value <|
    .lit rfl <| .after fun _ _ => .value <| .lit rfl <| .lit rfl <| .lit rfl <| .lit rfl <|
    .lit rfl <| .nil _

end Section

/-! ## The frame -/

/-- What a table says of its width: as an attribute, and as a style that bounds it and gives it. -/
structure Frame where
  width : Option (List Sign)
  maxWidth : Option (List Sign)
  styleWidth : Option (List Sign)

/-- The table that a tag is. -/
def Frame.ofTag (tag : Tag) : Option Frame :=
  if tag.isNamed "table" then
    some ⟨tag.valueOf "width", tag.declared "max-width", tag.declared "width"⟩
  else none

/-- The tables of a markup, in order. -/
def Markup.frames (m : Markup) : List Frame := (collect Frame.ofTag none (signs m)).2

/-- The table over the whole width that holds the container. -/
def Frame.wrapper : Frame := ⟨some (Sign.ofString "100%"), none, none⟩

/-- A value as a style declares it in pixels. -/
def Sign.pxOf (v : Value) : List Sign := .slot v :: ofString "px"

/-- The container of the content. -/
def Frame.container (content : Value) : Frame :=
  ⟨some [.slot content], some (Sign.pxOf content), some (Sign.pxOf content)⟩

namespace Document

variable (title : Except Fault Value) (content : Value) (ground : Except Fault Value)

lemma opening_images : Part.Yields Image.ofTag (opening title content ground) [] := by
  unfold opening
  exact Steps.yields <| .lit rfl <| .lit rfl <| .lit rfl <| .after fun _ _ => .between <| .lit rfl <|
    .lit rfl <| .lit rfl <| .lit rfl <| .lit rfl <| .lit rfl <| .lit rfl <| .lit rfl <| .lit rfl <|
    .lit rfl <| .lit rfl <| .lit rfl <| .value <| .lit rfl <| .lit rfl <| .value <| .lit rfl <|
    .lit rfl <| .value <| .lit rfl <| .after fun _ _ => .value <| .lit rfl <| .value <| .lit rfl <|
    .lit rfl <| .nil _

lemma opening_frames : Part.Yields Frame.ofTag (opening title content ground)
    [Frame.wrapper, Frame.container content] := by
  unfold opening
  exact Steps.yields <| .lit rfl <| .lit rfl <| .lit rfl <| .after fun _ _ => .between <| .lit rfl <|
    .lit rfl <| .lit rfl <| .lit rfl <| .lit rfl <| .lit rfl <| .lit rfl <| .lit rfl <| .lit rfl <|
    .found rfl <| .lit rfl <| .lit rfl <| .value <| .lit rfl <| .lit rfl <| .value <| .lit rfl <|
    .lit rfl <| .value <| .lit rfl <| .after fun _ _ => .value <| .lit rfl <| .value <| .found rfl <|
    .lit rfl <| .nil _

lemma productsPart_images {m : Markup} {as : List Image} (h : Markup.Yields Image.ofTag m as) :
    Part.Yields Image.ofTag (productsPart m) as := by
  unfold productsPart
  exact List.append_nil as ▸ Steps.yields (.lit rfl <| .lit rfl <| .lit rfl <| .lit rfl <|
    .lit rfl <| .lit rfl <| .lit rfl <| .part h.made <| .lit rfl <| .lit rfl <| .lit rfl <| .nil _)

lemma closing_images : Part.Yields Image.ofTag closing [] := by
  unfold closing
  exact Steps.yields <| .lit rfl <| .lit rfl <| .lit rfl <| .nil _

end Document

/-! ## Whole documents -/

/-- The images of a document: those of the company, of the hero and of the products. -/
def Document.imagesOf (config : Fields) (template : Template) (content : Value) (width : Int)
    (full : Value) : List Image :=
  Section.markImages (Config.sectionFields config "company") ++
    (Section.heroImages (Config.sectionFields config "hero") content ++
      (Config.listed config).flatMap (Product.images template width full))

namespace Document.Assembly

variable {r : Fields} {m : Markup}

/-- **The images of a document.** -/
theorem images (a : Assembly r m) (hp : r.look "products" = .list ((Config.listed r).map .map)) :
    ∃ n full, Width.image a.template a.content (Tier.ofValue a.size) = .ok n ∧
      Width.fullBleed a.content = .ok full ∧
      m.images = imagesOf r a.template a.content n full := by
  obtain ⟨company, hcompany⟩ := Section.fields_of_header a.ofHeader
  obtain ⟨hero, hhero⟩ := Section.fields_of_hero a.ofHero
  have hheader := a.ofHeader
  have hlisting := a.ofListing
  have hherom := a.ofHero
  rw [hcompany] at hheader
  rw [hhero] at hherom
  rw [hp] at hlisting
  have hl := Layout.ofValue_of_fields a.ofContent a.ofSize
  obtain ⟨n, full, hn, hfull, hproducts⟩ := Listing.images_ofTemplate _ hl hlisting
  refine ⟨n, full, hn, hfull, ?_⟩
  have hsteps : Part.Yields Image.ofTag
      (Part.join [opening (Section.title (.map r)) a.content
        ((r.look "theme").field "background_color"), "\n", a.header, "\n", a.hero,
        productsPart a.listing, "\n", a.footer, closing])
      (Section.markImages company ++ (Section.heroImages hero a.content ++
        ((Config.listed r).flatMap (Product.images a.template n full) ++ []))) :=
    Steps.yields <| .plain (opening_images _ _ _) <| .lit rfl <|
      .part (Section.header_images company _ a.header hheader).made <| .lit rfl <|
      .part (Section.hero_images hero _ _ _ a.hero hherom).made <|
      .part (productsPart_images hproducts) <| .lit rfl <|
      .plain (Section.footer_images _ _ _ a.footer a.ofFooter).made <| .plain closing_images <| .nil _
  have hread := hsteps m a.joined
  unfold Markup.Yields at hread
  rw [List.append_nil] at hread
  rw [Markup.images, hread, imagesOf, Config.sectionFields_of_look hcompany,
    Config.sectionFields_of_look hhero]

/-- **The container of a document** is as wide as the content. -/
theorem container (a : Assembly r m) :
    ∃ rest, m.frames = Frame.wrapper :: Frame.container a.content :: rest := by
  obtain ⟨front, back, hfront, -, rfl⟩ := join_cons_eq_ok.mp a.joined
  have hopening := opening_frames _ _ _ front hfront
  unfold Markup.Yields at hopening
  refine ⟨(collect Frame.ofTag none (Markup.signs back)).2, ?_⟩
  rw [Markup.frames, Markup.signs_append, collect_append, hopening]
  rfl

end Document.Assembly

end Mailshot
