import Mathlib.Data.Option.Basic
import Mailshot.Product.Listing
import Mailshot.Proofs.Escape
import Mailshot.Proofs.Likeness.Basic

/-!
# Products side by side

What two products must have in common for their items to be alike.

* `Likeness.Names`, `Likeness.Theme` — mappings that show the same under some names, and themes.
* `Likeness.Item` — products whose items are alike.  A product that is only an image is compared by
  its link and its image; any other also by its words, and of the prices only by the one that shows.
* `Likeness.Item.card`, `Likeness.Item.entry`, `Likeness.Item.block`, `Likeness.Item.linkedImage` —
  the items are alike, form by form.
-/

namespace Mailshot

open Text

namespace Likeness

variable {L : Likeness}

/-! ## What is compared -/

/-- Mappings that show the same under every one of some names. -/
def Names (L : Likeness) (names : List String) (f g : Fields) : Prop :=
  ∀ name ∈ names, L.same (f.shown name) (g.shown name)

/-- The colours that a theme gives. -/
def themeColours : List String :=
  ["primary_color", "background_color", "text_color", "accent_color"]

/-- Themes with the same colours; where the comparison is loose, any of their colours may stand for
any other. -/
def Colours (L : Likeness) (f g : Fields) : Prop :=
  ∀ a ∈ themeColours, ∀ b ∈ themeColours, L.loose ∨ a = b → L.same (f.shown a) (g.shown b)

/-- The same of values that should be themes. -/
def Theme (L : Likeness) (v w : Value) : Prop := Outcome.Alike L.loose L.Colours v.fields w.fields

end Likeness

/-- The colour and the price that a product shows, if it shows a price. -/
def Product.priced? (product : Fields) : Option (String × Value) :=
  match Pricing.ofProduct product with
  | .hidden => none
  | .discount => some ("accent_color", product.shown "discount_text")
  | .standard => some ("primary_color", product.shown "price")

lemma Product.priceLine_eq (product : Fields) (theme size : Value) :
    priceLine product theme size = match priced? product with
      | none => Part.join []
      | some (colour, price) => pricedLine theme colour price size := by
  unfold priceLine priced?
  cases Pricing.ofProduct product <;> rfl

lemma Product.colour_of_priced? {product : Fields} {a : String × Value}
    (h : priced? product = some a) : a.1 ∈ Likeness.themeColours := by
  unfold priced? at h
  split at h
  · exact absurd h (by simp)
  · rw [← Option.some.inj h]
    exact (by decide : "accent_color" ∈ Likeness.themeColours)
  · rw [← Option.some.inj h]
    exact (by decide : "primary_color" ∈ Likeness.themeColours)

namespace Likeness

variable {L : Likeness} {p q : Fields} {v w : Value}

/-- Products that are rendered from their fields and show the same. -/
structure Words (L : Likeness) (p q : Fields) : Prop where
  texts : L.Names ["name", "description", "brand_name", "brand_logo_url"] p q
  brand : (p.look "brand_name").truthy = (q.look "brand_name").truthy
  logo : (p.look "brand_logo_url").truthy = (q.look "brand_logo_url").truthy
  price : Option.Rel (fun a b => (L.loose ∨ a.1 = b.1) ∧ L.same a.2 b.2)
    (Product.priced? p) (Product.priced? q)

/-- Products whose items are alike. -/
structure Item (L : Likeness) (p q : Fields) : Prop where
  imageOnly : Product.isImageOnly p = Product.isImageOnly q
  image : L.Names ["link", "image_url"] p q
  words : Product.isImageOnly p = false → L.Words p q

namespace Names

variable {names : List String} {name : String}

lemma value (h : L.Names names p q) (hn : name ∈ names) :
    Part.Alike L (Part.ofValue (p.shown name)) (Part.ofValue (q.shown name)) :=
  .value (h name hn)

end Names

namespace Theme

variable {a b name : String}

lemma shown (h : L.Theme v w) (ha : a ∈ themeColours) (hb : b ∈ themeColours)
    (hab : L.loose ∨ a = b) : Outcome.Alike L.loose L.same (v.shown a) (w.shown b) :=
  Outcome.Alike.bind h fun _ _ hfg => .ok (hfg a ha b hb hab)

lemma colour (h : L.Theme v w) (hn : name ∈ themeColours) :
    Part.Alike L (v.shown name >>= Part.ofValue) (w.shown name >>= Part.ofValue) :=
  .read (h.shown hn hn (.inr rfl))

end Theme

/-! ## Parts in common -/

lemma buttonStyle (h : L.same v w) (size : ButtonSize) :
    Part.Alike L (Mailshot.buttonStyle v size) (Mailshot.buttonStyle w size) := by
  unfold Mailshot.buttonStyle
  refine .join ?_
  simp only [List.forall₂_cons, List.forall₂_nil_left_iff, and_true]
  refine ⟨.lit rfl, ?_, .lit rfl, .value h, .lit rfl, .lit rfl, .lit rfl, .lit rfl, ?_, .lit rfl⟩
  · cases size
    · exact .lit rfl
    · exact .lit rfl
  · cases size
    · exact .lit rfl
    · exact .lit rfl

variable {tier tier' : Tier} {m n : Int}

/-- A measure that depends on the tier. -/
lemma tiered {s t : String} (h : L.loose ∨ tier = tier') (hs : Unmarked (ofString s))
    (ht : Unmarked (ofString t)) :
    Part.Alike L (Part.fixed (if tier = .large then s else t))
      (Part.fixed (if tier' = .large then s else t)) := by
  rcases h with hl | rfl
  · refine .varied hl ?_ ?_
    · split <;> assumption
    · split <;> assumption
  · split
    · exact .fixed (transparent_of_unmarked hs)
    · exact .fixed (transparent_of_unmarked ht)

/-- A link and an image, as every product has them. -/
lemma linkedImage (h : L.Names ["link", "image_url"] p q) (hw : L.loose ∨ m = n) {style : String}
    (hs : Transparent style) :
    Part.Alike L (Product.linkedImage p m style) (Product.linkedImage q n style) := by
  unfold Product.linkedImage
  refine .join ?_
  simp only [List.forall₂_cons, List.forall₂_nil_left_iff, and_true]
  exact ⟨.lit rfl, h.value (by decide), .lit rfl, .lit rfl, h.value (by decide), .lit rfl,
    .pixels hw, .lit rfl, .lit rfl, .pixels hw, .lit rfl, .fixed hs, .lit rfl, .lit rfl⟩

lemma imageEntry (h : L.Names ["link", "image_url"] p q) (hw : L.same v w) :
    Part.Alike L (Product.imageEntry p v) (Product.imageEntry q w) := by
  unfold Product.imageEntry Product.field
  refine .join ?_
  simp only [List.forall₂_cons, List.forall₂_nil_left_iff, and_true]
  exact ⟨.lit rfl, h.value (by decide), .lit rfl, .lit rfl, h.value (by decide), .lit rfl,
    .value hw, .lit rfl, .lit rfl⟩

lemma framedTable {shape : String} (h : Transparent shape) :
    Part.Alike L (Product.framedTable shape) (Product.framedTable shape) := by
  unfold Product.framedTable
  refine .join ?_
  simp only [List.forall₂_cons, List.forall₂_nil_left_iff, and_true]
  exact ⟨.lit rfl, .tableAttributes, .lit rfl, .lit rfl, .lit rfl, .fixed h, .lit rfl⟩

namespace Words

lemma logo_alike (h : L.Words p q) : Part.Alike L (Product.logo p) (Product.logo q) := by
  unfold Product.logo
  simp only [Fields.truthy_shown, h.logo]
  split
  · refine .join ?_
    simp only [List.forall₂_cons, List.forall₂_nil_left_iff, and_true]
    exact ⟨.lit rfl, h.texts.value (by decide), .lit rfl, h.texts.value (by decide), .lit rfl,
      .lit rfl⟩
  · exact .empty

lemma brandName_alike (h : L.Words p q) :
    Part.Alike L (Product.brandName p) (Product.brandName q) := by
  unfold Product.brandName
  simp only [Fields.truthy_shown, h.brand]
  split
  · refine .join ?_
    simp only [List.forall₂_cons, List.forall₂_nil_left_iff, and_true]
    exact ⟨.lit rfl, .lit rfl, .lit rfl, .lit rfl, .lit rfl, h.texts.value (by decide), .lit rfl⟩
  · exact .empty

lemma hasBrand_eq (h : L.Words p q) : Product.hasBrand p = Product.hasBrand q := by
  unfold Product.hasBrand
  rw [h.brand, h.logo]

lemma badge (h : L.Words p q) {align : Text} (ha : Unmarked align) :
    Part.Alike L (Product.badge p (.text align)) (Product.badge q (.text align)) := by
  unfold Product.badge
  rw [h.hasBrand_eq]
  split
  · refine .join ?_
    simp only [List.forall₂_cons, List.forall₂_nil_left_iff, and_true]
    refine ⟨.lit rfl, .lit rfl, ?_, .lit rfl, .value (L.words ha), .lit rfl, h.logo_alike,
      h.brandName_alike, .lit rfl⟩
    split
    · exact .lit rfl
    · exact .lit rfl
  · exact .empty

lemma brandRow (h : L.Words p q) : Part.Alike L (Product.brandRow p) (Product.brandRow q) := by
  unfold Product.brandRow
  rw [h.hasBrand_eq]
  split
  · refine .join ?_
    simp only [List.forall₂_cons, List.forall₂_nil_left_iff, and_true]
    exact ⟨.lit rfl, .tableAttributes, .lit rfl, .lit rfl, h.badge (by decide), .lit rfl⟩
  · exact .empty

lemma heading (h : L.Words p q) (hθ : L.Theme v w) {margin size : String}
    (hm : Transparent margin) (hs : Transparent size) :
    Part.Alike L (Product.heading p v margin size) (Product.heading q w margin size) := by
  unfold Product.heading Product.field
  refine .join ?_
  simp only [List.forall₂_cons, List.forall₂_nil_left_iff, and_true]
  exact ⟨.lit rfl, .fixed hm, .lit rfl, hθ.colour (by decide), .lit rfl, .fixed hs, .lit rfl,
    h.texts.value (by decide), .lit rfl⟩

lemma description (h : L.Words p q) {margin size : String} (hm : Transparent margin)
    (hs : Transparent size) :
    Part.Alike L (Product.description p margin size) (Product.description q margin size) := by
  unfold Product.description Product.field
  refine .join ?_
  simp only [List.forall₂_cons, List.forall₂_nil_left_iff, and_true]
  exact ⟨.lit rfl, .fixed hm, .lit rfl, .lit rfl, .lit rfl, .fixed hs, .lit rfl,
    h.texts.value (by decide), .lit rfl⟩

lemma image (h : L.Words p q) (hi : L.Names ["link", "image_url"] p q) (hw : L.loose ∨ m = n)
    {shape shape' : Part} (hs : Part.Alike L shape shape') :
    Part.Alike L (Product.image p m shape) (Product.image q n shape') := by
  unfold Product.image Product.field
  refine .join ?_
  simp only [List.forall₂_cons, List.forall₂_nil_left_iff, and_true]
  exact ⟨.lit rfl, hi.value (by decide), .lit rfl, .lit rfl, hi.value (by decide), .lit rfl,
    h.texts.value (by decide), .lit rfl, .pixels hw, .lit rfl, .lit rfl, hs, .lit rfl, .lit rfl⟩

/-- The line of a price, in whichever mode. -/
lemma priceLine (h : L.Words p q) (hθ : L.Theme v w) {size : Text} (hs : Unmarked size) :
    Part.Alike L (Product.priceLine p v (.text size)) (Product.priceLine q w (.text size)) := by
  rw [Product.priceLine_eq, Product.priceLine_eq]
  have hp := h.price
  generalize hpp : Product.priced? p = a at hp
  generalize hqq : Product.priced? q = b at hp
  cases hp with
  | none => exact .empty
  | @some a b hab =>
      unfold Product.pricedLine
      refine Outcome.Alike.bind hθ fun f g hfg => Part.Alike.join ?_
      simp only [List.forall₂_cons, List.forall₂_nil_left_iff, and_true]
      exact ⟨.lit rfl, .value (hfg _ (Product.colour_of_priced? hpp) _
        (Product.colour_of_priced? hqq) hab.1), .lit rfl, .lit rfl, .value (L.words hs), .lit rfl,
        .value hab.2, .lit rfl⟩

/-! ## Whole items -/

theorem card (h : L.Words p q) (hi : L.Names ["link", "image_url"] p q) (hθ : L.Theme v w)
    (ht : L.loose ∨ tier = tier') (hw : L.loose ∨ m = n) :
    Part.Alike L (Product.card p v tier m) (Product.card q w tier' n) := by
  unfold Product.card Product.field
  refine .join ?_
  simp only [List.forall₂_cons, List.forall₂_nil_left_iff, and_true]
  have hground : Transparent
      ("border-radius: 8px; overflow: hidden; background-color: " ++ Palette.cardGround ++ ";") :=
    ((transparent_ofList rfl).append (transparent_ofList rfl)).append (transparent_ofList rfl)
  refine ⟨framedTable hground, .join ?_, .join ?_, .join ?_, .lit rfl⟩
  · simp only [List.forall₂_cons, List.forall₂_nil_left_iff, and_true]
    refine ⟨.lit rfl, .lit rfl, tiered ht (by decide) (by decide), .lit rfl,
      h.image hi hw (.join ?_), .lit rfl, .lit rfl⟩
    simp only [List.forall₂_cons, List.forall₂_nil_left_iff, and_true]
    exact ⟨.lit rfl, .pixels hw, .lit rfl⟩
  · simp only [List.forall₂_cons, List.forall₂_nil_left_iff, and_true]
    exact ⟨.lit rfl, .lit rfl, .lit rfl, h.badge (by decide),
      h.heading hθ (transparent_ofList rfl) (transparent_ofList rfl),
      h.description (transparent_ofList rfl) (transparent_ofList rfl), .lit rfl,
      h.priceLine hθ (by decide), .lit rfl, .lit rfl⟩
  · simp only [List.forall₂_cons, List.forall₂_nil_left_iff, and_true]
    exact ⟨.lit rfl, .lit rfl, .lit rfl, hi.value (by decide), .lit rfl, hθ.colour (by decide),
      .lit rfl, .lit rfl, .lit rfl, .lit rfl, .lit rfl, .lit rfl⟩

theorem entry (h : L.Words p q) (hi : L.Names ["link", "image_url"] p q) (hθ : L.Theme v w)
    (hw : L.loose ∨ m = n) : Part.Alike L (Product.entry p v m) (Product.entry q w n) := by
  have hcell : L.loose ∨ m + Product.entryMargin = n + Product.entryMargin :=
    hw.imp_right fun h => by rw [h]
  unfold Product.entry Product.field
  refine .join ?_
  simp only [List.forall₂_cons, List.forall₂_nil_left_iff, and_true]
  refine ⟨.lit rfl, .tableAttributes, .lit rfl, .lit rfl, .join ?_, .join ?_, .lit rfl, .lit rfl⟩
  · simp only [List.forall₂_cons, List.forall₂_nil_left_iff, and_true]
    refine ⟨.lit rfl, .pixels hcell, .lit rfl, h.image hi hw (.join ?_), .lit rfl⟩
    simp only [List.forall₂_cons, List.forall₂_nil_left_iff, and_true]
    exact ⟨.lit rfl, .pixels hw, .lit rfl, .pixels hw, .lit rfl⟩
  · simp only [List.forall₂_cons, List.forall₂_nil_left_iff, and_true]
    exact ⟨.lit rfl, .lit rfl, h.badge (by decide),
      h.heading hθ (transparent_ofList rfl) (transparent_ofList rfl), .lit rfl,
      h.priceLine hθ (by decide), h.description (transparent_ofList rfl) (transparent_ofList rfl),
      .lit rfl, hi.value (by decide), .lit rfl, hθ.colour (by decide), .lit rfl, .lit rfl⟩

theorem block (h : L.Words p q) (hi : L.Names ["link", "image_url"] p q) (hθ : L.Theme v w)
    (ht : L.loose ∨ tier = tier') (hw : L.loose ∨ m = n) :
    Part.Alike L (Product.block p v tier m) (Product.block q w tier' n) := by
  have hbutton := (hθ.shown (a := "primary_color") (b := "primary_color") (by decide) (by decide)
    (.inr rfl)).bind fun _ _ hvw => buttonStyle hvw .small
  unfold Product.block Product.field
  refine .join ?_
  simp only [List.forall₂_cons, List.forall₂_nil_left_iff, and_true]
  refine ⟨framedTable (transparent_ofList rfl), .join ?_, .join ?_, .lit rfl⟩
  · simp only [List.forall₂_cons, List.forall₂_nil_left_iff, and_true]
    refine ⟨.lit rfl, .lit rfl, tiered ht (by decide) (by decide), .lit rfl,
      h.image hi hw (.join ?_), .lit rfl, .lit rfl⟩
    simp only [List.forall₂_cons, List.forall₂_nil_left_iff, and_true]
    exact ⟨.lit rfl, .pixels hw, .lit rfl⟩
  · simp only [List.forall₂_cons, List.forall₂_nil_left_iff, and_true]
    refine ⟨.lit rfl, .lit rfl, .lit rfl, .lit rfl, .lit rfl, h.brandRow,
      h.heading hθ (transparent_ofList rfl) (transparent_ofList rfl),
      h.description (transparent_ofList rfl) (transparent_ofList rfl), .join ?_, .lit rfl, .lit rfl⟩
    simp only [List.forall₂_cons, List.forall₂_nil_left_iff, and_true]
    exact ⟨.lit rfl, .tableAttributes, .lit rfl, .lit rfl, .lit rfl, .lit rfl, .lit rfl,
      h.priceLine hθ (by decide), .lit rfl, .lit rfl, .lit rfl, hi.value (by decide), .lit rfl,
      hbutton, .lit rfl, .lit rfl, .lit rfl, .lit rfl⟩

end Words

end Likeness

end Mailshot
