import Mailshot.Product.Card
import Mailshot.Proofs.Fields
import Mailshot.Proofs.Nesting.Markup

/-!
# The elements of a product nest

Every form of a product closes what it opens, whether or not it has a brand, a logo and a price.

* `Product.logo_nests`, `Product.badge_nests`, `Product.priceLine_nests` and their companions — the
  parts that may be left out.
* **`Product.card_nests`**, **`Product.entry_nests`**, **`Product.block_nests`** — the three forms; so
  do `Product.linkedImage` and `Product.imageEntry`.
-/

namespace Mailshot.Product

open Text

section Parts

variable (p : Fields) (θ : Value)

lemma empty_nests : Part.Nests (Part.join []) := .of_walks fun _ => .nil

lemma logo_nests : (logo p).Nests := by
  unfold logo
  simp only
  split
  · exact .of_walks fun _ => .lit rfl <| .value <| .lit rfl <| .value <| .lit rfl <| .lit rfl <| .nil
  · exact empty_nests

lemma brandName_nests : (brandName p).Nests := by
  unfold brandName
  simp only
  split
  · exact .of_walks fun _ => .lit rfl <| .lit rfl <| .lit rfl <| .lit rfl <| .lit rfl <| .between <|
      .lit rfl <| .nil
  · exact empty_nests

lemma badge_nests (align : Value) : (badge p align).Nests := by
  unfold badge
  split
  · have hjustify : ∀ justify : String, justify = "flex-start" ∨ justify = "center" →
        (Part.fixed justify).Inner := by
      rintro _ (rfl | rfl)
      · exact .fixed (by decide)
      · exact .fixed (by decide)
    refine .of_walks fun _ => .lit rfl <| .lit rfl <| .inner (hjustify _ ?_) <| .lit rfl <| .value <|
      .lit rfl <| .part (logo_nests p) <| .part (brandName_nests p) <| .lit rfl <| .nil
    split
    · exact .inl rfl
    · exact .inr rfl
  · exact empty_nests

lemma brandRow_nests : (brandRow p).Nests := by
  unfold brandRow
  split
  · exact .of_walks fun _ => .lit rfl <| .lit rfl <| .lit rfl <| .lit rfl <|
      .part (badge_nests p _) <| .lit rfl <| .nil
  · exact empty_nests

lemma pricedLine_nests (colour : String) (price size : Value) :
    (pricedLine θ colour price size).Nests := by
  refine .after fun theme _ => .of_walks fun _ => ?_
  exact .lit rfl <| .value <| .lit rfl <| .lit rfl <| .value <| .lit rfl <| .between <| .lit rfl <| .nil

lemma priceLine_nests (size : Value) : (priceLine p θ size).Nests := by
  unfold priceLine
  split
  · exact empty_nests
  · exact pricedLine_nests θ _ _ _
  · exact pricedLine_nests θ _ _ _

/-- The image behind its link, whatever stands in its style. -/
lemma image_nests (n : Int) {shape : Part} (hs : shape.Inner) : (image p n shape).Nests := by
  unfold image
  exact .of_walks fun _ => .lit rfl <| .value <| .lit rfl <| .lit rfl <| .value <| .lit rfl <|
    .value <| .lit rfl <| .pixels <| .lit rfl <| .lit rfl <| .inner hs <| .lit rfl <| .lit rfl <| .nil

variable {margin size : String}

lemma heading_nests (hm : Tagless (ofString margin)) (hs : Tagless (ofString size)) :
    (heading p θ margin size).Nests := by
  unfold heading
  exact .of_walks fun _ => .lit rfl <| .inner (.fixed hm) <| .lit rfl <| .after fun _ _ => .value <|
    .lit rfl <| .inner (.fixed hs) <| .lit rfl <| .between <| .lit rfl <| .nil

lemma description_nests (hm : Tagless (ofString margin)) (hs : Tagless (ofString size)) :
    (description p margin size).Nests := by
  unfold description
  exact .of_walks fun _ => .lit rfl <| .inner (.fixed hm) <| .lit rfl <| .lit rfl <| .lit rfl <|
    .inner (.fixed hs) <| .lit rfl <| .between <| .lit rfl <| .nil

end Parts

/-! ## The forms of a product -/

section Forms

variable (p : Fields) (θ : Value) (tier : Tier) (n : Int)

/-- A padding that depends on the tier. -/
lemma tiered_inner {s t : String} (hs : Tagless (ofString s)) (ht : Tagless (ofString t)) :
    (Part.fixed (if tier = .large then s else t)).Inner := by
  split
  · exact .fixed hs
  · exact .fixed ht

/-- Texts of a style around a number of pixels. -/
lemma style_inner {front back : String} (hf : Tagless (ofString front))
    (hb : Tagless (ofString back)) : (Part.join [front, .pixels n, back]).Inner :=
  .cons (.fixed hf) <| .cons (.pixels n) <| .cons (.fixed hb) .nil

/-- **A card** closes what it opens. -/
theorem card_nests : (card p θ tier n).Nests := by
  have hshape : Tagless (ofString
      ("border-radius: 8px; overflow: hidden; background-color: " ++ Palette.cardGround ++ ";")) := by
    decide +kernel
  unfold card
  refine .of_walks fun _ => ?_
  refine .nest <| .lit rfl <| .lit rfl <| .lit rfl <| .lit rfl <| .lit rfl <| .inner (.fixed hshape) <|
    .lit rfl <| ?_
  -- the image
  refine .nest <| .lit rfl <| .lit rfl <| .inner (tiered_inner tier (by decide) (by decide)) <|
    .lit rfl <| .part (image_nests p n (style_inner n (by decide) (by decide))) <| .lit rfl <|
    .lit rfl <| ?_
  -- the words
  refine .nest <| .lit rfl <| .lit rfl <| .lit rfl <| .part (badge_nests p _) <|
    .part (heading_nests p θ (by decide) (by decide)) <|
    .part (description_nests p (by decide) (by decide)) <| .lit rfl <|
    .part (priceLine_nests p θ _) <| .lit rfl <| .lit rfl <| ?_
  -- the button
  exact .nest <| .lit rfl <| .lit rfl <| .lit rfl <| .value <| .lit rfl <|
    .after fun _ _ => .value <| .lit rfl <| .lit rfl <| .lit rfl <| .lit rfl <| .lit rfl <|
    .lit rfl <| .lit rfl <| .nil

/-- **An entry of the list** closes what it opens. -/
theorem entry_nests : (entry p θ n).Nests := by
  have hshape : (Part.join ["display: block; border-radius: 6px; object-fit: cover; height: ",
      .pixels n, "px; width: ", .pixels n, "px;"]).Inner :=
    .cons (.fixed (by decide)) <| .cons (.pixels n) <| .cons (.fixed (by decide)) <|
      .cons (.pixels n) <| .cons (.fixed (by decide)) .nil
  unfold entry
  refine .of_walks fun _ => .lit rfl <| .lit rfl <| .lit rfl <| .lit rfl <| ?_
  refine .nest <| .lit rfl <| .pixels <| .lit rfl <| .part (image_nests p n hshape) <| .lit rfl <| ?_
  -- the words and the link
  refine .nest <| .lit rfl <| .lit rfl <| .part (badge_nests p _) <|
    .part (heading_nests p θ (by decide) (by decide)) <| .lit rfl <| .part (priceLine_nests p θ _) <|
    .part (description_nests p (by decide) (by decide)) <| ?_
  exact .lit rfl <| .value <| .lit rfl <| .after fun _ _ => .value <| .lit rfl <| .lit rfl <|
    .lit rfl <| .lit rfl <| .nil

/-- The style of a button stands in a tag. -/
lemma buttonStyle_inner (colour : Value) (size : ButtonSize) : (buttonStyle colour size).Inner := by
  have hmeasures : Tagless (ofString size.measures.1) ∧ Tagless (ofString size.measures.2) := by
    cases size <;> decide
  unfold buttonStyle
  exact .cons (.fixed (by decide)) <| .cons (.fixed hmeasures.1) <| .cons (.fixed (by decide)) <|
    .cons (.value _) <| .cons (.fixed (by decide)) <| .cons (.fixed (by decide)) <|
    .cons (.fixed (by decide)) <| .cons (.fixed (by decide)) <| .cons (.fixed hmeasures.2) <|
    .cons (.fixed (by decide)) .nil

/-- **A block** closes what it opens. -/
theorem block_nests : (block p θ tier n).Nests := by
  unfold block
  refine .of_walks fun _ => ?_
  refine .nest <| .lit rfl <| .lit rfl <| .lit rfl <| .lit rfl <| .lit rfl <| .lit rfl <|
    .lit rfl <| ?_
  -- the image
  refine .nest <| .lit rfl <| .lit rfl <| .inner (tiered_inner tier (by decide) (by decide)) <|
    .lit rfl <| .part (image_nests p n (style_inner n (by decide) (by decide))) <| .lit rfl <|
    .lit rfl <| ?_
  -- the words
  refine .nest <| .lit rfl <| .lit rfl <| .lit rfl <| .lit rfl <| .lit rfl <|
    .part (brandRow_nests p) <| .part (heading_nests p θ (by decide) (by decide)) <|
    .part (description_nests p (by decide) (by decide)) <| ?_
  -- the price and the button
  refine .nest <| .lit rfl <| .lit rfl <| .lit rfl <| .lit rfl <| .lit rfl <| .lit rfl <|
    .lit rfl <| .part (priceLine_nests p θ _) <| .lit rfl <| .lit rfl <| .lit rfl <| .value <|
    .lit rfl <| .after fun _ _ => .inner (buttonStyle_inner _ _) <| ?_
  exact .lit rfl <| .lit rfl <| .lit rfl <| .lit rfl <| .lit rfl <| .lit rfl <| .lit rfl <| .nil

/-- A product that is only an image, in the grid and in the stack. -/
theorem linkedImage_nests {style : String} (h : Tagless (ofString style)) :
    (linkedImage p n style).Nests := by
  unfold linkedImage
  exact .of_walks fun _ => .lit rfl <| .value <| .lit rfl <| .lit rfl <| .value <| .lit rfl <|
    .pixels <| .lit rfl <| .lit rfl <| .pixels <| .lit rfl <| .inner (.fixed h) <| .lit rfl <|
    .lit rfl <| .nil

/-- A product that is only an image, in the list. -/
theorem imageEntry_nests (full : Value) : (imageEntry p full).Nests := by
  unfold imageEntry
  exact .of_walks fun _ => .lit rfl <| .value <| .lit rfl <| .lit rfl <| .value <| .lit rfl <|
    .value <| .lit rfl <| .lit rfl <| .nil

end Forms

end Mailshot.Product
