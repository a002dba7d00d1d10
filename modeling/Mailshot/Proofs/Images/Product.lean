import Mailshot.Product.Card
import Mailshot.Proofs.Fields
import Mailshot.Proofs.Reading
import Mailshot.Width

/-!
# The images of a product

Every form of a product begins with its image, and what that image says of its width is the width that
the form was asked for.  The only other image of a product is the logo of its brand.

* `Image`, `Markup.images` — the images that a reader of a markup finds.
* `Product.images` — the images of a product under a template.
* **`Product.card_images`**, **`Product.entry_images`**, **`Product.block_images`** — the three forms
  have these images; so have `Product.linkedImage` and `Product.imageEntry`.
-/

namespace Mailshot

/-! ## Images -/

/-- What an image says of itself: where it is found, the value of its width, and the width and the
height that its style declares. -/
structure Image where
  source : Option (List Sign)
  width : Option (List Sign)
  styleWidth : Option (List Sign)
  styleHeight : Option (List Sign)

/-- The image that a tag is. -/
def Image.ofTag (tag : Tag) : Option Image :=
  if tag.isNamed "img" then
    some ⟨tag.valueOf "src", tag.valueOf "width", tag.declared "width", tag.declared "height"⟩
  else none

/-- The images of a markup, in order. -/
def Markup.images (m : Markup) : List Image := (collect Image.ofTag none (signs m)).2

/-- A number of pixels as a style declares it. -/
def Sign.px (n : Int) : List Sign := .pixels n :: ofString "px"

namespace Product

/-- The logo of a product's brand, if it has one. -/
def logoImages (product : Fields) : List Image :=
  if (product.look "brand_logo_url").truthy then
    [⟨some [.slot (product.shown "brand_logo_url")], some (Sign.ofString "20"), none, none⟩]
  else []

/-- The image of a product whose width is a number of pixels; its height is that number too where the
image is square. -/
def mainImage (product : Fields) (width : Int) (square : Bool) : Image where
  source := some [.slot (product.shown "image_url")]
  width := some [.pixels width]
  styleWidth := some (Sign.px width)
  styleHeight := some (if square then Sign.px width else Sign.ofString "auto")

/-- The image over the whole width of the list. -/
def fullImage (product : Fields) (width : Value) : Image where
  source := some [.slot (product.shown "image_url")]
  width := some [.slot width]
  styleWidth := some (Sign.ofString "100%")
  styleHeight := some (Sign.ofString "auto")

/-- The images of a product under a template, `full` being the width of one that is only an image in
the list. -/
def images (template : Template) (width : Int) (full : Value) (product : Fields) : List Image :=
  if isImageOnly product then
    if template = .modern then [fullImage product full] else [mainImage product width false]
  else mainImage product width (template = .modern) :: logoImages product

section Parts

variable (p : Fields) (θ : Value)

lemma logo_images : Part.Yields Image.ofTag (logo p) (logoImages p) := by
  unfold logo logoImages
  simp only [Fields.truthy_shown]
  split
  · exact Steps.yields <| .lit rfl <| .value <| .lit rfl <| .value <| .lit rfl <| .found rfl <|
      .nil _
  · exact Steps.yields (.nil _)

lemma brandName_images : Part.Yields Image.ofTag (brandName p) [] := by
  unfold brandName
  simp only
  split
  · exact Steps.yields <| .lit rfl <| .lit rfl <| .lit rfl <| .lit rfl <| .lit rfl <| .between <|
      .lit rfl <| .nil _
  · exact Steps.yields (.nil _)

/-- A product without a brand has no logo. -/
lemma logoImages_eq_nil (h : hasBrand p = false) : logoImages p = [] := by
  unfold hasBrand at h
  simp only [Bool.or_eq_false_iff] at h
  simp [logoImages, h.2]

lemma badge_images (align : Text) :
    Part.Yields Image.ofTag (badge p (.text align)) (logoImages p) := by
  unfold badge
  split
  · simp only
    have hjoin (justify : String) (hj : justify = "flex-start" ∨ justify = "center") :
        Part.Yields Image.ofTag
          (Part.join ["<div style=\"margin-bottom: 8px; display: flex; align-items: center; ",
            "justify-content: ", justify, "; gap: 6px; text-align: ", Value.text align, ";\">",
            logo p, brandName p, "</div>"]) (logoImages p) := by
      rcases hj with rfl | rfl <;>
        exact List.append_nil (logoImages p) ▸ Steps.yields (.lit rfl <| .lit rfl <| .lit rfl <|
          .lit rfl <| .value <| .lit rfl <| .part (logo_images p) <| .plain (brandName_images p) <|
          .lit rfl <| .nil _)
    split
    · exact hjoin _ (.inl rfl)
    · exact hjoin _ (.inr rfl)
  · next h =>
      rw [logoImages_eq_nil p (Bool.eq_false_iff.mpr h)]
      exact Steps.yields (.nil _)

lemma brandRow_images : Part.Yields Image.ofTag (brandRow p) (logoImages p) := by
  unfold brandRow
  split
  · exact List.append_nil (logoImages p) ▸ Steps.yields (.lit rfl <| .lit rfl <| .lit rfl <|
      .lit rfl <| .part (badge_images p _) <| .lit rfl <| .nil _)
  · next h =>
      rw [logoImages_eq_nil p (Bool.eq_false_iff.mpr h)]
      exact Steps.yields (.nil _)

lemma pricedLine_images (colour : String) (price size : Value) :
    Part.Yields Image.ofTag (pricedLine θ colour price size) [] := by
  intro m h
  obtain ⟨theme, -, h⟩ := bind_eq_ok.mp h
  exact Steps.yields (.lit rfl <| .value <| .lit rfl <| .lit rfl <| .value <| .lit rfl <|
    .between <| .lit rfl <| .nil _) m h

lemma priceLine_images (size : Value) : Part.Yields Image.ofTag (priceLine p θ size) [] := by
  unfold priceLine
  split
  · exact Steps.yields (.nil _)
  · exact pricedLine_images θ _ _ _
  · exact pricedLine_images θ _ _ _

/-! ### Parts of the forms -/

/-- A tag that begins with another letter is no image. -/
lemma ofTag_cons {c : Char} (hc : c ≠ 'i') (rest : Tag) : Image.ofTag (.char c :: rest) = none := by
  simp [Image.ofTag, Tag.isNamed, Tag.strip, hc.symm]

lemma framedTable_images {shape : String} (h : '>' ∉ shape.toList) :
    Part.Yields Image.ofTag (framedTable shape) [] :=
  Steps.yields <| .lit rfl <| .lit rfl <| .lit rfl <| .lit rfl <| .lit rfl <| .word h <|
    .close (by decide) (by simp [ofTag_cons]) rfl <| .nil _

lemma heading_images {margin size : String} (hm : '>' ∉ margin.toList) (hs : '>' ∉ size.toList) :
    Part.Yields Image.ofTag (heading p θ margin size) [] :=
  Steps.yields <| .lit rfl <| .word hm <| .lit rfl <| .after fun _ _ => .value <| .lit rfl <|
    .word hs <| .close (by decide) (by simp [ofTag_cons]) rfl <| .between <| .lit rfl <| .nil _

lemma description_images {margin size : String} (hm : '>' ∉ margin.toList)
    (hs : '>' ∉ size.toList) : Part.Yields Image.ofTag (description p margin size) [] :=
  Steps.yields <| .lit rfl <| .word hm <| .lit rfl <| .lit rfl <| .lit rfl <| .word hs <|
    .close (by decide) (by simp [ofTag_cons]) rfl <| .between <| .lit rfl <| .nil _

/-- The style of a button stands inside a tag. -/
lemma buttonStyle_inside (colour : Value) (size : ButtonSize) :
    ∃ ss, (buttonStyle colour size).Inside ss := by
  have hmeasures : '>' ∉ size.measures.1.toList ∧ '>' ∉ size.measures.2.toList := by
    cases size <;> decide
  exact ⟨_, .cons (.fixed (by decide)) <| .cons (.fixed hmeasures.1) <| .cons (.fixed (by decide)) <|
    .cons (.ofValue colour) <| .cons (.fixed (by decide)) <| .cons (.fixed (by decide)) <|
    .cons (.fixed (by decide)) <| .cons (.fixed (by decide)) <| .cons (.fixed hmeasures.2) <|
    .cons (.fixed (by decide)) .nil⟩

/-- The tag of a product's image, with its style. -/
def imageTag (product : Fields) (width : Int) (style : List Sign) : Tag :=
  Sign.ofString "img src=\"" ++ .slot (product.shown "image_url") :: Sign.ofString "\" alt=\"" ++
    .slot (product.shown "name") :: Sign.ofString "\" width=\"" ++ .pixels width ::
    Sign.ofString "\"\n             style=\"" ++ style ++ Sign.ofString "\" /"

lemma image_images {width : Int} {shape : Part} {style : List Sign} {found : Image}
    (hshape : shape.Inside style) (hfound : Image.ofTag (imageTag p width style) = some found) :
    Part.Yields Image.ofTag (image p width shape) [found] := by
  have htag (tag : Tag) (h : tag.reverse ++ style ++ Sign.ofString "\" /" = imageTag p width style) :
      Image.ofTag ((style.reverse ++ tag).reverse ++ Sign.ofString "\" /") = some found := by
    rwa [List.reverse_append, List.reverse_reverse, h]
  exact Steps.yields <| .lit rfl <| .value <| .lit rfl <| .lit rfl <| .value <| .lit rfl <| .value <|
    .lit rfl <| .pixels <| .lit rfl <| .lit rfl <| .inside hshape <|
    .closeFound (by decide) (htag _ rfl) rfl <| .lit rfl <| .nil _

end Parts

/-! ## The forms of a product -/

section Forms

variable (p : Fields) (θ : Value) (tier : Tier) (n : Int)

/-- **A card** has the product's image, and the logo of the brand. -/
theorem card_images :
    Part.Yields Image.ofTag (card p θ tier n) (mainImage p n false :: logoImages p) := by
  have himage : Part.Yields Image.ofTag (image p n (Part.join ["display: inline-block; width: ",
      .pixels n, "px; max-width: 100%; height: auto; object-fit: cover; aspect-ratio: 1/1;"]))
      [mainImage p n false] :=
    image_images p (.cons (.fixed (by decide)) <| .cons (.pixels n) <|
      .cons (.fixed (by decide)) .nil) rfl
  unfold card
  refine List.append_nil (logoImages p) ▸ Steps.yields ?_
  refine .plain (framedTable_images (by decide +kernel)) <| ?_
  refine .nest <| .lit rfl <| .lit rfl <| .word ?padding <|
    .close (by decide) (by simp [ofTag_cons]) rfl <| .part himage <| .lit rfl <|
    .lit rfl <| ?_
  case padding => cases tier <;> decide
  -- the words
  refine .nest <| .lit rfl <| .lit rfl <| .lit rfl <| .part (badge_images p _) <|
    .plain (heading_images p θ (by decide) (by decide)) <|
    .plain (description_images p (by decide) (by decide)) <| .lit rfl <|
    .plain (priceLine_images p θ _) <| .lit rfl <| .lit rfl <| ?_
  -- the button
  exact .nest <| .lit rfl <| .lit rfl <| .lit rfl <| .value <| .lit rfl <|
    .after fun _ _ => .value <| .lit rfl <| .lit rfl <|
    .close (by decide) (by simp [ofTag_cons]) rfl <| .lit rfl <| .lit rfl <| .lit rfl <|
    .lit rfl <| .nil _

/-- **An entry of the list** has a square image, and the logo of the brand. -/
theorem entry_images :
    Part.Yields Image.ofTag (entry p θ n) (mainImage p n true :: logoImages p) := by
  have himage : Part.Yields Image.ofTag (image p n (Part.join [
      "display: block; border-radius: 6px; object-fit: cover; height: ", .pixels n, "px; width: ",
      .pixels n, "px;"])) [mainImage p n true] :=
    image_images p (.cons (.fixed (by decide)) <| .cons (.pixels n) <| .cons (.fixed (by decide)) <|
      .cons (.pixels n) <| .cons (.fixed (by decide)) .nil) rfl
  unfold entry
  refine List.append_nil (logoImages p) ▸ Steps.yields ?_
  refine .lit rfl <| .lit rfl <| .lit rfl <| .lit rfl <| ?_
  refine .nest <| .lit rfl <| .pixels <| .lit rfl <| .part himage <| .lit rfl <| ?_
  -- the words
  refine .nest <| .lit rfl <| .lit rfl <| .part (badge_images p _) <|
    .plain (heading_images p θ (by decide) (by decide)) <| .lit rfl <|
    .plain (priceLine_images p θ _) <| .plain (description_images p (by decide) (by decide)) <| ?_
  -- the link
  exact .lit rfl <| .value <| .lit rfl <| .after fun _ _ => .value <| .lit rfl <| .lit rfl <|
    .lit rfl <| .lit rfl <| .nil _

/-- **A block** has the product's image, and the logo of the brand. -/
theorem block_images :
    Part.Yields Image.ofTag (block p θ tier n) (mainImage p n false :: logoImages p) := by
  have himage : Part.Yields Image.ofTag (image p n (Part.join ["display: inline-block; width: ",
      .pixels n, "px; max-width: 100%; height: auto;"])) [mainImage p n false] :=
    image_images p (.cons (.fixed (by decide)) <| .cons (.pixels n) <|
      .cons (.fixed (by decide)) .nil) rfl
  unfold block
  refine List.append_nil (logoImages p) ▸ Steps.yields ?_
  refine .plain (framedTable_images (by decide +kernel)) <| ?_
  refine .nest <| .lit rfl <| .lit rfl <| .word ?padding <|
    .close (by decide) (by simp [ofTag_cons]) rfl <| .part himage <| .lit rfl <|
    .lit rfl <| ?_
  case padding => cases tier <;> decide
  -- the words
  refine .nest <| .lit rfl <| .lit rfl <| .lit rfl <| .lit rfl <| .lit rfl <|
    .part (brandRow_images p) <| .plain (heading_images p θ (by decide) (by decide)) <|
    .plain (description_images p (by decide) (by decide)) <| ?_
  -- the price and the button
  refine .nest <| .lit rfl <| .lit rfl <| .lit rfl <| .lit rfl <| .lit rfl <| .lit rfl <|
    .lit rfl <| .plain (priceLine_images p θ _) <| .lit rfl <| .lit rfl <| .lit rfl <| .value <|
    .lit rfl <| .after fun colour _ => ?_
  obtain ⟨ss, hstyle⟩ := buttonStyle_inside colour .small
  exact .inside hstyle <| .close (by decide) (by simp [ofTag_cons]) rfl <| .lit rfl <| .lit rfl <|
    .lit rfl <| .lit rfl <| .lit rfl <| .lit rfl <| .nil _

/-- A product that is only an image, in the grid and in the stack. -/
theorem linkedImage_images {style : String} (h : style = "" ∨ style = " border-radius: 8px;") :
    Part.Yields Image.ofTag (linkedImage p n style) [mainImage p n false] := by
  unfold linkedImage
  rcases h with rfl | rfl
  all_goals
    exact Steps.yields <| .lit rfl <| .value <| .lit rfl <| .lit rfl <| .value <| .lit rfl <|
      .pixels <| .lit rfl <| .lit rfl <| .pixels <| .lit rfl <| .lit rfl <| .found rfl <| .lit rfl <|
      .nil _

/-- A product that is only an image, in the list. -/
theorem imageEntry_images (full : Value) :
    Part.Yields Image.ofTag (imageEntry p full) [fullImage p full] := by
  unfold imageEntry
  exact Steps.yields <| .lit rfl <| .value <| .lit rfl <| .lit rfl <| .value <| .lit rfl <|
    .value <| .lit rfl <| .found rfl <| .nil _

end Forms

end Product

end Mailshot
