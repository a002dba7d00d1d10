import Mailshot.Product.Card
import Mailshot.Proofs.Arrangement
import Mailshot.Proofs.Markers.Basic

/-!
# Items bring no markers

In whatever form a product is shown, no text of the compiler in it holds or begins a marker.

* `Product.card_calm`, `Product.entry_calm`, `Product.block_calm`, `Product.linkedImage_calm`,
  `Product.imageEntry_calm` — the forms.
* **`Listing.form_calm`** — the item of a product, under every template.
-/

namespace Mailshot

open Text

lemma buttonStyle_calm (colour : Value) (size : ButtonSize) : Part.IsCalm (buttonStyle colour size) := by
  refine Part.isCalm_join ?_
  cases size <;> simp [ButtonSize.measures] <;> and_intros <;> exact isCalm_literal rfl

namespace Product

variable (p : Fields) (θ : Value)

/-! ## Parts in common -/

lemma logo_calm : Part.IsCalm (logo p) := by
  unfold logo
  dsimp only
  split
  · exact Part.isCalm_join (by simp; and_intros <;> exact isCalm_literal rfl)
  · exact Part.isCalm_join (by simp)

lemma brandName_calm : Part.IsCalm (brandName p) := by
  unfold brandName
  dsimp only
  split
  · exact Part.isCalm_join (by simp; and_intros <;> exact isCalm_literal rfl)
  · exact Part.isCalm_join (by simp)

lemma badge_calm (align : Value) : Part.IsCalm (badge p align) := by
  unfold badge
  split
  · refine Part.isCalm_join ?_
    cases align.isText "left" <;> simp [logo_calm, brandName_calm] <;> and_intros <;>
      exact isCalm_literal rfl
  · exact Part.isCalm_join (by simp)

lemma brandRow_calm : Part.IsCalm (brandRow p) := by
  unfold brandRow
  split
  · exact Part.isCalm_join (by
      simp [badge_calm]; and_intros <;> exact isCalm_literal rfl)
  · exact Part.isCalm_join (by simp)

lemma image_calm (width : Int) {shape : Part} (h : shape.IsCalm) : Part.IsCalm (image p width shape) :=
  Part.isCalm_join (by simp [field, h]; and_intros <;> exact isCalm_literal rfl)

lemma heading_calm {margin size : String} (hm : isCalm (ofString margin) = true)
    (hs : isCalm (ofString size) = true) : Part.IsCalm (heading p θ margin size) :=
  Part.isCalm_join (by simp [field, hm, hs]; and_intros <;> exact isCalm_literal rfl)

lemma description_calm {margin size : String} (hm : isCalm (ofString margin) = true)
    (hs : isCalm (ofString size) = true) : Part.IsCalm (description p margin size) :=
  Part.isCalm_join (by simp [field, hm, hs]; and_intros <;> exact isCalm_literal rfl)

lemma priceLine_calm (size : Value) : Part.IsCalm (priceLine p θ size) := by
  have hline (colour : String) (price : Value) : Part.IsCalm (pricedLine θ colour price size) :=
    .after fun θ _ =>
      Part.isCalm_join (by simp; and_intros <;> exact isCalm_literal rfl)
  unfold priceLine
  split
  · exact Part.isCalm_join (by simp)
  · exact hline _ _
  · exact hline _ _

lemma framedTable_calm {shape : String} (h : isCalm (ofString shape) = true) :
    Part.IsCalm (framedTable shape) :=
  Part.isCalm_join (by simp [h]; and_intros <;> exact isCalm_literal rfl)

/-! ## Products that are only an image -/

lemma linkedImage_calm (width : Int) {style : String} (hs : isCalm (ofString style) = true) :
    Part.IsCalm (linkedImage p width style) :=
  Part.isCalm_join (by simp [hs]; and_intros <;> exact isCalm_literal rfl)

lemma imageEntry_calm (width : Value) : Part.IsCalm (imageEntry p width) :=
  Part.isCalm_join (by simp [field]; and_intros <;> exact isCalm_literal rfl)

/-! ## Cards, entries and blocks -/

lemma tiered_calm (tier : Tier) {large other : String} (hl : isCalm (ofString large) = true)
    (ho : isCalm (ofString other) = true) :
    isCalm (ofString (if tier = .large then large else other)) = true := by
  split
  · exact hl
  · exact ho

lemma card_calm (tier : Tier) (width : Int) : Part.IsCalm (card p θ tier width) := by
  have hpad : isCalm (ofString (if tier = .large then "0" else "15px")) = true :=
    tiered_calm tier (isCalm_literal rfl) (isCalm_literal rfl)
  have hheading : Part.IsCalm (heading p θ "0 0 8px 0" "16px; line-height: 1.3") :=
    heading_calm p θ (isCalm_literal rfl) (isCalm_literal rfl)
  have hdescription : Part.IsCalm (description p "0 0 10px 0" "14px; line-height: 1.5") :=
    description_calm p (isCalm_literal rfl) (isCalm_literal rfl)
  unfold card
  refine Part.isCalm_join ?_
  simp only [List.forall_mem_cons]
  refine ⟨framedTable_calm (isCalm_concat (isCalm_concat (isCalm_literal rfl) (isCalm_literal rfl))
    (isCalm_literal rfl)), Part.isCalm_join ?picture, Part.isCalm_join ?words,
    Part.isCalm_join ?button, ?close⟩
  case picture =>
    have hshape : Part.IsCalm (Part.join ["display: inline-block; width: ", .pixels width,
        "px; max-width: 100%; height: auto; object-fit: cover; aspect-ratio: 1/1;"]) :=
      Part.isCalm_join (by simp; and_intros <;> exact isCalm_literal rfl)
    simp [hpad, image_calm p width hshape]
    and_intros <;> exact isCalm_literal rfl
  case words =>
    simp [badge_calm, hheading, hdescription, priceLine_calm]
    and_intros <;> exact isCalm_literal rfl
  case button =>
    simp [field]
    and_intros <;> exact isCalm_literal rfl
  case close =>
    simp
    exact isCalm_literal rfl

lemma entry_calm (size : Int) : Part.IsCalm (entry p θ size) := by
  have hheading : Part.IsCalm (heading p θ "0 0 5px 0" "18px") :=
    heading_calm p θ (isCalm_literal rfl) (isCalm_literal rfl)
  have hdescription : Part.IsCalm (description p "0 0 15px 0" "14px; line-height: 1.4") :=
    description_calm p (isCalm_literal rfl) (isCalm_literal rfl)
  unfold entry
  refine Part.isCalm_join ?_
  simp only [List.forall_mem_cons]
  refine ⟨Part.isCalm_fixed.mpr (isCalm_literal rfl), Part.isCalm_tableAttributes,
    Part.isCalm_fixed.mpr (isCalm_literal rfl),
    Part.isCalm_fixed.mpr (isCalm_literal rfl), Part.isCalm_join ?picture,
    Part.isCalm_join ?words, ?close⟩
  case picture =>
    have hshape : Part.IsCalm (Part.join [
        "display: block; border-radius: 6px; object-fit: cover; height: ", .pixels size,
        "px; width: ", .pixels size, "px;"]) :=
      Part.isCalm_join (by simp; and_intros <;> exact isCalm_literal rfl)
    simp [image_calm p size hshape]
    and_intros <;> exact isCalm_literal rfl
  case words =>
    simp [field, badge_calm, hheading, hdescription, priceLine_calm]
    and_intros <;> exact isCalm_literal rfl
  case close =>
    simp
    and_intros <;> exact isCalm_literal rfl

lemma block_calm (tier : Tier) (width : Int) : Part.IsCalm (block p θ tier width) := by
  have hpad : isCalm (ofString (if tier = .large then "0" else "20px")) = true :=
    tiered_calm tier (isCalm_literal rfl) (isCalm_literal rfl)
  have hheading : Part.IsCalm (heading p θ "0 0 10px 0" "22px; line-height: 1.3") :=
    heading_calm p θ (isCalm_literal rfl) (isCalm_literal rfl)
  have hdescription : Part.IsCalm (description p "0 0 20px 0" "15px; line-height: 1.6") :=
    description_calm p (isCalm_literal rfl) (isCalm_literal rfl)
  have hbutton : Part.IsCalm (θ.shown "primary_color" >>= fun colour => buttonStyle colour .small) :=
    .after fun colour _ => buttonStyle_calm colour .small
  unfold block
  refine Part.isCalm_join ?_
  simp only [List.forall_mem_cons]
  refine ⟨framedTable_calm (isCalm_literal rfl), Part.isCalm_join ?picture,
    Part.isCalm_join ?panel, ?close⟩
  case picture =>
    have hshape : Part.IsCalm (Part.join ["display: inline-block; width: ", .pixels width,
        "px; max-width: 100%; height: auto;"]) :=
      Part.isCalm_join (by simp; and_intros <;> exact isCalm_literal rfl)
    simp [hpad, image_calm p width hshape]
    and_intros <;> exact isCalm_literal rfl
  case panel =>
    simp [brandRow_calm, hheading, hdescription]
    and_intros
    any_goals exact isCalm_literal rfl
    -- the table of the offer, within the panel
    refine Part.isCalm_join ?_
    simp [field, priceLine_calm, hbutton]
    and_intros <;> exact isCalm_literal rfl
  case close =>
    simp
    exact isCalm_literal rfl

end Product

/-- **The item of a product** brings no marker, under any template. -/
theorem Listing.form_calm {template : Template} {layout θ : Value} {form : Fields → Part}
    (h : Listing.form template layout θ = .ok form) (p : Fields) : Part.IsCalm (form p) := by
  refine form_cases h p (fun _ width style hstyle => Product.linkedImage_calm p width ?_)
    (fun _ full => Product.imageEntry_calm p full)
    (fun _ tier width => Product.card_calm p θ tier width)
    (fun _ size => Product.entry_calm p θ size)
    (fun _ tier width => Product.block_calm p θ tier width)
  rcases List.mem_pair.mp hstyle with rfl | rfl
  · exact isCalm_literal rfl
  · exact isCalm_literal rfl

end Mailshot
