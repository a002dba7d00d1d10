import Mailshot.Campaign.Run
import Mailshot.Proofs.Images.Document

/-!
# The recommended cuts

Whoever prepares the artwork of a campaign is told how wide to cut it before the document is compiled.
The hints and the document compute the widths in different places, from the configuration as it stands
and from its escaped copy; they always agree.

* `Template.cut` — the words of a recommended cut.
* `Campaign.enterHints_eq` — the line that a build enters in the journal.
* **`Document.recommended_cuts`** — the widths of a document are the ones that were recommended.
-/

namespace Mailshot

open Text

/-! ## Hints -/

/-- The recommended cut of images of a width under a template: square in the grid and in the list, and
only a width for banners. -/
def Template.cut (template : Template) (n : Int) : Text :=
  match template with
  | .banner => Text.ofInt n ++ " px width"
  | _ => Text.ofInt n ++ " x " ++ Text.ofInt n ++ " px"

lemma imageHint_outcome {v content : Value} {template : Template} {tier : Tier} {n : Int}
    (ht : (Template.ofValue v).outcome = .ok template)
    (hn : Width.image template content tier = .ok n) :
    (imageHint v content tier).outcome = .ok (template.cut n) := by
  simp only [imageHint, Report.outcome_bind, ht, ok_bind, Report.outcome_lift, hn]
  cases template <;> rfl

lemma imageOf_outcome {v content : Value} {template : Template} {tier : Tier} {n : Int}
    (ht : (Template.ofValue v).outcome = .ok template)
    (hn : Width.image template content tier = .ok n) :
    (Width.imageOf v content tier).outcome = .ok n := by
  simp only [Width.imageOf, Report.outcome_bind, ht, ok_bind, Report.outcome_lift, hn]

lemma heroHint_eq {content : Value} {text : Text} (h : content.written = .ok text) :
    heroHint content = .ok (content.display ++ " x 300 px") := by
  have htext : content.display = text := by
    unfold Value.written at h
    split at h
    · exact Except.ok.inj h
    · cases h
  have hheight : ofString " x " ++ (Text.ofInt Width.heroHeight ++ ofString " px") =
      ofString " x 300 px" := by
    decide +kernel
  unfold heroHint
  rw [h, htext, ok_bind, List.append_assoc, List.append_assoc, hheight]
  rfl

/-- The line that names the recommended cuts. -/
def Campaign.hintLine (image hero : Text) : Entry :=
  ⟨.info, "Recommended image cut: " ++ image ++ " (hero: " ++ hero ++ ")"⟩

namespace Campaign

variable {r : Fields} {content size : Value} {image hero : Text}

/-- The hints of a complete configuration end in one line with both cuts. -/
lemma enterHints_eq (ht : (r.find? (.text (ofString "template"))).isSome = true)
    (hc : (r.look "layout").field "content_width" = .ok content)
    (hs : (r.look "layout").field "product_image_size" = .ok size)
    (hi : (imageHint (r.look "template") content (Tier.ofValue size)).outcome = .ok image)
    (hh : heroHint content = .ok hero) :
    ∃ before, enterHints (.map r) = ⟨before ++ [hintLine image hero], .ok ()⟩ := by
  obtain ⟨layout, hlayout, -⟩ := Value.field_eq_ok.mp hc
  have hlayoutField : (Value.map r).field "layout" = .ok (r.look "layout") := by
    refine Value.field_eq_ok.mpr ⟨r, rfl, ?_⟩
    unfold Fields.look at hlayout ⊢
    cases hf : r.find? (.text (ofString "layout")) with
    | none => rw [hf] at hlayout; cases hlayout
    | some v => rfl
  have htemplateField : (Value.map r).field "template" = .ok (r.look "template") := by
    obtain ⟨v, hv⟩ := Option.isSome_iff_exists.mp ht
    refine Value.field_eq_ok.mpr ⟨r, rfl, ?_⟩
    rw [Fields.look, hv, Option.getD_some]
  generalize hhint : imageHint (r.look "template") content (Tier.ofValue size) = hint at hi
  obtain ⟨before, _⟩ := hint
  cases hi
  refine ⟨before, ?_⟩
  unfold enterHints
  rw [hlayoutField, htemplateField]
  simp only [Report.lift_ok_bind, hc, hs, hhint, hh]
  rfl

end Campaign

/-! ## Documents -/

namespace Document

variable {r shown : Fields} {m : Markup}

/-- What a document is laid out by, in terms of the configuration that was shown in it. -/
structure Assembly.LaidOutBy (a : Assembly shown m) (r : Fields) : Prop where
  template : (Template.ofValue (r.look "template")).outcome = .ok a.template
  content : (r.look "layout").field "content_width" = .ok a.content
  size : ∃ size, (r.look "layout").field "product_image_size" = .ok size ∧
    Tier.ofValue a.size = Tier.ofValue size

namespace Assembly

/-- A document is laid out by the configuration that is shown in it. -/
lemma laidOutBy_self (a : Assembly r m) : a.LaidOutBy r :=
  ⟨a.ofTemplate, a.ofContent, ⟨a.size, a.ofSize, rfl⟩⟩

namespace LaidOutBy

variable {a : Assembly shown m}

/-- **The escaped copy of a configuration lays out what the configuration does**: the template, the size
and the width, which is a number, are the same before and after. -/
theorem of_escape (h : a.LaidOutBy r.escape) : a.LaidOutBy r := by
  obtain ⟨htemplate, hcontent, ⟨_, hsize, htier⟩⟩ := h
  have hnumber := a.number
  rw [Fields.look_escape, Template.outcome_ofValue_escape] at htemplate
  rw [Fields.look_escape, Value.field_escape] at hcontent hsize
  obtain ⟨content, hc, hescape⟩ := map_eq_ok.mp hcontent
  obtain ⟨size, hs, rfl⟩ := map_eq_ok.mp hsize
  rw [← hescape, Value.number?_escape] at hnumber
  rw [Value.escape_of_number hnumber] at hescape
  exact ⟨htemplate, hescape ▸ hc, ⟨size, hs, htier.trans (Tier.ofValue_escape size)⟩⟩

/-- **So does the configuration with its sets in another order.** -/
theorem of_ordered {ρ : SetOrder} (h : a.LaidOutBy (r.ordered ρ)) : a.LaidOutBy r := by
  obtain ⟨htemplate, hcontent, ⟨_, hsize, htier⟩⟩ := h
  have hnumber := a.number
  rw [Fields.look_ordered, Template.outcome_ofValue_ordered] at htemplate
  rw [Fields.look_ordered, Value.field_ordered] at hcontent hsize
  obtain ⟨content, hc, hordered⟩ := map_eq_ok.mp hcontent
  obtain ⟨size, hs, rfl⟩ := map_eq_ok.mp hsize
  rw [← hordered, Value.number?_ordered] at hnumber
  rw [Value.ordered_of_number hnumber] at hordered
  exact ⟨htemplate, hordered ▸ hc, ⟨size, hs, htier.trans (Tier.ofValue_ordered size)⟩⟩

end LaidOutBy

/-- A document is laid out by the complete configuration, whether it is escaped or not. -/
lemma laidOutBy {escaped : Bool} {ρ : SetOrder}
    (a : Assembly (if escaped then (r.ordered ρ).escape else r.ordered ρ) m) : a.LaidOutBy r := by
  refine LaidOutBy.of_ordered (ρ := ρ) ?_
  cases escaped with
  | true => exact LaidOutBy.of_escape a.laidOutBy_self
  | false => exact a.laidOutBy_self

end Assembly

/-- **What was recommended is true of the document.**  Where a complete configuration has a document,
escaped or not and in whatever order its sets stand, the hints succeed and name the width that the
configuration's template, width and size give.  The images are found among the signs that show the
document: every product's image carries that width, and an item of the list that is only an image the
width of the list.  The hero's image and the container are as wide as the hint for the hero says, and
these are the hints that a build enters in the journal. -/
theorem recommended_cuts {c : Value} (hc : c.isTidy = true) (hr : Config.resolve c = .ok r)
    {escaped : Bool} {ρ : SetOrder} {d : Text} (hd : (html (.map r) escaped ρ).outcome = .ok d) :
    ∃ m template content size n full,
      (markup (.map r) escaped ρ).outcome = .ok m ∧ Markup.text m = d ∧
      m.signs.flatMap Sign.text = d ∧
      (Template.ofValue (r.look "template")).outcome = .ok template ∧
      (r.look "layout").field "content_width" = .ok content ∧
      (r.look "layout").field "product_image_size" = .ok size ∧
      (Width.imageOf (r.look "template") content (Tier.ofValue size)).outcome = .ok n ∧
      (imageHint (r.look "template") content (Tier.ofValue size)).outcome =
        .ok (template.cut n) ∧
      Width.fullBleed content = .ok full ∧
      heroHint content = .ok ((Sign.slot content).text ++ " x 300 px") ∧
      m.images = imagesOf (if escaped then (r.ordered ρ).escape else r.ordered ρ) template content n
        full ∧
      (∃ rest, m.frames = Frame.wrapper :: Frame.container content :: rest) ∧
      ∃ before, Campaign.enterHints (.map r) =
        ⟨before ++ [Campaign.hintLine (template.cut n) (content.display ++ " x 300 px")], .ok ()⟩ := by
  have hrr := Config.resolve_resolve hc hr
  have hproducts := Config.look_products_ordered (ρ := ρ) (Config.look_products hr)
  rw [outcome_html] at hd
  obtain ⟨m, hmarkup, hd⟩ := map_eq_ok.mp hd
  have hm := hmarkup
  rw [outcome_markup hrr] at hm
  split at hm
  · cases hm
  obtain ⟨a⟩ := assembly_of_ok hm
  have hlaid := a.laidOutBy
  obtain ⟨size, hsize, htier⟩ := hlaid.size
  obtain ⟨n, full, hn, hfull, himages⟩ := a.images <| by
    cases escaped with
    | true => exact Config.look_products_of_look (Config.look_products_escape hproducts)
    | false => exact Config.look_products_of_look hproducts
  rw [htier] at hn
  have hhint := imageHint_outcome hlaid.template hn
  obtain ⟨text, hwritten⟩ := a.written
  have hhero := heroHint_eq hwritten
  have hsigns := (Markup.text_eq_signs m).symm.trans hd
  refine ⟨m, a.template, a.content, size, n, full, hmarkup, hd, hsigns, hlaid.template, hlaid.content,
    hsize, imageOf_outcome hlaid.template hn, hhint, hfull, hhero, himages, a.container, ?_⟩
  have htemplate := Config.find?_resolve_isSome hc hr (t := ofString "template") rfl
  exact Campaign.enterHints_eq htemplate hlaid.content hsize hhint hhero

/-- A configuration with an odd width and a size that there is not. -/
def oddWidth : Value := .map (Fields.named [
  ("layout", .map (Fields.named [("content_width", .int 577), ("product_image_size", .int 3)])),
  ("company", .map (Fields.named [("name", .text "Q&A"), ("logo_url", .text "logo.png")])),
  ("products", .list [
    .map (Fields.named [("name", .text "<b>"), ("brand_logo_url", .text "brand.png")]),
    .map (Fields.named [("render_mode", .text "image-only")])])])

/-- Its escaped document has the images that its hints are about. -/
theorem recommended_cuts_oddWidth : ∃ r m template content size n full,
    Config.resolve oddWidth = .ok r ∧ (markup (.map r) true).outcome = .ok m ∧
    (imageHint (r.look "template") content (Tier.ofValue size)).outcome = .ok (template.cut n) ∧
    m.images = imagesOf r.escape template content n full := by
  have hr := eq_ok_of_isOk (x := Config.resolve oddWidth) (by decide +kernel)
  have hd := eq_ok_of_isOk
    (x := (html (.map ((Config.resolve oddWidth).toOption.getD default)) true).outcome)
    (by decide +kernel)
  obtain ⟨m, template, content, size, n, full, hm, -, -, -, -, -, -, hhint, -, -, himages, -⟩ :=
    recommended_cuts (by decide +kernel) hr hd
  exact ⟨_, m, template, content, size, n, full, hr, hm, hhint, himages⟩

end Document

end Mailshot
