import Mailshot.Proofs.Commuting
import Mailshot.Proofs.Cuts
import Mailshot.Proofs.WellTyped

/-!
# One fallback for all

A template that is none of the three falls back to the classic one, and a size that is none of the
three to the large one.  The value and what it falls back to are both at hand in many places: the
hero, the products, their images, the hints and the escaped copy of the configuration.  All of them
read the value in the same way, so it can be replaced by the name that it falls back to.

* `Template.Stands`, `Tier.Stands` — a value in place of another: the same one, or the name that the
  other falls back to.
* `Config.withChoices`, `Config.withWidth` — a configuration with another template and size, or
  another width of the content.
* `Document.ofResolved_withChoices` — the document with values in place of others.
* **`Document.html_withChoices`** — nothing that is shown or recommended tells them apart.
-/

namespace Mailshot

open Text

/-! ## Values in place of others -/

/-- A template in place of another: the same value, or the classic name for one that names none. -/
def Template.Stands (v t : Value) : Prop :=
  t = v ∨ Template.ofValue? v = none ∧ t = .text (ofString Template.classic.name)

/-- A size in place of another: the same value, or the name of the large tier for one that names
none. -/
def Tier.Stands (v s : Value) : Prop :=
  s = v ∨ Tier.ofValue? v = none ∧ s = .text (ofString Tier.large.name)

namespace Template.Stands

variable {v t : Value}

lemma outcome_ofValue (h : Stands v t) {template : Template}
    (hv : (Template.ofValue v).outcome = .ok template) :
    (Template.ofValue t).outcome = .ok template := by
  rcases h with rfl | ⟨hnone, rfl⟩
  · exact hv
  · rw [eq_of_ofValue hv, hnone]
    rfl

lemma escape (h : Stands v t) : Stands v.escape t.escape := by
  rcases h with rfl | ⟨hnone, rfl⟩
  · exact .inl rfl
  · refine .inr ⟨by rwa [ofValue?_escape], ?_⟩
    exact Value.escape_text_of_unmarked classic.name_unmarked

lemma ordered (h : Stands v t) (ρ : SetOrder) (way : Way) :
    Stands (v.ordered ρ way) (t.ordered ρ way) := by
  rcases h with rfl | ⟨hnone, rfl⟩
  · exact .inl rfl
  · exact .inr ⟨by rwa [ofValue?_ordered], Value.ordered_scalar _⟩

lemma isEndless (h : Stands v t) (hv : v.isEndless = false) : t.isEndless = false := by
  rcases h with rfl | ⟨-, rfl⟩
  · exact hv
  · rfl

end Template.Stands

namespace Tier.Stands

variable {v s : Value}

lemma ofValue (h : Stands v s) : Tier.ofValue s = Tier.ofValue v := by
  rcases h with rfl | ⟨hnone, rfl⟩
  · rfl
  · unfold Tier.ofValue
    rw [hnone]
    rfl

lemma escape (h : Stands v s) : Stands v.escape s.escape := by
  rcases h with rfl | ⟨hnone, rfl⟩
  · exact .inl rfl
  · refine .inr ⟨by rwa [ofValue?_escape], ?_⟩
    exact Value.escape_text_of_unmarked large.name_unmarked

lemma ordered (h : Stands v s) (ρ : SetOrder) (way : Way) :
    Stands (v.ordered ρ way) (s.ordered ρ way) := by
  rcases h with rfl | ⟨hnone, rfl⟩
  · exact .inl rfl
  · exact .inr ⟨by rwa [ofValue?_ordered], Value.ordered_scalar _⟩

lemma isEndless (h : Stands v s) (hv : v.isEndless = false) : s.isEndless = false := by
  rcases h with rfl | ⟨-, rfl⟩
  · exact hv
  · rfl

lemma written (h : Stands v s) {text : Text} (hv : v.written = .ok text) :
    ∃ text, s.written = .ok text := by
  rcases h with rfl | ⟨-, rfl⟩
  · exact ⟨text, hv⟩
  · exact ⟨_, rfl⟩

end Tier.Stands

/-! ## Configurations with other choices -/

namespace Config

variable {c : Value} {r fields : Fields} {t s w content size : Value}

/-- A configuration with a field of its layout set. -/
def withLayout (r : Fields) (name : String) (v : Value) : Fields :=
  r.put (.text (ofString "layout")) (.map ((sectionFields r "layout").put (.text (ofString name)) v))

/-- A configuration with another template, and another size of the images. -/
def withChoices (r : Fields) (t s : Value) : Fields :=
  withLayout (r.put (.text (ofString "template")) t) "product_image_size" s

/-- A configuration with another width of the content. -/
def withWidth (r : Fields) (w : Value) : Fields := withLayout r "content_width" w

/-- The size that a configuration gives. -/
def sizeOf (r : Fields) : Value := (sectionFields r "layout").look "product_image_size"

lemma look_layout (r : Fields) (name : String) (v : Value) :
    (withLayout r name v).look "layout" =
      .map ((sectionFields r "layout").put (.text (ofString name)) v) := Fields.look_put_self _ _ _

lemma look_withLayout {key : String} (hk : key ≠ "layout") (r : Fields) (name : String) (v : Value) :
    (withLayout r name v).look key = r.look key := Fields.look_put_of_ne hk _ _

lemma sectionFields_put_template (r : Fields) (t : Value) :
    sectionFields (r.put (.text (ofString "template")) t) "layout" = sectionFields r "layout" := by
  unfold sectionFields
  rw [Fields.look_put_of_ne (by decide)]

lemma look_template_withChoices (r : Fields) (t s : Value) :
    (withChoices r t s).look "template" = t := by
  unfold withChoices
  rw [look_withLayout (by decide), Fields.look_put_self]

lemma look_layout_withChoices (r : Fields) (t s : Value) :
    (withChoices r t s).look "layout" =
      .map ((sectionFields r "layout").put (.text (ofString "product_image_size")) s) := by
  unfold withChoices
  rw [look_layout, sectionFields_put_template]

lemma look_withChoices {key : String} (ht : key ≠ "template") (hl : key ≠ "layout") (r : Fields)
    (t s : Value) : (withChoices r t s).look key = r.look key := by
  unfold withChoices
  rw [look_withLayout hl, Fields.look_put_of_ne ht]

lemma withChoices_escape (r : Fields) (t s : Value) :
    (withChoices r t s).escape = withChoices r.escape t.escape s.escape := by
  simp only [withChoices, withLayout, Fields.escape_put, Value.escape_map, sectionFields_put_template,
    sectionFields_escape]

lemma sizeOf_escape (r : Fields) : sizeOf r.escape = (sizeOf r).escape := by
  unfold sizeOf
  rw [sectionFields_escape, Fields.look_escape]

/-- The way to the size. -/
def sizeWay : Way := [.text (ofString "layout"), .text (ofString "product_image_size")]

lemma withChoices_ordered (r : Fields) (t s : Value) (ρ : SetOrder) :
    (withChoices r t s).ordered ρ =
      withChoices (r.ordered ρ) (t.ordered ρ [.text (ofString "template")]) (s.ordered ρ sizeWay) := by
  simp only [withChoices, withLayout, Fields.ordered_put, Value.ordered_map, sectionFields_put_template,
    sectionFields_ordered, sizeWay, List.nil_append, List.cons_append]

lemma sizeOf_ordered (r : Fields) (ρ : SetOrder) :
    sizeOf (r.ordered ρ) = (sizeOf r).ordered ρ sizeWay := by
  unfold sizeOf
  rw [sectionFields_ordered, Fields.look_ordered]
  rfl

/-- The size that is given is the one that is there. -/
lemma sizeOf_of_field (h : (r.look "layout").field "product_image_size" = .ok size) :
    sizeOf r = size := by
  obtain ⟨fields, hl, hs⟩ := Value.field_eq_ok.mp h
  rw [sizeOf, sectionFields_of_look hl, Fields.look, hs]
  rfl

/-! ## Complete configurations -/

/-- **A complete configuration with other choices is complete**, if its layout is a mapping. -/
theorem resolve_withChoices (hc : c.isTidy = true) (h : resolve c = .ok r)
    (hl : r.look "layout" = .map (sectionFields r "layout")) (t s : Value) :
    resolve (.map (withChoices r t s)) = .ok (withChoices r t s) := by
  have hd := distinct_resolve h
  set base := sectionFields defaults "layout"
  set layout := sectionFields r "layout"
  have hbase : defaults.find? (.text (ofString "layout")) = some (.map base) := rfl
  have hsettled := settled_of_resolve (fun _ => distinct_of_fieldsOrNone hc) h
  have hbd : base.Distinct := (defaults_section (by decide : "layout" ∈ sectionNames)).2.2
  -- the layout is a fixed point of the merge over the usual one, and stays one
  have hfixed : Fields.merge base layout = layout := by
    have hinto := hsettled.mergeInto_eq hbase (Fields.find?_of_look hl (by simp))
    rw [Value.mergeInto] at hinto
    exact Value.map.inj hinto
  have hput : Fields.merge base (layout.put (.text (ofString "product_image_size")) s) =
      layout.put (.text (ofString "product_image_size")) s := by
    rw [Fields.merge_put (b := .text (ofString "large")) ?_ rfl rfl, hfixed]
    rw [← hfixed]
    exact Fields.distinct_merge hbd layout
  have hproducts : (withChoices r t s).look "products" = .list ((listed r).map .map) := by
    rw [look_withChoices (by decide) (by decide), look_products h]
  refine resolve_of_settled ?_ ((hd.put _ _).put _ _) hproducts fun _ hp => merge_blank_of_listed h hp
  unfold withChoices withLayout
  rw [sectionFields_put_template]
  refine (hsettled.put fun b hb => ?_).put fun b hb => ?_
  · cases hb
    exact Fields.mergeInto_of_not_map (by rfl) t
  · cases hb
    simp only [Value.mergeInto]
    exact congrArg Value.map hput

end Config

/-! ## Documents -/

/-- Products are laid out by what a layout says about them and by nothing else in it. -/
lemma Listing.ofTemplate_congr {layout layout' : Value} (h : Layout.ofValue layout' = Layout.ofValue layout)
    (template : Template) (products theme : Value) :
    ofTemplate template products layout' theme = ofTemplate template products layout theme := by
  cases template <;> simp only [ofTemplate, grid, list, stack, h]

/-- A title is made of the hero and the company. -/
lemma Section.title_congr {r r' : Fields} (hh : r'.look "hero" = r.look "hero")
    (hc : r'.look "company" = r.look "company") : title (.map r') = title (.map r) := by
  simp only [title, Value.fields_map, ok_bind, hh, hc]

namespace Config

variable {r : Fields} {t s content size w : Value}

/-- The width of the content is apart from the size. -/
lemma field_content_withChoices (hc : (r.look "layout").field "content_width" = .ok content)
    (t s : Value) : ((withChoices r t s).look "layout").field "content_width" = .ok content := by
  obtain ⟨fields, hl, hfind⟩ := Value.field_eq_ok.mp hc
  rw [look_layout_withChoices, sectionFields_of_look hl, Value.field_eq_ok]
  exact ⟨_, rfl, by rw [Fields.find?_put_of_ne _ _ (by decide), hfind]⟩

lemma field_size_withChoices (r : Fields) (t s : Value) :
    ((withChoices r t s).look "layout").field "product_image_size" = .ok s := by
  rw [look_layout_withChoices, Value.field_eq_ok]
  exact ⟨_, rfl, Fields.find?_put_self _ _ _⟩

end Config

namespace Document

open Config

variable {c : Value} {r : Fields} {t s : Value} {m : Markup}

/-- **A document with values in place of others** is the document. -/
theorem ofResolved_withChoices (ht : Template.Stands (r.look "template") t)
    (hs : Tier.Stands (sizeOf r) s) (h : (ofResolved r).outcome = .ok m) :
    (ofResolved (withChoices r t s)).outcome = .ok m := by
  rw [outcome_ofResolved] at h
  obtain ⟨template, htemplate, h⟩ := bind_eq_ok.mp h
  obtain ⟨content, hcontent, h⟩ := bind_eq_ok.mp h
  obtain ⟨size, hsize, h⟩ := bind_eq_ok.mp h
  obtain ⟨count, hcount, h⟩ := bind_eq_ok.mp h
  obtain ⟨text, hwritten, h⟩ := bind_eq_ok.mp h
  obtain ⟨_, hsizeText, h⟩ := bind_eq_ok.mp h
  rw [sizeOf_of_field hsize] at hs
  obtain ⟨_, hnewText⟩ := hs.written hsizeText
  have hlayout : Layout.ofValue ((withChoices r t s).look "layout") =
      Layout.ofValue (r.look "layout") := by
    rw [Layout.ofValue_of_fields (field_content_withChoices hcontent t s)
      (field_size_withChoices r t s), Layout.ofValue_of_fields hcontent hsize, hs.ofValue]
  have hlook {key : String} (hk : key ≠ "template") (hl : key ≠ "layout") :
      (withChoices r t s).look key = r.look key := look_withChoices hk hl r t s
  rw [outcome_ofResolved]
  simp only [look_template_withChoices, ht.outcome_ofValue htemplate, ok_bind,
    field_content_withChoices hcontent t s, field_size_withChoices, hnewText, hwritten,
    Listing.ofTemplate_congr hlayout,
    Section.title_congr (hlook (by decide : "hero" ≠ "template") (by decide))
      (hlook (by decide : "company" ≠ "template") (by decide)),
    hlook (by decide : "theme" ≠ "template") (by decide),
    hlook (by decide : "hero" ≠ "template") (by decide),
    hlook (by decide : "company" ≠ "template") (by decide),
    hlook (by decide : "products" ≠ "template") (by decide),
    hlook (by decide : "footer" ≠ "template") (by decide), hcount]
  simpa only [hcount, ok_bind] using h

/-- So it is where both are put in order, and escaped. -/
lemma ofResolved_withChoices_shown (ht : Template.Stands (r.look "template") t)
    (hs : Tier.Stands (sizeOf r) s) (escaped : Bool) (ρ : SetOrder)
    (h : (ofResolved (if escaped then (r.ordered ρ).escape else r.ordered ρ)).outcome = .ok m) :
    (ofResolved (if escaped then ((withChoices r t s).ordered ρ).escape
      else (withChoices r t s).ordered ρ)).outcome = .ok m := by
  rw [withChoices_ordered]
  replace ht := ht.ordered ρ [.text (ofString "template")]
  replace hs := hs.ordered ρ sizeWay
  rw [← sizeOf_ordered] at hs
  cases escaped with
  | false => exact ofResolved_withChoices (Fields.look_ordered r _ ▸ ht) hs h
  | true =>
      simp only [if_true] at h ⊢
      rw [withChoices_escape]
      refine ofResolved_withChoices ?_ ?_ h
      · rw [Fields.look_escape, Fields.look_ordered]
        exact ht.escape
      · rw [sizeOf_escape]
        exact hs.escape

end Document

namespace Config

variable {r : Fields} {t s : Value}

/-- What takes the place of a value in a configuration that does not hold itself makes none that
does. -/
lemma isEndless_withChoices (hl : r.look "layout" = .map (sectionFields r "layout"))
    (ht : Template.Stands (r.look "template") t) (hs : Tier.Stands (sizeOf r) s)
    (h : r.isEndless = false) : (withChoices r t s).isEndless = false := by
  have hfinite := Value.hereditary_isFinite
  have hr : (Value.map r).isEndless = false := h
  have hlayout : (Value.map (sectionFields r "layout")).isEndless = false := by
    rw [← hl]
    exact hfinite.look hr
  have hput : (Value.map (r.put (.text (ofString "template")) t)).isEndless = false :=
    hfinite.put hr trivial (ht.isEndless (hfinite.look hr))
  have hsize : (Value.map ((sectionFields r "layout").put (.text (ofString "product_image_size"))
      s)).isEndless = false :=
    hfinite.put hlayout trivial (hs.isEndless (hfinite.look hlayout))
  unfold withChoices withLayout
  rw [sectionFields_put_template]
  exact hfinite.put hput trivial hsize

end Config

/-! ## Hints -/

namespace Report

variable {α β : Type} {x y : Report α}

/-- The lines of a journal that inform. -/
def news (x : Report α) : List Entry := x.journal.filter fun entry => entry.level = .info

/-- Two reports with one outcome that inform of the same; their warnings may differ. -/
def SameNews (x y : Report α) : Prop := x.outcome = y.outcome ∧ x.news = y.news

/-- A sequence goes on in the same way after either. -/
lemma SameNews.bind (h : SameNews x y) (f : α → Report β) : SameNews (x >>= f) (y >>= f) := by
  obtain ⟨journal, outcome⟩ := x
  obtain ⟨journal', outcome'⟩ := y
  obtain ⟨rfl, hnews⟩ := h
  cases outcome with
  | error e => exact ⟨rfl, hnews⟩
  | ok a =>
      refine ⟨rfl, ?_⟩
      show (journal ++ (f a).journal).filter _ = (journal' ++ (f a).journal).filter _
      rw [List.filter_append, List.filter_append]
      exact congrArg (· ++ _) hnews

end Report

namespace Template

/-- A template is read with a warning at most. -/
lemma news_ofValue (v : Value) : (ofValue v).news = [] := by
  unfold ofValue
  cases ofValue? v with
  | some template => rfl
  | none => cases v.named <;> rfl

lemma Stands.sameNews {v t : Value} (h : Stands v t) {template : Template}
    (hv : (ofValue v).outcome = .ok template) : Report.SameNews (ofValue t) (ofValue v) :=
  ⟨(h.outcome_ofValue hv).trans hv.symm, (news_ofValue t).trans (news_ofValue v).symm⟩

end Template

namespace Campaign

variable {r layout : Fields} {t w s : Value}

/-- The hints of a configuration are the one for its images, and the line that names it. -/
lemma enterHints_of_find (ht : r.find? (.text (ofString "template")) = some t)
    (hl : r.find? (.text (ofString "layout")) = some (.map layout))
    (hw : layout.find? (.text (ofString "content_width")) = some w)
    (hs : layout.find? (.text (ofString "product_image_size")) = some s) :
    enterHints (.map r) = (do
      let hint ← imageHint t w (Tier.ofValue s)
      Report.enter .info
        ("Recommended image cut: " ++ hint ++ " (hero: " ++ (← heroHint w) ++ ")")) := by
  have hfield {fields : Fields} {name : String} {v : Value}
      (h : fields.find? (.text (ofString name)) = some v) : (Value.map fields).field name = .ok v :=
    Value.field_eq_ok.mpr ⟨fields, rfl, h⟩
  unfold enterHints
  simp only [hfield ht, hfield hl, hfield hw, hfield hs, Report.lift_ok_bind]

end Campaign

namespace Config

variable {r : Fields} {t s size w : Value} {template : Template}

/-- The hints of a configuration do not tell a value from one in its place, whatever the width. -/
lemma sameNews_hints (ht : Template.Stands (r.look "template") t) (hs : Tier.Stands (sizeOf r) s)
    (htemplate : (Template.ofValue (r.look "template")).outcome = .ok template)
    (hfind : (r.find? (.text (ofString "template"))).isSome = true)
    (hsize : (r.look "layout").field "product_image_size" = .ok size) (w : Value) :
    Report.SameNews (Width.imageOf t w (Tier.ofValue s))
        (Width.imageOf (r.look "template") w (Tier.ofValue (sizeOf r))) ∧
      Report.SameNews (imageHint t w (Tier.ofValue s))
        (imageHint (r.look "template") w (Tier.ofValue (sizeOf r))) ∧
      Report.SameNews (Campaign.enterHints (.map (withWidth (withChoices r t s) w)))
        (Campaign.enterHints (.map (withWidth r w))) := by
  have hread := ht.sameNews htemplate
  have himage : Report.SameNews (imageHint t w (Tier.ofValue s))
      (imageHint (r.look "template") w (Tier.ofValue (sizeOf r))) := by
    rw [hs.ofValue]
    exact hread.bind _
  refine ⟨by rw [hs.ofValue]; exact hread.bind _, himage, ?_⟩
  obtain ⟨layout, hl, hfound⟩ := Value.field_eq_ok.mp hsize
  obtain ⟨v, hv⟩ := Option.isSome_iff_exists.mp hfind
  have hlook : r.look "template" = v := by
    rw [Fields.look, hv]
    rfl
  have hold : Campaign.enterHints (.map (withWidth r w)) = _ :=
    Campaign.enterHints_of_find (t := v) (w := w) (s := size)
      (by rw [withWidth, withLayout, Fields.find?_put_of_ne _ _ (by decide), hv])
      (Fields.find?_put_self _ _ _) (Fields.find?_put_self _ _ _)
      (by rw [Fields.find?_put_of_ne _ _ (by decide), sectionFields_of_look hl, hfound])
  have hnew : Campaign.enterHints (.map (withWidth (withChoices r t s) w)) = _ :=
    Campaign.enterHints_of_find (t := t) (w := w) (s := s)
      (by rw [withWidth, withLayout, Fields.find?_put_of_ne _ _ (by decide), withChoices, withLayout,
        Fields.find?_put_of_ne _ _ (by decide), Fields.find?_put_self])
      (Fields.find?_put_self _ _ _) (Fields.find?_put_self _ _ _)
      (by rw [Fields.find?_put_of_ne _ _ (by decide), sectionFields_of_look
        (look_layout_withChoices r t s), Fields.find?_put_self])
  rw [hlook, sizeOf_of_field hsize] at himage
  rw [hold, hnew]
  exact himage.bind _

end Config

/-! ## One fallback for all -/

namespace Document

open Config

/-- **One fallback for all.**  Escaping a value never changes what it names.  And where a configuration
has a document, escaped or not and in whatever order its sets stand, its template can be replaced by the classic one if it names none, and
its size by the large one: the configuration is complete as it was, it has the same document letter by
letter, and whatever the width of the content, the widths and hints for its images are the same, and
so is the line with the hints in the journal.  One template and one tier decide about everything in
the document. -/
theorem html_withChoices :
    (∀ v : Value, Template.ofValue? v.escape = Template.ofValue? v ∧
      Tier.ofValue? v.escape = Tier.ofValue? v) ∧
    ∀ {c : Value} {r : Fields} {t s : Value} {escaped : Bool} {ρ : SetOrder} {d : Text},
      c.isTidy = true →
      resolve c = .ok r → Template.Stands (r.look "template") t → Tier.Stands (sizeOf r) s →
      (html c escaped ρ).outcome = .ok d →
      resolve (.map (withChoices r t s)) = .ok (withChoices r t s) ∧
      (∀ c' : Value, resolve c' = .ok (withChoices r t s) →
        (html c' escaped ρ).outcome = .ok d) ∧
      (∀ w : Value,
        Report.SameNews (Width.imageOf t w (Tier.ofValue s))
          (Width.imageOf (r.look "template") w (Tier.ofValue (sizeOf r))) ∧
        Report.SameNews (imageHint t w (Tier.ofValue s))
          (imageHint (r.look "template") w (Tier.ofValue (sizeOf r))) ∧
        Report.SameNews (Campaign.enterHints (.map (withWidth (withChoices r t s) w)))
          (Campaign.enterHints (.map (withWidth r w)))) ∧
      let shown := if escaped then (r.ordered ρ).escape else r.ordered ρ
      ∃ (m : Markup) (a : Assembly shown m), m.text = d ∧
        a.template = (Template.ofValue? (r.look "template")).getD .classic ∧
        Layout.ofValue (shown.look "layout") =
          .ok ⟨(Tier.ofValue? (sizeOf r)).getD .large, a.content⟩ := by
  refine ⟨fun v => ⟨Template.ofValue?_escape v, Tier.ofValue?_escape v⟩, ?_⟩
  intro c r t s escaped ρ d hc hr ht hs hd
  obtain ⟨_, m, hr', hendless, hm, hd⟩ := html_eq_ok.mp hd
  obtain rfl : r = _ := Except.ok.inj (hr.symm.trans hr')
  obtain ⟨a⟩ := assembly_of_ok hm
  -- what the document is laid out by, in terms of the configuration as it stands
  have hlaid := a.laidOutBy
  obtain ⟨size, hsize, htier⟩ := hlaid.size
  obtain ⟨layout, hl, -⟩ := Value.field_eq_ok.mp hsize
  have hlayout : r.look "layout" = .map (sectionFields r "layout") := by
    rw [sectionFields_of_look hl, hl]
  refine ⟨resolve_withChoices hc hr hlayout t s, fun c' hc' => ?_, fun w => ?_,
    m, a, hd, Template.eq_of_ofValue hlaid.template, ?_⟩
  · exact html_eq_ok.mpr ⟨_, m, hc', fun he => isEndless_withChoices hlayout ht hs (hendless he),
      ofResolved_withChoices_shown ht hs escaped ρ hm, hd⟩
  · exact sameNews_hints ht hs hlaid.template
      (find?_resolve_isSome hc hr (t := ofString "template") rfl) hsize w
  · rw [Layout.ofValue_of_fields a.ofContent a.ofSize, htier, sizeOf_of_field hsize]
    rfl

/-- A configuration whose template is a list with a name in it, and whose size is a number. -/
def strange : Value := .map (Fields.named [
  ("template", .list [.text "modern"]),
  ("layout", .map (Fields.named [("product_image_size", .int 3)])),
  ("products", .list [.map (Fields.named [("name", .text "<b>")])])])

/-- It has the document of the classic template and the large size. -/
theorem html_withChoices_strange : ∃ r d, resolve strange = .ok r ∧
    (html strange true).outcome = .ok d ∧
    (html (.map (withChoices r (.text "classic") (.text "large"))) true).outcome = .ok d := by
  have hr := eq_ok_of_isOk (x := resolve strange) (by decide +kernel)
  have hd := eq_ok_of_isOk (x := (html strange true).outcome) (by decide +kernel)
  obtain ⟨hresolve, hhtml, -⟩ := html_withChoices.2 (t := .text "classic") (s := .text "large")
    (by decide +kernel) hr (.inr ⟨by decide +kernel, rfl⟩) (.inr ⟨by decide +kernel, rfl⟩) hd
  exact ⟨_, _, hr, hd, hhtml _ hresolve⟩

end Document

end Mailshot
