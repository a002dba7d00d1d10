import Mailshot.Proofs.Assembly
import Mailshot.Proofs.Commuting
import Mailshot.Proofs.Completion
import Mailshot.Proofs.Holding
import Mailshot.Proofs.Steady

/-!
# Products in isolation

What a document shows of a product depends on no other product and on no place: the items stand in
order in gaps that only the number of products and the rest of the configuration decide.

* `Document.item` — the text of one product's item.
* `Document.gaps` — the texts around the items, made without any product.
* **`Document.made_eq_weave`** — a document is its items put into its gaps, and is there exactly where
  all of them are.
* `Change.Brings`, `Config.Texts.apply` — changes that keep what a configuration shows of one kind.
* `Document.Woven` — a document with its gaps and items.
* **`Document.Woven.update`**, **`Document.Woven.remove`**, **`Document.Woven.add`** — what a change of
  one product leaves of them, unless a set shows.
* **`Document.in_isolation`** — every document is woven; a product that is changed, taken out or put at
  the end leaves the other items as they are, unless a set shows.
-/

namespace Mailshot

open Text

/-! ## Configurations as they are compiled -/

namespace Config

/-- Fields as they are compiled: escaped if they are to be.  Those of a mapping that holds itself
never are to the end. -/
def prepared (escaped : Bool) (fields : Fields) : Except Fault Fields :=
  if escaped && fields.isEndless then .error .endless
  else .ok (if escaped then fields.escape else fields)

/-- A value as it shows in a document that may be escaped. -/
def encoded (escaped : Bool) (v : Value) : Value := if escaped then v.escape else v

variable {escaped : Bool} {c r fields : Fields}

lemma prepared_eq_ok : prepared escaped c = .ok fields ↔
    (escaped = true → c.isEndless = false) ∧ fields = if escaped then c.escape else c := by
  constructor
  · intro h
    unfold prepared at h
    split at h
    · cases h
    · next he =>
        refine ⟨fun htrue => ?_, (Except.ok.inj h).symm⟩
        simpa [htrue] using he
  · rintro ⟨hfinite, rfl⟩
    refine if_neg fun he => ?_
    obtain ⟨htrue, hendless⟩ := Bool.and_eq_true_iff.mp he
    rw [hfinite htrue] at hendless
    cases hendless

lemma look_prepared (h : prepared escaped c = .ok fields) (name : String) :
    fields.look name = encoded escaped (c.look name) := by
  rw [(prepared_eq_ok.mp h).2]
  cases escaped with
  | false => rfl
  | true => exact Fields.look_escape c name

lemma shown_prepared (h : prepared escaped c = .ok fields) (name : String) :
    fields.shown name = encoded escaped (c.shown name) := by
  rw [(prepared_eq_ok.mp h).2]
  cases escaped with
  | false => rfl
  | true => exact Fields.shown_escape c name

/-- A configuration holds itself if one of its products does or what is left without them. -/
lemma isEndless_withListed (c : Fields) (products : List Fields) :
    (withListed c products).isEndless = false ↔
      (withListed c []).isEndless = false ∧ ∀ p ∈ products, p.isEndless = false := by
  have h := Value.hereditary_isFinite
  constructor
  · intro hfinite
    have hempty : (Value.list []).isEndless = false := rfl
    have hbare : (withListed (withListed c products) []).isEndless = false :=
      h.put hfinite trivial hempty
    have hlist : ((withListed c products).look "products").isEndless = false := h.look hfinite
    rw [withListed, Fields.look_put_self, h.list, List.forall_mem_map] at hlist
    rw [withListed, withListed, Fields.put_put] at hbare
    exact ⟨hbare, hlist⟩
  · rintro ⟨hbare, hproducts⟩
    have hlist : (Value.list (products.map .map)).isEndless = false :=
      h.list.mpr (List.forall_mem_map.mpr hproducts)
    have hput : (withListed (withListed c []) products).isEndless = false :=
      h.put hbare trivial hlist
    rwa [withListed, withListed, Fields.put_put] at hput

lemma mapM_prepared {products ps : List Fields} : products.mapM (prepared escaped) = .ok ps ↔
    (escaped = true → ∀ p ∈ products, p.isEndless = false) ∧
      ps = products.map fun p => if escaped then p.escape else p := by
  rw [mapM_eq_ok]
  constructor
  · intro h
    induction h with
    | nil => simp
    | cons hp _ ih =>
        obtain ⟨hfinite, rfl⟩ := prepared_eq_ok.mp hp
        obtain ⟨hrest, rfl⟩ := ih
        exact ⟨fun he => List.forall_mem_cons.mpr ⟨hfinite he, hrest he⟩, rfl⟩
  · rintro ⟨hfinite, rfl⟩
    rw [List.forall₂_map_right_iff, List.forall₂_same]
    exact fun p hp => prepared_eq_ok.mpr ⟨fun he => hfinite he p hp, rfl⟩

lemma withListed_withListed (c : Fields) (ps qs : List Fields) :
    withListed (withListed c ps) qs = withListed c qs := Fields.put_put _ _ _ _

/-- **A configuration is prepared product by product.** -/
theorem prepared_withListed {products : List Fields} :
    prepared escaped (withListed c products) = .ok fields ↔
      ∃ rest ps, prepared escaped (withListed c []) = .ok rest ∧
        products.mapM (prepared escaped) = .ok ps ∧ fields = withListed rest ps := by
  have hsplit : (if escaped then (withListed c products).escape else withListed c products) =
      withListed (if escaped then (withListed c []).escape else withListed c [])
        (products.map fun p => if escaped then p.escape else p) := by
    cases escaped with
    | false => simp [withListed_withListed]
    | true =>
        rw [if_pos rfl, if_pos rfl, withListed_escape, withListed_escape, withListed_withListed]
        simp
  simp only [prepared_eq_ok, mapM_prepared, isEndless_withListed c products, hsplit, forall_and]
  constructor
  · rintro ⟨⟨hrest, hproducts⟩, rfl⟩
    exact ⟨_, _, ⟨hrest, rfl⟩, ⟨hproducts, rfl⟩, rfl⟩
  · rintro ⟨_, _, ⟨hrest, rfl⟩, ⟨hproducts, rfl⟩, rfl⟩
    exact ⟨⟨hrest, hproducts⟩, rfl⟩

end Config

/-! ## The frame of a document -/

namespace Document

/-- What a document has around its products, and the form in which each of them stands there. -/
structure Frame where
  template : Template
  form : Fields → Part
  front : Markup
  back : Markup

/-- The frame of a document, with everything checked that is checked of a configuration but for its
products. -/
def frame (config : Fields) : Except Fault Frame := do
  let layout := config.look "layout"
  let theme := config.look "theme"
  let company := config.look "company"
  let template ← (Template.ofValue (config.look "template")).outcome
  let content ← layout.field "content_width"
  let size ← layout.field "product_image_size"
  let _ ← content.written
  let _ ← size.written
  let header ← Section.header company theme
  let hero ← Section.hero (config.look "hero") theme (some template) content
  let footer ← Section.footer company (config.look "footer") theme
  let front ← Part.join [opening (Section.title (.map config)) content
    (theme.field "background_color"), "\n", header, "\n", hero]
  let back ← Part.join ["\n", footer, closing]
  return ⟨template, ← Listing.form template layout theme, front, back⟩

/-- The table of the products with items in their places. -/
def stage (template : Template) (items : List Markup) : Part := do
  productsPart (← Listing.table (Listing.arrange template items))

lemma frame_withListed (c : Fields) (products : List Fields) :
    frame (Config.withListed c products) = frame c := by
  have hlook {key : String} (hk : key ≠ "products") :=
    Config.look_withListed_of_ne hk c products
  simp only [frame, Section.title, Value.fields_map, ok_bind, hlook (show "layout" ≠ _ by decide),
    hlook (show "theme" ≠ _ by decide), hlook (show "company" ≠ _ by decide),
    hlook (show "template" ≠ _ by decide), hlook (show "hero" ≠ _ by decide),
    hlook (show "footer" ≠ _ by decide)]

/-- A document joined of what stands in front of its products, the products and what stands behind. -/
lemma join_document {title ground : Except Fault Value} {content : Value}
    {header hero listing footer m : Markup} :
    Part.join [opening title content ground, "\n", header, "\n", hero, productsPart listing, "\n",
        footer, closing] = .ok m ↔
      ∃ front products back, Part.join [opening title content ground, "\n", header, "\n", hero] =
        .ok front ∧ productsPart listing = .ok products ∧
        Part.join ["\n", footer, closing] = .ok back ∧ m = front ++ products ++ back := by
  have hsplit := @join_append_eq_ok [opening title content ground, "\n", header, "\n", hero]
    [productsPart listing, "\n", footer, closing] m
  rw [List.cons_append, List.cons_append, List.cons_append, List.cons_append, List.cons_append,
    List.nil_append] at hsplit
  rw [hsplit]
  simp only [join_cons_eq_ok (p := productsPart listing)]
  constructor
  · rintro ⟨front, _, hfront, ⟨products, back, hproducts, hback, rfl⟩, rfl⟩
    exact ⟨front, products, back, hfront, hproducts, hback, (List.append_assoc _ _ _).symm⟩
  · rintro ⟨front, products, back, hfront, hproducts, hback, rfl⟩
    exact ⟨front, _, hfront, ⟨products, back, hproducts, hback, rfl⟩, List.append_assoc _ _ _⟩

/-- **A document is the frame around the items.** -/
theorem ofResolved_eq_ok {r : Fields} {ps : List Fields} {m : Markup}
    (hp : r.look "products" = .list (ps.map .map)) : (ofResolved r).outcome = .ok m ↔
      ∃ F items products, frame r = .ok F ∧ ps.mapM F.form = .ok items ∧
        stage F.template items = .ok products ∧ m = F.front ++ products ++ F.back := by
  have hcount : (Value.list (ps.map Value.map)).count = .ok (ps.map Value.map).length := rfl
  rw [outcome_ofResolved, hp]
  simp only [Listing.ofTemplate_eq, hcount, ok_bind]
  constructor
  · intro h
    obtain ⟨template, htemplate, h⟩ := bind_eq_ok.mp h
    obtain ⟨content, hcontent, h⟩ := bind_eq_ok.mp h
    obtain ⟨size, hsize, h⟩ := bind_eq_ok.mp h
    obtain ⟨_, hcontentWritten, h⟩ := bind_eq_ok.mp h
    obtain ⟨_, hsizeWritten, h⟩ := bind_eq_ok.mp h
    obtain ⟨header, hheader, h⟩ := bind_eq_ok.mp h
    obtain ⟨hero, hhero, h⟩ := bind_eq_ok.mp h
    obtain ⟨listing, hlisting, h⟩ := bind_eq_ok.mp h
    obtain ⟨form, hform, hlisting⟩ := bind_eq_ok.mp hlisting
    obtain ⟨items, hitems, htable⟩ := bind_eq_ok.mp hlisting
    obtain ⟨footer, hfooter, h⟩ := bind_eq_ok.mp h
    obtain ⟨front, products, back, hfront, hproducts, hback, rfl⟩ := join_document.mp h
    refine ⟨⟨template, form, front, back⟩, items, products, ?_, hitems, ?_, rfl⟩
    · simp only [frame, htemplate, hcontent, hsize, hcontentWritten, hsizeWritten, hheader, hhero,
        hfooter, hfront, hback, hform, ok_bind]
      rfl
    · rw [stage, htable, ok_bind, hproducts]
  · rintro ⟨F, items, products, hF, hitems, hstage, rfl⟩
    obtain ⟨template, htemplate, h⟩ := bind_eq_ok.mp hF
    obtain ⟨content, hcontent, h⟩ := bind_eq_ok.mp h
    obtain ⟨size, hsize, h⟩ := bind_eq_ok.mp h
    obtain ⟨_, hcontentWritten, h⟩ := bind_eq_ok.mp h
    obtain ⟨_, hsizeWritten, h⟩ := bind_eq_ok.mp h
    obtain ⟨header, hheader, h⟩ := bind_eq_ok.mp h
    obtain ⟨hero, hhero, h⟩ := bind_eq_ok.mp h
    obtain ⟨footer, hfooter, h⟩ := bind_eq_ok.mp h
    obtain ⟨front, hfront, h⟩ := bind_eq_ok.mp h
    obtain ⟨back, hback, h⟩ := bind_eq_ok.mp h
    obtain ⟨form, hform, h⟩ := bind_eq_ok.mp h
    cases h
    obtain ⟨listing, htable, hproducts⟩ := bind_eq_ok.mp hstage
    simp only [htemplate, hcontent, hsize, hcontentWritten, hsizeWritten, hheader, hhero, hfooter,
      hform, hitems, htable, ok_bind]
    exact join_document.mpr ⟨front, products, back, hfront, hproducts, hback, rfl⟩

/-- A markup between parts that are made. -/
lemma join_around (ps qs : List Part) {front m back : Markup} (hps : Part.join ps = .ok front)
    (hqs : Part.join qs = .ok back) : Part.join (ps ++ .ok m :: qs) = .ok (front ++ m ++ back) :=
  join_append_eq_ok.mpr ⟨front, _, hps, join_cons_eq_ok.mpr ⟨m, back, rfl, hqs, rfl⟩,
    List.append_assoc _ _ _⟩

/-- The stage is fixed text around the arranged items. -/
lemma stage_eq : ∃ front back : Markup, front.countP Listing.isSlot = 0 ∧
    back.countP Listing.isSlot = 0 ∧ ∀ template items,
      stage template items = .ok (front ++ (Listing.arrange template items).flatten ++ back) := by
  obtain ⟨front, back, hfront, hback, htable⟩ : ∃ front back : Markup,
      front.countP Listing.isSlot = 0 ∧ back.countP Listing.isSlot = 0 ∧
        ∀ rows, Listing.table rows = .ok (front ++ rows.flatten ++ back) := by
    refine ⟨_, _, ?_, ?_, fun rows => join_around ["<table ", .tableAttributes, ">"]
      ["</table>"] rfl rfl⟩ <;> rfl
  obtain ⟨outerFront, outerBack, houterFront, houterBack, hproducts⟩ : ∃ front back : Markup,
      front.countP Listing.isSlot = 0 ∧ back.countP Listing.isSlot = 0 ∧
        ∀ m, productsPart m = .ok (front ++ m ++ back) := by
    refine ⟨_, _, ?_, ?_, fun m => join_around
      ["\n\n<!-- ── PRODUCTS ── -->", "\n<table ", .tableAttributes, ">", "\n  <tr>",
        "\n    <td style=\"padding: 20px;\">", "\n      "]
      ["\n    </td>", "\n  </tr>", "\n</table>"] rfl rfl⟩ <;> rfl
  refine ⟨outerFront ++ front, back ++ outerBack, ?_, ?_, fun template items => ?_⟩
  · rw [List.countP_append, houterFront, hfront]
  · rw [List.countP_append, hback, houterBack]
  · rw [stage, htable, ok_bind, hproducts]
    simp only [List.append_assoc]

/-- Items stand on the stage where it has its places. -/
lemma weave_stage (template : Template) (items : List Markup) :
    ∃ places products, stage template (Listing.places items.length) = .ok places ∧
      stage template items = .ok products ∧ places.countP Listing.isSlot = items.length ∧
      weave (places.splitOnP Listing.isSlot) items = products := by
  obtain ⟨front, back, hfront, hback, hstage⟩ := stage_eq
  have hcount := Listing.countP_arrange_places template items.length
  refine ⟨_, _, hstage _ _, hstage _ _, ?_, ?_⟩
  · rw [List.countP_append, List.countP_append, hfront, hback, hcount, Nat.zero_add, Nat.add_zero]
  · rw [weave_splitOnP_around hfront hcount hback, Listing.weave_arrange]

/-! ## Items and gaps -/

/-- The text of the item of a product, as it was given.  Template, layout and theme are those of the
completed configuration. -/
def item (escaped : Bool) (template layout theme : Value) (product : Fields) : Except Fault Text := do
  let template ← (Template.ofValue template).outcome
  let form ← Listing.form template (Config.encoded escaped layout) (Config.encoded escaped theme)
  let product ← Config.prepared escaped (Fields.merge Product.blank product)
  return (← form product).text

/-- The texts around the items of so many products: the document of a configuration with places
instead of items, cut at these.  No product of the configuration is looked at. -/
def gaps (escaped : Bool) (rest : Fields) (n : Nat) : Except Fault (List Text) := do
  let rest ← Config.prepared escaped (← Config.resolve (.map (Config.withListed rest [])))
  let F ← frame rest
  let places ← stage F.template (Listing.places n)
  return (enclose F.front F.back (places.splitOnP Listing.isSlot)).map Markup.text

variable {c r rest : Fields} {escaped : Bool} {F : Frame}

/-- The template and the form of a frame. -/
lemma form_of_frame {config : Fields} (h : frame config = .ok F) :
    (Template.ofValue (config.look "template")).outcome = .ok F.template ∧
      Listing.form F.template (config.look "layout") (config.look "theme") = .ok F.form := by
  obtain ⟨template, htemplate, h⟩ := bind_eq_ok.mp h
  obtain ⟨_, -, h⟩ := bind_eq_ok.mp h
  obtain ⟨_, -, h⟩ := bind_eq_ok.mp h
  obtain ⟨_, -, h⟩ := bind_eq_ok.mp h
  obtain ⟨_, -, h⟩ := bind_eq_ok.mp h
  obtain ⟨_, -, h⟩ := bind_eq_ok.mp h
  obtain ⟨_, -, h⟩ := bind_eq_ok.mp h
  obtain ⟨_, -, h⟩ := bind_eq_ok.mp h
  obtain ⟨_, -, h⟩ := bind_eq_ok.mp h
  obtain ⟨_, -, h⟩ := bind_eq_ok.mp h
  obtain ⟨form, hform, h⟩ := bind_eq_ok.mp h
  cases h
  exact ⟨htemplate, hform⟩

/-- The form of an item is that of the frame. -/
lemma item_eq (hrest : Config.prepared escaped (Config.withListed r []) = .ok rest)
    (hF : frame rest = .ok F) (p : Fields) :
    item escaped (r.look "template") (r.look "layout") (r.look "theme") p =
      (Config.prepared escaped (Fields.merge Product.blank p) >>= F.form).map Markup.text := by
  have hlook {key : String} (hk : key ≠ "products") :
      rest.look key = Config.encoded escaped (r.look key) := by
    rw [Config.look_prepared hrest, Config.look_withListed_of_ne hk]
  obtain ⟨htemplate, hform⟩ := form_of_frame hF
  rw [hlook (by decide), hlook (by decide)] at hform
  rw [hlook (by decide)] at htemplate
  have hraw : (Template.ofValue (r.look "template")).outcome = .ok F.template := by
    rw [← htemplate]
    cases escaped with
    | false => rfl
    | true => exact (Template.outcome_ofValue_escape _).symm
  simp only [item, hraw, hform, ok_bind]
  cases Config.prepared escaped (Fields.merge Product.blank p) with
  | error e => rfl
  | ok q => cases hq : F.form q <;> simp [hq, Except.map, pure, Except.pure]

/-- Items are made by preparing their products and putting these into the form of the frame. -/
lemma mapM_item {products : List Fields} {texts : List Text}
    (hrest : Config.prepared escaped (Config.withListed r []) = .ok rest) (hF : frame rest = .ok F) :
    products.mapM (item escaped (r.look "template") (r.look "layout") (r.look "theme")) = .ok texts ↔
      ∃ ps items, (products.map (Fields.merge Product.blank)).mapM (Config.prepared escaped) = .ok ps ∧
        ps.mapM F.form = .ok items ∧ texts = items.map Markup.text := by
  have hmap : products.mapM (item escaped (r.look "template") (r.look "layout") (r.look "theme")) =
      (products.mapM fun p => Config.prepared escaped (Fields.merge Product.blank p) >>= F.form).map
        (List.map Markup.text) :=
    mapM_eq_map (List.forall₂_same.mpr fun p _ => item_eq hrest hF p)
  simp only [hmap, map_eq_ok, mapM_bind_eq_ok, List.mapM_map]
  constructor
  · rintro ⟨items, ⟨ps, hps, hitems⟩, rfl⟩
    exact ⟨ps, items, hps, hitems, rfl⟩
  · rintro ⟨ps, items, hps, hitems, rfl⟩
    exact ⟨items, ⟨ps, hps, hitems⟩, rfl⟩

/-- The texts of items put into the gaps of a frame. -/
lemma weave_frame {items : List Markup} {places products : Markup}
    (hplaces : stage F.template (Listing.places items.length) = .ok places)
    (hproducts : stage F.template items = .ok products) :
    weave ((enclose F.front F.back (places.splitOnP Listing.isSlot)).map Markup.text)
      (items.map Markup.text) = Markup.text (F.front ++ products ++ F.back) := by
  obtain ⟨_, _, hplaces', hproducts', hcount, rfl⟩ := weave_stage F.template items
  obtain rfl := Except.ok.inj (hplaces.symm.trans hplaces')
  obtain rfl := Except.ok.inj (hproducts.symm.trans hproducts')
  have hlength : (places.splitOnP Listing.isSlot).length = items.length + 1 := by
    rw [length_splitOnP, hcount]
  rw [← weave_enclose F.front F.back hlength]
  exact (flatMap_weave Piece.text _ items).symm

/-- The gaps of a configuration are those of its frame. -/
lemma gaps_eq (hc : Config.Editable c) (n : Nat) : gaps escaped c n = (do
    let rest ← Config.prepared escaped (Config.withListed (Config.completed c) [])
    let F ← frame rest
    let places ← stage F.template (Listing.places n)
    return (enclose F.front F.back (places.splitOnP Listing.isSlot)).map Markup.text) := by
  have hbare : Config.Editable (Config.withListed c []) :=
    hc.withListed fun _ h => absurd h List.not_mem_nil
  rw [gaps, Config.resolve_of_editable hbare, Config.completed_withListed hc.config]
  rfl

/-- A completed configuration is prepared without its products, and then these one by one. -/
lemma prepared_completed {fields : Fields} :
    Config.prepared escaped (Config.completed c) = .ok fields ↔ ∃ rest ps,
      Config.prepared escaped (Config.withListed (Config.completed c) []) = .ok rest ∧
      ((Config.listed c).map (Fields.merge Product.blank)).mapM (Config.prepared escaped) = .ok ps ∧
      fields = Config.withListed rest ps := by
  rw [← Config.prepared_withListed]
  unfold Config.completed
  rw [Config.withListed_withListed]

/-- **A document is its items put into its gaps**, and it is there exactly where all of them are. -/
theorem made_eq_weave {d : Text} (hc : Config.Editable c) :
    Made escaped (Config.completed c) d ↔ ∃ gs items,
      gaps escaped c (Config.listed c).length = .ok gs ∧
      (Config.listed c).mapM (item escaped ((Config.completed c).look "template")
        ((Config.completed c).look "layout") ((Config.completed c).look "theme")) = .ok items ∧
      d = weave gs items := by
  have hproducts {rest : Fields} {ps : List Fields} :
      (Config.withListed rest ps).look "products" = .list (ps.map .map) :=
    Fields.look_put_self _ _ _
  rw [gaps_eq hc]
  constructor
  · rintro ⟨hfinite, m, hm, rfl⟩
    obtain ⟨rest, ps, hrest, hps, hfields⟩ :=
      prepared_completed.mp (Config.prepared_eq_ok.mpr ⟨hfinite, rfl⟩)
    rw [hfields] at hm
    obtain ⟨F, items, products, hF, hitems, hstage, rfl⟩ := (ofResolved_eq_ok hproducts).mp hm
    rw [frame_withListed] at hF
    obtain ⟨places, _, hplaces, -⟩ := weave_stage F.template items
    have hlength : items.length = (Config.listed c).length := by
      rw [← (mapM_eq_ok.mp hitems).length_eq, ← (mapM_eq_ok.mp hps).length_eq, List.length_map]
    refine ⟨_, _, ?_, (mapM_item hrest hF).mpr ⟨ps, items, hps, hitems, rfl⟩,
      (weave_frame hplaces hstage).symm⟩
    rw [hrest, ok_bind, hF, ok_bind, ← hlength, hplaces]
    rfl
  · rintro ⟨gs, texts, hgs, htexts, rfl⟩
    obtain ⟨rest, hrest, hgs⟩ := bind_eq_ok.mp hgs
    obtain ⟨F, hF, hgs⟩ := bind_eq_ok.mp hgs
    obtain ⟨places, hplaces, hgs⟩ := bind_eq_ok.mp hgs
    cases hgs
    obtain ⟨ps, items, hps, hitems, rfl⟩ := (mapM_item hrest hF).mp htexts
    have hlength : items.length = (Config.listed c).length := by
      rw [← (mapM_eq_ok.mp hitems).length_eq, ← (mapM_eq_ok.mp hps).length_eq, List.length_map]
    rw [← hlength] at hplaces
    obtain ⟨_, products, -, hstage, -⟩ := weave_stage F.template items
    obtain ⟨hfinite, hfields⟩ := Config.prepared_eq_ok.mp
      (prepared_completed.mpr ⟨rest, ps, hrest, hps, rfl⟩)
    refine ⟨hfinite, _, ?_, (weave_frame hplaces hstage).symm⟩
    rw [← hfields]
    rw [← frame_withListed rest ps] at hF
    exact (ofResolved_eq_ok hproducts).mpr ⟨F, items, products, hF, hitems, hstage, rfl⟩

/-! ## Changes -/

end Document

namespace Config.Texts

variable {P : Value → Prop} {r : Fields} {ps : List Fields}

/-- Other products that show values of one kind. -/
lemma withListed (h : Texts P r) (hps : ∀ p ∈ ps, ∀ name ∈ Product.texts, P (p.shown name)) :
    Texts P (Config.withListed r ps) where
  sections s hs fields hf name hn := by
    have hne : ∀ s ∈ Section.texts, s.1 ≠ "products" := by decide
    rw [look_withListed_of_ne (hne s hs)] at hf
    exact h.sections s hs fields hf name hn
  products := by rwa [listed_withListed]

end Config.Texts

namespace Change

variable {P : Value → Prop} {change : Change}

/-- A change that brings values of one kind into the fields that show. -/
def Brings (P : Value → Prop) : Change → Prop
  | append product => ∀ name ∈ Product.texts, P (product.shown name)
  | set _ _ value => P value
  | erase _ => True

/-- So does the change by a product that is completed, if texts are of the kind. -/
lemma Brings.completed (h : change.Brings P) (hP : ∀ t, P (.text t)) (hproper : change.Proper) :
    change.completed.Brings P := by
  cases change with
  | append product => exact fun name hn => Config.Texts.shown_blank hP hproper hn (h name hn)
  | set place key value => exact h
  | erase place => exact h

end Change

/-- **A change that brings values of one kind** keeps configurations that show them. -/
theorem Config.Texts.apply {P : Value → Prop} {r : Fields} {change : Change} (h : Texts P r)
    (hbrings : change.Brings P) : Texts P (Config.withListed r (change.apply (listed r))) := by
  refine h.withListed ?_
  cases change with
  | append product =>
      rw [Change.apply, List.forall_mem_append]
      exact ⟨h.products, List.forall_mem_singleton.mpr hbrings⟩
  | set place key value =>
      intro p hp name hn
      rcases exists_of_mem_modify hp with hp | ⟨q, hq, rfl⟩
      · exact h.products p hp name hn
      · unfold Fields.shown
        rw [Fields.find?_put]
        split
        · exact hbrings
        · exact h.products q hq name hn
  | erase place => exact fun p hp => h.products p (List.mem_of_mem_eraseIdx hp)

namespace Document

variable {c r : Fields} {escaped : Bool}

section Changes

variable {ε α β : Type} {f : α → Except ε β} {g : α → α} {as : List α} {bs bs' : List β}

/-- One step of a list taken anew. -/
lemma set_of_mapM_modify {k : Nat} (hk : k < as.length) (h : as.mapM f = .ok bs)
    (h' : (as.modify k g).mapM f = .ok bs') :
    ∃ b, bs' = bs.set k b ∧ ∀ a, as[k]? = some a → f (g a) = .ok b := by
  rw [mapM_eq_ok] at h h'
  induction h generalizing k bs' with
  | nil => simp at hk
  | @cons a b as bs hab hrest ih =>
      cases k with
      | zero =>
          rw [List.modify_zero_cons] at h'
          cases h' with
          | cons hnew hsame =>
              refine ⟨_, ?_, fun _ ha => (Option.some.inj ha) ▸ hnew⟩
              rw [List.set_cons_zero]
              have hbs := Except.ok.inj ((mapM_eq_ok.mpr hsame).symm.trans (mapM_eq_ok.mpr hrest))
              rw [hbs]
      | succ k =>
          rw [List.modify_succ_cons] at h'
          cases h' with
          | cons hsame hnew =>
              obtain ⟨c, rfl, hc⟩ := ih (by simpa using hk) hnew
              refine ⟨c, ?_, fun a ha => hc a (by simpa using ha)⟩
              rw [List.set_cons_succ, Except.ok.inj (hsame.symm.trans hab)]

/-- One step of a list left out. -/
lemma mapM_eraseIdx (k : Nat) (h : as.mapM f = .ok bs) :
    (as.eraseIdx k).mapM f = .ok (bs.eraseIdx k) := by
  rw [mapM_eq_ok] at h ⊢
  induction h generalizing k with
  | nil => exact .nil
  | cons hab hrest ih =>
      cases k with
      | zero => exact hrest
      | succ k => exact .cons hab (ih k)

/-- One step more at the end of a list. -/
lemma exists_of_mapM_append {a : α} (h : as.mapM f = .ok bs) (h' : (as ++ [a]).mapM f = .ok bs') :
    ∃ b, f a = .ok b ∧ bs' = bs ++ [b] := by
  rw [List.mapM_append, h, ok_bind] at h'
  obtain ⟨last, hlast, h'⟩ := bind_eq_ok.mp h'
  cases h'
  rw [List.mapM_cons] at hlast
  obtain ⟨b, hb, hlast⟩ := bind_eq_ok.mp hlast
  cases hlast
  exact ⟨b, hb, rfl⟩

end Changes

/-- Where there are gaps for some number of products, there are for any. -/
lemma gaps_ok {gs : List Text} {n : Nat} (h : gaps escaped c n = .ok gs) (k : Nat) :
    ∃ gs, gaps escaped c k = .ok gs := by
  obtain ⟨r, hr, h⟩ := bind_eq_ok.mp h
  obtain ⟨rest, hrest, h⟩ := bind_eq_ok.mp h
  obtain ⟨F, hF, -⟩ := bind_eq_ok.mp h
  obtain ⟨front, back, -, -, hstage⟩ := stage_eq
  simp only [gaps, hr, hrest, hF, hstage, ok_bind]
  exact ⟨_, rfl⟩

/-- There is one gap more than there are products. -/
lemma length_gaps {gs : List Text} {n : Nat} (h : gaps escaped c n = .ok gs) : gs.length = n + 1 := by
  obtain ⟨_, -, h⟩ := bind_eq_ok.mp h
  obtain ⟨_, -, h⟩ := bind_eq_ok.mp h
  obtain ⟨F, -, h⟩ := bind_eq_ok.mp h
  obtain ⟨places, hplaces, h⟩ := bind_eq_ok.mp h
  cases h
  obtain ⟨front, back, hfront, hback, hstage⟩ := stage_eq
  obtain rfl := Except.ok.inj (hplaces.symm.trans (hstage _ _))
  rw [List.length_map, length_enclose, length_splitOnP, List.countP_append, List.countP_append,
    hfront, hback, Listing.countP_arrange_places, Nat.zero_add, Nat.add_zero]

/-- A text with the link and the image of a product, as they show in a document that may be escaped. -/
def Shows (escaped : Bool) (product : Fields) (t : Text) : Prop :=
  let shown := fun name =>
    (Config.encoded escaped ((Fields.merge Product.blank product).shown name)).display
  (ofString "href=\"" ++ shown "link" ++ ofString "\"") <:+: t ∧
    (ofString "src=\"" ++ shown "image_url" ++ ofString "\"") <:+: t

/-- **Every item** shows the link and the image of its product. -/
theorem shows_item {template layout theme : Value} {p : Fields} {t : Text}
    (h : item escaped template layout theme p = .ok t) : Shows escaped p t := by
  obtain ⟨_, -, h⟩ := bind_eq_ok.mp h
  obtain ⟨form, hform, h⟩ := bind_eq_ok.mp h
  obtain ⟨q, hq, h⟩ := bind_eq_ok.mp h
  obtain ⟨m, hm, h⟩ := bind_eq_ok.mp h
  cases h
  obtain ⟨hlink, himage, -⟩ := Listing.holds_form hform q
  have hlink := (hlink m hm).2
  have himage := (himage m hm).2
  rw [Config.shown_prepared hq] at hlink himage
  exact ⟨hlink, himage⟩

/-- A document is woven of one item for each product, in order, and of gaps that are made without them.
The items are made by template, layout and theme of the completion. -/
structure Woven (escaped : Bool) (c completion : Fields) (d : Text) (gs items : List Text) : Prop where
  ofGaps : gaps escaped c (Config.listed c).length = .ok gs
  length : gs.length = (Config.listed c).length + 1
  woven : d = weave gs items
  ofItems : List.Forall₂ (fun p t => item escaped (completion.look "template")
    (completion.look "layout") (completion.look "theme") p = .ok t ∧ Shows escaped p t)
      (Config.listed c) items

/-- **Every document is woven**. -/
theorem exists_woven {d : Text} (hc : Config.Editable c) (hd : Made escaped (Config.completed c) d) :
    ∃ gs items, Woven escaped c (Config.completed c) d gs items := by
  obtain ⟨gs, items, hgs, hitems, rfl⟩ := (made_eq_weave hc).mp hd
  exact ⟨gs, items, hgs, length_gaps hgs, rfl,
    (mapM_eq_ok.mp hitems).imp fun p t ht => ⟨ht, shows_item ht⟩⟩

/-- **The document after a change**, where neither the configuration nor the change shows a set of two
items. -/
theorem html_change (change : Change) {ρ : SetOrder} {d : Text} (hc : Config.Editable c)
    (hs : Config.Texts (fun v => v.isRigid = true) (Config.completed c)) (hproper : change.Proper)
    (hbrings : change.Brings fun v => v.isRigid = true) :
    (html (.map (Config.withListed c (change.apply (Config.listed c)))) escaped ρ).outcome = .ok d ↔
      ∃ gs items, gaps escaped c (change.apply (Config.listed c)).length = .ok gs ∧
        (change.apply (Config.listed c)).mapM (item escaped ((Config.completed c).look "template")
          ((Config.completed c).look "layout") ((Config.completed c).look "theme")) = .ok items ∧
        d = weave gs items := by
  have hnew := hproper.editable hc
  have hcompleted : Config.completed (Config.withListed c (change.apply (Config.listed c))) =
      Config.withListed (Config.completed c)
        (change.completed.apply (Config.listed (Config.completed c))) := by
    rw [Config.completed_withListed hc.config, Change.map_apply hproper hc.products,
      Config.listed_completed]
  have hrigid := hcompleted ▸ hs.apply (hbrings.completed (fun _ => rfl) hproper)
  have hlook {key : String} (hk : key ≠ "products") := hcompleted ▸
    Config.look_withListed_of_ne hk (Config.completed c)
      (change.completed.apply (Config.listed (Config.completed c)))
  have hgaps (n : Nat) : gaps escaped (Config.withListed c (change.apply (Config.listed c))) n =
      gaps escaped c n := by
    rw [gaps, gaps, Config.withListed_withListed]
  rw [html_of_rigid (Config.resolve_of_editable hnew) hrigid, made_eq_weave hnew,
    Config.listed_withListed, hgaps, hlook (by decide), hlook (by decide), hlook (by decide)]

namespace Woven

variable {d : Text} {gs items : List Text} {index : Value}

/-- The items are made one by one. -/
lemma mapM_listed (h : Woven escaped c r d gs items) : (Config.listed c).mapM
    (item escaped (r.look "template") (r.look "layout") (r.look "theme")) = .ok items :=
  mapM_eq_ok.mpr (h.ofItems.imp fun _ _ hitem => hitem.1)

/-- **A field set in one product** changes its item and nothing else. -/
theorem update (h : Woven escaped c (Config.completed c) d gs items) (hc : Config.Editable c)
    (hs : Config.Texts (fun v => v.isRigid = true) (Config.completed c)) {field value v : Value}
    (hrigid : value.isRigid = true) (hv : Config.update (.map c) index field value = .ok v)
    {ρ : SetOrder} {d' : Text} (hd : (html v escaped ρ).outcome = .ok d') :
    ∃ key k t, Config.productField field = .ok key ∧
      Config.slot (Config.listed c).length index = .ok k ∧ d' = weave gs (items.set k t) ∧
      ∀ p, (Config.listed c)[k]? = some p → item escaped ((Config.completed c).look "template")
        ((Config.completed c).look "layout") ((Config.completed c).look "theme") (p.put key value) =
          .ok t := by
  rw [Config.update_eq hc.lists] at hv
  obtain ⟨key, hkey, hv⟩ := bind_eq_ok.mp hv
  obtain ⟨k, hk, hv⟩ := bind_eq_ok.mp hv
  cases hv
  obtain ⟨gs', items', hgs, hitems, rfl⟩ := (html_change (.set k key value) hc hs
    (Config.productField_eq_ok.mp hkey).2 hrigid).mp hd
  obtain ⟨t, rfl, ht⟩ := set_of_mapM_modify (Config.slot_lt hk) h.mapM_listed hitems
  -- the gaps are the same, since there are as many products as before
  rw [Change.apply, List.length_modify] at hgs
  obtain rfl := Except.ok.inj (h.ofGaps.symm.trans hgs)
  exact ⟨key, k, t, hkey, hk, rfl, ht⟩

/-- **Without one of the products** the other items are the same. -/
theorem remove (h : Woven escaped c (Config.completed c) d gs items) (hc : Config.Editable c)
    (hs : Config.Texts (fun v => v.isRigid = true) (Config.completed c)) {v : Value}
    (hv : Config.remove (.map c) index = .ok v) (ρ : SetOrder) :
    ∃ k gs', Config.slot (Config.listed c).length index = .ok k ∧
      gaps escaped c ((Config.listed c).length - 1) = .ok gs' ∧
      (html v escaped ρ).outcome = .ok (weave gs' (items.eraseIdx k)) := by
  rw [Config.remove_eq hc.lists] at hv
  obtain ⟨k, hk, hv⟩ := bind_eq_ok.mp hv
  cases hv
  obtain ⟨gs', hgs⟩ := gaps_ok h.ofGaps ((Config.listed c).length - 1)
  have hlength : ((Change.erase k).apply (Config.listed c)).length = (Config.listed c).length - 1 :=
    List.length_eraseIdx_of_lt (Config.slot_lt hk)
  refine ⟨k, gs', hk, hgs, (html_change (.erase k) hc hs trivial trivial).mpr ⟨gs', _, ?_, ?_, rfl⟩⟩
  · rw [hlength, hgs]
  · exact mapM_eraseIdx k h.mapM_listed

/-- **With one product more at the end**, too. -/
theorem add (h : Woven escaped c (Config.completed c) d gs items) (hc : Config.Editable c)
    (hs : Config.Texts (fun v => v.isRigid = true) (Config.completed c)) {p : Fields}
    (hp : p.Distinct) (hrigid : ∀ name ∈ Product.texts, (p.shown name).isRigid = true) {v : Value}
    (hv : Config.add (.map c) (.map p) = .ok v) {ρ : SetOrder} {d' : Text}
    (hd : (html v escaped ρ).outcome = .ok d') :
    ∃ gs' t, gaps escaped c ((Config.listed c).length + 1) = .ok gs' ∧
      item escaped ((Config.completed c).look "template") ((Config.completed c).look "layout")
        ((Config.completed c).look "theme") p = .ok t ∧ d' = weave gs' (items ++ [t]) := by
  rw [Edit.add_map_eq hc.lists] at hv
  cases hv
  obtain ⟨gs', items', hgs, hitems, rfl⟩ := (html_change (.append p) hc hs hp hrigid).mp hd
  obtain ⟨t, ht, rfl⟩ := exists_of_mapM_append h.mapM_listed hitems
  rw [Change.apply, List.length_append, List.length_singleton] at hgs
  exact ⟨gs', t, hgs, ht, rfl⟩

end Woven

/-- **Products are rendered in order and in isolation.**  The document is woven of one item for each
product, and of gaps that are made without them, whatever the order in which the sets stand.  Where no
set of two items shows, a field set in one product changes no other item and no gap; without one of the
products, or with one more at the end, the other items are the same. -/
theorem in_isolation (hc : Config.Editable c) (hr : Config.resolve (.map c) = .ok r) (escaped : Bool) :
    (∀ ρ d, (html (.map c) escaped ρ).outcome = .ok d →
      ∃ gs items, Woven escaped (r.ordered ρ) (r.ordered ρ) d gs items) ∧
    (Config.Texts (fun v => v.isRigid = true) r →
      let n := (Config.listed c).length
      let item := item escaped (r.look "template") (r.look "layout") (r.look "theme")
      ∀ ρ d, (html (.map c) escaped ρ).outcome = .ok d → ∃ gs items, Woven escaped c r d gs items ∧
        (∀ index field value v ρ' d', value.isRigid = true →
          Config.update (.map c) index field value = .ok v → (html v escaped ρ').outcome = .ok d' →
          ∃ key k t, Config.productField field = .ok key ∧ Config.slot n index = .ok k ∧
            d' = weave gs (items.set k t) ∧
            ∀ p, (Config.listed c)[k]? = some p → item (p.put key value) = .ok t) ∧
        (∀ index v ρ', Config.remove (.map c) index = .ok v → ∃ k gs', Config.slot n index = .ok k ∧
          gaps escaped c (n - 1) = .ok gs' ∧
          (html v escaped ρ').outcome = .ok (weave gs' (items.eraseIdx k))) ∧
        (∀ p : Fields, p.Distinct → (∀ name ∈ Product.texts, (p.shown name).isRigid = true) →
          ∀ v ρ' d', Config.add (.map c) (.map p) = .ok v → (html v escaped ρ').outcome = .ok d' →
          ∃ gs' t, gaps escaped c (n + 1) = .ok gs' ∧ item p = .ok t ∧
            d' = weave gs' (items ++ [t]))) := by
  obtain rfl := Except.ok.inj (hr.symm.trans (Config.resolve_of_editable hc))
  constructor
  · intro ρ d hd
    rw [html_eq_made hr, ← Config.completed_ordered hc ρ] at hd
    obtain ⟨gs, items, hwoven⟩ := exists_woven (Config.editable_ordered hc ρ) hd
    rw [Config.completed_ordered hc ρ] at hwoven
    exact ⟨gs, items, hwoven⟩
  intro hs n item ρ d hd
  obtain ⟨gs, items, hwoven⟩ := exists_woven hc ((html_of_rigid hr hs).mp hd)
  refine ⟨gs, items, hwoven, ?_, ?_, ?_⟩
  · intro index field value v ρ' d' hrigid hv hd'
    exact hwoven.update hc hs hrigid hv hd'
  · intro index v ρ' hv
    exact hwoven.remove hc hs hv ρ'
  · intro p hp hrigid v ρ' d' hv hd'
    exact hwoven.add hc hs hp hrigid hv hd'

/-- A shelf of three products, two of which are the same. -/
def shelf : Fields :=
  let product := fun name => Fields.named [("name", .text (ofString name))]
  Config.withListed [] [product "Bolt", product "Nut", product "Bolt"]

/-- The shelf in a grid, where the last row has a place left, and without the product in the middle. -/
theorem in_isolation_shelf : ∃ r d gs items, Config.Editable shelf ∧
    Config.resolve (.map shelf) = .ok r ∧ Config.Texts (fun v => v.isRigid = true) r ∧
    (html (.map shelf) true).outcome = .ok d ∧ Woven true shelf r d gs items ∧
    ∃ gs', gaps true shelf 2 = .ok gs' ∧ ∀ v ρ, Config.remove (.map shelf) (.int 1) = .ok v →
      (html v true ρ).outcome = .ok (weave gs' (items.eraseIdx 1)) := by
  have hc : Config.Editable shelf := ⟨by decide, .inr ⟨_, Fields.look_put_self _ _ _⟩, by decide⟩
  have hr := eq_ok_of_isOk (x := Config.resolve (.map shelf)) (by decide +kernel)
  have hrigid : Config.Texts (fun v => v.isRigid = true)
      ((Config.resolve (.map shelf)).toOption.getD default) := by
    decide +kernel
  have hd := eq_ok_of_isOk (x := (html (.map shelf) true).outcome) (by decide +kernel)
  obtain ⟨gs, items, hwoven, -, hremove, -⟩ := (in_isolation hc hr true).2 hrigid _ _ hd
  obtain ⟨k, gs', hk, hgs', -⟩ := hremove (.int 1) _ .copied rfl
  cases hk
  refine ⟨_, _, gs, items, hc, hr, hrigid, hd, hwoven, gs', hgs', fun v ρ hv => ?_⟩
  obtain ⟨k, gs'', hk, hgs'', hremoved⟩ := hremove (.int 1) v ρ hv
  cases hk
  rwa [Except.ok.inj (hgs''.symm.trans hgs')] at hremoved

/-- Two products with one name, a set whose numbers were put in in different orders. -/
def twins : Fields :=
  let product := fun numbers => Fields.named [("name", .set numbers)]
  Config.withListed [] [product [.int 3, .int 11], product [.int 11, .int 3]]

/-- Equal products have items that differ.  And where a field is set in the only product, the document no
longer begins as it did in front of the item: the company's name is a set, and the copy in which the field
is set shows it the other way round. -/
theorem in_isolation_twins :
    (∃ r d gs items, Config.resolve (.map twins) = .ok r ∧
      (html (.map twins) false).outcome = .ok d ∧
      Woven false (r.ordered .copied) (r.ordered .copied) d gs items ∧ items[0]? ≠ items[1]?) ∧
    let c := Config.withListed contending [[]]
    ∃ r gs d, Config.resolve (.map c) = .ok r ∧ gaps false (r.ordered .copied) 1 = .ok gs ∧
      (∃ v : Fields, Config.update (.map c) (.int 0) (.text "name") (.text "Lamp") = .ok (.map v) ∧
        (html (.map (v.ordered .copied)) false).outcome = .ok d) ∧ ¬ gs.headD [] <+: d := by
  constructor
  · have hc : Config.Editable twins := ⟨by decide, .inr ⟨_, Fields.look_put_self _ _ _⟩, by decide⟩
    have hr := Config.resolve_of_editable hc
    have hd := eq_ok_of_isOk (x := (html (.map twins) false).outcome) (by decide +kernel)
    have hmade := (html_eq_made hr).mp hd
    rw [← Config.completed_ordered hc .copied] at hmade
    obtain ⟨gs, items, hwoven⟩ := exists_woven (Config.editable_ordered hc .copied) hmade
    rw [Config.completed_ordered hc .copied] at hwoven
    refine ⟨_, _, gs, items, hr, hd, hwoven, fun h => ?_⟩
    have hitems := hwoven.mapM_listed
    rw [← Except.ok.inj ((eq_ok_of_isOk (by decide +kernel)).symm.trans hitems)] at h
    revert h
    decide +kernel
  · exact ⟨_, _, _, eq_ok_of_isOk (by decide +kernel), eq_ok_of_isOk (by decide +kernel),
      ⟨_, rfl, eq_ok_of_isOk (by decide +kernel)⟩, by decide +kernel⟩

end Document

end Mailshot
