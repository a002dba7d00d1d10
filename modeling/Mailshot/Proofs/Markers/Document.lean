import Mailshot.Proofs.Containment
import Mailshot.Proofs.Markers.Rows

/-!
# The markers of a document

Neither a section nor the frame of a document brings a marker, and no text that shows does, alone or
with what stands beside it.  So the markers that are found in a document are those of its rows.

* `Section.header_calm`, `Section.hero_calm`, `Section.footer_calm` — the sections.
* `Document.Assembly.counts` — a document brings the markers of its products.
* **`Document.wrapped_and_counted`** — the grid puts its items two by two into rows, and the markers of
  an escaped document are those of its template and of the number of its products.
* `Document.occurrences_markerBytes` — a marker inside of bytes is one more.
-/

namespace Mailshot

open Text

/-! ## Sections -/

namespace Section

variable (f : Fields) (θ : Value)

lemma mark_calm : Part.IsCalm (mark f θ) := by
  unfold mark
  dsimp only
  split
  · exact Part.isCalm_join (by simp; and_intros <;> exact isCalm_literal rfl)
  · exact Part.isCalm_join (by simp; and_intros <;> exact isCalm_literal rfl)

lemma header_calm (company : Value) : Part.IsCalm (header company θ) := by
  refine .after fun f _ => .after fun mark hmark => Part.isCalm_join ?_
  have hcalm : Markup.IsCalm mark := mark_calm f θ mark hmark
  simp [hcalm]
  and_intros <;> exact isCalm_literal rfl

lemma heroImage_calm (content : Value) : Part.IsCalm (heroImage f content) :=
  Part.isCalm_join (by simp; and_intros <;> exact isCalm_literal rfl)

/-- The ground is a colour of the compiler or one of the theme. -/
lemma calm_of_heroGround {template : Option Template} {ground : Part}
    (h : heroGround θ template = .ok ground) : Part.IsCalm ground := by
  unfold heroGround at h
  split at h
  · cases h
    exact Part.isCalm_fixed.mpr (isCalm_literal rfl)
  · obtain ⟨colour, -, rfl⟩ := map_eq_ok.mp h
    exact Part.isCalm_ofValue colour

lemma heroPanel_calm {ground : Part} (h : Part.IsCalm ground) : Part.IsCalm (heroPanel f θ ground) := by
  have hbutton : Part.IsCalm (θ.shown "primary_color" >>= fun colour => buttonStyle colour .regular) :=
    .after fun colour _ => buttonStyle_calm colour .regular
  unfold heroPanel
  refine Part.isCalm_join ?_
  simp [h, hbutton]
  and_intros <;> exact isCalm_literal rfl

lemma hero_calm (hero content : Value) (template : Option Template) :
    Part.IsCalm (Section.hero hero θ template content) := by
  refine .after fun f _ => ?_
  split
  · refine .after fun ground hground => Part.isCalm_join ?_
    simp [heroImage_calm, heroPanel_calm f θ (calm_of_heroGround θ hground)]
    and_intros <;> exact isCalm_literal rfl
  · exact Part.isCalm_join (by simp)

lemma footer_calm (company foot : Value) : Part.IsCalm (footer company foot θ) :=
  Part.isCalm_join (by simp; and_intros <;> exact isCalm_literal rfl)

end Section

/-! ## Whole documents -/

namespace Document

lemma opening_calm (title : Except Fault Value) (content : Value) (ground : Except Fault Value) :
    Part.IsCalm (opening title content ground) :=
  Part.isCalm_join (by simp; and_intros <;> exact isCalm_literal rfl)

lemma closing_calm : Part.IsCalm closing :=
  Part.isCalm_join (by simp; and_intros <;> exact isCalm_literal rfl)

variable {w : Marker} {r : Fields} {m : Markup} {n : Nat}

lemma productsPart_counts (h : Markup.Counts w m n) : Part.Counts w (productsPart m) n := by
  refine Part.Counts.join_around ["\n\n<!-- ── PRODUCTS ── -->", "\n<table ", .tableAttributes, ">",
    "\n  <tr>", "\n    <td style=\"padding: 20px;\">", "\n      "]
    ["\n    </td>", "\n  </tr>", "\n</table>"] ?_ (Part.counts_ok h) ?_
  · simp
    and_intros <;> exact isCalm_literal rfl
  · simp
    and_intros <;> exact isCalm_literal rfl

/-- **A document** brings the markers of its products. -/
theorem Assembly.counts (a : Assembly r m) {ps : List Fields}
    (hp : r.look "products" = .list (ps.map .map)) :
    Markup.Counts w m (w.count a.template ps.length) := by
  have hlisting := a.ofListing
  rw [hp] at hlisting
  have hproducts := Listing.ofTemplate_counts (w := w) _ ps _ _ _ hlisting
  have hheader : Markup.IsCalm a.header := Section.header_calm _ _ _ a.ofHeader
  have hhero : Markup.IsCalm a.hero := Section.hero_calm _ _ _ _ _ a.ofHero
  have hfooter : Markup.IsCalm a.footer := Section.footer_calm _ _ _ _ a.ofFooter
  have hparts := Part.Counts.join_around
    [opening (Section.title (.map r)) a.content ((r.look "theme").field "background_color"), "\n",
      a.header, "\n", a.hero]
    ["\n", a.footer, closing] ?_ (productsPart_counts hproducts) ?_
  · exact hparts m a.joined
  · simp [opening_calm, hheader, hhero]
    exact isCalm_literal rfl
  · simp [closing_calm, hfooter]
    exact isCalm_literal rfl

/-- **Rows and markers.**  The grid puts its items two by two into rows that are numbered from one, with
a filler beside a last odd one; and the markers that are found in an escaped document are those that its
template puts around its products, whatever the texts are. -/
theorem wrapped_and_counted :
    (∀ (ps : List Fields) (layout θ : Value) (m : Markup),
      Listing.grid (.list (ps.map .map)) layout θ = .ok m → ∃ form items rows,
        Listing.form .classic layout θ = .ok form ∧
        List.Forall₂ (fun p item => form p = .ok item) ps items ∧
        Listing.Wrapped items rows ∧ Listing.table rows = .ok m) ∧
    ∀ (c : Value) (r : Fields) (ρ : SetOrder) (d : Text), Config.resolve c = .ok r →
      Config.Texts (fun v => v.isCalm = true) r → (html c true ρ).outcome = .ok d →
      ∀ w : Marker, occurrences w.text d =
        w.count ((Template.ofValue? (r.look "template")).getD .classic) (Config.listed r).length := by
  constructor
  · intro ps layout θ m hm
    rw [← Listing.ofTemplate, Listing.ofTemplate_eq] at hm
    obtain ⟨form, hform, hm⟩ := bind_eq_ok.mp hm
    obtain ⟨items, hitems, hm⟩ := bind_eq_ok.mp hm
    exact ⟨form, items, Listing.rows 1 items, hform, mapM_eq_ok.mp hitems,
      Listing.wrapped_rows items, hm⟩
  · intro c r ρ d hr hs hd w
    obtain ⟨-, m, hm, rfl⟩ := (html_of_rigid hr (hs.imp fun _ => Value.isRigid_of_isCalm)).mp hd
    rw [if_pos rfl] at hm
    have hshows : Markup.ShowsCalm m := fun v => slots_of_texts (v := v) isCalm_of_unmarked hr
      (hs.imp fun _ => Value.isCalm_display_escape) hm
    obtain ⟨a⟩ := assembly_of_ok hm
    have htemplate := Template.eq_of_ofValue a.ofTemplate
    have hcounts := a.counts (w := w) (Config.look_products_escape (Config.look_products hr)) hshows []
    simpa [htemplate, occurrences] using hcounts

/-- Three products, whose texts are markers or begin like them. -/
def baitedShelf : List Fields := [
  Fields.named [("name", .text "<!-- GRID FILLER -->"), ("brand_name", .text "<!-"), ("price", .int 7)],
  Fields.named [("render_mode", .text "image-only"), ("link", .text "\"><!-- GRID ROW 2 -->")],
  Fields.named [("pricing_mode", .text "hidden"), ("description", .bytes [0x3C, 0x21, 0x2D, 0x2D])]]

/-- A configuration of these products, whose company has the name of a marker. -/
def baited : Value := .map (Fields.named [
  ("company", .map (Fields.named [("name", .text "<!-- GRID ROW")])),
  ("products", .list (baitedShelf.map .map))])

/-- The baited configuration has two rows, and a filler in the second one. -/
theorem wrapped_and_counted_baited :
    (∃ m form items rows,
      Listing.grid (.list (baitedShelf.map .map)) (.map []) (.map []) = .ok m ∧
      Listing.form .classic (.map []) (.map []) = .ok form ∧
      List.Forall₂ (fun p item => form p = .ok item) baitedShelf items ∧
      Listing.Wrapped items rows ∧ Listing.table rows = .ok m) ∧
    ∃ d, (html baited true).outcome = .ok d ∧
      occurrences Marker.gridRow.text d = 2 ∧ occurrences Marker.gridFiller.text d = 1 ∧
      occurrences Marker.listItem.text d = 0 := by
  constructor
  · have hm := eq_ok_of_isOk
      (x := Listing.grid (.list (baitedShelf.map .map)) (.map []) (.map [])) (by decide +kernel)
    obtain ⟨form, items, rows, h⟩ := wrapped_and_counted.1 baitedShelf _ _ _ hm
    exact ⟨_, form, items, rows, hm, h⟩
  · have hr := eq_ok_of_isOk (x := Config.resolve baited) (by decide +kernel)
    have hd := eq_ok_of_isOk (x := (html baited true).outcome) (by decide +kernel)
    have hcounts := wrapped_and_counted.2 baited _ _ _ hr (by decide +kernel) hd
    exact ⟨_, hd, (hcounts _).trans (by decide +kernel), (hcounts _).trans (by decide +kernel),
      (hcounts _).trans (by decide +kernel)⟩

/-- A configuration with a marker inside of bytes, and without products. -/
def markerBytes : Value := .map (Fields.named [
  ("company", .map (Fields.named [("name",
    .bytes [0x3C, 0x21, 0x2D, 0x2D, 0x20, 0x47, 0x52, 0x49, 0x44, 0x20, 0x52, 0x4F, 0x57])]))])

/-- Nothing inside of bytes is escaped: a marker there is found in the document, where there is no
row. -/
theorem occurrences_markerBytes : ∃ r d, Config.resolve markerBytes = .ok r ∧
    Config.Texts (fun v => v.isScalar = true) r ∧ (html markerBytes true).outcome = .ok d ∧
    Template.ofValue? (r.look "template") = some .classic ∧ (Config.listed r).length = 0 ∧
    occurrences Marker.gridRow.text d ≠ 0 := by
  have hr := eq_ok_of_isOk (x := Config.resolve markerBytes) (by decide +kernel)
  have hm := eq_ok_of_isOk (x := (markup markerBytes true).outcome) (by decide +kernel)
  obtain ⟨d, hd, hshown⟩ := infix_of_slot (t := ofString "b'<!-- GRID ROW'") hm (by decide +kernel)
  have hmarker : Marker.gridRow.text <:+: d := List.IsInfix.trans (by decide +kernel) hshown
  exact ⟨_, d, hr, by decide +kernel, hd, by decide +kernel, by decide +kernel,
    occurrences_ne_zero (by decide +kernel) hmarker⟩

end Document

end Mailshot
