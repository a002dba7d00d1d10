import Mailshot.Proofs.Arrangement
import Mailshot.Proofs.Decoding
import Mailshot.Proofs.Nesting.Product

/-!
# The elements of a document nest

From its items to the whole, every part of a document closes what it opens, or leaves open what a later
one closes: the container that the opening of a document opens is closed at its end.

* **`Listing.ofTemplate_nests`** — the products, whatever their number, in every arrangement.
* `Section.header_nests`, `Section.hero_nests`, `Section.footer_nests` — the sections.
* `Value.isTagless` — scalars that show no angle bracket once they are escaped: all but some bytes.
* **`Document.wellNested_html`** — the escaped documents of configurations with such texts.
* `Document.not_wellNested_bytes` — a document with a tag inside of bytes.
-/

namespace Mailshot

open Text

/-! ## Products under a template -/

namespace Listing

variable {left right item : Markup} {items : List Markup}

lemma cell_nests (h : Markup.Nests item) : Markup.Nests (cell item) := by
  have hparts : Part.Nests (Part.join
      ["<td width=\"50%\" valign=\"top\" style=\"padding: 10px;\">", .ok item, "\n</td>"]) :=
    .of_walks fun _ => .lit rfl <| .part h.made <| .lit rfl <| .nil
  exact hparts _ rfl

lemma filler_nests : Markup.Nests filler := by
  have hparts : Part.Nests (Part.join ["<!-- GRID FILLER --><td width=\"50%\"></td>"]) :=
    .of_walks fun _ => .lit rfl <| .nil
  exact hparts _ rfl

/-- The number of a row stands in a comment, where it ends no tag. -/
lemma row_nests (k : Nat) (hl : Markup.Nests left) (hr : Markup.Nests right) :
    Markup.Nests (row k left right) := by
  have hnumber : Tagless (ofString (toString k)) :=
    tagless_of_unmarked (unmarked_ofString.mpr (clean_natString k))
  have hparts : Part.Nests (Part.join
      ["<!-- GRID ROW ", Part.fixed (toString k), " -->\n<tr>", .ok left, .ok right, "</tr>"]) :=
    .of_walks fun _ => .lit rfl <| .inner (.fixed hnumber) <| .lit rfl <| .part hl.made <|
      .part hr.made <| .lit rfl <| .nil
  refine hparts _ ?_
  simp [Part.join, Part.fixed, row, pure, Except.pure]

/-- The rows of a grid, two items at a time. -/
lemma rows_nests : ∀ (k : Nat) {items : List Markup}, (∀ item ∈ items, Markup.Nests item) →
    Markup.Nests (rows k items).flatten
  | _, [], _ => .nil
  | k, [_], h =>
      (row_nests k (cell_nests (h _ List.mem_cons_self)) filler_nests).append .nil
  | k, _ :: _ :: _, h => by
      obtain ⟨hl, hr, hrest⟩ := List.forall_mem_cons.mp h |>.imp_right List.forall_mem_cons.mp
      exact (row_nests k (cell_nests hl) (cell_nests hr)).append (rows_nests (k + 1) hrest)

lemma listRow_nests (h : Markup.Nests item) : Markup.Nests (listRow item) := by
  have hparts : Part.Nests (Part.join ["<!-- LIST ITEM -->\n<tr><td style=\"padding: 15px 0; ",
      "border-bottom: 1px solid ", Palette.border, ";\">", .ok item, "\n</td></tr>"]) :=
    .of_walks fun _ => .lit rfl <| .lit rfl <| .lit rfl <| .lit rfl <| .part h.made <| .lit rfl <| .nil
  exact hparts _ rfl

lemma stackRow_nests (h : Markup.Nests item) : Markup.Nests (stackRow item) := by
  have hparts : Part.Nests (Part.join
      ["<!-- BANNER ITEM -->\n<tr><td style=\"padding-bottom: 20px;\">", .ok item, "\n</td></tr>"]) :=
    .of_walks fun _ => .lit rfl <| .part h.made <| .lit rfl <| .nil
  exact hparts _ rfl

/-- Items that nest, in the rows of a template. -/
lemma arrange_nests (template : Template) (h : ∀ item ∈ items, Markup.Nests item) :
    Markup.Nests (arrange template items).flatten := by
  cases template with
  | classic => exact rows_nests 1 h
  | modern => exact .flatten (List.forall_mem_map.mpr fun item hitem => listRow_nests (h item hitem))
  | banner => exact .flatten (List.forall_mem_map.mpr fun item hitem => stackRow_nests (h item hitem))

lemma table_nests {rows : List Markup} (h : Markup.Nests rows.flatten) : (table rows).Nests := by
  unfold table
  exact .of_walks fun _ => .lit rfl <| .lit rfl <| .lit rfl <| .part h.made <| .lit rfl <| .nil

/-- **The item of a product** closes what it opens, under every template. -/
theorem form_nests {template : Template} {layout θ : Value} {form : Fields → Part}
    (h : Listing.form template layout θ = .ok form) (p : Fields) : (form p).Nests := by
  refine form_cases h p (fun _ width style hstyle => Product.linkedImage_nests p width ?_)
    (fun _ full => Product.imageEntry_nests p full)
    (fun _ tier width => Product.card_nests p θ tier width)
    (fun _ size => Product.entry_nests p θ size)
    (fun _ tier width => Product.block_nests p θ tier width)
  revert style
  decide

/-- **The products under a template** close what they open. -/
theorem ofTemplate_nests (template : Template) (ps : List Fields) (layout θ : Value) :
    (ofTemplate template (.list (ps.map .map)) layout θ).Nests := by
  rw [ofTemplate_eq]
  refine .after fun form hform => .after fun items hitems => ?_
  have hnests := forall_of_mapM_eq_ok hitems fun p _ item hitem => form_nests hform p item hitem
  exact table_nests (arrange_nests template hnests)

end Listing

/-! ## Sections -/

namespace Section

variable (f : Fields) (θ : Value)

lemma mark_nests : (mark f θ).Nests := by
  unfold mark
  simp only
  split
  · exact .of_walks fun _ => .lit rfl <| .value <| .lit rfl <| .value <| .lit rfl <| .nil
  · exact .of_walks fun _ => .lit rfl <| .after fun _ _ => .value <| .lit rfl <| .between <|
      .lit rfl <| .nil

/-- **The header** closes what it opens. -/
theorem header_nests (company : Value) : (header company θ).Nests := by
  refine .after fun f _ => .after fun mark hmark => .of_walks fun _ => ?_
  have hnests : Part.Nests (.ok mark) := (mark_nests f θ mark hmark).made
  exact .lit rfl <| .lit rfl <| .lit rfl <| .lit rfl <| .lit rfl <| .lit rfl <|
    .after fun _ _ => .value <| .lit rfl <| .lit rfl <| .lit rfl <| .lit rfl <| .value <| .lit rfl <|
    .lit rfl <| .part hnests <| .lit rfl <| .lit rfl <| .lit rfl <| .lit rfl <| .nil

lemma heroImage_nests (content : Value) : (heroImage f content).Nests := by
  unfold heroImage
  exact .of_walks fun _ => .lit rfl <| .lit rfl <| .lit rfl <| .value <| .lit rfl <| .lit rfl <|
    .value <| .lit rfl <| .value <| .lit rfl <| .value <| .lit rfl <| .lit rfl <| .value <|
    .lit rfl <| .lit rfl <| .lit rfl <| .lit rfl <| .nil

/-- The ground is a colour of the compiler or one of the theme, and stands in a tag. -/
lemma inner_of_heroGround {template : Option Template} {ground : Part}
    (h : heroGround θ template = .ok ground) : ground.Inner := by
  unfold heroGround at h
  split at h
  · cases h
    exact .fixed (by decide)
  · obtain ⟨colour, -, rfl⟩ := map_eq_ok.mp h
    exact .value colour

lemma heroPanel_nests {ground : Part} (h : ground.Inner) : (heroPanel f θ ground).Nests := by
  unfold heroPanel
  refine .of_walks fun _ => .lit rfl <| .lit rfl <| .inner h <| .lit rfl <| .lit rfl <| .lit rfl <| ?_
  refine .lit rfl <| .after fun _ _ => .value <| .lit rfl <| .between <| .lit rfl <| .lit rfl <|
    .lit rfl <| .lit rfl <| .between <| .lit rfl <| ?_
  exact .lit rfl <| .value <| .lit rfl <| .after fun _ _ => .inner (Product.buttonStyle_inner _ _) <|
    .lit rfl <| .between <| .lit rfl <| .lit rfl <| .lit rfl <| .nil

/-- **The hero** closes what it opens, whether it is shown or not. -/
theorem hero_nests (hero content : Value) (template : Option Template) :
    (Section.hero hero θ template content).Nests := by
  refine .after fun f _ => ?_
  split
  · refine .after fun ground hground => .of_walks fun _ => ?_
    exact .lit rfl <| .lit rfl <| .lit rfl <| .lit rfl <| .part (heroImage_nests f content) <|
      .part (heroPanel_nests f θ (inner_of_heroGround θ hground)) <| .lit rfl <| .nil
  · exact Product.empty_nests

/-- **The footer** closes what it opens. -/
theorem footer_nests (company foot : Value) : (footer company foot θ).Nests := by
  unfold footer
  refine .of_walks fun _ => .lit rfl <| .lit rfl <| .lit rfl <| .lit rfl <| .lit rfl <| .lit rfl <|
    .lit rfl <| .lit rfl <| .lit rfl <| .lit rfl <| ?_
  refine .lit rfl <| .after fun _ _ => .between <| .lit rfl <| .lit rfl <|
    .after fun _ _ => .between <| .lit rfl <| .lit rfl <| .after fun _ _ => .between <| .lit rfl <| ?_
  exact .lit rfl <| .lit rfl <| .after fun _ _ => .value <| .lit rfl <| .after fun _ _ => .value <|
    .lit rfl <| .lit rfl <| .lit rfl <| .lit rfl <| .lit rfl <| .nil

end Section

/-! ## Whole documents -/

namespace Document

lemma productsPart_nests {m : Markup} (h : Markup.Nests m) : (productsPart m).Nests := by
  unfold productsPart
  exact .of_walks fun _ => .lit rfl <| .lit rfl <| .lit rfl <| .lit rfl <| .lit rfl <| .lit rfl <|
    .lit rfl <| .part h.made <| .lit rfl <| .lit rfl <| .lit rfl <| .nil

/-- **A document** closes all that it opens. -/
theorem Assembly.nests {r : Fields} {m : Markup} (a : Assembly r m) {ps : List Fields}
    (hp : r.look "products" = .list (ps.map .map)) : Markup.Nests m := by
  have hlisting := a.ofListing
  rw [hp] at hlisting
  have hheader := (Section.header_nests _ _ _ a.ofHeader).made
  have hhero := (Section.hero_nests _ _ _ _ _ a.ofHero).made
  have hproducts := Listing.ofTemplate_nests _ ps _ _ _ hlisting
  have hfooter := (Section.footer_nests _ _ _ _ a.ofFooter).made
  refine Part.Nests.of_walks (fun _ => ?_) m a.joined
  -- what the opening leaves open
  refine .nest <| .lit rfl <| .lit rfl <| .lit rfl <| .after fun _ _ => .between <| .lit rfl <|
    .lit rfl <| .lit rfl <| .lit rfl <| .lit rfl <| .lit rfl <| .lit rfl <| .lit rfl <| .lit rfl <|
    .lit rfl <| .lit rfl <| .lit rfl <| .value <| .lit rfl <| .lit rfl <| .value <| .lit rfl <|
    .lit rfl <| .value <| .lit rfl <| .after fun _ _ => .value <| .lit rfl <| .value <| .lit rfl <|
    .lit rfl <| ?_
  -- is closed behind the sections
  refine .lit rfl <| .part hheader <| .lit rfl <| .part hhero <| .part (productsPart_nests hproducts) <|
    .lit rfl <| .part hfooter <| ?_
  exact .nest <| .lit rfl <| .lit rfl <| .lit rfl <| .nil

end Document

namespace Value

/-- Whether a value is a scalar that shows no angle bracket once it is escaped: nothing inside of bytes
is escaped. -/
def isTagless : Value → Bool
  | .bytes b => decide (Tagless (quoteBytes b))
  | v => v.isScalar

lemma isRigid_of_isTagless {v : Value} (h : v.isTagless = true) : v.isRigid = true := by
  cases v with
  | scalar s => rfl
  | _ => cases h

lemma tagless_display_escape {v : Value} (h : v.isTagless = true) : Tagless v.escape.display := by
  match v, h with
  | .bytes b, h => exact of_decide_eq_true h
  | .null, _ | .bool _, _ | .int _, _ | .float _, _ | .text _, _ | .scalar (.date _), _
  | .scalar (.moment _), _ => exact tagless_of_undelimited (undelimited_display_escape rfl)

end Value

namespace Document

/-- **The escaped document is well nested.**  From one angle bracket to the next, the tags of the
document open elements and close them again in order, and nothing is left open: neither an element nor
a tag. -/
theorem wellNested_html {c : Value} {r : Fields} {ρ : SetOrder} {d : Text}
    (hr : Config.resolve c = .ok r) (hs : Config.Texts (fun v => v.isTagless = true) r)
    (hd : (html c true ρ).outcome = .ok d) : (scan none d).1 = none ∧ WellNested (edges d) := by
  obtain ⟨-, m, hm, rfl⟩ := (html_of_rigid hr (hs.imp fun _ => Value.isRigid_of_isTagless)).mp hd
  rw [if_pos rfl] at hm
  have hslots := fun v => slots_of_texts (v := v) tagless_of_unmarked hr
    (hs.imp fun _ => Value.tagless_display_escape) hm
  obtain ⟨a⟩ := assembly_of_ok hm
  have hnests := a.nests (Config.look_products_escape (Config.look_products hr))
  exact wellNested_of_read (Markup.read_of_pass hslots (hnests []))

/-- A configuration with an odd number of products in the grid, and texts that try to close what is
open. -/
def unruly : Value := .map (Fields.named [
  ("company", .map (Fields.named [("name", .text "</table><h1>")])),
  ("products", .list [
    .map (Fields.named [("name", .text "</td>"), ("brand_name", .int 7), ("price", .text "<b")]),
    .map (Fields.named [("render_mode", .text "image-only"), ("link", .text "\"><a>")]),
    .map (Fields.named [("pricing_mode", .text "hidden"), ("description", .bytes [0x62, 0x22])])])])

/-- The unruly configuration closes nothing. -/
theorem wellNested_html_unruly : ∃ d, (html unruly true).outcome = .ok d ∧
    (scan none d).1 = none ∧ WellNested (edges d) := by
  have hr := eq_ok_of_isOk (x := Config.resolve unruly) (by decide +kernel)
  have hd := eq_ok_of_isOk (x := (html unruly true).outcome) (by decide +kernel)
  exact ⟨_, hd, wellNested_html hr (by decide +kernel) hd⟩

/-- A configuration with a tag inside of bytes. -/
def tagBytes : Value := .map (Fields.named [
  ("company", .map (Fields.named [("name", .bytes [0x3C, 0x62, 0x3E])]))])

/-- Nothing inside of bytes is escaped: a tag there opens an element that nothing closes. -/
theorem not_wellNested_bytes : ∃ r d, Config.resolve tagBytes = .ok r ∧
    Config.Texts (fun v => v.isScalar = true) r ∧ (html tagBytes true).outcome = .ok d ∧
    ¬WellNested (edges d) := by
  have hr := eq_ok_of_isOk (x := Config.resolve tagBytes) (by decide +kernel)
  have hd := eq_ok_of_isOk (x := (html tagBytes true).outcome) (by decide +kernel)
  exact ⟨_, _, hr, by decide +kernel, hd, by decide +kernel⟩

end Document

end Mailshot
