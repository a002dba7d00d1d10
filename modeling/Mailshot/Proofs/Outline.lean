import Mailshot.PlainText
import Mailshot.Proofs.Outcome
import Mailshot.Proofs.Singles

/-!
# The outline of the plain-text version

Where the fields of a complete configuration hold texts, its plain-text version is there and says
what its outline says.  The lines of an outline are markup: what a configuration gives stands in
slots, so that it is told apart from the compiler's own words.

* `PlainText.entry`, `PlainText.outline` — the lines of a product, and of a campaign.
* `PlainText.productLines_entry`, `PlainText.heroLines_outline`, `PlainText.lines_outline` — lines that
  are made are those of the outline.
* **`PlainText.ofConfig_outline`** — the plain-text version is the text of the outline.
* **`PlainText.filter_outline`** — the bullets of an outline are those of the products, in order.
* **`PlainText.slot_outline`**, `PlainText.slot_entry` — the values that an outline shows.
-/

namespace Mailshot

open Text

/-- What is made of joined lists may be made of the lists and of what separates them. -/
lemma flatMap_intercalate {α β : Type} (f : α → List β) (separator : List α)
    (parts : List (List α)) :
    (List.intercalate separator parts).flatMap f =
      List.intercalate (separator.flatMap f) (parts.map (List.flatMap f)) := by
  induction parts with
  | nil => rfl
  | cons part parts ih =>
      cases parts with
      | nil => simp
      | cons next parts =>
          rw [List.intercalate_cons_cons, List.flatMap_append, List.flatMap_append, ih,
            List.map_cons, List.map_cons, List.map_cons, List.intercalate_cons_cons]

namespace PlainText

/-! ## Outlines -/

/-- The price that a product shows, or its name, as far as they are there. -/
def heading (product : Fields) : Markup :=
  List.intercalate [.fixed " — "]
    (([product.shown "name", price product].filter Value.truthy).map fun v => [.slot v])

/-- The first line of a product: its name and its price, or its link if it is only an image. -/
def bullet (product : Fields) : Markup :=
  .fixed "* " ::
    if Product.isImageOnly product then [.slot (product.shown "link")] else heading product

/-- A further line of a product that has the field. -/
def detail (product : Fields) (name : String) : List Markup :=
  if (product.look name).truthy then [[.fixed "  ", .slot (product.shown name)]] else []

/-- The lines of a product. -/
def entry (product : Fields) : List Markup :=
  bullet product ::
    if Product.isImageOnly product then []
    else detail product "description" ++ detail product "link"

/-- The line that calls to follow the hero's link, if there is one. -/
def call (hero : Fields) : List Markup :=
  if (hero.look "cta_link").truthy then
    [[.slot (hero.shown "cta_text"), .fixed ": ", .slot (hero.shown "cta_link")]]
  else []

/-- The lines of a shown hero. -/
def heroOutline (hero : Fields) : List Markup :=
  if (hero.look "show").truthy then
    [[.slot (hero.shown "title")], [.slot (hero.shown "subtitle")]] ++ call hero ++ [[]]
  else []

/-- The lines of a campaign. -/
def outline (config : Fields) : List Markup :=
  let company := Config.sectionFields config "company"
  let footer := Config.sectionFields config "footer"
  [[.slot (company.shown "name")], []] ++ heroOutline (Config.sectionFields config "hero") ++
    (Config.listed config).flatMap entry ++
    [[], [.slot (footer.shown "address")], [.slot (footer.shown "text")],
      [.slot (company.shown "website_url")]]

/-- Lines as one text, without blanks at either end, or the sentence that stands in for it. -/
def textOf (ls : List Markup) : Text :=
  let text := Text.trim (List.intercalate "\n" (ls.map Markup.text))
  if text.isEmpty then fallback else text

/-! ## Lines that are texts -/

variable {v : Value} {vs : List Value} {fields product hero : Fields} {name : String}

lemma text_display (h : v.text?.isSome = true) : Value.text v.display = v := by
  obtain ⟨t, ht⟩ := Option.isSome_iff_exists.mp h
  rw [Value.text?_eq_some.mp ht]
  rfl

lemma written_of_text (h : v.text?.isSome = true) : v.written = .ok v.display := by
  rw [← text_display h]
  rfl

/-- Values that are texts are joined. -/
lemma joined_eq (separator : Text) (h : ∀ v ∈ vs, v.text?.isSome = true) :
    joined separator vs = .ok (List.intercalate separator (vs.map Value.display)) := by
  have hlines : vs.mapM line = .ok (vs.map Value.display) := by
    rw [mapM_eq_ok, List.forall₂_map_right_iff, List.forall₂_same]
    intro v hv
    rw [← text_display (h v hv)]
    rfl
  rw [joined, hlines]
  rfl

/-- A field that is true is there. -/
lemma look_eq_shown (h : (fields.look name).truthy = true) :
    fields.look name = fields.shown name := by
  unfold Fields.look Fields.shown at *
  cases hf : fields.find? (.text (Text.ofString name)) with
  | none =>
      rw [hf] at h
      cases h
  | some v => rfl

/-- The lines of an outline, as values. -/
def asLines (ls : List Markup) : List Value := ls.map fun l => .text (Markup.text l)

@[simp] lemma asLines_nil : asLines [] = [] := rfl

@[simp] lemma asLines_cons (l : Markup) (ls : List Markup) :
    asLines (l :: ls) = .text (Markup.text l) :: asLines ls := rfl

@[simp] lemma asLines_append (ls ls' : List Markup) : asLines (ls ++ ls') = asLines ls ++ asLines ls' :=
  List.map_append

/-- A line that is a field. -/
lemma asLines_slot (h : v.text?.isSome = true) (ls : List Markup) :
    asLines ([.slot v] :: ls) = v :: asLines ls := by
  rw [asLines_cons, show Markup.text [.slot v] = v.display from List.append_nil _, text_display h]

lemma joined_asLines (separator : Text) (ls : List Markup) :
    joined separator (asLines ls) = .ok (List.intercalate separator (ls.map Markup.text)) := by
  have htexts : ∀ v ∈ asLines ls, v.text?.isSome = true := by
    rw [asLines, List.forall_mem_map]
    exact fun _ _ => rfl
  rw [joined_eq _ htexts, asLines, List.map_map]
  rfl

/-! ## Products -/

/-- Every field of a product that shows is a text. -/
abbrev Worded (product : Fields) : Prop :=
  ∀ name ∈ Product.texts, (product.shown name).text?.isSome = true

lemma text?_price (h : Worded product) : (price product).text?.isSome = true := by
  unfold price Product.shownPrice?
  split
  · rfl
  · exact h "discount_text" (by decide)
  · exact h "price" (by decide)

/-- Name and price are joined as the outline has them. -/
lemma joined_heading (h : Worded product) :
    joined " — " ([product.shown "name", price product].filter Value.truthy)
      = .ok (Markup.text (heading product)) := by
  have hall : ∀ v ∈ [product.shown "name", price product].filter Value.truthy,
      v.text?.isSome = true := by
    intro v hv
    have hv := List.mem_of_mem_filter hv
    simp only [List.mem_cons, List.not_mem_nil, or_false] at hv
    rcases hv with rfl | rfl
    · exact h "name" (by decide)
    · exact text?_price h
  rw [joined_eq _ hall, heading, Markup.text, flatMap_intercalate, List.map_map]
  simp [Function.comp_def, Piece.text]

/-- A field that a product has is indented. -/
lemma indented_detail (h : (product.shown name).text?.isSome = true) :
    indented product name = .ok (asLines (detail product name)) := by
  unfold indented detail
  dsimp only
  cases ht : (product.look name).truthy with
  | false => rfl
  | true =>
      rw [if_pos rfl, if_pos rfl, look_eq_shown ht, written_of_text h, ok_bind]
      simp [Markup.text, Piece.text]
      rfl

/-- **The lines of a product** are those of its entry. -/
theorem productLines_entry (h : Worded product) :
    productLines (.map product) = .ok (asLines (entry product)) := by
  have hlink := h "link" (by decide)
  unfold productLines entry bullet
  rw [Value.fields_map, ok_bind]
  cases hi : Product.isImageOnly product with
  | true =>
      rw [if_pos rfl, if_pos rfl, if_pos rfl, written_of_text hlink, ok_bind]
      simp [Markup.text, Piece.text]
      rfl
  | false =>
      have hdescription := h "description" (by decide)
      simp only [Bool.false_eq_true, if_false, joined_heading h, indented_detail hdescription,
        indented_detail hlink, ok_bind]
      simp [Markup.text, Piece.text]
      rfl

/-! ## The campaign -/

lemma callLine_call (htext : (hero.shown "cta_text").text?.isSome = true)
    (hlink : (hero.shown "cta_link").text?.isSome = true) :
    callLine hero = .ok (asLines (call hero)) := by
  unfold callLine call
  dsimp only
  cases ht : (hero.look "cta_link").truthy with
  | false => rfl
  | true =>
      rw [if_pos rfl, if_pos rfl, look_eq_shown ht, written_of_text htext, written_of_text hlink]
      simp [Markup.text, Piece.text]

/-- **The lines of a hero** are those of its outline. -/
theorem heroLines_outline (h : ∀ name ∈ ["title", "subtitle", "cta_text", "cta_link"],
    (hero.shown name).text?.isSome = true) : heroLines hero = .ok (asLines (heroOutline hero)) := by
  unfold heroLines heroOutline
  cases hs : (hero.look "show").truthy with
  | false => rfl
  | true =>
      rw [if_pos rfl, if_pos rfl, callLine_call (h _ (by decide)) (h _ (by decide)), ok_bind]
      simp only [List.cons_append, List.nil_append, asLines_slot (h "title" (by decide)),
        asLines_slot (h "subtitle" (by decide)), asLines_append]
      rfl

/-- The entries of the products, one behind the other. -/
lemma mapM_productLines {products : List Fields} (h : ∀ p ∈ products, Worded p) :
    ∃ entries, (products.map Value.map).mapM productLines = .ok entries ∧
      entries.flatten = asLines (products.flatMap entry) := by
  refine ⟨products.map fun p => asLines (entry p), ?_, ?_⟩
  · rw [mapM_eq_ok, List.forall₂_map_left_iff, List.forall₂_map_right_iff, List.forall₂_same]
    exact fun p hp => productLines_entry (h p hp)
  · rw [asLines, List.map_flatMap, List.flatMap]
    rfl

/-- What is false has no fields. -/
lemma asMap_of_not_truthy (h : v.truthy = false) : v.asMap.getD [] = [] := by
  match v with
  | .map fields =>
      have hempty : fields.isEmpty = true := by simpa [Value.truthy] using h
      exact List.isEmpty_iff.mp hempty
  | .scalar _ | .list _ | .pair _ _ | .set _ | .again _ => rfl

/-- A section can be read if it is a mapping, or false and counts as empty. -/
lemma fieldsOrNone_look {r : Fields} {key : String}
    (h : (r.look key).truthy = false ∨ ∃ fields, r.look key = .map fields) :
    (r.look key).fieldsOrNone = .ok (Config.sectionFields r key) := by
  rcases h with hfalse | ⟨fields, hfields⟩
  · rw [Config.sectionFields, asMap_of_not_truthy hfalse, Value.fieldsOrNone,
      if_neg (Bool.eq_false_iff.mp hfalse)]
  · rw [Config.sectionFields_of_look hfields, hfields, Value.fieldsOrNone_map]

/-- **The lines of a campaign** are those of its outline. -/
theorem lines_outline {r : Fields} (hsections : ∀ key ∈ ["company", "hero", "footer"],
      (r.look key).truthy = false ∨ ∃ fields, r.look key = .map fields)
    (hproducts : r.look "products" = .list ((Config.listed r).map .map))
    (htexts : Config.Texts (fun v => v.text?.isSome = true) r) :
    lines (.map r) = .ok (asLines (outline r)) := by
  have hfields (key : String) (hkey : key ∈ ["company", "hero", "footer"]) :=
    fieldsOrNone_look (hsections key hkey)
  obtain ⟨entries, hentries, hflatten⟩ := mapM_productLines htexts.products
  have hshown {name : String} {names : List String} (key : String)
      (hkey : (key, names) ∈ Section.texts) (hname : name ∈ names) :
      ((Config.sectionFields r key).shown name).text?.isSome = true :=
    htexts.sectionFields (fun _ => rfl) hkey hname
  have hheroLines := heroLines_outline fun name hname =>
    hshown "hero" (by decide) (List.mem_cons_of_mem "image_url" hname)
  have hname := hshown "company" (by decide)
    (by decide : "name" ∈ ["name", "logo_url", "website_url"])
  have hwebsite := hshown "company" (by decide)
    (by decide : "website_url" ∈ ["name", "logo_url", "website_url"])
  have haddress := hshown "footer" (by decide) (by decide : "address" ∈ ["address", "text"])
  have htext := hshown "footer" (by decide) (by decide : "text" ∈ ["address", "text"])
  simp only [lines, Value.fields_map, ok_bind, hfields "company" (by decide),
    hfields "hero" (by decide), hfields "footer" (by decide), hproducts,
    Value.itemsOrNone_list, hheroLines, hentries, hflatten, outline, asLines_append,
    List.cons_append, List.nil_append, asLines_slot hname, asLines_slot haddress,
    asLines_slot htext, asLines_slot hwebsite, asLines_cons []]
  rfl

/-- Lines that are made are joined and trimmed. -/
lemma ofConfig_of_lines {config : Value} {ls : List Markup} (h : lines config = .ok (asLines ls)) :
    ofConfig config = .ok (textOf ls) := by
  rw [ofConfig, h, ok_bind, joined_asLines]
  rfl

/-- **The plain-text version** of a complete configuration is the text of its outline, where the
fields that show hold texts. -/
theorem ofConfig_outline {r : Fields} (hsections : ∀ key ∈ ["company", "hero", "footer"],
      ∃ fields, r.look key = .map fields)
    (hproducts : r.look "products" = .list ((Config.listed r).map .map))
    (htexts : Config.Texts (fun v => v.text?.isSome = true) r) :
    ofConfig (.map r) = .ok (textOf (outline r)) :=
  ofConfig_of_lines
    (lines_outline (fun key hkey => .inr (hsections key hkey)) hproducts htexts)

/-! ## One entry for each product -/

/-- Whether a line is the first one of a product. -/
def isBullet : Markup → Bool
  | .fixed s :: _ => s == "* "
  | _ => false

/-- **The bullets** of an outline are those of the products, one for each and in order. -/
theorem filter_outline (r : Fields) : (outline r).filter isBullet = (Config.listed r).map bullet := by
  have hhero : (heroOutline (Config.sectionFields r "hero")).filter isBullet = [] := by
    unfold heroOutline call
    split
    · split <;> rfl
    · rfl
  have hentry (p : Fields) : (entry p).filter isBullet = [bullet p] := by
    have hdetail (name : String) : (detail p name).filter isBullet = [] := by
      unfold detail
      split <;> rfl
    unfold entry
    rw [List.filter_cons_of_pos rfl]
    split
    · rfl
    · rw [List.filter_append, hdetail, hdetail]
      rfl
  -- neither the lines in front of the products nor those behind them are bullets
  simp only [outline, List.filter_append, hhero, List.filter_flatMap, hentry, List.map_eq_flatMap]
  exact List.append_nil _

/-! ## What an outline shows -/

variable {line : Markup}

/-- A heading shows name and price, if they are not empty. -/
lemma slot_heading (h : .slot v ∈ heading product) :
    (v = product.shown "name" ∨ v = price product) ∧ v.truthy = true := by
  have hall : ∀ piece ∈ heading product, ∀ v, piece = .slot v →
      v ∈ [product.shown "name", price product].filter Value.truthy := by
    refine (forall_mem_intercalate fun piece hpiece v hv => ?_).mpr ?_
    · rw [List.mem_singleton.mp hpiece] at hv
      cases hv
    · rw [List.forall_mem_map]
      intro w hw piece hpiece v hv
      rw [List.mem_singleton.mp hpiece] at hv
      cases hv
      exact hw
  simpa using List.mem_filter.mp (hall _ h v rfl)

lemma slot_detail (hline : line ∈ detail product name) (hv : .slot v ∈ line) :
    v = product.shown name := by
  unfold detail at hline
  split at hline
  · rw [List.mem_singleton.mp hline] at hv
    simpa using hv
  · cases hline

/-- **The lines of a product** show its link and, if it is more than an image, its name, its
description and a price that is not empty. -/
theorem slot_entry (hline : line ∈ entry product) (hv : .slot v ∈ line) :
    v = product.shown "link" ∨ Product.isImageOnly product = false ∧
      (v = product.shown "name" ∨ v = product.shown "description" ∨
        v = price product ∧ v.truthy = true) := by
  unfold entry bullet at hline
  cases hi : Product.isImageOnly product with
  | true =>
      rw [hi, if_pos rfl, if_pos rfl, List.mem_singleton] at hline
      rw [hline] at hv
      exact .inl (by simpa using hv)
  | false =>
      refine Or.imp_right (And.intro rfl) ?_
      rw [hi, if_neg Bool.false_ne_true, if_neg Bool.false_ne_true, List.mem_cons,
        List.mem_append] at hline
      rcases hline with rfl | hline | hline
      · obtain ⟨rfl | rfl, htrue⟩ := slot_heading (by simpa using hv)
        · exact .inr (.inl rfl)
        · exact .inr (.inr (.inr ⟨rfl, htrue⟩))
      · exact .inr (.inr (.inl (slot_detail hline hv)))
      · exact .inl (slot_detail hline hv)

/-- The lines of a hero show its texts and its link, and only if it is shown. -/
lemma slot_heroOutline (hline : line ∈ heroOutline hero) (hv : .slot v ∈ line) :
    (hero.look "show").truthy = true ∧
      ∃ name ∈ ["title", "subtitle", "cta_text", "cta_link"], hero.shown name = v := by
  unfold heroOutline call at hline
  cases hshow : (hero.look "show").truthy with
  | false =>
      rw [hshow] at hline
      cases hline
  | true =>
      refine ⟨rfl, ?_⟩
      rw [hshow, if_pos rfl, List.mem_append, List.mem_append] at hline
      rcases hline with (hline | hline) | hline
      · simp only [List.mem_cons, List.not_mem_nil, or_false] at hline
        rcases hline with rfl | rfl
        · exact ⟨"title", by decide, by simpa [eq_comm] using hv⟩
        · exact ⟨"subtitle", by decide, by simpa [eq_comm] using hv⟩
      · split at hline
        · rw [List.mem_singleton.mp hline] at hv
          simp only [List.mem_cons, Piece.slot.injEq, reduceCtorEq, List.not_mem_nil, or_false,
            false_or] at hv
          rcases hv with rfl | rfl
          · exact ⟨"cta_text", by decide, rfl⟩
          · exact ⟨"cta_link", by decide, rfl⟩
        · cases hline
      · rw [List.mem_singleton.mp hline] at hv
        cases hv

/-- **The lines of a campaign** show name and website of the company, what the lines of a shown hero
and of the products show, address and closing text. -/
theorem slot_outline {r : Fields} (hline : line ∈ outline r) (hv : .slot v ∈ line) :
    (∃ name ∈ ["name", "website_url"], (Config.sectionFields r "company").shown name = v) ∨
    (((Config.sectionFields r "hero").look "show").truthy = true ∧
      ∃ name ∈ ["title", "subtitle", "cta_text", "cta_link"],
        (Config.sectionFields r "hero").shown name = v) ∨
    (∃ p ∈ Config.listed r, ∃ line ∈ entry p, .slot v ∈ line) ∨
    ∃ name ∈ ["address", "text"], (Config.sectionFields r "footer").shown name = v := by
  simp only [outline, List.mem_append, List.mem_flatMap] at hline
  rcases hline with ((hline | hline) | ⟨p, hp, hline⟩) | hline
  · simp only [List.mem_cons, List.not_mem_nil, or_false] at hline
    rcases hline with rfl | rfl
    · exact .inl ⟨"name", by decide, by simpa [eq_comm] using hv⟩
    · cases hv
  · exact .inr (.inl (slot_heroOutline hline hv))
  · exact .inr (.inr (.inl ⟨p, hp, line, hline, hv⟩))
  · simp only [List.mem_cons, List.not_mem_nil, or_false] at hline
    rcases hline with rfl | rfl | rfl | rfl
    · cases hv
    · exact .inr (.inr (.inr ⟨"address", by decide, by simpa [eq_comm] using hv⟩))
    · exact .inr (.inr (.inr ⟨"text", by decide, by simpa [eq_comm] using hv⟩))
    · exact .inl ⟨"website_url", by decide, by simpa [eq_comm] using hv⟩

end PlainText

end Mailshot
