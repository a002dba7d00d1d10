import Mathlib.Data.List.DropRight
import Mailshot.Proofs.Outline

/-!
# Plain-text versions are never blank

A plain-text version is made of lines, joined and trimmed.  Trimming takes white space from both ends
and nothing else, so a line between two others that are not blank is kept with its indentation.  Only
if all lines are blank there is nothing left, and a sentence stands in.

* `Text.allBlank`, `Text.Trimmed` — texts of white space alone, and texts with none at either end.
* **`Text.exists_trim_eq`**, `Text.trim_eq_nil_iff`, `Text.trimmed_trim` — what trimming does.
* **`Text.within_trim`**, `Text.lines_within_trim` — what stands between texts that are not blank is
  not trimmed, and no more are the lines between lines that are not.
* `PlainText.Bare` — campaigns of which no line says anything.
* **`PlainText.allBlank_outline`** — they are just those whose lines are all blank.
* **`PlainText.ofConfig_trimmed`** — the plain-text version of a complete configuration.
-/

namespace Mailshot

/-! ## Trimming -/

namespace Text

variable {t front middle back separator : Text} {ls before between after : List Text}

/-- Whether a text is white space alone; the empty one is. -/
def allBlank (t : Text) : Bool := t.all isBlankLetter

@[simp] lemma allBlank_nil : allBlank [] = true := rfl

@[simp] lemma allBlank_append (s t : Text) : allBlank (s ++ t) = (allBlank s && allBlank t) :=
  List.all_append

lemma allBlank_iff : allBlank t = true ↔ ∀ a ∈ t, isBlankLetter a = true := List.all_eq_true

/-- A text with white space at neither end. -/
def Trimmed (t : Text) : Prop :=
  (∀ a ∈ t.head?, isBlankLetter a = false) ∧ ∀ a ∈ t.getLast?, isBlankLetter a = false

instance (t : Text) : Decidable (Trimmed t) :=
  inferInstanceAs (Decidable ((∀ a ∈ t.head?, _) ∧ ∀ a ∈ t.getLast?, _))

lemma trim_eq (t : Text) : trim t = (t.dropWhile isBlankLetter).rdropWhile isBlankLetter := rfl

/-- **Trimming takes white space from both ends**, and nothing else. -/
theorem exists_trim_eq (t : Text) : ∃ lead trail, allBlank lead = true ∧ allBlank trail = true ∧
    t = lead ++ trim t ++ trail := by
  have hlead : allBlank (t.takeWhile isBlankLetter) = true :=
    allBlank_iff.mpr fun a ha => List.mem_takeWhile_imp ha
  have htrail : allBlank ((t.dropWhile isBlankLetter).rtakeWhile isBlankLetter) = true :=
    allBlank_iff.mpr fun a ha => List.mem_rtakeWhile_imp ha
  refine ⟨_, _, hlead, htrail, ?_⟩
  rw [trim_eq, List.append_assoc, List.rdropWhile_append_rtakeWhile,
    List.takeWhile_append_dropWhile]

/-- Nothing is left of white space alone. -/
theorem trim_eq_nil_iff : trim t = [] ↔ allBlank t = true := by
  constructor
  · intro h
    obtain ⟨lead, trail, hlead, htrail, heq⟩ := exists_trim_eq t
    rw [heq, h, List.append_nil, allBlank_append, hlead, htrail]
    rfl
  · intro h
    rw [trim_eq, List.dropWhile_eq_nil_iff.mpr (allBlank_iff.mp h)]
    rfl

/-- What is trimmed has no white space at either end. -/
theorem trimmed_trim (t : Text) : Trimmed (trim t) := by
  constructor
  · intro a ha
    obtain ⟨rest, hrest⟩ := List.rdropWhile_prefix isBlankLetter (t.dropWhile isBlankLetter)
    rw [← trim_eq] at hrest
    have hhead : (t.dropWhile isBlankLetter).head? = some a := by
      rw [← hrest, List.head?_append, ha]
      rfl
    have hnot := List.head?_dropWhile_not isBlankLetter t
    rwa [hhead] at hnot
  · intro a ha
    obtain ⟨hne, rfl⟩ := List.mem_getLast?_eq_getLast ha
    exact Bool.eq_false_iff.mpr (List.rdropWhile_last_not isBlankLetter _ hne)

/-- **What stands between texts that are not blank** is not trimmed. -/
theorem within_trim (hfront : allBlank front = false) (hback : allBlank back = false) :
    middle <:+: trim (front ++ middle ++ back) := by
  obtain ⟨lead, trail, hlead, htrail, heq⟩ := exists_trim_eq (front ++ middle ++ back)
  generalize trim (front ++ middle ++ back) = kept at heq ⊢
  -- no more is taken in front than a part of the text in front, and so behind
  have hle : lead <+: front := by
    have hprefix : lead <+: front ++ (middle ++ back) := by
      rw [← List.append_assoc, heq, List.append_assoc]
      exact List.prefix_append _ _
    rcases List.prefix_or_prefix_of_prefix hprefix (List.prefix_append _ _) with h | ⟨rest, rfl⟩
    · exact h
    · rw [allBlank_append, hfront] at hlead
      cases hlead
  have hge : trail <:+ back := by
    have hsuffix : trail <:+ front ++ middle ++ back := by
      rw [heq]
      exact List.suffix_append _ _
    rcases List.suffix_or_suffix_of_suffix hsuffix (List.suffix_append _ _) with h | ⟨rest, rfl⟩
    · exact h
    · rw [allBlank_append, hback, Bool.and_false] at htrail
      cases htrail
  obtain ⟨front', rfl⟩ := hle
  obtain ⟨back', rfl⟩ := hge
  refine ⟨front', back', ?_⟩
  have hcancel : lead ++ (front' ++ middle ++ back') ++ trail = lead ++ kept ++ trail := by
    rw [← heq]
    simp only [List.append_assoc]
  exact List.append_cancel_left (List.append_cancel_right hcancel)

/-! ## Lines that are joined -/

/-- Lines are blank together if each of them is, and what separates them. -/
lemma allBlank_intercalate (hseparator : allBlank separator = true) :
    allBlank (List.intercalate separator ls) = true ↔ ∀ l ∈ ls, allBlank l = true := by
  simp only [allBlank_iff]
  exact forall_mem_intercalate (allBlank_iff.mp hseparator)

lemma intercalate_append (hbefore : before ≠ []) (hafter : after ≠ []) :
    List.intercalate separator (before ++ after) =
      List.intercalate separator before ++ separator ++ List.intercalate separator after := by
  induction before with
  | nil => exact absurd rfl hbefore
  | cons l before ih =>
      cases before with
      | nil => rw [List.singleton_append, List.intercalate_cons_of_ne_nil hafter,
          List.intercalate_singleton]
      | cons next before =>
          rw [List.cons_append, List.cons_append, List.intercalate_cons_cons, ← List.cons_append,
            ih (List.cons_ne_nil _ _), List.intercalate_cons_cons]
          simp only [List.append_assoc]

/-- **Lines between lines that are not blank** are kept as they are, with what separates them. -/
theorem lines_within_trim (hseparator : allBlank separator = true)
    (hbefore : ∃ l ∈ before, allBlank l = false) (hbetween : between ≠ [])
    (hafter : ∃ l ∈ after, allBlank l = false) :
    separator ++ List.intercalate separator between ++ separator <:+:
      trim (List.intercalate separator (before ++ between ++ after)) := by
  have hnot {ls : List Text} (h : ∃ l ∈ ls, allBlank l = false) :
      ls ≠ [] ∧ allBlank (List.intercalate separator ls) = false := by
    obtain ⟨l, hl, hblank⟩ := h
    refine ⟨List.ne_nil_of_mem hl, Bool.eq_false_iff.mpr fun hall => ?_⟩
    rw [(allBlank_intercalate hseparator).mp hall l hl] at hblank
    cases hblank
  obtain ⟨hbeforeNe, hfront⟩ := hnot hbefore
  obtain ⟨hafterNe, hback⟩ := hnot hafter
  have hwhole : List.intercalate separator (before ++ between ++ after) =
      List.intercalate separator before ++
        (separator ++ List.intercalate separator between ++ separator) ++
        List.intercalate separator after := by
    rw [intercalate_append (List.append_ne_nil_of_left_ne_nil hbeforeNe _) hafterNe,
      intercalate_append hbeforeNe hbetween]
    simp only [List.append_assoc]
  rw [hwhole]
  exact within_trim hfront hback

end Text

namespace PlainText

open Text

variable {hero r : Fields} {c : Value}

/-! ## Campaigns that say nothing -/

/-- A campaign of which no line says anything: it has no products, and what it tells of the company
and of the footer is blank, as are title and subtitle of its hero if it shows one, which then has no
link to follow. -/
structure Bare (r : Fields) : Prop where
  products : Config.listed r = []
  company : ∀ name ∈ ["name", "website_url"],
    allBlank ((Config.sectionFields r "company").shown name).display = true
  footer : ∀ name ∈ ["address", "text"],
    allBlank ((Config.sectionFields r "footer").shown name).display = true
  hero : ((Config.sectionFields r "hero").look "show").truthy = false ∨
    (∀ name ∈ ["title", "subtitle"],
      allBlank ((Config.sectionFields r "hero").shown name).display = true) ∧
    ((Config.sectionFields r "hero").shown "cta_link").display = []

instance (r : Fields) : Decidable (Bare r) :=
  decidable_of_iff
    (Config.listed r = [] ∧
      (∀ name ∈ ["name", "website_url"],
        allBlank ((Config.sectionFields r "company").shown name).display = true) ∧
      (∀ name ∈ ["address", "text"],
        allBlank ((Config.sectionFields r "footer").shown name).display = true) ∧
      (((Config.sectionFields r "hero").look "show").truthy = false ∨
        (∀ name ∈ ["title", "subtitle"],
          allBlank ((Config.sectionFields r "hero").shown name).display = true) ∧
        ((Config.sectionFields r "hero").shown "cta_link").display = []))
    ⟨fun h => ⟨h.1, h.2.1, h.2.2.1, h.2.2.2⟩,
      fun h => ⟨h.products, h.company, h.footer, h.hero⟩⟩

/-- The first line of a product is never blank: it has a bullet. -/
lemma allBlank_bullet (product : Fields) : allBlank (Markup.text (bullet product)) = false := by
  have hmark : allBlank (Piece.fixed "* ").text = false := by decide
  rw [bullet, Markup.text, List.flatMap_cons, allBlank_append, hmark, Bool.false_and]

/-- Nor is the line that calls to follow a link: it has a colon. -/
lemma allBlank_call (h : (hero.shown "cta_link").text?.isSome = true) :
    (∀ l ∈ call hero, allBlank (Markup.text l) = true) ↔ (hero.shown "cta_link").display = [] := by
  have hmark : allBlank (Piece.fixed ": ").text = false := by decide
  have htruthy : (hero.look "cta_link").truthy = !(hero.shown "cta_link").display.isEmpty := by
    rw [← Fields.truthy_shown, ← text_display h]
    rfl
  unfold call
  rw [htruthy]
  cases (hero.shown "cta_link").display with
  | nil => simp
  | cons a rest => simp [Markup.text, hmark]

/-- The lines of a hero are blank if it is hidden, or says nothing. -/
lemma allBlank_heroOutline (h : (hero.shown "cta_link").text?.isSome = true) :
    (∀ l ∈ heroOutline hero, allBlank (Markup.text l) = true) ↔
      (hero.look "show").truthy = false ∨
        (∀ name ∈ ["title", "subtitle"], allBlank (hero.shown name).display = true) ∧
        (hero.shown "cta_link").display = [] := by
  unfold heroOutline
  cases (hero.look "show").truthy with
  | false => simp
  | true =>
      rw [if_pos rfl, List.forall_mem_append, List.forall_mem_append, allBlank_call h]
      simp [Markup.text, Piece.text]

/-- **The lines of a campaign are all blank** if it says nothing, and only then. -/
theorem allBlank_outline (h : ((Config.sectionFields r "hero").shown "cta_link").text?.isSome = true) :
    (∀ l ∈ outline r, allBlank (Markup.text l) = true) ↔ Bare r := by
  have hproducts : (∀ l ∈ (Config.listed r).flatMap entry, allBlank (Markup.text l) = true) ↔
      Config.listed r = [] := by
    cases Config.listed r with
    | nil => simp
    | cons p ps => simp [entry, allBlank_bullet]
  have hslot (v : Value) : Markup.text [.slot v] = v.display := List.append_nil _
  simp only [outline, List.forall_mem_append, List.forall_mem_cons, hslot, hproducts]
  rw [allBlank_heroOutline h]
  constructor
  · rintro ⟨⟨⟨⟨hname, -⟩, hhero⟩, hnone⟩, -, haddress, htext, hwebsite, -⟩
    exact ⟨hnone, by simp [hname, hwebsite], by simp [haddress, htext], hhero⟩
  · rintro ⟨hnone, hcompany, hfooter, hhero⟩
    exact ⟨⟨⟨⟨hcompany "name" (by decide), rfl, by simp⟩, hhero⟩, hnone⟩, rfl,
      hfooter "address" (by decide), hfooter "text" (by decide),
      hcompany "website_url" (by decide), by simp⟩

/-! ## Plain-text versions -/

/-- The text of lines is there and trimmed: what stands in for blank lines is a sentence. -/
lemma textOf_trimmed (ls : List Markup) : textOf ls ≠ [] ∧ Trimmed (textOf ls) := by
  unfold textOf
  dsimp only
  split
  · decide
  · next hempty => exact ⟨fun hnil => hempty (List.isEmpty_iff.mpr hnil), trimmed_trim _⟩

/-- The sentence stands in for lines that are all blank; the text of others is what is left of them. -/
lemma textOf_eq (ls : List Markup) :
    textOf ls = if ∀ l ∈ ls, allBlank (Markup.text l) = true then ofString fallback
      else trim (List.intercalate (ofString "\n") (ls.map Markup.text)) := by
  have hblank : (trim (List.intercalate (ofString "\n") (ls.map Markup.text))).isEmpty = true ↔
      ∀ l ∈ ls, allBlank (Markup.text l) = true := by
    rw [List.isEmpty_iff, trim_eq_nil_iff, allBlank_intercalate (by decide), List.forall_mem_map]
  simp only [← hblank]
  rfl

/-- **A plain-text version is never blank.**  The lines of a complete configuration are all blank just
if the campaign says nothing, and then the sentence stands in.  Otherwise the plain-text version is
these lines, joined, without the white space at either end.  All lines between two that are not blank
stand in it as they are.  The fields that show must hold texts; a section may be missing or false, but
nothing else that is no mapping. -/
theorem ofConfig_trimmed (hr : Config.resolve c = .ok r)
    (hsections : ∀ key ∈ ["company", "hero", "footer"],
      (r.look key).truthy = false ∨ ∃ fields, r.look key = .map fields)
    (htexts : Config.Texts (fun v => v.text?.isSome = true) r) :
    ∃ (ls : List Text) (t : Text), lines (.map r) = .ok (ls.map fun l => .text l) ∧
      ofConfig (.map r) = .ok t ∧ t ≠ [] ∧ Trimmed t ∧
      ((∀ l ∈ ls, allBlank l = true) ↔ Bare r) ∧
      (Bare r → t = ofString fallback) ∧
      (¬ Bare r →
        (∃ lead trail, allBlank lead = true ∧ allBlank trail = true ∧
          List.intercalate (ofString "\n") ls = lead ++ t ++ trail) ∧
        ∀ before between after, ls = before ++ between ++ after → between ≠ [] →
          (∃ l ∈ before, allBlank l = false) → (∃ l ∈ after, allBlank l = false) →
          ofString "\n" ++ List.intercalate (ofString "\n") between ++ ofString "\n" <:+: t) := by
  have hlines := lines_outline hsections (Config.look_products hr) htexts
  have hbare : (∀ l ∈ outline r, allBlank (Markup.text l) = true) ↔ Bare r :=
    allBlank_outline (htexts.sectionFields (fun _ => rfl)
      (by decide : ("hero", ["image_url", "title", "subtitle", "cta_text", "cta_link"]) ∈ Section.texts)
      (by decide))
  refine ⟨(outline r).map Markup.text, textOf (outline r), ?_, ofConfig_of_lines hlines,
    (textOf_trimmed _).1, (textOf_trimmed _).2, ?_, fun h => ?_, fun h => ?_⟩
  · rw [hlines, asLines, List.map_map]
    rfl
  · rw [List.forall_mem_map, hbare]
  · rw [textOf_eq, if_pos (hbare.mpr h)]
  · rw [textOf_eq, if_neg (mt hbare.mp h)]
    refine ⟨exists_trim_eq _, fun before between after hls hbetween hbefore hafter => ?_⟩
    rw [hls]
    exact lines_within_trim (by decide) hbefore hbetween hafter

/-- A company and a product, some of whose fields begin or end with spaces. -/
def indentedShop : Fields := Fields.named [
  ("company", .map (Fields.named [("name", .text "  Acme ")])),
  ("products", .list [.map (Fields.named
    [("name", .text "Lamp"), ("description", .text "  warm "), ("link", .text "/lamp")])])]

theorem ofConfig_trimmed_indented : ∃ r t, Config.resolve (.map indentedShop) = .ok r ∧
    Config.Texts (fun v => v.text?.isSome = true) r ∧ ¬ Bare r ∧
    ofConfig (.map r) = .ok t ∧ Trimmed t ∧ ofString "\n    warm \n" <:+: t := by
  obtain ⟨r, hr, htexts, hbare, hmaps, houtline⟩ : ∃ r,
      Config.resolve (.map indentedShop) = .ok r ∧
      Config.Texts (fun v => v.text?.isSome = true) r ∧ ¬ Bare r ∧
      (∀ key ∈ ["company", "hero", "footer"], (r.look key).asMap.isSome = true) ∧
      (outline r).map Markup.text = ["  Acme ", "", "", "", "", "* Lamp"].map ofString ++
        [ofString "    warm "] ++ ["  /lamp", "", "", "", ""].map ofString :=
    ⟨_, eq_ok_of_isOk (by decide +kernel), by decide +kernel, by decide +kernel,
      by decide +kernel, by decide +kernel⟩
  have hsections : ∀ key ∈ ["company", "hero", "footer"],
      (r.look key).truthy = false ∨ ∃ fields, r.look key = .map fields := by
    intro key hkey
    obtain ⟨fields, hfields⟩ := Option.isSome_iff_exists.mp (hmaps key hkey)
    exact .inr ⟨fields, Value.asMap_eq_some.mp hfields⟩
  obtain ⟨ls, t, hls, ht, -, htrimmed, -, -, hkept⟩ := ofConfig_trimmed hr hsections htexts
  have hsame : ls.map (fun l => Value.text l) = ((outline r).map Markup.text).map .text := by
    rw [lines_outline hsections (Config.look_products hr) htexts] at hls
    rw [← Except.ok.inj hls, asLines, List.map_map]
    rfl
  have hinjective : Function.Injective fun l : Text => Value.text l := fun _ _ h => by
    cases h
    rfl
  rw [houtline] at hsame
  exact ⟨r, t, hr, htexts, hbare, ht, htrimmed, (hkept hbare).2 _ _ _
    (hinjective.list_map hsame) (List.cons_ne_nil _ _) ⟨ofString "* Lamp", by decide⟩
    ⟨ofString "  /lamp", by decide⟩⟩

end PlainText

end Mailshot
