import Mailshot.Proofs.Arrangement
import Mailshot.Proofs.Reading
import Mailshot.Section

/-!
# What a part shows

A value that a part shows stands in its text from end to end, between the characters that the compiler
puts around it.

* `Part.Holds` — a part shows a value between two texts, whenever it is made.
* `Part.Holds.here`, `Part.Holds.first`, `Part.Holds.skip` — where in a sequence of parts it does.
* `Product.holds_card`, `Product.holds_entry`, `Product.holds_block` — what the forms of a product
  show of it.
* **`Listing.holds_form`** — the item of a product shows its link and its image under every template.
* **`Section.holds_hero`** — a shown hero shows the link and the text of its button.
-/

namespace Mailshot

open Text

/-! ## Parts that hold a value -/

/-- A part that, whenever it is made, shows a value between two texts. -/
def Part.Holds (before : String) (v : Value) (after : String) (p : Part) : Prop :=
  ∀ m, p = .ok m → v.isShowable = true ∧
    (ofString before ++ v.display ++ ofString after) <:+: Markup.text m

namespace Part.Holds

variable {before after : String} {v : Value} {p : Part} {ps qs : List Part}

/-- What the first of some parts shows. -/
lemma first (h : Holds before v after p) : Holds before v after (Part.join (p :: ps)) := by
  intro m hm
  obtain ⟨front, back, hfront, -, rfl⟩ := join_cons_eq_ok.mp hm
  obtain ⟨hshow, hinfix⟩ := h front hfront
  refine ⟨hshow, hinfix.trans ?_⟩
  rw [Markup.text, Markup.text, List.flatMap_append]
  exact (List.prefix_append _ _).isInfix

/-- What one of the others shows. -/
lemma skip (h : Holds before v after (Part.join ps)) : Holds before v after (Part.join (p :: ps)) := by
  intro m hm
  obtain ⟨front, back, -, hback, rfl⟩ := join_cons_eq_ok.mp hm
  obtain ⟨hshow, hinfix⟩ := h back hback
  refine ⟨hshow, hinfix.trans ?_⟩
  rw [Markup.text, Markup.text, List.flatMap_append]
  exact (List.suffix_append _ _).isInfix

/-- What one of the parts behind the first so many shows. -/
lemma behind (n : Nat) (h : Holds before v after (Part.join (ps.drop n))) :
    Holds before v after (Part.join ps) := by
  induction n generalizing ps with
  | zero => exact h
  | succ n ih =>
      cases ps with
      | nil => exact h
      | cons p ps => exact (ih h).skip

/-- What a part shows that is made from what a step gives. -/
lemma bind {α : Type} {x : Except Fault α} {part : α → Part}
    (h : ∀ a, x = .ok a → Holds before v after (part a)) : Holds before v after (x >>= part) := by
  intro m hm
  obtain ⟨a, ha, hm⟩ := bind_eq_ok.mp hm
  exact h a ha m hm

/-- A value between two texts of the compiler, of which the first ends and the second begins with what
is asked for. -/
lemma here {bs as cs ds : List Char} (hb : bs.isSuffixOf cs = true) (ha : as.isPrefixOf ds = true) :
    Holds (String.ofList bs) v (String.ofList as)
      (Part.join (Part.fixed (String.ofList cs) :: Part.ofValue v ::
        Part.fixed (String.ofList ds) :: ps)) := by
  obtain ⟨front, rfl⟩ := List.isSuffixOf_iff_suffix.mp hb
  obtain ⟨back, rfl⟩ := List.isPrefixOf_iff_prefix.mp ha
  intro m hm
  obtain ⟨_, _, hfront, hrest, rfl⟩ := join_cons_eq_ok.mp hm
  obtain ⟨_, _, hslot, hlast, rfl⟩ := join_cons_eq_ok.mp hrest
  obtain ⟨_, rest, hback, -, rfl⟩ := join_cons_eq_ok.mp hlast
  cases hfront
  cases hback
  obtain ⟨_, hwritten, hslot⟩ := bind_eq_ok.mp hslot
  cases hslot
  refine ⟨?_, ofChars front, ofChars back ++ Markup.text rest, ?_⟩
  · unfold Value.written at hwritten
    split at hwritten
    · assumption
    · cases hwritten
  · simp [Markup.text, Piece.text, ofString, ofChars]

end Part.Holds

/-! ## The forms of a product -/

namespace Product

variable (p : Fields) (θ : Value) (tier : Tier) (n : Int)

/-- A product's link, as the address of an anchor. -/
abbrev HoldsLink (item : Part) : Prop := Part.Holds "href=\"" (p.shown "link") "\"" item

/-- A product's image, as the source of an image. -/
abbrev HoldsImage (item : Part) : Prop := Part.Holds "src=\"" (p.shown "image_url") "\"" item

/-- A product's description, as a paragraph. -/
abbrev HoldsDescription (item : Part) : Prop :=
  Part.Holds ">" (p.shown "description") "</p>" item

lemma holdsLink_image (shape : Part) : HoldsLink p (image p n shape) := .here rfl rfl

lemma holdsImage_image (shape : Part) : HoldsImage p (image p n shape) := .behind 3 <| .here rfl rfl

lemma holdsDescription_description (margin size : String) :
    HoldsDescription p (description p margin size) := .behind 6 <| .here rfl rfl

theorem holds_card : HoldsLink p (card p θ tier n) ∧ HoldsImage p (card p θ tier n) ∧
    HoldsDescription p (card p θ tier n) := by
  unfold card
  exact ⟨.behind 1 <| .first <| .behind 4 <| .first <| holdsLink_image p n _,
    .behind 1 <| .first <| .behind 4 <| .first <| holdsImage_image p n _,
    .behind 2 <| .first <| .behind 5 <| .first <| holdsDescription_description p _ _⟩

theorem holds_entry : HoldsLink p (entry p θ n) ∧ HoldsImage p (entry p θ n) ∧
    HoldsDescription p (entry p θ n) := by
  unfold entry
  exact ⟨.behind 4 <| .first <| .behind 3 <| .first <| holdsLink_image p n _,
    .behind 4 <| .first <| .behind 3 <| .first <| holdsImage_image p n _,
    .behind 5 <| .first <| .behind 6 <| .first <| holdsDescription_description p _ _⟩

theorem holds_block : HoldsLink p (block p θ tier n) ∧ HoldsImage p (block p θ tier n) ∧
    HoldsDescription p (block p θ tier n) := by
  unfold block
  exact ⟨.behind 1 <| .first <| .behind 4 <| .first <| holdsLink_image p n _,
    .behind 1 <| .first <| .behind 4 <| .first <| holdsImage_image p n _,
    .behind 2 <| .first <| .behind 7 <| .first <| holdsDescription_description p _ _⟩

theorem holds_linkedImage (style : String) :
    HoldsLink p (linkedImage p n style) ∧ HoldsImage p (linkedImage p n style) :=
  ⟨.here rfl rfl, .behind 3 <| .here rfl rfl⟩

theorem holds_imageEntry (full : Value) :
    HoldsLink p (imageEntry p full) ∧ HoldsImage p (imageEntry p full) :=
  ⟨.here rfl rfl, .behind 3 <| .here rfl rfl⟩

end Product

namespace Listing

variable {template : Template} {layout θ : Value} {item : Fields → Part}

/-- **The item of a product** shows its link and its image under every template, and its description
unless it is only an image. -/
theorem holds_form (h : form template layout θ = .ok item) (p : Fields) :
    Product.HoldsLink p (item p) ∧ Product.HoldsImage p (item p) ∧
      (Product.isImageOnly p = false → Product.HoldsDescription p (item p)) := by
  refine form_cases (motive := fun item => Product.HoldsLink p item ∧ Product.HoldsImage p item ∧
    (Product.isImageOnly p = false → Product.HoldsDescription p item)) h p ?linkedImage ?imageEntry
    ?card ?entry ?block
  case linkedImage =>
    intro hp width style _
    obtain ⟨hlink, himage⟩ := Product.holds_linkedImage p width style
    exact ⟨hlink, himage, fun hwords => absurd (hp.symm.trans hwords) (by decide)⟩
  case imageEntry =>
    intro hp full
    obtain ⟨hlink, himage⟩ := Product.holds_imageEntry p full
    exact ⟨hlink, himage, fun hwords => absurd (hp.symm.trans hwords) (by decide)⟩
  case card =>
    intro _ tier width
    obtain ⟨hlink, himage, hdescription⟩ := Product.holds_card p θ tier width
    exact ⟨hlink, himage, fun _ => hdescription⟩
  case entry =>
    intro _ size
    obtain ⟨hlink, himage, hdescription⟩ := Product.holds_entry p θ size
    exact ⟨hlink, himage, fun _ => hdescription⟩
  case block =>
    intro _ tier width
    obtain ⟨hlink, himage, hdescription⟩ := Product.holds_block p θ tier width
    exact ⟨hlink, himage, fun _ => hdescription⟩

end Listing

/-! ## The hero -/

/-- **A shown hero** shows the link and the text of its button. -/
theorem Section.holds_hero {hero θ content : Value} {fields : Fields} {template : Option Template}
    (hf : hero = .map fields) (hshow : (fields.look "show").truthy = true) :
    Part.Holds "href=\"" (fields.shown "cta_link") "\"" (Section.hero hero θ template content) ∧
      Part.Holds ">" (fields.shown "cta_text") "</a>" (Section.hero hero θ template content) := by
  subst hf
  unfold Section.hero
  simp only [Value.fields_map, ok_bind, hshow, if_true]
  constructor
  · refine .bind fun ground _ => .behind 4 <| .first ?_
    unfold heroImage
    exact .behind 2 <| .here rfl rfl
  · refine .bind fun ground _ => .behind 5 <| .first ?_
    unfold heroPanel
    exact .behind 20 <| .here rfl rfl

end Mailshot
