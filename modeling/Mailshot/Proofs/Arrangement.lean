import Mailshot.Product.Listing
import Mailshot.Proofs.Resolve

/-!
# Items in their places

An arrangement does the same with its items whatever they hold: it puts them, in order, where places
stood that only their number decides.

* `Listing.form`, `Listing.arrange` — the item that a template makes of a product, and the rows that
  it makes of the items.
* `Listing.form_cases` — the forms that an item can have, under any template.
* **`Listing.ofTemplate_eq`** — the products under a template are their items, arranged.
* `weave`, `Listing.places` — items put into gaps, and the places that leave gaps between them.
* **`Listing.weave_arrange`** — arranged items are the items put where the places were.
-/

namespace Mailshot

/-! ## Weaving -/

section Weaving

variable {α β : Type}

/-- Items put into gaps, of which there is one more. -/
def weave : List (List α) → List (List α) → List α
  | gap :: gaps, item :: items => gap ++ item ++ weave gaps items
  | gaps, _ => gaps.flatten

/-- Gaps with something in front of the first and behind the last. -/
def enclose (front back : List α) : List (List α) → List (List α)
  | [] => []
  | [gap] => [front ++ gap ++ back]
  | gap :: gaps => (front ++ gap) :: enclose [] back gaps

@[simp] lemma length_enclose (front back : List α) (gaps : List (List α)) :
    (enclose front back gaps).length = gaps.length := by
  induction gaps generalizing front with
  | nil => rfl
  | cons gap gaps ih =>
      cases gaps with
      | nil => rfl
      | cons next gaps => exact congrArg Nat.succ (ih [])

lemma weave_enclose (front back : List α) {gaps items : List (List α)}
    (h : gaps.length = items.length + 1) :
    weave (enclose front back gaps) items = front ++ weave gaps items ++ back := by
  induction items generalizing front gaps with
  | nil =>
      obtain ⟨gap, rfl⟩ := List.length_eq_one_iff.mp h
      simp [enclose, weave]
  | cons item items ih =>
      obtain _ | ⟨gap, _ | ⟨next, gaps⟩⟩ := gaps
      · cases h
      · cases h
      · have hgaps : (next :: gaps).length = items.length + 1 := by simpa using h
        have hrest := ih [] hgaps
        simp only [enclose, weave, hrest, List.nil_append, List.append_assoc]

/-- A whole that items are put into has every one of them in it. -/
lemma weave_within {gaps items : List (List α)} {item : List α}
    (h : gaps.length = items.length + 1) (hitem : item ∈ items) : item <:+: weave gaps items := by
  induction items generalizing gaps with
  | nil => cases hitem
  | cons first rest ih =>
      obtain ⟨gap, gaps, rfl⟩ := List.exists_cons_of_length_eq_add_one h
      rw [weave]
      rcases List.mem_cons.mp hitem with rfl | hitem
      · exact ⟨gap, weave gaps rest, rfl⟩
      · exact (ih (by simpa using h) hitem).trans (List.suffix_append _ _).isInfix

/-- What is made of every part of a weave may be made of the gaps and the items. -/
lemma flatMap_weave (f : α → List β) (gaps items : List (List α)) :
    (weave gaps items).flatMap f =
      weave (gaps.map (List.flatMap f)) (items.map (List.flatMap f)) := by
  induction gaps generalizing items with
  | nil => rfl
  | cons gap gaps ih =>
      cases items with
      | nil => simp [weave, ← List.flatMap_id, List.flatMap_assoc, List.flatMap_map]
      | cons item items => simp [weave, ih]

/-- Items put where a list is split. -/
lemma weave_splitOnP_true {p : α → Bool} {a : α} (h : p a = true) (as item : List α)
    (items : List (List α)) :
    weave ((a :: as).splitOnP p) (item :: items) = item ++ weave (as.splitOnP p) items := by
  simp [List.splitOnP_cons_eq_if_modifyHead, h, weave]

lemma weave_splitOnP_false {p : α → Bool} {a : α} (h : p a = false) (as : List α)
    (items : List (List α)) :
    weave ((a :: as).splitOnP p) items = a :: weave (as.splitOnP p) items := by
  rw [List.splitOnP_cons_eq_if_modifyHead, if_neg (by simp [h])]
  cases hs : as.splitOnP p with
  | nil => exact absurd hs (List.splitOnP_ne_nil p as)
  | cons gap gaps => cases items <;> simp [weave]

/-- Some of the items put where a list is split, and the others where the next one is. -/
lemma weave_splitOnP_append {p : α → Bool} {as bs : List α} {items : List (List α)}
    (h : as.countP p = items.length) (others : List (List α)) :
    weave ((as ++ bs).splitOnP p) (items ++ others) =
      weave (as.splitOnP p) items ++ weave (bs.splitOnP p) others := by
  induction as generalizing items with
  | nil =>
      obtain rfl := List.length_eq_zero_iff.mp h.symm
      simp [weave]
  | cons a as ih =>
      cases hp : p a with
      | false =>
          rw [List.countP_cons_of_neg (by simp [hp])] at h
          rw [List.cons_append, weave_splitOnP_false hp, weave_splitOnP_false hp, ih h,
            List.cons_append]
      | true =>
          rw [List.countP_cons_of_pos hp] at h
          obtain ⟨item, items, rfl⟩ := List.exists_cons_of_length_eq_add_one h.symm
          rw [List.cons_append, List.cons_append, weave_splitOnP_true hp, weave_splitOnP_true hp,
            ih (by simpa using h), List.append_assoc]

/-- Items put into the middle of a list. -/
lemma weave_splitOnP_around {p : α → Bool} {front as back : List α} {items : List (List α)}
    (hfront : front.countP p = 0) (has : as.countP p = items.length) (hback : back.countP p = 0) :
    weave ((front ++ as ++ back).splitOnP p) items =
      front ++ weave (as.splitOnP p) items ++ back := by
  have hwhole : ∀ {bs : List α}, bs.countP p = 0 → weave (bs.splitOnP p) [] = bs := by
    intro bs hbs
    rw [List.splitOnP_eq_singleton (by simpa using hbs)]
    simp [weave]
  have hinner : weave ((as ++ back).splitOnP p) (items ++ []) =
      weave (as.splitOnP p) items ++ weave (back.splitOnP p) [] := weave_splitOnP_append has []
  have houter : weave ((front ++ (as ++ back)).splitOnP p) ([] ++ items) =
      weave (front.splitOnP p) [] ++ weave ((as ++ back).splitOnP p) items :=
    weave_splitOnP_append hfront items
  rw [List.append_nil, hwhole hback] at hinner
  rw [List.nil_append, hwhole hfront, hinner] at houter
  rw [List.append_assoc, houter, List.append_assoc]

lemma length_splitOnP (p : α → Bool) (as : List α) : (as.splitOnP p).length = as.countP p + 1 := by
  induction as with
  | nil => rfl
  | cons a as ih =>
      rw [List.splitOnP_cons_eq_if_modifyHead, List.countP_cons]
      split
      · simp [ih]
      · simp [ih]

end Weaving

namespace Listing

/-! ## Forms and arrangements -/

/-- The item that a template makes of a product. -/
def form (template : Template) (layout theme : Value) : Except Fault (Fields → Part) :=
  match template with
  | .classic => do
      let layout ← Layout.ofValue layout
      return gridItem theme layout.tier (← Width.grid layout.content layout.tier)
  | .modern => do
      let layout ← Layout.ofValue layout
      return listItem theme (Width.list layout.tier) (← Width.fullBleed layout.content)
  | .banner => do
      let layout ← Layout.ofValue layout
      return stackItem theme layout.tier (← Width.banner layout.content layout.tier)

/-- The forms that an item can have: those of an image alone, and one for each template. -/
theorem form_cases {template : Template} {layout theme : Value} {item : Fields → Part}
    {motive : Part → Prop} (h : form template layout theme = .ok item) (p : Fields)
    (linkedImage : Product.isImageOnly p = true → ∀ width, ∀ style ∈ ["", " border-radius: 8px;"],
      motive (Product.linkedImage p width style))
    (imageEntry : Product.isImageOnly p = true → ∀ full, motive (Product.imageEntry p full))
    (card : Product.isImageOnly p = false → ∀ tier width, motive (Product.card p theme tier width))
    (entry : Product.isImageOnly p = false → ∀ size, motive (Product.entry p theme size))
    (block : Product.isImageOnly p = false → ∀ tier width,
      motive (Product.block p theme tier width)) : motive (item p) := by
  cases template with
  | classic =>
      obtain ⟨_, -, h⟩ := bind_eq_ok.mp h
      obtain ⟨_, -, h⟩ := bind_eq_ok.mp h
      cases h
      unfold gridItem
      split
      · next hp => exact linkedImage hp _ _ (by decide)
      · next hp => exact card (Bool.eq_false_iff.mpr hp) _ _
  | modern =>
      obtain ⟨_, -, h⟩ := bind_eq_ok.mp h
      obtain ⟨_, -, h⟩ := bind_eq_ok.mp h
      cases h
      unfold listItem
      split
      · next hp => exact imageEntry hp _
      · next hp => exact entry (Bool.eq_false_iff.mpr hp) _
  | banner =>
      obtain ⟨_, -, h⟩ := bind_eq_ok.mp h
      obtain ⟨_, -, h⟩ := bind_eq_ok.mp h
      cases h
      unfold stackItem
      split
      · next hp => exact linkedImage hp _ _ (by decide)
      · next hp => exact block (Bool.eq_false_iff.mpr hp) _ _

/-- The rows that a template makes of items. -/
def arrange : Template → List Markup → List Markup
  | .classic => rows 1
  | .modern => List.map listRow
  | .banner => List.map stackRow

/-- Items of products that are mappings. -/
lemma mapM_fields (item : Fields → Part) (ps : List Fields) :
    ((ps.map Value.map).mapM fun product => product.fields >>= item) = ps.mapM item := by
  rw [List.mapM_map]
  rfl

/-- **The products under a template** are their items, arranged. -/
theorem ofTemplate_eq (template : Template) (ps : List Fields) (layout theme : Value) :
    ofTemplate template (.list (ps.map .map)) layout theme = (do
      let item ← form template layout theme
      let items ← ps.mapM item
      table (arrange template items)) := by
  cases template with
  | classic =>
      simp only [ofTemplate, grid, form, arrange, bind_assoc, pure_bind, Value.runs, Value.items,
        mapM_fields, ok_bind]
  | modern =>
      simp only [ofTemplate, list, form, arrange, bind_assoc, pure_bind, Value.items, mapM_fields,
        ok_bind]
  | banner =>
      simp only [ofTemplate, stack, form, arrange, bind_assoc, pure_bind, Value.items, mapM_fields,
        ok_bind]

/-! ## Places -/

/-- Whether a piece shows a value. -/
def isSlot : Piece → Bool
  | .slot _ => true
  | .fixed _ | .pixels _ => false

@[simp] lemma isSlot_fixed (s : String) : isSlot (.fixed s) = false := rfl

@[simp] lemma isSlot_slot (v : Value) : isSlot (.slot v) = true := rfl

/-- Places for a number of items. -/
def places (n : Nat) : List Markup := List.replicate n [.slot .null]

@[simp] lemma weave_fixed (s : String) (rest : Markup) (items : List Markup) :
    weave (List.splitOnP isSlot (.fixed s :: rest)) items =
      .fixed s :: weave (rest.splitOnP isSlot) items :=
  weave_splitOnP_false rfl _ _

@[simp] lemma weave_slot (v : Value) (rest item : Markup) (items : List Markup) :
    weave (List.splitOnP isSlot (.slot v :: rest)) (item :: items) =
      item ++ weave (rest.splitOnP isSlot) items :=
  weave_splitOnP_true rfl _ _ _

@[simp] lemma weave_nil : weave [[]] ([] : List Markup) = [] := rfl

/-- The rows of a grid, two items at a time. -/
lemma weave_rows : ∀ (number : Nat) (items : List Markup),
    weave ((rows number (places items.length)).flatten.splitOnP isSlot) items =
      (rows number items).flatten
  | _, [] => rfl
  | number, [item] => by simp [places, rows, row, cell, filler]
  | number, left :: right :: rest => by
      have ih := weave_rows (number + 1) rest
      simp only [places] at ih ⊢
      simp [rows, row, cell, List.replicate_succ, ih]

/-- Rows of one item each. -/
lemma weave_map {row : Markup → Markup}
    (h : ∀ item rest items, weave ((row [.slot .null] ++ rest).splitOnP isSlot) (item :: items) =
      row item ++ weave (rest.splitOnP isSlot) items) (items : List Markup) :
    weave (((places items.length).map row).flatten.splitOnP isSlot) items =
      (items.map row).flatten := by
  unfold places
  induction items with
  | nil => rfl
  | cons item items ih =>
      rw [List.length_cons, List.replicate_succ, List.map_cons, List.flatten_cons, h, ih,
        List.map_cons, List.flatten_cons]

/-- **Arranged items** stand where an arrangement has its places. -/
theorem weave_arrange (template : Template) (items : List Markup) :
    weave ((arrange template (places items.length)).flatten.splitOnP isSlot) items =
      (arrange template items).flatten := by
  cases template with
  | classic => exact weave_rows 1 items
  | modern => exact weave_map (fun item rest items => by simp [listRow]) items
  | banner => exact weave_map (fun item rest items => by simp [stackRow]) items

/-- The rows of a grid show the values that its items show. -/
lemma countP_rows : ∀ (number : Nat) (items : List Markup),
    (rows number items).flatten.countP isSlot = items.flatten.countP isSlot
  | _, [] => rfl
  | _, [item] => by simp [rows, row, cell, filler]
  | number, left :: right :: rest => by
      simp [rows, row, cell, countP_rows (number + 1) rest]

/-- Arranged items show the values that the items show. -/
lemma countP_arrange (template : Template) (items : List Markup) :
    (arrange template items).flatten.countP isSlot = items.flatten.countP isSlot := by
  cases template with
  | classic => exact countP_rows 1 items
  | modern => simp [arrange, listRow, List.countP_flatten, Function.comp_def]
  | banner => simp [arrange, stackRow, List.countP_flatten, Function.comp_def]

/-- An arrangement of so many places has just these. -/
theorem countP_arrange_places (template : Template) (n : Nat) :
    (arrange template (places n)).flatten.countP isSlot = n := by
  rw [countP_arrange]
  simp [places, List.countP_replicate]

end Listing

end Mailshot
