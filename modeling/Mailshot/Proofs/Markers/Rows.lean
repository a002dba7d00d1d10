import Mailshot.Proofs.Markers.Product

/-!
# Rows

The grid puts its items into rows of two cells, and the other templates put each of theirs into a row
of its own.

* `Listing.seats` — the cells of a grid in the order in which they are read.
* `Listing.Wrapped` — rows of two cells, and **`Listing.wrapped_rows`** — the rows of the grid.
* `Marker.count` — how many markers of a kind a template puts around a number of items.
* **`Listing.ofTemplate_counts`** — the products under a template bring just these.
-/

namespace Mailshot

open Text

namespace Listing

/-! ## Rows of two cells -/

/-- The cells of a grid: one for each item, and a filler behind an odd number of them. -/
def seats (items : List Markup) : List Markup :=
  items.map cell ++ List.replicate (items.length % 2) filler

/-- Items in rows of two cells, which are numbered from one. -/
structure Wrapped (items rows : List Markup) : Prop where
  /-- There are half as many rows as items, rounded up. -/
  count : rows.length = (items.length + 1) / 2
  /-- A row holds two cells that follow one another, under its number. -/
  row : ∀ r < rows.length, ∃ left right, (seats items)[2 * r]? = some left ∧
    (seats items)[2 * r + 1]? = some right ∧ rows[r]? = some (row (r + 1) left right)
  /-- A filler stands behind an odd number of items, and nowhere else. -/
  odd : ∀ i, (seats items)[i]? = some filler ↔ items.length % 2 = 1 ∧ i = items.length
  /-- No cell is left over. -/
  full : (seats items).length = 2 * rows.length

lemma seats_cons_cons (left right : Markup) (rest : List Markup) :
    seats (left :: right :: rest) = cell left :: cell right :: seats rest := by
  have hparity : (rest.length + 1 + 1) % 2 = rest.length % 2 := by omega
  simp [seats, hparity]

lemma length_rows : ∀ (k : Nat) (items : List Markup), (rows k items).length = (items.length + 1) / 2
  | _, [] => rfl
  | _, [_] => by simp [rows]
  | k, _ :: _ :: rest => by
      simp only [rows, List.length_cons, length_rows (k + 1) rest]
      omega

/-- Two items at a time, the rows being numbered from `k`. -/
lemma getElem?_rows : ∀ (k : Nat) (items : List Markup), ∀ r < (rows k items).length,
    ∃ left right, (seats items)[2 * r]? = some left ∧ (seats items)[2 * r + 1]? = some right ∧
      (rows k items)[r]? = some (row (k + r) left right)
  | _, [], _, h => absurd h (Nat.not_lt_zero _)
  | _, [item], r, h => by
      obtain rfl : r = 0 := Nat.lt_one_iff.mp h
      exact ⟨cell item, filler, rfl, rfl, rfl⟩
  | _, left :: right :: rest, 0, _ => by
      rw [seats_cons_cons]
      exact ⟨cell left, cell right, rfl, rfl, rfl⟩
  | k, left :: right :: rest, r + 1, h => by
      obtain ⟨l, r', hl, hr, hrow⟩ := getElem?_rows (k + 1) rest r (Nat.lt_of_succ_lt_succ h)
      rw [seats_cons_cons, rows, show k + (r + 1) = k + 1 + r by omega]
      exact ⟨l, r', hl, hr, hrow⟩

/-- No item has the cell of a filler. -/
lemma cell_ne_filler (item : Markup) : cell item ≠ filler := by
  intro h
  have hfirst := Piece.fixed.inj (List.cons.inj h).1
  revert hfirst
  decide

lemma seats_eq_filler (items : List Markup) (i : Nat) :
    (seats items)[i]? = some filler ↔ items.length % 2 = 1 ∧ i = items.length := by
  rw [seats, List.getElem?_append, List.length_map]
  split
  · next hlt =>
      simp [List.getElem?_eq_getElem hlt, cell_ne_filler, hlt.ne]
  · next hge =>
      rw [List.getElem?_replicate, ite_eq_left_iff]
      simp
      omega

/-- **The rows of a grid** hold its items two by two. -/
theorem wrapped_rows (items : List Markup) : Wrapped items (rows 1 items) where
  count := length_rows 1 items
  row r h := by
    rw [Nat.add_comm r 1]
    exact getElem?_rows 1 items r h
  odd := seats_eq_filler items
  full := by
    simp only [seats, List.length_append, List.length_map, List.length_replicate, length_rows]
    omega

end Listing

/-! ## Markers around items -/

/-- How many markers of a kind a template puts around a number of items. -/
def Marker.count (w : Marker) (template : Template) (n : Nat) : Nat :=
  match template, w with
  | .classic, .gridRow => (n + 1) / 2
  | .classic, .gridFiller => n % 2
  | .modern, .listItem => n
  | .banner, .bannerItem => n
  | _, _ => 0

/-- Two more items in the grid are one more row. -/
lemma Marker.count_add_two (w : Marker) (n : Nat) :
    w.count .classic (n + 2) = (if w = .gridRow then 1 else 0) + w.count .classic n := by
  cases w <;> simp [count]
  omega

namespace Listing

variable {w : Marker} {left right item : Markup} {items : List Markup} {i j : Nat}

lemma cell_calm (h : Markup.IsCalm item) : Markup.IsCalm (cell item) := by
  have hparts : Part.IsCalm (Part.join
      ["<td width=\"50%\" valign=\"top\" style=\"padding: 10px;\">", .ok item, "\n</td>"]) :=
    Part.isCalm_join (by simp [h]; and_intros <;> exact isCalm_literal rfl)
  exact hparts _ rfl

lemma filler_counts : Markup.Counts w filler (if w = .gridFiller then 1 else 0) :=
  Markup.counts_literal rfl rfl

/-- Behind its marker a row has its number, which is calm. -/
lemma row_counts (k : Nat) (hl : Markup.Counts w left i) (hr : Markup.Counts w right j) :
    Markup.Counts w (row k left right) ((if w = .gridRow then 1 else 0) + (i + j)) := by
  have hmarker : Markup.Counts w [.fixed "<!-- GRID ROW "] (if w = .gridRow then 1 else 0) :=
    Markup.counts_literal rfl rfl
  have hnumber : Part.IsCalm (.fixed (toString k)) :=
    Part.isCalm_fixed.mpr (isCalm_of_unmarked (unmarked_ofString.mpr (clean_natString k)))
  have hopening : Part.IsCalm (.fixed " -->\n<tr>") :=
    Part.isCalm_fixed.mpr (isCalm_literal rfl)
  have hclosing : Part.IsCalm (.fixed "</tr>") :=
    Part.isCalm_fixed.mpr (isCalm_literal rfl)
  have hparts := hmarker.append <| (hnumber _ rfl).counts.append <| (hopening _ rfl).counts.append <|
    (hl.append hr).append (hclosing _ rfl).counts
  simpa [row] using hparts

/-- The rows of a grid, two items at a time. -/
lemma rows_counts : ∀ (k : Nat) {items : List Markup}, (∀ item ∈ items, Markup.IsCalm item) →
    Markup.Counts w (rows k items).flatten (w.count .classic items.length)
  | _, [], _ => by
      have hnone : w.count .classic 0 = 0 := by cases w <;> rfl
      exact hnone ▸ .nil
  | k, [item], h => by
      have hone : w.count .classic 1 =
          (if w = .gridRow then 1 else 0) + (0 + if w = .gridFiller then 1 else 0) + 0 := by
        cases w <;> rfl
      have hcell := (cell_calm (h item List.mem_cons_self)).counts (w := w)
      exact hone ▸ (row_counts k hcell filler_counts).append .nil
  | k, left :: right :: rest, h => by
      obtain ⟨hl, hr, hrest⟩ := List.forall_mem_cons.mp h |>.imp_right List.forall_mem_cons.mp
      have hrow := row_counts k (cell_calm hl).counts (cell_calm hr).counts (w := w)
      rw [List.length_cons, List.length_cons, Marker.count_add_two]
      exact hrow.append (rows_counts (k + 1) hrest)

lemma listRow_counts (h : Markup.IsCalm item) :
    Markup.Counts w (listRow item) (if w = .listItem then 1 else 0) := by
  have hmarker : Markup.Counts w [.fixed "<!-- LIST ITEM -->\n<tr><td style=\"padding: 15px 0; "]
      (if w = .listItem then 1 else 0) :=
    Markup.counts_literal rfl rfl
  have hrest : Part.IsCalm (Part.join ["border-bottom: 1px solid ", Palette.border, ";\">", .ok item,
      "\n</td></tr>"]) :=
    Part.isCalm_join (by simp [h]; and_intros <;> exact isCalm_literal rfl)
  exact hmarker.append (hrest _ rfl).counts

lemma stackRow_counts (h : Markup.IsCalm item) :
    Markup.Counts w (stackRow item) (if w = .bannerItem then 1 else 0) := by
  have hmarker : Markup.Counts w
      [.fixed "<!-- BANNER ITEM -->\n<tr><td style=\"padding-bottom: 20px;\">"]
      (if w = .bannerItem then 1 else 0) :=
    Markup.counts_literal rfl rfl
  have hrest : Part.IsCalm (Part.join [.ok item, "\n</td></tr>"]) :=
    Part.isCalm_join (by simp [h]; exact isCalm_literal rfl)
  exact hmarker.append (hrest _ rfl).counts

/-- Rows of one item each. -/
lemma map_counts {row : Markup → Markup} (h : ∀ item ∈ items, Markup.Counts w (row item) j) :
    Markup.Counts w (items.map row).flatten (items.length * j) := by
  induction items with
  | nil => exact (Nat.zero_mul j).symm ▸ .nil
  | cons item items ih =>
      obtain ⟨hitem, hrest⟩ := List.forall_mem_cons.mp h
      rw [List.length_cons, Nat.succ_mul, Nat.add_comm]
      exact hitem.append (ih hrest)

/-- Items without markers, in the rows of a template. -/
lemma arrange_counts (template : Template) (h : ∀ item ∈ items, Markup.IsCalm item) :
    Markup.Counts w (arrange template items).flatten (w.count template items.length) := by
  cases template with
  | classic => exact rows_counts 1 h
  | modern =>
      have hcount : w.count .modern items.length = items.length * (if w = .listItem then 1 else 0) := by
        cases w <;> simp [Marker.count]
      exact hcount ▸ map_counts fun item hitem => listRow_counts (h item hitem)
  | banner =>
      have hcount : w.count .banner items.length =
          items.length * (if w = .bannerItem then 1 else 0) := by
        cases w <;> simp [Marker.count]
      exact hcount ▸ map_counts fun item hitem => stackRow_counts (h item hitem)

lemma table_counts {rows : List Markup} (h : Markup.Counts w rows.flatten j) :
    Part.Counts w (table rows) j := by
  refine Part.Counts.join_around ["<table ", .tableAttributes, ">"] ["</table>"] ?_
    (Part.counts_ok h) ?_
  · simp
    and_intros <;> exact isCalm_literal rfl
  · simp
    exact isCalm_literal rfl

/-- **The products under a template** bring a marker for every row and every filler. -/
theorem ofTemplate_counts (template : Template) (ps : List Fields) (layout θ : Value) :
    Part.Counts w (ofTemplate template (.list (ps.map .map)) layout θ)
      (w.count template ps.length) := by
  rw [ofTemplate_eq]
  refine .after fun form hform => .after fun items hitems => ?_
  have hcalm := forall_of_mapM_eq_ok hitems fun p _ item hitem => form_calm hform p item hitem
  rw [(mapM_eq_ok.mp hitems).length_eq]
  exact table_counts (arrange_counts template hcalm)

end Listing

end Mailshot
