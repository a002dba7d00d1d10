import Mailshot.Value.Basic

/-!
# The order of sets

A set has no order, but it shows its items in one: that in which they happen to stand.  A copy of the
set may hold them in another.  A configuration is copied when it is completed, changed or compiled;
what is made of it is given with its sets as they stood before, and the order in which they stand where
they are shown is given beside it.

* `SetOrder` — an order for the items of every set, by the way to it.
* `Value.ordered`, `Fields.ordered` — a value with its sets in such an order.
* `Value.isRigid` — whether there is but one: no set in the value holds two items.
* `SetOrder.ofTables` — the order of sets that are built anew a number of times, the items put into a
  table one after the other.
-/

namespace Mailshot

/-! ## Orders -/

/-- The way into a value: keys of mappings and positions in lists, from the outside in. -/
abbrev Way := List Scalar

/-- An order for the items of every set, by the way to it. -/
structure SetOrder where
  order : Way → List Scalar → List Scalar
  perm : ∀ way items, (order way items).Perm items

namespace Value

mutual

/-- A value, found on a way, with its sets in an order. -/
def ordered (ρ : SetOrder) : Way → Value → Value
  | _, .scalar s => .scalar s
  | way, .list items => .list (orderedItems ρ way 0 items)
  | way, .map fields => .map (orderedFields ρ way fields)
  | way, .pair first second =>
      .pair (ordered ρ (way ++ [.int 0]) first) (ordered ρ (way ++ [.int 1]) second)
  | way, .set items => .set (ρ.order way items)
  | _, .again shape => .again shape

/-- The items of a list from a position on, each with its sets in order. -/
def orderedItems (ρ : SetOrder) : Way → Nat → List Value → List Value
  | _, _, [] => []
  | way, n, item :: rest =>
      ordered ρ (way ++ [.int n]) item :: orderedItems ρ way (n + 1) rest

/-- The fields of a mapping, each value with its sets in order. -/
def orderedFields (ρ : SetOrder) : Way → List (Scalar × Value) → List (Scalar × Value)
  | _, [] => []
  | way, (key, value) :: rest =>
      (key, ordered ρ (way ++ [key]) value) :: orderedFields ρ way rest

end

mutual

/-- Whether no set in a value holds two items, so that it can stand in one order only. -/
def isRigid : Value → Bool
  | .scalar _ => true
  | .list items => allRigid items
  | .map fields => allFieldsRigid fields
  | .pair first second => isRigid first && isRigid second
  | .set items => items.length ≤ 1
  | .again _ => true

/-- Whether no set in the items of a list holds two items. -/
def allRigid : List Value → Bool
  | [] => true
  | item :: rest => isRigid item && allRigid rest

/-- Whether no set in the values of fields holds two items. -/
def allFieldsRigid : List (Scalar × Value) → Bool
  | [] => true
  | (_, value) :: rest => isRigid value && allFieldsRigid rest

end

end Value

/-- Fields with their sets in an order; those of a configuration are found on no way at all. -/
def Fields.ordered (fields : Fields) (ρ : SetOrder) (way : Way := []) : Fields :=
  Value.orderedFields ρ way fields

/-! ## Tables

A set keeps its items in a table and shows them from seat to seat.  Up to four items, the table has
eight seats; a whole number takes the seat of its remainder, or the next free one that is tried.  Of
other sets nothing is said here: they are left as they stand, though texts take other seats each time
that the program is run. -/

namespace Table

/-- The seats that are tried for a number, from one seat on. -/
def seats : Nat → Nat → Nat → List Nat
  | 0, _, _ => []
  | tries + 1, seat, rest => seat :: seats tries ((5 * seat + 1 + rest / 32) % 8) (rest / 32)

/-- The number, two to the sixty-first less one, from which on a whole number no longer stands for
itself. -/
def wrap : Int := 2305843009213693951

/-- The number by which an item is seated, if it is a whole number that stands for itself. -/
def number? : Scalar → Option Nat
  | .int i => if 0 ≤ i ∧ i < wrap then some i.toNat else none
  | _ => none

/-- Whether a seat of a table is free. -/
def isFree (table : List (Option Scalar)) (seat : Nat) : Bool :=
  match table[seat]? with
  | some none => true
  | _ => false

/-- A table with an item more.  After so many tries every seat was tried. -/
def seated (table : List (Option Scalar)) (item : Scalar) : List (Option Scalar) :=
  let number := (number? item).getD 0
  match (seats 21 (number % 8) number).find? (isFree table) with
  | some seat => table.set seat (some item)
  | none => table ++ [some item]

/-- The items of a set in the order in which it shows them once it is built of them, one after the
other. -/
def order (items : List Scalar) : List Scalar :=
  if items.length ≤ 4 && items.all fun item => (number? item).isSome then
    (items.foldl seated (List.replicate 8 none)).filterMap id
  else items

/-- Three and eleven have the same seat, and the first of them takes it. -/
example : order [.int 3, .int 11] = [.int 11, .int 3] := by rfl

/-- The items of a set that is built anew a number of times. -/
def rebuilt : Nat → List Scalar → List Scalar
  | 0, items => items
  | times + 1, items => rebuilt times (order items)

/-! ### No item is lost -/

theorem perm_set {table : List (Option Scalar)} {seat : Nat} (h : isFree table seat = true)
    (item : Scalar) :
    ((table.set seat (some item)).filterMap id).Perm (table.filterMap id ++ [item]) := by
  induction table generalizing seat with
  | nil => simp [isFree] at h
  | cons first rest ih =>
      cases seat with
      | zero =>
          cases first with
          | some _ => simp [isFree] at h
          | none => simpa using (List.perm_append_singleton item (rest.filterMap id)).symm
      | succ seat =>
          have hfree : isFree rest seat = true := by simpa [isFree] using h
          have hrest := ih hfree
          cases first with
          | some _ => simpa using hrest
          | none => simpa using hrest

theorem perm_seated (table : List (Option Scalar)) (item : Scalar) :
    ((seated table item).filterMap id).Perm (table.filterMap id ++ [item]) := by
  unfold seated
  dsimp only
  split
  · next seat hseat => exact perm_set (List.find?_some hseat) item
  · simp

theorem perm_foldl_seated (table : List (Option Scalar)) (items : List Scalar) :
    ((items.foldl seated table).filterMap id).Perm (table.filterMap id ++ items) := by
  induction items generalizing table with
  | nil => simp
  | cons item rest ih =>
      have hfirst := (perm_seated table item).append_right rest
      rw [List.append_assoc] at hfirst
      exact (ih (seated table item)).trans hfirst

/-- **A set that is built of items shows these items.** -/
theorem perm_order (items : List Scalar) : (order items).Perm items := by
  unfold order
  split
  · simpa using perm_foldl_seated (List.replicate 8 none) items
  · exact .refl items

theorem perm_rebuilt (times : Nat) (items : List Scalar) : (rebuilt times items).Perm items := by
  induction times generalizing items with
  | zero => exact .refl items
  | succ times ih => exact (ih (order items)).trans (perm_order items)

end Table

namespace SetOrder

/-- Every set built anew a number of times, which may depend on the way to it. -/
def ofTables (times : Way → Nat) : SetOrder :=
  ⟨fun way => Table.rebuilt (times way), fun way => Table.perm_rebuilt (times way)⟩

/-- How often a completion copies what is found on a way: the products as a whole, and each of their
fields again. -/
def copies : Way → Nat
  | .text key :: _ => if key = Text.ofString "products" then 2 else 1
  | _ => 1

/-- The sets of a configuration that is completed. -/
def copied : SetOrder := ofTables copies

/-- The sets of a configuration that is built from a file and completed. -/
def loaded : SetOrder := ofTables fun way => copies way + 1

end SetOrder

end Mailshot
