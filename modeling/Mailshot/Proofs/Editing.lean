import Mathlib.Data.List.InsertIdx
import Mailshot.Config.Edit
import Mailshot.Proofs.Resolve

/-!
# What an edit does

An edit of a configuration that lists its products changes that list and nothing else, and of the
configuration it reads nothing but how many products there are.

* `Config.add_eq`, `Config.update_eq`, `Config.remove_eq` — the three edits on such a configuration.
* `Change`, `Change.apply` — the changes that can be made to a list of products.
* `Edit.change` — the change that an edit makes among so many products, or why it makes none.
* **`Edit.run_eq`** — an edit makes its change.
* `Edit.exists_change_of_run`, `Edit.run_escape_eq_ok` — what an edit that succeeds has made.
-/

namespace Mailshot

/-- One item of a list changed before or after all are. -/
lemma map_modify {α β : Type} {f : α → α} {f' : β → β} {g : α → β} {as : List α}
    (h : ∀ a ∈ as, g (f a) = f' (g a)) (n : Nat) :
    (as.modify n f).map g = (as.map g).modify n f' := by
  induction as generalizing n with
  | nil => simp
  | cons a rest ih =>
      obtain ⟨ha, hrest⟩ := List.forall_mem_cons.mp h
      cases n with
      | zero => simp [ha]
      | succ n => simp [ih hrest]

/-- An item of a list with one item changed is one of the old items or the changed one. -/
lemma exists_of_mem_modify {α : Type} {f : α → α} {as : List α} {n : Nat} {a : α}
    (h : a ∈ as.modify n f) : a ∈ as ∨ ∃ b ∈ as, f b = a := by
  induction as generalizing n with
  | nil => simp at h
  | cons b rest ih =>
      cases n with
      | zero =>
          rcases List.mem_cons.mp h with rfl | h
          · exact .inr ⟨b, List.mem_cons_self, rfl⟩
          · exact .inl (List.mem_cons_of_mem _ h)
      | succ n =>
          rcases List.mem_cons.mp h with rfl | h
          · exact .inl List.mem_cons_self
          · rcases ih h with h | ⟨c, hc, rfl⟩
            · exact .inl (List.mem_cons_of_mem _ h)
            · exact .inr ⟨c, List.mem_cons_of_mem _ hc, rfl⟩

/-! ## Configurations that list their products -/

namespace Config

/-- A configuration with a list of products. -/
def withListed (c : Fields) (products : List Fields) : Fields :=
  c.put (.text (Text.ofString "products")) (.list (products.map .map))

variable {c : Fields}

@[simp] lemma listed_withListed (c : Fields) (products : List Fields) :
    listed (withListed c products) = products :=
  listed_of_look (Fields.look_put_self _ _ _)

/-- The products of a configuration are apart from its other fields. -/
lemma look_withListed_of_ne {key : String} (hk : key ≠ "products") (c : Fields)
    (products : List Fields) : (withListed c products).look key = c.look key :=
  Fields.look_put_of_ne hk _ _

lemma listsProducts_withListed (c : Fields) (products : List Fields) :
    ListsProducts (withListed c products) :=
  .inr ⟨products, Fields.look_put_self _ _ _⟩

lemma productsOf_eq (h : ListsProducts c) : productsOf c = .list ((listed c).map .map) := by
  unfold productsOf
  rcases h with hn | ⟨products, hp⟩
  · simp [hn, listed, Value.truthy, Scalar.truthy]
  · rw [hp, listed_of_look hp]
    cases products <;> simp [Value.truthy]

/-! ## Positions -/

/-- The place among so many products that a position names. -/
def slot (count : Nat) (index : Value) : Except Fault Nat := do
  match index.number? with
  | none => throw .notComparable
  | some i =>
      if i.isIndexBelow count then place i
      else
        let _ ← index.written
        throw (.noProduct index count)

lemma position_bind_place (items : List Value) (index : Value) :
    (position (.list items) index >>= place) = slot items.length index := by
  unfold position slot
  cases index.number? with
  | none => rfl
  | some i =>
      simp only [Value.count, Value.items, ok_bind]
      split
      · rfl
      · cases index.written <;> rfl

/-- A place that is named lies among the products. -/
lemma slot_lt {count n : Nat} {index : Value} (h : slot count index = .ok n) : n < count := by
  unfold slot at h
  split at h
  · cases h
  · next i _ =>
      split at h
      · next hi =>
          cases i with
          | int i =>
              cases h
              simp only [Number.isIndexBelow, Bool.and_eq_true, decide_eq_true_eq] at hi
              omega
          | float x => cases h
      · obtain ⟨_, -, h⟩ := bind_eq_ok.mp h
        cases h

/-- The fields that can be set are those that products carry. -/
lemma productField_eq_ok {field : Value} {key : Scalar} :
    productField field = .ok key ↔ field = .scalar key ∧ Product.isField key = true := by
  cases field with
  | scalar k =>
      by_cases hk : Product.isField k = true
      · simp only [productField, hk, if_true, pure, Except.pure, Except.ok.injEq, Value.scalar.injEq]
        constructor
        · rintro rfl
          exact ⟨rfl, hk⟩
        · exact And.left
      · simp only [productField, hk, Bool.false_eq_true, if_false, bind_eq_ok, Value.scalar.injEq]
        constructor
        · rintro ⟨_, -, h⟩
          cases h
        · rintro ⟨rfl, h⟩
          exact absurd h hk
  | list _ | map _ | pair _ _ | set _ | again _ => simp [productField]

/-! ## The edits -/

lemma add_eq (h : ListsProducts c) (product : Value) :
    add (.map c) product = .ok (withProducts c (.list ((listed c).map .map ++ [product]))) := by
  simp only [add, Value.fields_map, ok_bind, productsOf_eq h]
  rfl

lemma remove_eq (h : ListsProducts c) (index : Value) : remove (.map c) index = (do
    let n ← slot (listed c).length index
    return .map (withListed c ((listed c).eraseIdx n))) := by
  have hslot := position_bind_place ((listed c).map .map) index
  rw [List.length_map] at hslot
  simp only [remove, Value.fields_map, ok_bind, productsOf_eq h, ← hslot, bind_assoc,
    List.eraseIdx_map]
  rfl

lemma update_eq (h : ListsProducts c) (index field value : Value) :
    update (.map c) index field value = (do
      let key ← productField field
      let n ← slot (listed c).length index
      return .map (withListed c ((listed c).modify n fun p => p.put key value))) := by
  have hslot := position_bind_place ((listed c).map .map) index
  rw [List.length_map] at hslot
  simp only [update, Value.fields_map, ok_bind, productsOf_eq h, ← hslot, bind_assoc]
  cases productField field with
  | error e => rfl
  | ok key =>
      simp only [ok_bind]
      cases hp : position (.list ((listed c).map .map)) index with
      | error e => rfl
      | ok i =>
          simp only [ok_bind]
          cases hi : place i with
          | error e => rfl
          | ok n =>
              rw [hp, ok_bind, hi] at hslot
              have hn : n < (listed c).length := slot_lt hslot.symm
              -- the product that is set is one of the mappings of the list
              have hproduct : ((listed c).map Value.map).getD n .null = .map (listed c)[n] := by
                simp [hn]
              simp only [ok_bind, hproduct, setField, withProducts, withListed,
                List.modify_eq_set, List.map_set]
              simp [hn]

end Config

/-! ## Changes of a list -/

/-- A change of a list of products. -/
inductive Change
  /-- A product is put at the end. -/
  | append (product : Fields)
  /-- A field of the product at a place is set. -/
  | set (place : Nat) (key : Scalar) (value : Value)
  /-- The product at a place is taken out. -/
  | erase (place : Nat)

/-- The products after a change. -/
def Change.apply : Change → List Fields → List Fields
  | append product, products => products ++ [product]
  | set place key value, products => products.modify place fun product => product.put key value
  | erase place, products => products.eraseIdx place

/-- An edit of the products that adds nothing but mappings, whose keys are apart. -/
def Edit.Ordinary : Edit → Prop
  | add (some product) => ∃ fields : Fields, product = .map fields ∧ fields.Distinct
  | add none | addFresh _ | update _ _ _ | remove _ => True
  | resolve | escape => False

/-- The number of ids that an edit draws: one for a placeholder. -/
def Edit.draws : Edit → Nat
  | add none | addFresh _ => 1
  | _ => 0

/-- The change that an edit makes among so many products, or why it makes none. -/
def Edit.change (ids : Nat → Text) (drawn count : Nat) : Edit → Except Fault Change
  | add (some product) => product.fields.map .append
  | add none => (Product.fresh (ids drawn) []).map .append
  | addFresh chosen => (Product.fresh (ids drawn) chosen).map .append
  | update index field value => do
      let key ← Config.productField field
      let place ← Config.slot count index
      return .set place key value
  | remove index => (Config.slot count index).map .erase
  | resolve | escape => .error .notExtendable

namespace Edit

variable {ids : Nat → Text} {drawn : Nat} {c : Fields} {e : Edit}

lemma add_map_eq (h : Config.ListsProducts c) (product : Fields) :
    Config.add (.map c) (.map product) =
      .ok (.map (Config.withListed c ((Change.append product).apply (Config.listed c)))) := by
  rw [Config.add_eq h]
  simp [Config.withProducts, Config.withListed, Change.apply]

/-- **An edit makes its change**, or fails for the reason why there is none. -/
theorem run_eq (h : Config.ListsProducts c) (he : e.Ordinary) :
    e.run ids drawn (.map c) = match e.change ids drawn (Config.listed c).length with
      | .ok change =>
          (.ok (.map (Config.withListed c (change.apply (Config.listed c)))), drawn + e.draws)
      | .error fault => (.error fault, drawn) := by
  cases e with
  | add product =>
      cases product with
      | none =>
          simp only [run, change]
          cases Product.fresh (ids drawn) [] with
          | error e => rfl
          | ok product =>
              rw [ok_bind, add_map_eq h]
              rfl
      | some product =>
          obtain ⟨fields, rfl, -⟩ := he
          simp only [run, change, add_map_eq h]
          rfl
  | addFresh chosen =>
      simp only [run, change]
      cases Product.fresh (ids drawn) chosen with
      | error e => rfl
      | ok product =>
          simp only [add_map_eq h]
          rfl
  | update index field value =>
      simp only [run, change, Config.update_eq h]
      cases Config.productField field with
      | error e => rfl
      | ok key => cases Config.slot (Config.listed c).length index <;> rfl
  | remove index =>
      simp only [run, change, Config.remove_eq h]
      cases Config.slot (Config.listed c).length index <;> rfl
  | resolve => exact he.elim
  | escape => exact he.elim

/-- What an edit that succeeds has made. -/
lemma exists_change_of_run (h : Config.ListsProducts c) (he : e.Ordinary) {v : Value}
    (hrun : (e.run ids drawn (.map c)).1 = .ok v) :
    ∃ change, e.change ids drawn (Config.listed c).length = .ok change ∧
      v = .map (Config.withListed c (change.apply (Config.listed c))) ∧
      (e.run ids drawn (.map c)).2 = drawn + e.draws := by
  rw [run_eq h he] at hrun ⊢
  cases hchange : e.change ids drawn (Config.listed c).length with
  | error fault =>
      rw [hchange] at hrun
      cases hrun
  | ok change =>
      rw [hchange] at hrun
      cases hrun
      exact ⟨change, rfl, rfl, rfl⟩

/-- Escaping succeeds on what does not hold itself. -/
lemma run_escape_eq_ok {v w : Value} :
    (Edit.escape.run ids drawn v).1 = .ok w ↔ v.isEndless = false ∧ w = v.escape := by
  cases h : v.isEndless with
  | true => simp [run, h]
  | false => simp [run, h, eq_comm]

end Edit

end Mailshot
