import Mailshot.Proofs.Completion

/-!
# Edits in either order

An edit touches one place of the list of products.  Two edits of different places can be made in
either order, if the places are counted as they are when each edit is made: behind a product that is
taken out, every place is one less.

* `Fields.put_put_perm` — two writes in either order.
* `Config.append`, `Config.setAt`, `Config.dropAt` — the edits by place, and what they make of a list.
* `Config.before`, `Config.behind` — a place before a product was taken out, and after.
* `Config.EditLaws` — the laws, pair by pair, and what no edit touches.
* **`Config.editLaws`** — every configuration with a list of products obeys them.
-/

namespace Mailshot

/-! ## Writes in either order -/

namespace Fields

/-- Two writes under different keys give the same fields in either order; they stand in the same order
too, unless both keys are new. -/
lemma put_put_perm {s t : Text} (h : s ≠ t) (fields : Fields) (v w : Value) :
    ((fields.put (.text s) v).put (.text t) w).Perm ((fields.put (.text t) w).put (.text s) v) ∧
      ((fields.find? (.text s)).isSome = true ∨ (fields.find? (.text t)).isSome = true →
        (fields.put (.text s) v).put (.text t) w = (fields.put (.text t) w).put (.text s) v) := by
  have hst : (Scalar.text s) ≠ .text t := fun heq => h (Scalar.text.inj heq)
  have hcomm : (fields.find? (.text s)).isSome = true ∨ (fields.find? (.text t)).isSome = true →
      (fields.put (.text s) v).put (.text t) w = (fields.put (.text t) w).put (.text s) v := by
    rintro (hs | ht)
    · exact put_comm hst.symm hs v w
    · exact (put_comm hst ht w v).symm
  refine ⟨?_, hcomm⟩
  by_cases hold : (fields.find? (.text s)).isSome = true ∨ (fields.find? (.text t)).isSome = true
  · rw [hcomm hold]
  · -- both keys are new and come last, in the order of the writes
    obtain ⟨hs, ht⟩ := not_or.mp hold
    rw [Option.not_isSome_iff_eq_none] at hs ht
    have hts : (fields.put (.text s) v).find? (.text t) = none := by
      rw [find?_put_of_ne _ _ hst, ht]
    have hst : (fields.put (.text t) w).find? (.text s) = none := by
      rw [find?_put_of_ne _ _ hst.symm, hs]
    rw [put_of_find?_eq_none hts, put_of_find?_eq_none hst, put_of_find?_eq_none hs,
      put_of_find?_eq_none ht, List.append_assoc, List.append_assoc]
    exact (List.Perm.swap _ _ []).append_left fields

end Fields

/-! ## Edits by place -/

namespace Config

/-- A product is put at the end. -/
def append (product config : Value) : Except Fault Value := add config product

/-- A field of the product at a place is set. -/
def setAt (i : Nat) (field : Scalar) (value config : Value) : Except Fault Value :=
  update config (.int i) (.scalar field) value

/-- The product at a place is taken out. -/
def dropAt (i : Nat) (config : Value) : Except Fault Value := remove config (.int i)

/-- The answer to a place that is not among the products. -/
def refusal (i count : Nat) : Except Fault Value := do
  let _ ← (Value.int i).written
  throw (.noProduct (.int i) count)

/-- A configuration with a list in place of its products, of whatever kind the items are. -/
def withItems (c : Fields) (items : List Value) : Fields :=
  c.put (.text (Text.ofString "products")) (.list items)

section Items

variable {c : Fields} {items : List Value} {p : Fields} {field : Scalar} {i : Nat}

lemma look_withItems (c : Fields) (items : List Value) :
    (withItems c items).look "products" = .list items := Fields.look_put_self _ _ _

@[simp] lemma withItems_withItems (c : Fields) (items others : List Value) :
    withItems (withItems c items) others = withItems c others := Fields.put_put _ _ _ _

/-- The list that is there already. -/
lemma withItems_self (h : c.look "products" = .list items) : withItems c items = c := by
  refine Fields.put_eq_self ?_
  unfold Fields.look at h
  cases hf : c.find? (.text (Text.ofString "products")) with
  | none => rw [hf] at h; cases h
  | some v => rw [hf] at h; exact congrArg some h

lemma productsOf_of_look (h : c.look "products" = .list items) : productsOf c = .list items := by
  unfold productsOf
  rw [h]
  cases items <;> rfl

lemma isIndexBelow_int (i count : Nat) :
    (Number.int (i : Int)).isIndexBelow count = decide (i < count) := by
  simp [Number.isIndexBelow]

/-- A place among the items is a position. -/
lemma position_of_lt (hi : i < items.length) :
    position (.list items) (.int i) = .ok (.int i) := by
  simp only [position, Value.number?, Scalar.number?, Value.count, Value.items, ok_bind,
    isIndexBelow_int, hi, decide_true, if_true]
  rfl

/-- One behind them is none. -/
lemma position_of_le (hi : items.length ≤ i) :
    position (.list items) (.int i) =
      (Value.int i).written >>= fun _ => .error (.noProduct (.int i) items.length) := by
  simp only [position, Value.number?, Scalar.number?, Value.count, Value.items, ok_bind,
    isIndexBelow_int, Nat.not_lt.mpr hi, decide_false, Bool.false_eq_true, if_false]
  rfl

lemma productField_of_isField (hf : Product.isField field = true) :
    productField (.scalar field) = .ok field :=
  productField_eq_ok.mpr ⟨rfl, hf⟩

lemma append_eq (h : c.look "products" = .list items) (product : Value) :
    append product (.map c) = .ok (.map (withItems c (items ++ [product]))) := by
  simp only [append, add, Value.fields_map, ok_bind, productsOf_of_look h]
  rfl

lemma setAt_eq (h : c.look "products" = .list items) (hf : Product.isField field = true)
    (hp : items[i]? = some (.map p)) (v : Value) :
    setAt i field v (.map c) = .ok (.map (withItems c (items.set i (.map (p.put field v))))) := by
  obtain ⟨hi, hget⟩ := List.getElem?_eq_some_iff.mp hp
  have hproduct : items.getD i .null = .map p := by simp [hi, hget]
  simp only [setAt, update, productField_of_isField hf, Value.fields_map, ok_bind,
    productsOf_of_look h, position_of_lt hi, place, Int.toNat_natCast, hproduct, setField]
  rfl

lemma dropAt_eq (h : c.look "products" = .list items) (hi : i < items.length) :
    dropAt i (.map c) = .ok (.map (withItems c (items.eraseIdx i))) := by
  simp only [dropAt, remove, Value.fields_map, ok_bind, productsOf_of_look h, position_of_lt hi,
    place, Int.toNat_natCast]
  rfl

lemma setAt_refused (h : c.look "products" = .list items) (hf : Product.isField field = true)
    (hi : items.length ≤ i) (v : Value) :
    setAt i field v (.map c) = refusal i items.length := by
  simp only [setAt, update, productField_of_isField hf, Value.fields_map, ok_bind,
    productsOf_of_look h, position_of_le hi, refusal, bind_assoc]
  rfl

lemma dropAt_refused (h : c.look "products" = .list items) (hi : items.length ≤ i) :
    dropAt i (.map c) = refusal i items.length := by
  simp only [dropAt, remove, Value.fields_map, ok_bind, productsOf_of_look h, position_of_le hi,
    refusal, bind_assoc]
  rfl

end Items

/-! ## Places before and behind -/

/-- Where a place was before the product at `j` was taken out. -/
def before (j i : Nat) : Nat := if j ≤ i then i + 1 else i

/-- Where a place is after the product at `j` was taken out. -/
def behind (j i : Nat) : Nat := if j < i then i - 1 else i

section Lists

variable {α : Type} {as : List α} {i j : Nat}

/-- What stands at a place after a removal stood where the place was before. -/
lemma getElem?_eraseIdx_before (as : List α) (j i : Nat) :
    (as.eraseIdx j)[i]? = as[before j i]? := by
  rw [List.getElem?_eraseIdx]
  unfold before
  by_cases h : i < j
  · rw [if_pos h, if_neg (Nat.not_le.mpr h)]
  · rw [if_neg h, if_pos (Nat.not_lt.mp h)]

/-- A place behind the last removal moves by the first. -/
lemma before_before (i j k : Nat) :
    before i (before j k) = before (before i j) (before (behind j i) k) := by
  unfold before behind
  split_ifs <;> omega

lemma before_lt {n : Nat} (hi : i + 1 < n) (j : Nat) : before j i < n := by
  unfold before
  split <;> omega

/-- An item set before a removal is set where the removal leaves it. -/
lemma eraseIdx_set_before (as : List α) (j i : Nat) (a : α) :
    (as.set (before j i) a).eraseIdx j = (as.eraseIdx j).set i a := by
  apply List.ext_getElem?
  intro k
  rw [getElem?_eraseIdx_before, List.getElem?_set, List.getElem?_set, getElem?_eraseIdx_before]
  have hinj : before j i = before j k ↔ i = k := by
    unfold before
    split_ifs <;> omega
  by_cases hik : i = k
  · subst hik
    have hlen : before j i < as.length ↔ i < (as.eraseIdx j).length := by
      rw [List.length_eraseIdx]
      unfold before
      split_ifs <;> omega
    simp only [if_true, hlen]
  · rw [if_neg (mt hinj.mp hik), if_neg hik]

/-- Two removals in either order. -/
lemma eraseIdx_eraseIdx (as : List α) (i j : Nat) :
    (as.eraseIdx i).eraseIdx j = (as.eraseIdx (before i j)).eraseIdx (behind j i) := by
  apply List.ext_getElem?
  intro k
  rw [getElem?_eraseIdx_before, getElem?_eraseIdx_before, getElem?_eraseIdx_before,
    getElem?_eraseIdx_before, before_before]

end Lists

/-! ## The laws -/

/-- Two ways to edit a configuration end in the same one. -/
def Meet (x y : Except Fault Value) : Prop := ∃ c : Value, x = .ok c ∧ y = .ok c

/-- What holds of the edits of a configuration with these products, two by two. -/
structure EditLaws (c : Fields) (ps : List Fields) : Prop where
  /-- Fields of two products are set in either order. -/
  set_set : ∀ {i j : Nat} {f g : Scalar} (v w : Value), i < ps.length → j < ps.length → i ≠ j →
    Product.isField f = true → Product.isField g = true →
    Meet ((setAt i f v >=> setAt j g w) (.map c)) ((setAt j g w >=> setAt i f v) (.map c))
  /-- So are two fields of one product; if it has neither yet, they stand in the order in which they
  were set. -/
  set_set_other : ∀ {i : Nat} {p : Fields} {f g : Scalar} (v w : Value), ps[i]? = some p → f ≠ g →
    Product.isField f = true → Product.isField g = true → ∃ q r : Fields,
      q.Perm r ∧ ((p.find? f).isSome = true ∨ (p.find? g).isSome = true → q = r) ∧
      (setAt i f v >=> setAt i g w) (.map c) = .ok (.map (withListed c (ps.set i q))) ∧
      (setAt i g w >=> setAt i f v) (.map c) = .ok (.map (withListed c (ps.set i r)))
  /-- Of two values of one field the later one stays. -/
  set_set_same : ∀ {i : Nat} {f : Scalar} (v w : Value), i < ps.length → Product.isField f = true →
    Meet ((setAt i f v >=> setAt i f w) (.map c)) (setAt i f w (.map c))
  /-- A value is taken back by setting the field to what it was. -/
  set_back : ∀ {i : Nat} {p : Fields} {f : Scalar} {old : Value} (v : Value), ps[i]? = some p →
    Product.isField f = true → p.find? f = some old →
    (setAt i f v >=> setAt i f old) (.map c) = .ok (.map c)
  /-- A field that is set after a removal can be set before it, at the place of its product then; the
  last place is none after the removal, and the one behind it none before. -/
  drop_set : ∀ {i j : Nat} {f : Scalar} (v : Value), i < ps.length → j < ps.length →
    Product.isField f = true →
    if i + 1 < ps.length then
      Meet ((dropAt j >=> setAt i f v) (.map c)) ((setAt (before j i) f v >=> dropAt j) (.map c))
    else (dropAt j >=> setAt i f v) (.map c) = refusal i (ps.length - 1) ∧
      (setAt (before j i) f v >=> dropAt j) (.map c) = refusal ps.length ps.length
  /-- What is set in a product is gone with it. -/
  set_drop : ∀ {j : Nat} {f : Scalar} (v : Value), j < ps.length → Product.isField f = true →
    Meet ((setAt j f v >=> dropAt j) (.map c)) (dropAt j (.map c))
  /-- Two removals in either order. -/
  drop_drop : ∀ {i j : Nat}, i < ps.length → j < ps.length →
    if j + 1 < ps.length then
      Meet ((dropAt i >=> dropAt j) (.map c)) ((dropAt (before i j) >=> dropAt (behind j i)) (.map c))
    else (dropAt i >=> dropAt j) (.map c) = refusal j (ps.length - 1) ∧
      (dropAt (before i j) >=> dropAt (behind j i)) (.map c) = refusal ps.length ps.length
  /-- A product is put at the end before or after a field of another is set. -/
  append_set : ∀ {i : Nat} {f : Scalar} (p v : Value), i < ps.length → Product.isField f = true →
    Meet ((append p >=> setAt i f v) (.map c)) ((setAt i f v >=> append p) (.map c))
  /-- And before or after another is taken out. -/
  append_drop : ∀ {i : Nat} (p : Value), i < ps.length →
    Meet ((append p >=> dropAt i) (.map c)) ((dropAt i >=> append p) (.map c))
  /-- It is taken back by a removal of the last place. -/
  append_back : ∀ p : Value, (append p >=> dropAt ps.length) (.map c) = .ok (.map c)
  /-- No edit touches any field but the products. -/
  elsewhere : ∀ {product index field value d : Value}, (add (.map c) product = .ok d ∨
      update (.map c) index field value = .ok d ∨ remove (.map c) index = .ok d) →
    ∃ fields : Fields, d = .map fields ∧
      ∀ k, k ≠ .text (Text.ofString "products") → fields.find? k = c.find? k
  /-- A product at the end leaves all others. -/
  append_frame : ∀ p : Value, ∃ d : Fields, append p (.map c) = .ok (.map d) ∧
    d.look "products" = .list (ps.map .map ++ [p])
  /-- A field that is set leaves all other products, and the other fields of its own. -/
  set_frame : ∀ {i : Nat} {p : Fields} {f : Scalar} (v : Value), ps[i]? = some p →
    Product.isField f = true → ∃ (d : Fields) (qs : List Fields) (q : Fields),
      setAt i f v (.map c) = .ok (.map d) ∧ d.look "products" = .list (qs.map .map) ∧
      (∀ k, k ≠ i → qs[k]? = ps[k]?) ∧ qs[i]? = some q ∧
      q.find? f = some v ∧ ∀ k, k ≠ f → q.find? k = p.find? k
  /-- A removal leaves all other products, in their order. -/
  drop_frame : ∀ {i : Nat}, i < ps.length → ∃ (d : Fields) (qs : List Fields),
    dropAt i (.map c) = .ok (.map d) ∧ d.look "products" = .list (qs.map .map) ∧
    qs.length + 1 = ps.length ∧ ∀ k, qs[k]? = ps[before i k]?

section Laws

variable {c : Fields} {items : List Value} {ps : List Fields} {p q : Fields} {f g : Scalar}
  {i j : Nat} {v w : Value}

/-- Two fields set one after the other, from what stands at the second place in between. -/
lemma setAt_setAt (h : c.look "products" = .list items) (hf : Product.isField f = true)
    (hg : Product.isField g = true) (hp : items[i]? = some (.map p))
    (hq : (items.set i (.map (p.put f v)))[j]? = some (.map q)) :
    (setAt i f v >=> setAt j g w) (.map c) =
      .ok (.map (withItems c ((items.set i (.map (p.put f v))).set j (.map (q.put g w))))) := by
  show setAt i f v (.map c) >>= setAt j g w = _
  rw [setAt_eq h hf hp, ok_bind, setAt_eq (look_withItems _ _) hg hq, withItems_withItems]

/-- A removal and a field that is set after it. -/
lemma dropAt_setAt (h : c.look "products" = .list items) (hf : Product.isField f = true)
    (hj : j < items.length) (hp : items[before j i]? = some (.map p)) :
    (dropAt j >=> setAt i f v) (.map c) =
      .ok (.map (withItems c ((items.eraseIdx j).set i (.map (p.put f v))))) := by
  show dropAt j (.map c) >>= setAt i f v = _
  rw [dropAt_eq h hj, ok_bind, setAt_eq (look_withItems _ _) hf (by rwa [getElem?_eraseIdx_before]),
    withItems_withItems]

/-- A field that is set and a removal after it. -/
lemma setAt_dropAt (h : c.look "products" = .list items) (hf : Product.isField f = true)
    (hp : items[i]? = some (.map p)) (hj : j < items.length) :
    (setAt i f v >=> dropAt j) (.map c) =
      .ok (.map (withItems c ((items.set i (.map (p.put f v))).eraseIdx j))) := by
  show setAt i f v (.map c) >>= dropAt j = _
  rw [setAt_eq h hf hp, ok_bind, dropAt_eq (look_withItems _ _) (by rwa [List.length_set]),
    withItems_withItems]

/-- Two removals. -/
lemma dropAt_dropAt (h : c.look "products" = .list items) (hi : i < items.length)
    (hj : j + 1 < items.length) :
    (dropAt i >=> dropAt j) (.map c) =
      .ok (.map (withItems c ((items.eraseIdx i).eraseIdx j))) := by
  have hlen : j < (items.eraseIdx i).length := by
    rw [List.length_eraseIdx_of_lt hi]
    omega
  show dropAt i (.map c) >>= dropAt j = _
  rw [dropAt_eq h hi, ok_bind, dropAt_eq (look_withItems _ _) hlen, withItems_withItems]

/-- The list with one product put in the place of another. -/
lemma withItems_set (c : Fields) (ps : List Fields) (i : Nat) (p : Fields) :
    withItems c ((ps.map .map).set i (.map p)) = withListed c (ps.set i p) := by
  rw [← List.map_set]
  rfl

lemma getElem?_map_map (hp : ps[i]? = some p) : (ps.map Value.map)[i]? = some (.map p) := by
  rw [List.getElem?_map, hp]
  rfl

/-- What stands at a place after a product was put there. -/
lemma getElem?_set_here (hi : i < ps.length) (v : Value) :
    ((ps.map Value.map).set i v)[i]? = some v := by
  rw [List.getElem?_set_self (by rwa [List.length_map])]

variable (h : c.look "products" = .list (ps.map .map))

include h

lemma meet_set_set (hi : i < ps.length) (hj : j < ps.length) (hij : i ≠ j)
    (hf : Product.isField f = true) (hg : Product.isField g = true) (v w : Value) :
    Meet ((setAt i f v >=> setAt j g w) (.map c)) ((setAt j g w >=> setAt i f v) (.map c)) := by
  have hp : (ps.map Value.map)[i]? = some (.map ps[i]) := getElem?_map_map (List.getElem?_eq_getElem hi)
  have hq : (ps.map Value.map)[j]? = some (.map ps[j]) := getElem?_map_map (List.getElem?_eq_getElem hj)
  refine ⟨_, setAt_setAt h hf hg hp (by rwa [List.getElem?_set_ne hij]), ?_⟩
  rw [setAt_setAt h hg hf hq (by rwa [List.getElem?_set_ne hij.symm]), List.set_comm _ _ hij]

lemma set_set_other (hp : ps[i]? = some p) (hfg : f ≠ g) (hf : Product.isField f = true)
    (hg : Product.isField g = true) (v w : Value) : ∃ q r : Fields,
      q.Perm r ∧ ((p.find? f).isSome = true ∨ (p.find? g).isSome = true → q = r) ∧
      (setAt i f v >=> setAt i g w) (.map c) = .ok (.map (withListed c (ps.set i q))) ∧
      (setAt i g w >=> setAt i f v) (.map c) = .ok (.map (withListed c (ps.set i r))) := by
  obtain ⟨hi, -⟩ := List.getElem?_eq_some_iff.mp hp
  obtain ⟨s, -, rfl, -⟩ := Product.exists_of_isField hf
  obtain ⟨t, -, rfl, -⟩ := Product.exists_of_isField hg
  obtain ⟨hperm, heq⟩ := Fields.put_put_perm (fun hst => hfg (congrArg _ hst)) p v w
  refine ⟨_, _, hperm, heq, ?_, ?_⟩
  · rw [setAt_setAt h hf hg (getElem?_map_map hp) (getElem?_set_here hi _), List.set_set,
      withItems_set]
  · rw [setAt_setAt h hg hf (getElem?_map_map hp) (getElem?_set_here hi _), List.set_set,
      withItems_set]

lemma set_set_same (hp : ps[i]? = some p) (hf : Product.isField f = true) (v w : Value) :
    (setAt i f v >=> setAt i f w) (.map c) =
      .ok (.map (withItems c ((ps.map .map).set i (.map (p.put f w))))) := by
  obtain ⟨hi, -⟩ := List.getElem?_eq_some_iff.mp hp
  rw [setAt_setAt h hf hf (getElem?_map_map hp) (getElem?_set_here hi _), List.set_set,
    Fields.put_put]

lemma set_back {old : Value} (hp : ps[i]? = some p) (hf : Product.isField f = true)
    (hold : p.find? f = some old) (v : Value) :
    (setAt i f v >=> setAt i f old) (.map c) = .ok (.map c) := by
  obtain ⟨hi, hget⟩ := List.getElem?_eq_some_iff.mp hp
  rw [set_set_same h hp hf, Fields.put_eq_self hold, withItems_set, ← hget, List.set_getElem_self]
  exact congrArg (Except.ok ∘ Value.map) (withItems_self h)

lemma meet_drop_set (hj : j < ps.length) (hi : i + 1 < ps.length) (hf : Product.isField f = true)
    (v : Value) :
    Meet ((dropAt j >=> setAt i f v) (.map c)) ((setAt (before j i) f v >=> dropAt j) (.map c)) := by
  obtain ⟨p, hget⟩ : ∃ p, ps[before j i]? = some p := ⟨_, List.getElem?_eq_getElem (before_lt hi j)⟩
  have hp := getElem?_map_map hget
  have hlen : j < (ps.map Value.map).length := by rwa [List.length_map]
  refine ⟨_, dropAt_setAt h hf hlen hp, ?_⟩
  rw [setAt_dropAt h hf hp hlen, eraseIdx_set_before]

lemma drop_set_refused (hj : j < ps.length) (hi : i + 1 = ps.length)
    (hf : Product.isField f = true) (v : Value) :
    (dropAt j >=> setAt i f v) (.map c) = refusal i (ps.length - 1) ∧
      (setAt (before j i) f v >=> dropAt j) (.map c) = refusal ps.length ps.length := by
  have hlen : j < (ps.map Value.map).length := by rwa [List.length_map]
  have herase : ((ps.map Value.map).eraseIdx j).length = ps.length - 1 := by
    rw [List.length_eraseIdx_of_lt hlen, List.length_map]
  have hbefore : before j i = (ps.map Value.map).length := by
    rw [before, if_pos (by omega), List.length_map, hi]
  constructor
  · show dropAt j (.map c) >>= setAt i f v = _
    rw [dropAt_eq h hlen, ok_bind, setAt_refused (look_withItems _ _) hf (by omega), herase]
  · show setAt (before j i) f v (.map c) >>= dropAt j = _
    rw [hbefore, setAt_refused h hf le_rfl, List.length_map, refusal, bind_assoc]
    rfl

lemma meet_set_drop (hj : j < ps.length) (hf : Product.isField f = true) (v : Value) :
    Meet ((setAt j f v >=> dropAt j) (.map c)) (dropAt j (.map c)) := by
  have hlen : j < (ps.map Value.map).length := by rwa [List.length_map]
  refine ⟨_, setAt_dropAt h hf (getElem?_map_map (List.getElem?_eq_getElem hj)) hlen, ?_⟩
  rw [dropAt_eq h hlen, List.eraseIdx_set_eq]

lemma meet_drop_drop (hi : i < ps.length) (hj : j + 1 < ps.length) :
    Meet ((dropAt i >=> dropAt j) (.map c))
      ((dropAt (before i j) >=> dropAt (behind j i)) (.map c)) := by
  have hlen : (ps.map Value.map).length = ps.length := List.length_map _
  have hbehind : behind j i + 1 < ps.length := by
    unfold behind
    split <;> omega
  refine ⟨_, dropAt_dropAt h (by rwa [hlen]) (by rwa [hlen]), ?_⟩
  rw [dropAt_dropAt h (by rw [hlen]; exact before_lt hj i) (by rwa [hlen]), ← eraseIdx_eraseIdx]

lemma drop_drop_refused (hi : i < ps.length) (hj : j + 1 = ps.length) :
    (dropAt i >=> dropAt j) (.map c) = refusal j (ps.length - 1) ∧
      (dropAt (before i j) >=> dropAt (behind j i)) (.map c) = refusal ps.length ps.length := by
  have hlen : i < (ps.map Value.map).length := by rwa [List.length_map]
  have herase : ((ps.map Value.map).eraseIdx i).length = ps.length - 1 := by
    rw [List.length_eraseIdx_of_lt hlen, List.length_map]
  have hbefore : before i j = (ps.map Value.map).length := by
    rw [before, if_pos (by omega), List.length_map, hj]
  constructor
  · show dropAt i (.map c) >>= dropAt j = _
    rw [dropAt_eq h hlen, ok_bind, dropAt_refused (look_withItems _ _) (by omega), herase]
  · show dropAt (before i j) (.map c) >>= dropAt (behind j i) = _
    rw [hbefore, dropAt_refused h le_rfl, List.length_map, refusal, bind_assoc]
    rfl

lemma meet_append_set (hi : i < ps.length) (hf : Product.isField f = true) (p v : Value) :
    Meet ((append p >=> setAt i f v) (.map c)) ((setAt i f v >=> append p) (.map c)) := by
  have hlen : i < (ps.map Value.map).length := by rwa [List.length_map]
  have hget : (ps.map Value.map)[i]? = some (.map ps[i]) :=
    getElem?_map_map (List.getElem?_eq_getElem hi)
  have hfront : (ps.map Value.map ++ [p])[i]? = some (.map ps[i]) := by
    rw [List.getElem?_append_left hlen, hget]
  refine ⟨.map (withItems c ((ps.map .map).set i (.map (ps[i].put f v)) ++ [p])), ?_, ?_⟩
  · show append p (.map c) >>= setAt i f v = _
    rw [append_eq h, ok_bind, setAt_eq (look_withItems _ _) hf hfront, withItems_withItems,
      List.set_append_left _ _ hlen]
  · show setAt i f v (.map c) >>= append p = _
    rw [setAt_eq h hf hget, ok_bind, append_eq (look_withItems _ _), withItems_withItems]

lemma meet_append_drop (hi : i < ps.length) (p : Value) :
    Meet ((append p >=> dropAt i) (.map c)) ((dropAt i >=> append p) (.map c)) := by
  have hlen : i < (ps.map Value.map).length := by rwa [List.length_map]
  have hfront : i < (ps.map Value.map ++ [p]).length := by
    rw [List.length_append]
    omega
  refine ⟨.map (withItems c ((ps.map .map).eraseIdx i ++ [p])), ?_, ?_⟩
  · show append p (.map c) >>= dropAt i = _
    rw [append_eq h, ok_bind, dropAt_eq (look_withItems _ _) hfront, withItems_withItems,
      List.eraseIdx_append_of_lt_length hlen]
  · show dropAt i (.map c) >>= append p = _
    rw [dropAt_eq h hlen, ok_bind, append_eq (look_withItems _ _), withItems_withItems]

lemma append_back (p : Value) : (append p >=> dropAt ps.length) (.map c) = .ok (.map c) := by
  have hlast : ps.length < (ps.map Value.map ++ [p]).length := by simp
  have hback : (ps.map Value.map ++ [p]).eraseIdx ps.length = ps.map .map := by
    rw [List.eraseIdx_append_of_length_le (by rw [List.length_map])]
    simp
  show append p (.map c) >>= dropAt ps.length = _
  rw [append_eq h, ok_bind, dropAt_eq (look_withItems _ _) hlast, withItems_withItems, hback,
    withItems_self h]

lemma set_frame (hp : ps[i]? = some p) (hf : Product.isField f = true) (v : Value) :
    ∃ (d : Fields) (qs : List Fields) (q : Fields),
      setAt i f v (.map c) = .ok (.map d) ∧ d.look "products" = .list (qs.map .map) ∧
      (∀ k, k ≠ i → qs[k]? = ps[k]?) ∧ qs[i]? = some q ∧
      q.find? f = some v ∧ ∀ k, k ≠ f → q.find? k = p.find? k := by
  obtain ⟨hi, -⟩ := List.getElem?_eq_some_iff.mp hp
  obtain ⟨t, -, rfl, -⟩ := Product.exists_of_isField hf
  refine ⟨_, ps.set i (p.put (.text t) v), p.put (.text t) v,
    setAt_eq h hf (getElem?_map_map hp) v, ?_, fun k hk => List.getElem?_set_ne hk.symm,
    List.getElem?_set_self hi, Fields.find?_put_self _ _ _,
    fun k hk => Fields.find?_put_text hk _ _⟩
  rw [look_withItems, List.map_set]

lemma drop_frame (hi : i < ps.length) : ∃ (d : Fields) (qs : List Fields),
    dropAt i (.map c) = .ok (.map d) ∧ d.look "products" = .list (qs.map .map) ∧
    qs.length + 1 = ps.length ∧ ∀ k, qs[k]? = ps[before i k]? := by
  refine ⟨_, ps.eraseIdx i, dropAt_eq h (by rwa [List.length_map]), ?_, ?_,
    fun k => getElem?_eraseIdx_before ps i k⟩
  · rw [look_withItems, List.eraseIdx_map]
  · rw [List.length_eraseIdx_of_lt hi]
    omega

lemma elsewhere {product index field value d : Value} (hd : add (.map c) product = .ok d ∨
      update (.map c) index field value = .ok d ∨ remove (.map c) index = .ok d) :
    ∃ fields : Fields, d = .map fields ∧
      ∀ k, k ≠ .text (Text.ofString "products") → fields.find? k = c.find? k := by
  have hlists : ListsProducts c := .inr ⟨ps, h⟩
  rcases hd with hd | hd | hd
  · rw [add_eq hlists] at hd
    cases hd
    exact ⟨_, rfl, fun k hk => Fields.find?_put_text hk _ _⟩
  · rw [update_eq hlists] at hd
    obtain ⟨key, -, hd⟩ := bind_eq_ok.mp hd
    obtain ⟨n, -, hd⟩ := bind_eq_ok.mp hd
    cases hd
    exact ⟨_, rfl, fun k hk => Fields.find?_put_text hk _ _⟩
  · rw [remove_eq hlists] at hd
    obtain ⟨n, -, hd⟩ := bind_eq_ok.mp hd
    cases hd
    exact ⟨_, rfl, fun k hk => Fields.find?_put_text hk _ _⟩

/-- **Edits at different places commute**, with the places counted as they are when each edit is made,
and none touches anything but its own place. -/
theorem editLaws : EditLaws c ps where
  set_set v w hi hj hij hf hg := meet_set_set h hi hj hij hf hg v w
  set_set_other v w hp hfg hf hg := set_set_other h hp hfg hf hg v w
  set_set_same v w hi hf := by
    have hp := List.getElem?_eq_getElem hi
    exact ⟨_, set_set_same h hp hf v w, setAt_eq h hf (getElem?_map_map hp) w⟩
  set_back v hp hf hold := set_back h hp hf hold v
  drop_set v hi hj hf := by
    split
    · next hlt => exact meet_drop_set h hj hlt hf v
    · next hge => exact drop_set_refused h hj (by omega) hf v
  set_drop v hj hf := meet_set_drop h hj hf v
  drop_drop hi hj := by
    split
    · next hlt => exact meet_drop_drop h hi hlt
    · next hge => exact drop_drop_refused h hi (by omega)
  append_set p v hi hf := meet_append_set h hi hf p v
  append_drop p hi := meet_append_drop h hi p
  append_back p := append_back h p
  elsewhere hd := elsewhere h hd
  append_frame p := ⟨_, append_eq h p, look_withItems _ _⟩
  set_frame v hp hf := set_frame h hp hf v
  drop_frame hi := drop_frame h hi

end Laws

/-- Three products, of which the last one has no price. -/
def trio : List Fields := [
  Fields.named [("name", .text "Bolt"), ("price", .text "$1")],
  Fields.named [("name", .text "Nut"), ("price", .text "$2")],
  Fields.named [("name", .text "Washer")]]

/-- A configuration with these products. -/
def stocked : Fields := Fields.named [
  ("template", .text "modern"), ("products", .list (trio.map .map))]

theorem editLaws_stocked :
    stocked.look "products" = .list (trio.map .map) ∧ EditLaws stocked trio ∧
    Meet ((dropAt 0 >=> setAt 1 (.text "price") (.text "$3")) (.map stocked))
      ((setAt 2 (.text "price") (.text "$3") >=> dropAt 0) (.map stocked)) := by
  have hlook : stocked.look "products" = .list (trio.map .map) := rfl
  have hlaws : EditLaws stocked trio := editLaws hlook
  have hdrop := @EditLaws.drop_set _ _ hlaws 1 0 (.text "price") (.text "$3") (by decide) (by decide)
    (by decide +kernel)
  rw [if_pos (by decide)] at hdrop
  exact ⟨hlook, hlaws, hdrop⟩

end Config

end Mailshot
