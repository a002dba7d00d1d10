import Mailshot.Proofs.Hereditary
import Mailshot.Value.SetOrder

/-!
# Sets in another order

Another order moves the items of sets and nothing else.  The compiler decides by nothing that is moved,
and where no set holds two items nothing is.

* `Value.truthy_ordered`, `Value.number?_ordered`, `Value.text?_ordered`, `Value.isShowable_ordered` —
  the truth of a value, the number and the text it is, and whether it shows.
* `Fields.find?_ordered` and its companions — the fields of a mapping in order are its fields, each in
  order.
* **`Value.Hereditary.ordered`** — a hereditary property that no order of a set changes is kept.
* `SetOrder.andThen`, `Value.ordered_ordered` — one order after another.
* `Value.escape_ordered` — escaping moves nothing.
* **`Value.ordered_of_isRigid`** — a rigid value stands in one order only.
* **`Config.resolve_ordered`** — a complete configuration is complete in whatever order its sets stand.
-/

namespace Mailshot

variable {ρ : SetOrder} {way : Way}

/-- One order after another. -/
def SetOrder.andThen (σ ρ : SetOrder) : SetOrder where
  order way items := ρ.order way (σ.order way items)
  perm way items := (ρ.perm way _).trans (σ.perm way items)

/-! ## Values -/

namespace Value

@[simp] lemma ordered_scalar (s : Scalar) : (Value.scalar s).ordered ρ way = .scalar s := by
  rw [ordered]

@[simp] lemma ordered_map (fields : Fields) :
    (Value.map fields).ordered ρ way = .map (fields.ordered ρ way) := by
  rw [ordered, Fields.ordered]

lemma orderedItems_eq_mapIdx (items : List Value) (n : ℕ) :
    orderedItems ρ way n items =
      items.mapIdx fun i v => v.ordered ρ (way ++ [.int ((n + i : ℕ) : ℤ)]) := by
  induction items generalizing n with
  | nil => simp [orderedItems]
  | cons v rest ih =>
      rw [orderedItems, ih, List.mapIdx_cons]
      simp [Nat.add_comm, Nat.add_left_comm]

@[simp] lemma ordered_list (items : List Value) : (Value.list items).ordered ρ way =
    .list (items.mapIdx fun i v => v.ordered ρ (way ++ [.int (i : ℤ)])) := by
  simp [ordered, orderedItems_eq_mapIdx]

@[simp] lemma truthy_ordered (v : Value) : (v.ordered ρ way).truthy = v.truthy := by
  match v with
  | .scalar s => rw [ordered_scalar]
  | .list items => cases items <;> simp [truthy]
  | .map fields => cases fields <;> simp [Fields.ordered, orderedFields, truthy]
  | .set items =>
      simp only [ordered, truthy]
      rw [(ρ.perm way items).isEmpty_eq]
  | .pair _ _ | .again _ => rfl

@[simp] lemma number?_ordered (v : Value) : (v.ordered ρ way).number? = v.number? := by
  cases v <;> simp [ordered, number?]

@[simp] lemma text?_ordered (v : Value) : (v.ordered ρ way).text? = v.text? := by
  cases v <;> simp [ordered, text?]

@[simp] lemma isText_ordered (v : Value) (s : String) :
    (v.ordered ρ way).isText s = v.isText s := by
  rw [isText, text?_ordered, isText]

/-- A single value has nothing to move. -/
lemma ordered_of_isSingle {v : Value} (h : v.isSingle = true) : v.ordered ρ way = v := by
  cases v with
  | scalar s => exact ordered_scalar s
  | _ => cases h

lemma ordered_of_number {v : Value} (h : v.number?.isSome = true) : v.ordered ρ way = v :=
  ordered_of_isSingle (isSingle_of_number h)

end Value

/-! ## Fields -/

namespace Fields

lemma ordered_eq_map (fields : Fields) :
    fields.ordered ρ way = fields.map fun f => (f.1, f.2.ordered ρ (way ++ [f.1])) := by
  unfold ordered
  induction fields with
  | nil => simp [Value.orderedFields]
  | cons f rest ih =>
      obtain ⟨k, v⟩ := f
      rw [Value.orderedFields, ih, List.map_cons]

/-- A field named by a text is found where it was. -/
@[simp] lemma find?_ordered (fields : Fields) (t : Text) :
    (fields.ordered ρ way).find? (.text t) =
      (fields.find? (.text t)).map (Value.ordered ρ (way ++ [.text t])) := by
  rw [ordered_eq_map]
  induction fields with
  | nil => rfl
  | cons f rest ih =>
      obtain ⟨k, v⟩ := f
      rw [List.map_cons, find?, find?]
      split
      · next hk => rw [Scalar.same_text.mp hk, Option.map_some]
      · exact ih

/-- A value put under a text is put in order. -/
@[simp] lemma ordered_put (fields : Fields) (t : Text) (v : Value) :
    (fields.put (.text t) v).ordered ρ way =
      (fields.ordered ρ way).put (.text t) (v.ordered ρ (way ++ [.text t])) := by
  simp only [ordered_eq_map]
  induction fields with
  | nil => rfl
  | cons f rest ih =>
      obtain ⟨k, w⟩ := f
      rw [List.map_cons, put, put]
      split
      · next hk => rw [List.map_cons, Scalar.same_text.mp hk]
      · rw [List.map_cons, ih]

@[simp] lemma look_ordered (fields : Fields) (name : String) :
    (fields.ordered ρ way).look name =
      (fields.look name).ordered ρ (way ++ [.text (Text.ofString name)]) := by
  rw [look, find?_ordered, look]
  cases fields.find? (.text (Text.ofString name)) <;> simp

@[simp] lemma shown_ordered (fields : Fields) (name : String) :
    (fields.ordered ρ way).shown name =
      (fields.shown name).ordered ρ (way ++ [.text (Text.ofString name)]) := by
  rw [shown, find?_ordered, shown]
  cases fields.find? (.text (Text.ofString name)) <;> simp

lemma Distinct.ordered {fields : Fields} (h : fields.Distinct) :
    (fields.ordered ρ way).Distinct := by
  rw [ordered_eq_map]
  exact h.map _ fun _ _ h => h

end Fields

namespace Value

@[simp] lemma asMap_ordered (v : Value) :
    (v.ordered ρ way).asMap = v.asMap.map fun fields => fields.ordered ρ way := by
  cases v <;> simp [ordered, asMap, Fields.ordered]

/-- Only a mapping is a mapping in order. -/
lemma exists_map_of_ordered {v : Value} {fields : Fields} (h : v.ordered ρ way = .map fields) :
    ∃ inner, v = .map inner := by
  have hmap : (v.ordered ρ way).asMap = _ := asMap_ordered v
  rw [h] at hmap
  obtain ⟨inner, hinner, -⟩ := Option.map_eq_some_iff.mp hmap.symm
  exact ⟨inner, asMap_eq_some.mp hinner⟩

@[simp] lemma field_ordered (v : Value) (name : String) : (v.ordered ρ way).field name =
    (v.field name).map (Value.ordered ρ (way ++ [.text (Text.ofString name)])) := by
  cases v with
  | map fields =>
      rw [ordered_map, field, field, Fields.find?_ordered]
      cases Fields.find? fields (.text (Text.ofString name)) <;> rfl
  | _ => simp [ordered, field, Except.map]

/-! ## What every order keeps -/

/-- **A hereditary property** that no order of a set changes, and that a pair has by its two values, is
kept.  The induction is into the value; only the way changes on it. -/
theorem Hereditary.ordered {K : Scalar → Prop} {P : Value → Prop} (h : Hereditary K P)
    (pair : ∀ {a b c d : Value}, (P a ↔ P b) → (P c ↔ P d) → (P (.pair a c) ↔ P (.pair b d)))
    (set : ∀ {items items' : List Scalar}, items.Perm items' → (P (.set items) ↔ P (.set items'))) :
    ∀ (v : Value) (way : Way), P (v.ordered ρ way) ↔ P v
  | .scalar s, way => by rw [ordered_scalar]
  | .list items, way => by
      have hitem : ∀ v ∈ items, ∀ way, P (v.ordered ρ way) ↔ P v :=
        fun v _ way => h.ordered pair set v way
      rw [ordered_list, h.list, h.list]
      constructor
      · intro hall v hv
        obtain ⟨i, hi, rfl⟩ := List.mem_iff_getElem.mp hv
        exact (hitem _ (List.getElem_mem hi) _).mp (hall _ (List.mem_mapIdx.mpr ⟨i, hi, rfl⟩))
      · intro hall w hw
        obtain ⟨i, hi, rfl⟩ := List.mem_mapIdx.mp hw
        exact (hitem _ (List.getElem_mem hi) _).mpr (hall _ (List.getElem_mem hi))
  | .map fields, way => by
      have hvalue : ∀ f ∈ fields, ∀ way, P (f.2.ordered ρ way) ↔ P f.2 :=
        fun f _ way => h.ordered pair set f.2 way
      rw [ordered_map, Fields.ordered_eq_map, h.map, h.map, List.forall_mem_map]
      exact forall₂_congr fun f hf => and_congr_right fun _ => hvalue f hf _
  | .pair first second, way => by
      rw [Value.ordered]
      exact pair (h.ordered pair set first _) (h.ordered pair set second _)
  | .set items, way => by
      rw [Value.ordered]
      exact set (ρ.perm way items)
  | .again _, way => by rw [Value.ordered]
termination_by v _ => sizeOf v
decreasing_by
  · exact sizeOf_lt_list ‹v ∈ items›
  · exact sizeOf_lt_map ‹f ∈ fields›
  · simp_wf
    omega
  · simp_wf

@[simp] lemma isEndless_ordered (v : Value) : (v.ordered ρ way).isEndless = v.isEndless := by
  have h : (v.ordered ρ way).isEndless = false ↔ v.isEndless = false :=
    hereditary_isFinite.ordered (by simp [isEndless]) (by simp [isEndless]) v way
  rw [Bool.eq_iff_iff, ← not_iff_not]
  simpa using h

@[simp] lemma isShowable_ordered (v : Value) : (v.ordered ρ way).isShowable = v.isShowable := by
  rw [Bool.eq_iff_iff]
  refine hereditary_isShowable.ordered ?_ ?_ v way
  · intro a b c d hab hcd
    simp [isShowable, hab, hcd]
  · intro items items' h
    simp [isShowable, h.mem_iff]

/-! ## One order after another -/

mutual

/-- **A value that is put in one order and then in another** is in the order that both make. -/
theorem ordered_ordered {σ : SetOrder} : ∀ (v : Value) (way : Way),
    (v.ordered σ way).ordered ρ way = v.ordered (σ.andThen ρ) way
  | .scalar s, way => by simp only [ordered_scalar]
  | .list items, way => by
      rw [ordered, ordered, ordered, orderedItems_orderedItems]
  | .map fields, way => by
      rw [ordered, ordered, ordered, orderedFields_orderedFields]
  | .pair first second, way => by
      rw [ordered, ordered, ordered, ordered_ordered first, ordered_ordered second]
  | .set items, way => by simp only [ordered, SetOrder.andThen]
  | .again _, way => by simp only [ordered]

theorem orderedItems_orderedItems {σ : SetOrder} : ∀ (items : List Value) (way : Way) (n : ℕ),
    orderedItems ρ way n (orderedItems σ way n items) = orderedItems (σ.andThen ρ) way n items
  | [], _, _ => by simp only [orderedItems]
  | v :: rest, way, n => by
      rw [orderedItems, orderedItems, orderedItems, ordered_ordered, orderedItems_orderedItems]

theorem orderedFields_orderedFields {σ : SetOrder} : ∀ (fields : List (Scalar × Value)) (way : Way),
    orderedFields ρ way (orderedFields σ way fields) = orderedFields (σ.andThen ρ) way fields
  | [], _ => by simp only [orderedFields]
  | (key, v) :: rest, way => by
      rw [orderedFields, orderedFields, orderedFields, ordered_ordered, orderedFields_orderedFields]

end

/-! ## Escaping -/

mutual

/-- **Escaping moves nothing**: to escape before or after is the same. -/
theorem escape_ordered : ∀ (v : Value) (way : Way),
    (v.ordered ρ way).escape = v.escape.ordered ρ way
  | .scalar s, way => by rw [ordered_scalar, escape, ordered_scalar]
  | .list items, way => by
      rw [ordered, escape, escape, ordered, escapeItems_orderedItems]
  | .map fields, way => by
      rw [ordered, escape, escape, ordered, escapeFields_orderedFields]
  | .pair _ _, way | .set _, way | .again _, way => by simp only [ordered, escape]

theorem escapeItems_orderedItems : ∀ (items : List Value) (way : Way) (n : ℕ),
    escapeItems (orderedItems ρ way n items) = orderedItems ρ way n (escapeItems items)
  | [], _, _ => by simp [orderedItems, escapeItems]
  | v :: rest, way, n => by
      rw [orderedItems, escapeItems, escapeItems, orderedItems, escape_ordered,
        escapeItems_orderedItems]

theorem escapeFields_orderedFields : ∀ (fields : List (Scalar × Value)) (way : Way),
    escapeFields (orderedFields ρ way fields) = orderedFields ρ way (escapeFields fields)
  | [], _ => by simp [orderedFields, escapeFields]
  | (key, v) :: rest, way => by
      rw [orderedFields, escapeFields, escapeFields, orderedFields, escape_ordered,
        escapeFields_orderedFields]

end

/-! ## Rigid values -/

lemma allRigid_iff {items : List Value} : allRigid items = true ↔ ∀ v ∈ items, v.isRigid = true := by
  induction items with
  | nil => simp [allRigid]
  | cons v rest ih => simp [allRigid, ih]

lemma allFieldsRigid_iff {fields : Fields} :
    allFieldsRigid fields = true ↔ ∀ f ∈ fields, f.2.isRigid = true := by
  induction fields with
  | nil => simp [allFieldsRigid]
  | cons f rest ih =>
      obtain ⟨k, v⟩ := f
      simp only [allFieldsRigid, Bool.and_eq_true, ih, List.forall_mem_cons]

/-- Being rigid is hereditary. -/
theorem hereditary_isRigid : Hereditary (fun _ => True) fun v => v.isRigid = true where
  null := rfl
  text _ := rfl
  list := by simp [isRigid, allRigid_iff]
  map := by simp [isRigid, allFieldsRigid_iff]

lemma isRigid_of_isSingle {v : Value} (h : v.isSingle = true) : v.isRigid = true := by
  cases v with
  | scalar s => rfl
  | _ => cases h

lemma isRigid_of_text {v : Value} (h : v.text?.isSome = true) : v.isRigid = true := by
  cases v with
  | scalar s => rfl
  | _ => cases h

/-- A plain value has no sets. -/
lemma isRigid_of_isPlain {v : Value} (h : v.isPlain = true) : v.isRigid = true :=
  hereditary_isRigid.of_isPlain (fun _ => rfl) v h

mutual

/-- **A rigid value stands in one order only.** -/
theorem ordered_of_isRigid : ∀ {v : Value} (way : Way), v.isRigid = true → v.ordered ρ way = v
  | .scalar s, way, _ => ordered_scalar s
  | .list items, way, h => by rw [ordered, orderedItems_of_allRigid way 0 h]
  | .map fields, way, h => by rw [ordered, orderedFields_of_allFieldsRigid way h]
  | .pair first second, way, h => by
      obtain ⟨hfirst, hsecond⟩ := Bool.and_eq_true_iff.mp h
      rw [ordered, ordered_of_isRigid _ hfirst, ordered_of_isRigid _ hsecond]
  | .set items, way, h => by
      have hperm := ρ.perm way items
      rw [ordered]
      match items with
      | [] => rw [hperm.eq_nil]
      | [item] => rw [hperm.eq_singleton]
      | _ :: _ :: _ => simp [isRigid] at h
  | .again _, way, _ => by rw [ordered]

theorem orderedItems_of_allRigid : ∀ {items : List Value} (way : Way) (n : ℕ),
    allRigid items = true → orderedItems ρ way n items = items
  | [], _, _, _ => by rw [orderedItems]
  | v :: rest, way, n, h => by
      obtain ⟨hv, hrest⟩ := Bool.and_eq_true_iff.mp h
      rw [orderedItems, ordered_of_isRigid _ hv, orderedItems_of_allRigid way _ hrest]

theorem orderedFields_of_allFieldsRigid : ∀ {fields : List (Scalar × Value)} (way : Way),
    allFieldsRigid fields = true → orderedFields ρ way fields = fields
  | [], _, _ => by rw [orderedFields]
  | (key, v) :: rest, way, h => by
      obtain ⟨hv, hrest⟩ := Bool.and_eq_true_iff.mp h
      rw [orderedFields, ordered_of_isRigid _ hv, orderedFields_of_allFieldsRigid way hrest]

end

end Value

namespace Fields

@[simp] lemma isEndless_ordered (fields : Fields) :
    (fields.ordered ρ way).isEndless = fields.isEndless := by
  have h : (Value.map (fields.ordered ρ way)).isEndless = (Value.map fields).isEndless := by
    rw [← Value.ordered_map, Value.isEndless_ordered]
  simpa only [Value.isEndless, isEndless] using h

lemma ordered_ordered {σ : SetOrder} (fields : Fields) :
    (fields.ordered σ way).ordered ρ way = fields.ordered (σ.andThen ρ) way :=
  Value.orderedFields_orderedFields fields way

lemma escape_ordered (fields : Fields) :
    (fields.ordered ρ way).escape = fields.escape.ordered ρ way :=
  Value.escapeFields_orderedFields fields way

lemma ordered_of_isRigid {fields : Fields} (h : (Value.map fields).isRigid = true) :
    fields.ordered ρ way = fields :=
  Value.orderedFields_of_allFieldsRigid way h

end Fields

/-! ## What values name -/

@[simp] lemma Template.ofValue?_ordered (v : Value) :
    Template.ofValue? (v.ordered ρ way) = Template.ofValue? v := by
  simp [Template.ofValue?]

@[simp] lemma Tier.ofValue?_ordered (v : Value) :
    Tier.ofValue? (v.ordered ρ way) = Tier.ofValue? v := by
  simp [Tier.ofValue?]

@[simp] lemma Tier.ofValue_ordered (v : Value) : Tier.ofValue (v.ordered ρ way) = Tier.ofValue v := by
  simp [Tier.ofValue]

namespace Product

@[simp] lemma ofProduct_ordered (p : Fields) :
    Pricing.ofProduct (p.ordered ρ way) = Pricing.ofProduct p := by
  simp [Pricing.ofProduct]

@[simp] lemma isImageOnly_ordered (p : Fields) : isImageOnly (p.ordered ρ way) = isImageOnly p := by
  simp [isImageOnly]

end Product

/-! ## Merges -/

namespace Fields

variable {base full : Fields}

/-- A mapping that is settled stays so, where the base leaves alone what it left alone before. -/
lemma Settled.ordered (h : Settled base full)
    (hbase : ∀ f ∈ base, ∀ (v : Value) (way : Way), Value.mergeInto (some f.2) v = v →
      Value.mergeInto (some f.2) (v.ordered ρ way) = v.ordered ρ way) :
    Settled base (full.ordered ρ way) := by
  induction h with
  | rest full => exact .rest _
  | field hv _ ih =>
      obtain ⟨hfield, hrest⟩ := List.forall_mem_cons.mp hbase
      rw [ordered_eq_map, List.map_cons, ← ordered_eq_map]
      exact .field (hfield _ _ hv) (ih hrest)

/-- A fixed point of the merge over a flat base is one in any order. -/
lemma Flat.merge_ordered (hflat : base.Flat) (hd : base.Distinct) (h : merge base full = full) :
    merge base (full.ordered ρ way) = full.ordered ρ way := by
  have hs : Settled base full := h ▸ hflat.settled_merge full
  have hfull : full.Distinct := h ▸ distinct_merge hd full
  refine merge_eq_of_settled (hs.ordered fun f hf v way _ => ?_) hfull.ordered
  exact mergeInto_of_not_map (b := some f.2) (hflat.asMap_eq_none hf) _

/-- **What is settled over a base of flat sections** is so in any order. -/
theorem Sectioned.settled_ordered (hbase : base.Sectioned) (h : Settled base full) :
    Settled base (full.ordered ρ way) := by
  refine h.ordered fun f hf v way hv => ?_
  cases hm : f.2.asMap with
  | none => exact mergeInto_of_not_map (b := some f.2) hm _
  | some inner =>
      obtain ⟨hflat, hd⟩ := (hbase f hf).2 inner hm
      rw [Value.asMap_eq_some.mp hm] at hv ⊢
      match v with
      | .map layer =>
          rw [Value.mergeInto] at hv
          rw [Value.ordered_map, Value.mergeInto]
          exact congrArg Value.map (hflat.merge_ordered hd (Value.map.inj hv))
      | .null => simp [Value.mergeInto] at hv
      | .bool _ | .int _ | .float _ | .text _ | .bytes _ | .scalar (.date _) | .scalar (.moment _)
      | .list _ | .pair _ _ | .set _ | .again _ => simp [Value.mergeInto, Value.ordered]

end Fields

/-! ## Configurations -/

namespace Config

variable {r : Fields} {ps : List Fields}

/-- The way to a product. -/
def productWay (place : ℕ) : Way := [.text (Text.ofString "products"), .int (place : ℤ)]

lemma sectionFields_ordered (r : Fields) (key : String) : sectionFields (r.ordered ρ) key =
    (sectionFields r key).ordered ρ [.text (Text.ofString key)] := by
  unfold sectionFields
  rw [Fields.look_ordered, Value.asMap_ordered, List.nil_append]
  cases (r.look key).asMap with
  | none => simp [Fields.ordered_eq_map]
  | some fields => rfl

/-- The products in order are the products, each in order. -/
lemma look_products_ordered (h : r.look "products" = .list (ps.map .map)) :
    (r.ordered ρ).look "products" =
      .list ((ps.mapIdx fun i p => p.ordered ρ (productWay i)).map .map) := by
  rw [Fields.look_ordered, h, Value.ordered_list]
  exact congrArg Value.list (List.ext_getElem (by simp) (by simp [productWay]))

lemma listed_ordered (h : r.look "products" = .list (ps.map .map)) :
    listed (r.ordered ρ) = ps.mapIdx fun i p => p.ordered ρ (productWay i) :=
  listed_of_look (look_products_ordered h)

/-- Every product is listed in order. -/
lemma exists_mem_listed_ordered {p : Fields} (h : r.look "products" = .list ((listed r).map .map))
    (hp : p ∈ listed r) : ∃ way, p.ordered ρ way ∈ listed (r.ordered ρ) := by
  obtain ⟨i, hi, rfl⟩ := List.mem_iff_getElem.mp hp
  refine ⟨productWay i, ?_⟩
  rw [listed_ordered h]
  exact List.mem_mapIdx.mpr ⟨i, hi, rfl⟩

/-- **A complete configuration is complete** in whatever order its sets stand. -/
theorem resolve_ordered (h : resolve (.map r) = .ok r) (ρ : SetOrder) :
    resolve (.map (r.ordered ρ)) = .ok (r.ordered ρ) := by
  have hd := distinct_resolve h
  have hsettled := settled_of_resolve (fun _ => distinct_of_fieldsOrNone_map hd) h
  refine resolve_of_settled (defaults_sectioned.settled_ordered hsettled) hd.ordered
    (look_products_ordered (look_products h)) fun p hp => ?_
  obtain ⟨i, hi, rfl⟩ := List.mem_mapIdx.mp hp
  exact blank_flat.merge_ordered blank_distinct (merge_blank_of_listed h (List.getElem_mem hi))

end Config

end Mailshot
