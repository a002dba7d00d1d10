import Mailshot.Proofs.Assembly
import Mailshot.Proofs.Editing
import Mailshot.Proofs.Hereditary

/-!
# Escaping early or late

A configuration may be escaped before or after it is completed and edited: the result is the same, and
where one order fails the other fails for the same cause.  Escaping touches no key and no kind of
value, and it leaves the defaults alone.

* `Fields.escape_put`, `Fields.escape_merge` — writes and merges.
* `Config.resolve_escape` — completing a configuration of whatever kind.
* `Config.add_escape`, `Config.update_escape`, `Config.remove_escape` — the edits.
* **`Config.escape_throughout`** — all of them, and the documents.
-/

namespace Mailshot

open Text

/-! ## Writes and merges -/

namespace Fields

variable {base : Fields}

@[simp] lemma escape_put (fields : Fields) (key : Scalar) (v : Value) :
    (fields.put key v).escape = fields.escape.put key v.escape := by
  induction fields with
  | nil => rfl
  | cons f rest ih =>
      obtain ⟨k, w⟩ := f
      by_cases hk : k.same key = true
      · simp [put, escape, Value.escapeFields, hk]
      · simp only [put, hk, escape, Value.escapeFields, Bool.false_eq_true, if_false] at ih ⊢
        rw [ih]

/-- What a field holds after a merge, if mappings inside the layer are known to merge so. -/
lemma escape_mergeInto {b : Option Value} {v : Value}
    (h : ∀ base layer : Fields, v = .map layer →
      (merge base layer).escape = merge base.escape layer.escape) :
    (Value.mergeInto b v).escape = Value.mergeInto (b.map Value.escape) v.escape := by
  match b with
  | some (.map base) =>
      match v with
      | .map layer =>
          simp only [Value.mergeInto, Value.escape_map, Option.map_some]
          exact congrArg Value.map (h base layer rfl)
      | .list items => simp [Value.mergeInto]
      | .null | .bool _ | .int _ | .float _ | .text _ | .bytes _ | .scalar (.date _)
      | .scalar (.moment _) | .pair _ _ | .set _ | .again _ => rfl
  | none | some (.scalar _) | some (.list _) | some (.pair _ _) | some (.set _) | some (.again _) =>
      rw [mergeInto_of_not_map (by rfl), mergeInto_of_not_map (by rfl)]

/-- **A merge of escaped mappings** is the merge, escaped. -/
theorem escape_merge : ∀ base layer : Fields, (merge base layer).escape = merge base.escape layer.escape
  | base, [] => by simp [merge, mergeFields, escape, Value.escapeFields]
  | base, (key, v) :: rest => by
      have hinto : (Value.mergeInto (base.find? key) v).escape =
          Value.mergeInto (base.escape.find? key) v.escape := by
        rw [find?_escape]
        exact escape_mergeInto fun inner layer _ => escape_merge inner layer
      rw [merge, mergeFields_cons]
      refine (escape_merge _ rest).trans ?_
      rw [escape_put, hinto]
      rfl
termination_by _ layer => sizeOf layer

end Fields

/-! ## Complete configurations -/

namespace Value

lemma fieldsOrNone_escape (v : Value) : v.escape.fieldsOrNone = v.fieldsOrNone.map Fields.escape := by
  unfold fieldsOrNone
  rw [truthy_escape]
  split
  · exact fields_escape v
  · rfl

end Value

namespace Config

lemma defaults_escape : defaults.escape = defaults := rfl

lemma blank_escape : Product.blank.escape = Product.blank := rfl

lemma resolveProduct_escape (v : Value) :
    resolveProduct v.escape = (resolveProduct v).map Value.escape := by
  unfold resolveProduct
  rw [Value.fieldsOrNone_escape]
  cases v.fieldsOrNone with
  | error e => rfl
  | ok fields =>
      show Except.ok _ = Except.ok _
      rw [Value.escape_map, Fields.escape_merge, blank_escape]

/-- Of a single value there is a blank product, or none. -/
lemma resolveProduct_scalar (s : Scalar) :
    resolveProduct (.scalar s) = (resolveProduct (.scalar s)).map Value.escape := by
  unfold resolveProduct Value.fieldsOrNone
  split
  · rfl
  · exact congrArg (Except.ok ∘ Value.map) blank_escape.symm

/-- The letters of a text are no products. -/
lemma mapM_letters {t : Text} (h : t.isEmpty = false) :
    (t.map fun letter => Value.text [letter]).mapM resolveProduct = .error .notMapping := by
  cases t with
  | nil => cases h
  | cons letter rest => rfl

/-- The products are completed as the escaped ones are: an escaped list has escaped items, an escaped
mapping the same keys, and no text but the empty one has products. -/
lemma mapM_resolveProduct_escape {v : Value} (hp : v.isPlain = true) :
    (v.escape.itemsOrNone >>= List.mapM resolveProduct) =
      (v.itemsOrNone >>= List.mapM resolveProduct).map (List.map Value.escape) := by
  unfold Value.itemsOrNone
  rw [Value.truthy_escape]
  split
  · next htruthy =>
      match v with
      | .list items =>
          rw [Value.escape_list]
          refine mapM_eq_map ?_
          rw [List.forall₂_map_right_iff, List.forall₂_same]
          exact fun w _ => resolveProduct_escape w
      | .map fields =>
          have hkeys : (Fields.escape fields).map (fun f => Value.scalar f.1) =
              fields.map fun f => Value.scalar f.1 := by
            rw [Fields.escape_eq_map, List.map_map]
            rfl
          show ((Fields.escape fields).map _).mapM resolveProduct = _
          rw [hkeys]
          refine mapM_eq_map ?_
          rw [List.forall₂_same, List.forall_mem_map]
          exact fun f _ => resolveProduct_scalar f.1
      | .text t =>
          have ht : t.isEmpty = false := by simpa [Value.truthy, Scalar.truthy] using htruthy
          have he : t.escape.isEmpty = false := by rwa [Text.escape_isEmpty]
          show (t.escape.map _).mapM resolveProduct = ((t.map _).mapM resolveProduct).map _
          rw [mapM_letters ht, mapM_letters he]
          rfl
      | .bytes b =>
          refine mapM_eq_map ?_
          rw [List.forall₂_same, List.forall_mem_map]
          exact fun byte _ => resolveProduct_scalar (.int byte.toNat)
      | .null | .bool _ | .int _ | .float _ | .scalar (.date _) | .scalar (.moment _) => rfl
  · rfl

lemma isPlain_of_fieldsOrNone {c : Value} {fields : Fields} (hc : c.isPlain = true)
    (h : c.fieldsOrNone = .ok fields) : (Value.map fields).isPlain = true := by
  unfold Value.fieldsOrNone at h
  split at h
  · rwa [← Value.fields_eq_ok.mp h]
  · cases h
    rfl

/-- **Completing an escaped configuration** is escaping the complete one; both fail for the same
cause. -/
theorem resolve_escape {c : Value} (hc : c.isPlain = true) :
    resolve c.escape = (resolve c).map Fields.escape := by
  unfold resolve
  rw [Value.fieldsOrNone_escape]
  cases hf : c.fieldsOrNone with
  | error e => rfl
  | ok fields =>
      have hmerged : (Value.map (Fields.merge defaults fields)).isPlain = true :=
        Value.hereditary_isPlain.merge rfl (isPlain_of_fieldsOrNone hc hf)
      have hproducts : ((Fields.merge defaults fields).look "products").isPlain = true :=
        Value.hereditary_isPlain.look hmerged
      have hmapM := mapM_resolveProduct_escape hproducts
      rw [← Fields.look_escape, Fields.escape_merge, defaults_escape] at hmapM
      simp only [Except.map, ok_bind, ← bind_assoc]
      rw [hmapM]
      cases ((Fields.merge defaults fields).look "products").itemsOrNone >>= List.mapM resolveProduct with
      | error e => rfl
      | ok products =>
          show Except.ok _ = Except.ok _
          rw [Fields.escape_put, Fields.escape_merge, defaults_escape, Value.escape_list]

/-- What a plain configuration is completed to is plain. -/
lemma isPlain_resolve {c : Value} {r : Fields} (hc : c.isPlain = true) (h : resolve c = .ok r) :
    (Value.map r).isPlain = true := by
  obtain ⟨fields, -, -, hf, -⟩ := resolve_eq_ok.mp h
  have hfields := isPlain_of_fieldsOrNone hc hf
  refine Value.hereditary_isPlain.resolve rfl rfl hfields (fun a b hpair => ?_) (c := fields) ?_
  · have hmerged : (Value.map (Fields.merge defaults fields)).isPlain = true :=
      Value.hereditary_isPlain.merge rfl hfields
    have hproducts : ((Fields.merge defaults fields).look "products").isPlain = true :=
      Value.hereditary_isPlain.look hmerged
    rw [hpair] at hproducts
    cases hproducts
  · rw [← h, resolve, resolve, hf, Value.fieldsOrNone_map]

/-! ## Edits -/

variable {c : Fields}

lemma listsProducts_escape (h : ListsProducts c) : ListsProducts c.escape := by
  rcases h with hn | ⟨products, hp⟩
  · exact .inl (by rw [Fields.look_escape, hn]; rfl)
  · exact .inr ⟨_, look_products_escape hp⟩

lemma listed_escape (h : ListsProducts c) : listed c.escape = (listed c).map Fields.escape := by
  rcases h with hn | ⟨products, hp⟩
  · have hne : c.escape.look "products" = .null := by
      rw [Fields.look_escape, hn]
      rfl
    simp [listed, hn, hne]
  · rw [listed_of_look (look_products_escape hp), listed_of_look hp]

lemma withListed_escape (c : Fields) (products : List Fields) :
    (withListed c products).escape = withListed c.escape (products.map Fields.escape) := by
  unfold withListed
  rw [Fields.escape_put, Value.escape_list, List.map_map, List.map_map]
  rfl

/-- A product put at the end of an escaped configuration. -/
theorem add_escape (h : ListsProducts c) (product : Value) :
    add (.map c.escape) product.escape = (add (.map c) product).map Value.escape := by
  rw [add_eq h, add_eq (listsProducts_escape h), listed_escape h]
  simp [Except.map, withProducts, Function.comp_def]

/-- A field set in an escaped configuration, to the escaped value. -/
theorem update_escape (h : ListsProducts c) (index field value : Value) :
    update (.map c.escape) index field value.escape =
      (update (.map c) index field value).map Value.escape := by
  rw [update_eq h, update_eq (listsProducts_escape h), listed_escape h, List.length_map]
  cases productField field with
  | error e => rfl
  | ok key =>
      cases slot (listed c).length index with
      | error e => rfl
      | ok n =>
          simp only [ok_bind, Except.map, pure, Except.pure, Value.escape_map, withListed_escape]
          congr 3
          exact (map_modify (fun p _ => Fields.escape_put p key value) n).symm

/-- A product taken out of an escaped configuration. -/
theorem remove_escape (h : ListsProducts c) (index : Value) :
    remove (.map c.escape) index = (remove (.map c) index).map Value.escape := by
  rw [remove_eq h, remove_eq (listsProducts_escape h), listed_escape h, List.length_map]
  cases slot (listed c).length index with
  | error e => rfl
  | ok n =>
      simp only [ok_bind, Except.map, pure, Except.pure, Value.escape_map, withListed_escape,
        List.eraseIdx_map]

end Config

/-! ## Documents -/

/-- **The document of an escaped configuration** is the escaped document of the configuration, with
the same journal; where one cannot be made, neither can the other, for the same cause. -/
theorem Document.html_escape {c : Value} (hc : c.isPlain = true) (ρ ρ' : SetOrder) :
    html c.escape false ρ = html c true ρ' := by
  unfold html markup
  rw [Config.resolve_escape hc]
  cases hr : Config.resolve c with
  | error e => simp only [Except.map, Report.lift_error_bind, Report.error_bind]
  | ok r =>
      have hplain : (Value.map r).isPlain = true := Config.isPlain_resolve hc hr
      have hendless : r.isEndless = false := Value.isEndless_of_isPlain hplain
      have hordered : ∀ ρ : SetOrder, r.ordered ρ = r := fun ρ =>
        Fields.ordered_of_isRigid (Value.isRigid_of_isPlain hplain)
      simp only [Except.map, Report.lift_ok_bind, ← Fields.escape_ordered, hordered, hendless,
        Bool.false_and, Bool.and_false, Bool.false_eq_true, if_false, if_true]

namespace Config

/-- **Escaping commutes with everything that is done to a configuration.**  A plain configuration, of
whatever form, may be escaped before or after it is completed, and before or after it is compiled.
A configuration that lists its products may be escaped before or after a product is added, changed or
taken out, at any position and in any field.  Where one order fails, so does the other, for the same
cause. -/
theorem escape_throughout :
    (∀ c : Value, c.isPlain = true →
      resolve c.escape = (resolve c).map Fields.escape ∧
      ∀ ρ ρ' : SetOrder, Document.html c.escape false ρ = Document.html c true ρ') ∧
    (∀ c : Fields, ListsProducts c → ∀ product index field value : Value,
      add (.map c.escape) product.escape = (add (.map c) product).map Value.escape ∧
      update (.map c.escape) index field value.escape =
        (update (.map c) index field value).map Value.escape ∧
      remove (.map c.escape) index = (remove (.map c) index).map Value.escape) :=
  ⟨fun _ hc => ⟨resolve_escape hc, Document.html_escape hc⟩,
    fun _ hc product index field value =>
      ⟨add_escape hc product, update_escape hc index field value, remove_escape hc index⟩⟩

/-- A configuration whose texts hold marks; its list has a product that is half given. -/
def marked : Fields := Fields.named [
  ("company", .map (Fields.named [("name", .text "<b>Bolt & Nut</b>")])),
  ("products", .list [.map (Fields.named [("name", .text "5 \"long\" bolts")])])]

theorem escape_throughout_marked :
    (Value.map marked).isPlain = true ∧ ListsProducts marked ∧
    resolve (Value.map marked).escape = (resolve (.map marked)).map Fields.escape ∧
    Document.html (Value.map marked).escape false = Document.html (.map marked) true ∧
    update (.map marked.escape) (.int 0) (.text "price") (Value.text "< 5").escape =
      (update (.map marked) (.int 0) (.text "price") (.text "< 5")).map Value.escape ∧
    remove (.map marked.escape) (.int 1) = .error (.noProduct (.int 1) 1) := by
  have hplain : (Value.map marked).isPlain = true := rfl
  have hlists : ListsProducts marked :=
    .inr ⟨[Fields.named [("name", .text "5 \"long\" bolts")]], rfl⟩
  obtain ⟨hresolve, hhtml⟩ := escape_throughout.1 _ hplain
  obtain ⟨-, hupdate, -⟩ := escape_throughout.2 _ hlists .null (.int 0) (.text "price")
    (.text "< 5")
  refine ⟨hplain, hlists, hresolve, hhtml _ _, hupdate, ?_⟩
  rw [(escape_throughout.2 _ hlists .null (.int 1) .null .null).2.2]
  rfl

end Config

end Mailshot
