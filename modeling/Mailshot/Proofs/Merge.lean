import Mailshot.Proofs.Fields

/-!
# Merging twice

A mapping that came out of a merge over a base is *settled* over it: its first fields are those of
the base, in order, each holding a value that a merge over the base's own leaves alone, and what
follows is new.  A settled mapping is a fixed point of the merge, and every write keeps it settled
whose value the base leaves alone.  So the second of two merges over one base changes nothing.

* `Fields.Settled`, `Fields.merge_eq_of_settled` — the fixed points.
* `Fields.merge_merge_of_flat` — merging twice over a base without sections.
* **`Fields.merge_merge`** — merging twice over a base of flat sections.
* `Fields.merge_put` — writing before or after a merge.
-/

namespace Mailshot.Fields

variable {base full layer : Fields} {key : Scalar} {v : Value}

/-! ## Settled mappings -/

/-- A mapping whose first fields are those of a base, with values that the base leaves alone. -/
inductive Settled : Fields → Fields → Prop
  | rest (full : Fields) : Settled [] full
  | field {k : Scalar} {b v : Value} {base full : Fields} :
      Value.mergeInto (some b) v = v → Settled base full → Settled ((k, b) :: base) ((k, v) :: full)

/-- Where all fields in front are other ones, a look-up starts behind them. -/
lemma find?_append {done : Fields} (h : ∀ f ∈ done, f.1.same key = false) (rest : Fields) :
    find? (done ++ rest) key = find? rest key := by
  induction done with
  | nil => rfl
  | cons f done ih =>
      simp only [List.cons_append, find?, h f List.mem_cons_self, Bool.false_eq_true, if_false]
      exact ih fun g hg => h g (List.mem_cons_of_mem _ hg)

/-- And a write too. -/
lemma put_append {done : Fields} (h : ∀ f ∈ done, f.1.same key = false) (rest : Fields)
    (v : Value) : put (done ++ rest) key v = done ++ put rest key v := by
  induction done with
  | nil => rfl
  | cons f done ih =>
      simp only [List.cons_append, put, h f List.mem_cons_self, Bool.false_eq_true, if_false]
      rw [ih fun g hg => h g (List.mem_cons_of_mem _ hg)]

/-- The merge of a settled mapping, with the fields in front merged already. -/
lemma mergeFields_settled (h : Settled base full) :
    ∀ done : Fields, Distinct (done ++ full) → mergeFields (done ++ base) full = done ++ full := by
  induction h with
  | rest full =>
      intro done hd
      rw [List.append_nil]
      induction full generalizing done with
      | nil => rw [mergeFields, List.append_nil]
      | cons f full ih =>
          obtain ⟨k, v⟩ := f
          have hk : ∀ g ∈ done, g.1.same k = false := fun g hg =>
            (List.pairwise_append.mp hd).2.2 g hg _ List.mem_cons_self
          have hput : put done k (Value.mergeInto (find? done k) v) = done ++ [(k, v)] := by
            rw [find?_eq_none hk, mergeInto_of_not_map rfl]
            simpa [put] using put_append hk [] v
          rw [mergeFields_cons, hput, ih (done ++ [(k, v)]) (by simpa using hd)]
          simp
  | @field k b v base full hv hs ih =>
      intro done hd
      have hk : ∀ g ∈ done, g.1.same k = false := fun g hg =>
        (List.pairwise_append.mp hd).2.2 g hg _ List.mem_cons_self
      have hfind : find? (done ++ (k, b) :: base) k = some b := by
        rw [find?_append hk]
        simp [find?]
      have hput : put (done ++ (k, b) :: base) k v = (done ++ [(k, v)]) ++ base := by
        rw [put_append hk]
        simp [put]
      rw [mergeFields_cons, hfind, hv, hput, ih (done ++ [(k, v)]) (by simpa using hd)]
      simp

/-- **A settled mapping is a fixed point of the merge.** -/
theorem merge_eq_of_settled (h : Settled base full) (hd : full.Distinct) : merge base full = full :=
  mergeFields_settled h [] hd

/-- A write keeps a mapping settled if the base leaves its value alone. -/
lemma Settled.put (h : Settled base full)
    (hv : ∀ b, base.find? key = some b → Value.mergeInto (some b) v = v) :
    Settled base (full.put key v) := by
  induction h with
  | rest full => exact .rest _
  | @field k b w base full hw hs ih =>
      by_cases hk : k.same key = true
      · simp only [Fields.put, hk, if_true]
        exact .field (hv b (by simp [find?, hk])) hs
      · simp only [Fields.put, hk, Bool.false_eq_true, if_false]
        exact .field hw (ih fun b' hb' => hv b' (by simpa [find?, hk] using hb'))

/-- The base leaves alone what a settled mapping holds under its keys. -/
lemma Settled.mergeInto_eq (h : Settled base full) {b : Value} (hb : base.find? key = some b)
    (hv : full.find? key = some v) : Value.mergeInto (some b) v = v := by
  induction h with
  | rest full => cases hb
  | @field k b' w base full hw hs ih =>
      by_cases hk : k.same key = true
      · simp only [find?, hk, if_true, Option.some.injEq] at hb hv
        rwa [← hb, ← hv]
      · simp only [find?, hk, Bool.false_eq_true, if_false] at hb hv
        exact ih hb hv

lemma settled_self (h : ∀ f ∈ base, Value.mergeInto (some f.2) f.2 = f.2) : Settled base base := by
  induction base with
  | nil => exact .rest _
  | cons f base ih =>
      exact .field (h f List.mem_cons_self) (ih fun g hg => h g (List.mem_cons_of_mem _ hg))

/-- What is found stands in one of the fields. -/
lemma exists_mem_of_find? {b : Value} (h : base.find? key = some b) :
    ∃ f ∈ base, f.1.same key = true ∧ f.2 = b := by
  induction base with
  | nil => simp [find?] at h
  | cons f rest ih =>
      obtain ⟨k, w⟩ := f
      by_cases hk : k.same key = true
      · simp only [find?, hk, if_true, Option.some.injEq] at h
        exact ⟨_, List.mem_cons_self, hk, h⟩
      · simp only [find?, hk, Bool.false_eq_true, if_false] at h
        obtain ⟨g, hg, hgk⟩ := ih h
        exact ⟨g, List.mem_cons_of_mem _ hg, hgk⟩

/-! ## Flat bases -/

/-- No field holds a mapping. -/
def Flat (base : Fields) : Prop := ∀ f ∈ base, f.2.asMap.isNone = true

instance (base : Fields) : Decidable base.Flat :=
  inferInstanceAs (Decidable (∀ f ∈ base, f.2.asMap.isNone = true))

lemma Flat.asMap_eq_none (h : base.Flat) {f : Scalar × Value} (hf : f ∈ base) :
    f.2.asMap = none :=
  Option.isNone_iff_eq_none.mp (h f hf)

lemma Flat.mergeInto (h : base.Flat) {b : Value} (hb : base.find? key = some b) (v : Value) :
    Value.mergeInto (some b) v = v := by
  obtain ⟨f, hf, -, rfl⟩ := exists_mem_of_find? hb
  exact mergeInto_of_not_map (b := some f.2) (h.asMap_eq_none hf) v

/-- A look-up after a merge over a flat base: what the layer has, else what the base has. -/
lemma Flat.find?_merge (h : base.Flat) (hl : layer.Distinct) (t : Text) :
    (merge base layer).find? (.text t) = (layer.find? (.text t)).or (base.find? (.text t)) := by
  rw [Fields.find?_merge _ hl]
  cases layer.find? (.text t) with
  | none => rfl
  | some v =>
      cases hb : base.find? (.text t) with
      | none => simp [mergeInto_of_not_map (b := none) rfl]
      | some b => simp [h.mergeInto hb]

lemma Flat.settled_self (h : base.Flat) : Settled base base :=
  Fields.settled_self fun f hf => mergeInto_of_not_map (b := some f.2) (h.asMap_eq_none hf) _

/-- A merge over a flat base is settled over it, whatever the layer. -/
lemma Flat.settled_merge (h : base.Flat) (layer : Fields) : Settled base (merge base layer) := by
  suffices ∀ full, Settled base full → Settled base (mergeFields full layer) from
    this base h.settled_self
  induction layer with
  | nil => intro full hs; rwa [mergeFields]
  | cons f rest ih =>
      intro full hs
      rw [mergeFields_cons]
      exact ih _ (hs.put fun b hb => h.mergeInto hb _)

lemma merge_merge_of_flat (h : base.Flat) (hd : base.Distinct) (layer : Fields) :
    merge base (merge base layer) = merge base layer :=
  merge_eq_of_settled (h.settled_merge layer) (distinct_merge hd layer)

lemma merge_self_of_flat (h : base.Flat) (hd : base.Distinct) : merge base base = base :=
  merge_eq_of_settled h.settled_self hd

/-! ## Bases of flat sections -/

/-- A base whose keys are texts and whose mappings are flat and hold no key twice. -/
def Sectioned (base : Fields) : Prop :=
  ∀ f ∈ base, f.1.isText = true ∧ ∀ inner ∈ f.2.asMap, Flat inner ∧ Distinct inner

instance (base : Fields) : Decidable base.Sectioned :=
  inferInstanceAs (Decidable (∀ f ∈ base,
    f.1.isText = true ∧ ∀ inner ∈ f.2.asMap, Flat inner ∧ Distinct inner))

/-- A second merge into one field of such a base changes nothing. -/
lemma Sectioned.mergeInto_mergeInto (h : base.Sectioned) {f : Scalar × Value} (hf : f ∈ base)
    (v : Value) :
    Value.mergeInto (some f.2) (Value.mergeInto (some f.2) v) = Value.mergeInto (some f.2) v := by
  cases hm : f.2.asMap with
  | some inner =>
      obtain ⟨hflat, hd⟩ := (h f hf).2 inner hm
      rw [Value.asMap_eq_some.mp hm]
      match v with
      | .map layer =>
          simp only [Value.mergeInto]
          exact congrArg Value.map (merge_merge_of_flat hflat hd layer)
      | .null =>
          simp only [Value.mergeInto]
          exact congrArg Value.map (merge_self_of_flat hflat hd)
      | .bool _ | .int _ | .float _ | .text _ | .bytes _ | .scalar (.date _) | .scalar (.moment _)
      | .list _ | .pair _ _ | .set _ | .again _ => simp [Value.mergeInto]
  | none =>
      have hb : (some f.2).bind Value.asMap = none := hm
      rw [mergeInto_of_not_map hb, mergeInto_of_not_map hb]

lemma Sectioned.mergeInto_self (h : base.Sectioned) {f : Scalar × Value} (hf : f ∈ base) :
    Value.mergeInto (some f.2) f.2 = f.2 := by
  cases hm : f.2.asMap with
  | some inner =>
      obtain ⟨hflat, hd⟩ := (h f hf).2 inner hm
      rw [Value.asMap_eq_some.mp hm, Value.mergeInto]
      exact congrArg Value.map (merge_self_of_flat hflat hd)
  | none => exact mergeInto_of_not_map (b := some f.2) hm _

/-- A merge over a base of flat sections is settled over it.  Every section is written at most once,
since the layer holds no key twice: that is why a write over what the base holds is enough. -/
lemma Sectioned.settled_merge (h : base.Sectioned) (hl : layer.Distinct) :
    Settled base (merge base layer) := by
  suffices ∀ full, Settled base full →
      (∀ f ∈ layer, ∀ t, f.1 = .text t → find? full (.text t) = find? base (.text t)) →
      Settled base (mergeFields full layer) from
    this base (settled_self fun f hf => h.mergeInto_self hf) fun _ _ _ _ => rfl
  induction layer with
  | nil => intro full hs _; rwa [mergeFields]
  | cons f rest ih =>
      intro full hs hfull
      obtain ⟨key, v⟩ := f
      obtain ⟨hkey, hrest⟩ := List.pairwise_cons.mp hl
      rw [mergeFields_cons]
      refine ih hrest _ (hs.put fun b hb => ?_) fun g hg t ht => ?_
      · obtain ⟨g, hg, hgk, rfl⟩ := exists_mem_of_find? hb
        obtain ⟨t, ht⟩ := Scalar.isText_iff.mp (h g hg).1
        have hkt : key = .text t := Scalar.text_same.mp (ht ▸ hgk)
        rw [hkt, hfull _ List.mem_cons_self t hkt, ← hkt, hb]
        exact h.mergeInto_mergeInto hg v
      · have hne : key ≠ .text t := by
          rintro rfl
          have := hkey g hg
          rw [ht, Scalar.same_self] at this
          exact Bool.noConfusion this
        rw [find?_put_of_ne _ _ hne]
        exact hfull g (List.mem_cons_of_mem _ hg) t ht

/-- **Merging twice is merging once**, over a base of flat sections. -/
theorem merge_merge (h : base.Sectioned) (hd : base.Distinct) (hl : layer.Distinct) :
    merge base (merge base layer) = merge base layer :=
  merge_eq_of_settled (h.settled_merge hl) (distinct_merge hd layer)

/-! ## Writing before or after a merge -/

/-- A write under another key is not seen. -/
lemma find?_put_text {t : Text} (h : key ≠ .text t) (fields : Fields) (v : Value) :
    (fields.put (.text t) v).find? key = fields.find? key := by
  rw [find?_put, if_neg (by simpa using h)]

/-- Two writes under different keys, where one key is there already. -/
lemma put_comm {t : Text} (h : key ≠ .text t) (hfields : (base.find? (.text t)).isSome = true)
    (v w : Value) : (base.put (.text t) v).put key w = (base.put key w).put (.text t) v := by
  have hsame : (Scalar.text t).same key = false := by
    simpa [← Bool.not_eq_true] using h
  induction base with
  | nil => simp [find?] at hfields
  | cons f rest ih =>
      obtain ⟨k, u⟩ := f
      by_cases hk : k.same (.text t) = true
      · obtain rfl := Scalar.same_text.mp hk
        simp [put, hsame]
      · have hrest : (find? rest (.text t)).isSome = true := by simpa [find?, hk] using hfields
        by_cases hkey : k.same key = true
        · simp [put, hk, hkey]
        · simp [put, hk, hkey, ih hrest]

/-- A write into the base stays what it is if the layer does not have the key. -/
lemma mergeFields_put {t : Text} (h : ∀ f ∈ layer, f.1 ≠ .text t)
    (hbase : (base.find? (.text t)).isSome = true) (v : Value) :
    mergeFields (base.put (.text t) v) layer = put (mergeFields base layer) (.text t) v := by
  induction layer generalizing base with
  | nil => rw [mergeFields, mergeFields]
  | cons f rest ih =>
      obtain ⟨k, u⟩ := f
      obtain ⟨hk, hrest⟩ := List.forall_mem_cons.mp h
      rw [mergeFields_cons, mergeFields_cons, find?_put_text hk, put_comm hk hbase]
      refine ih hrest ?_
      rwa [find?_put_of_ne _ _ hk]

/-- **Writing before or after a merge** is the same, under a key of the base that holds no mapping
there. -/
theorem merge_put {t : Text} {b : Value} (hl : layer.Distinct) (hb : base.find? (.text t) = some b)
    (hflat : b.asMap = none) (v : Value) :
    merge base (layer.put (.text t) v) = (merge base layer).put (.text t) v := by
  have hinto : ∀ w, Value.mergeInto (some b) w = w := mergeInto_of_not_map (b := some b) hflat
  unfold merge
  induction layer generalizing base with
  | nil => simp [put, mergeFields, hb, hinto]
  | cons f rest ih =>
      obtain ⟨k, u⟩ := f
      obtain ⟨hk, hrest⟩ := List.pairwise_cons.mp hl
      by_cases hkt : k = .text t
      · -- both writes go into the base, where the rest of the layer leaves them
        subst hkt
        have hother : ∀ f ∈ rest, f.1 ≠ .text t := by
          rintro g hg heq
          have := hk g hg
          rw [heq, Scalar.same_self] at this
          cases this
        have hsome : (base.find? (.text t)).isSome = true := by rw [hb]; rfl
        simp only [put, Scalar.same_self, if_true, mergeFields_cons, hb, hinto,
          mergeFields_put hother hsome, put_put]
      · have hsame : k.same (.text t) = false := by simpa [← Bool.not_eq_true] using hkt
        simp only [put, hsame, Bool.false_eq_true, if_false, mergeFields_cons]
        refine ih hrest ?_
        rwa [find?_put_of_ne _ _ hkt]

end Mailshot.Fields
