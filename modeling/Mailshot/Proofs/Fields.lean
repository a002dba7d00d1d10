import Mathlib.Data.List.Forall2
import Mathlib.Tactic.Common
import Mailshot.Config.Merge
import Mailshot.Proofs.Keys

/-!
# Looking fields up

A mapping is a list of fields, and a key finds the first field whose key is the same.  What a look-up
gives after a write or a merge is stated here once, so that nothing later opens the list.

* `Fields.find?_put`, **`Fields.find?_merge`** — a look-up after a write, and after a merge.
* `Fields.Distinct`, `Value.isTidy` — no key stands twice, in one mapping or in any mapping inside
  a value.  A list of fields could hold a key twice; no mapping that is read or built does.
* `Fields.distinct_merge` — a merge keeps keys apart.
-/

namespace Mailshot

/-! ## Keys -/

namespace Scalar

@[simp] lemma same_self (s : Scalar) : s.same s = true := by
  cases s with
  | float x => simp [same, number?, Number.same, Binary64.same]
  | moment m => cases h : m.offset <;> simp [same, number?, Moment.same, h]
  | _ => simp [same, number?, Number.same]

@[simp] lemma same_text {k : Scalar} {t : Text} : k.same (.text t) = true ↔ k = .text t := by
  cases k <;> simp [same, number?]

@[simp] lemma text_same {k : Scalar} {t : Text} : (Scalar.text t).same k = true ↔ k = .text t := by
  cases k <;> simp [same, number?, eq_comm]

/-- Whether a key is a text. -/
def isText : Scalar → Bool
  | .text _ => true
  | _ => false

lemma isText_iff {s : Scalar} : s.isText = true ↔ ∃ t, s = .text t := by
  cases s <;> simp [isText]

end Scalar

/-- Names are different keys where they are different. -/
lemma Text.ofString_injective {s t : String} (h : Text.ofString s = Text.ofString t) : s = t := by
  have hletters : Function.Injective Letter.char := fun _ _ h => Letter.char.inj h
  exact String.toList_injective (hletters.list_map h)

/-- The fields of a value that is a mapping. -/
def Value.asMap : Value → Option Fields
  | .map fields => some fields
  | _ => none

lemma Value.asMap_eq_some {v : Value} {fields : Fields} : v.asMap = some fields ↔ v = .map fields := by
  cases v <;> simp [asMap]

/-! ## Look-ups -/

namespace Fields

variable {fields base layer : Fields} {key : Scalar} {t : Text} {v : Value}

/-- Of two keys that are the same, one is found where the other is. -/
lemma find?_congr {k : Scalar} (h : key.same k = true) (fields : Fields) :
    fields.find? key = fields.find? k := by
  induction fields with
  | nil => rfl
  | cons field rest ih =>
      have hsame : field.1.same key = field.1.same k := by
        rw [Scalar.same_comm field.1, Scalar.same_congr h, Scalar.same_comm]
      simp only [find?, hsame, ih]

/-- A write is seen under its own key and under no other. -/
lemma find?_put (fields : Fields) (key k : Scalar) (v : Value) :
    (fields.put key v).find? k = if key.same k = true then some v else fields.find? k := by
  induction fields with
  | nil => simp [put, find?]
  | cons field rest ih =>
      obtain ⟨j, w⟩ := field
      by_cases hj : j.same key = true
      · simp only [put, hj, if_true, find?, Scalar.same_congr hj]
        split <;> rfl
      · simp only [put, hj, Bool.false_eq_true, if_false, find?, ih]
        by_cases hk : key.same k = true
        · have hjk : j.same k = false := by
            rw [Scalar.same_comm j, ← Scalar.same_congr hk, Scalar.same_comm]
            simpa using hj
          simp [hjk, hk]
        · simp [hk]

@[simp] lemma find?_put_self (fields : Fields) (t : Text) (v : Value) :
    (fields.put (.text t) v).find? (.text t) = some v := by
  simp [find?_put]

lemma find?_put_of_ne (fields : Fields) (v : Value) (h : key ≠ .text t) :
    (fields.put key v).find? (.text t) = fields.find? (.text t) := by
  simp [find?_put, h]

@[simp] lemma put_put (fields : Fields) (key : Scalar) (v w : Value) :
    (fields.put key v).put key w = fields.put key w := by
  induction fields with
  | nil => simp [put]
  | cons f rest ih =>
      obtain ⟨k, u⟩ := f
      by_cases hk : k.same key = true
      · simp [put, hk]
      · simp [put, hk, ih]

/-- To write what is there changes nothing. -/
lemma put_eq_self (h : fields.find? key = some v) : fields.put key v = fields := by
  induction fields with
  | nil => cases h
  | cons f rest ih =>
      obtain ⟨k, u⟩ := f
      by_cases hk : k.same key = true
      · simp only [find?, hk, if_true, Option.some.injEq] at h
        simp [put, hk, h]
      · simp only [find?, hk, Bool.false_eq_true, if_false] at h
        simp [put, hk, ih h]

/-- A new key comes last. -/
lemma put_of_find?_eq_none (h : fields.find? key = none) (v : Value) :
    fields.put key v = fields ++ [(key, v)] := by
  induction fields with
  | nil => rfl
  | cons f rest ih =>
      obtain ⟨k, u⟩ := f
      by_cases hk : k.same key = true
      · simp [find?, hk] at h
      · simp only [find?, hk, Bool.false_eq_true, if_false] at h
        simp [put, hk, ih h]

/-- What is true of a field under its name is true whether a missing one counts as null or as the
empty text: both are false. -/
@[simp] lemma truthy_shown (fields : Fields) (name : String) :
    (fields.shown name).truthy = (fields.look name).truthy := by
  unfold shown look
  cases fields.find? (.text (Text.ofString name)) <;> rfl

/-! ## Keys apart -/

/-- No key stands twice. -/
def Distinct (fields : Fields) : Prop := fields.Pairwise fun f g => f.1.same g.1 = false

instance (fields : Fields) : Decidable fields.Distinct :=
  inferInstanceAs (Decidable (fields.Pairwise fun f g => f.1.same g.1 = false))

lemma distinct_nil : Distinct [] := .nil

/-- A key that stands nowhere is found nowhere. -/
lemma find?_eq_none (h : ∀ f ∈ fields, f.1.same key = false) : fields.find? key = none := by
  induction fields with
  | nil => rfl
  | cons f rest ih =>
      simp only [find?, h f List.mem_cons_self, Bool.false_eq_true, if_false]
      exact ih fun g hg => h g (List.mem_cons_of_mem _ hg)

/-- A text that is a key is found. -/
lemma isSome_find? {f : Scalar × Value} (hf : f ∈ fields) (ht : f.1 = .text t) :
    (fields.find? (.text t)).isSome = true := by
  induction fields with
  | nil => cases hf
  | cons g rest ih =>
      obtain ⟨k, w⟩ := g
      unfold find?
      split
      · rfl
      · next hk =>
          rcases List.mem_cons.mp hf with rfl | hmem
          · exact absurd (Scalar.same_text.mpr ht) hk
          · exact ih hmem

/-- A write puts nothing but its key among the keys. -/
lemma mem_put {f : Scalar × Value} (h : f ∈ fields.put key v) :
    f.1 = key ∨ ∃ g ∈ fields, g.1 = f.1 := by
  induction fields with
  | nil =>
      simp only [put, List.mem_singleton] at h
      exact .inl (by rw [h])
  | cons g rest ih =>
      obtain ⟨k, w⟩ := g
      by_cases hk : k.same key = true
      · simp only [put, hk, if_true, List.mem_cons] at h
        rcases h with rfl | h
        · exact .inr ⟨_, List.mem_cons_self, rfl⟩
        · exact .inr ⟨f, List.mem_cons_of_mem _ h, rfl⟩
      · simp only [put, hk, Bool.false_eq_true, if_false, List.mem_cons] at h
        rcases h with rfl | h
        · exact .inr ⟨_, List.mem_cons_self, rfl⟩
        · rcases ih h with hf | ⟨g, hg, hgf⟩
          · exact .inl hf
          · exact .inr ⟨g, List.mem_cons_of_mem _ hg, hgf⟩

/-- What holds of all keys and values, and of those of a write, holds after the write. -/
lemma forall_put {K : Scalar → Prop} {P : Value → Prop} (h : ∀ f ∈ fields, K f.1 ∧ P f.2)
    (hk : K key) (hv : P v) : ∀ f ∈ fields.put key v, K f.1 ∧ P f.2 := by
  induction fields with
  | nil =>
      intro f hmem
      rw [List.mem_singleton.mp hmem]
      exact ⟨hk, hv⟩
  | cons g rest ih =>
      obtain ⟨hg, hrest⟩ := List.forall_mem_cons.mp h
      unfold put
      split
      · exact List.forall_mem_cons.mpr ⟨⟨hg.1, hv⟩, hrest⟩
      · exact List.forall_mem_cons.mpr ⟨hg, ih hrest⟩

lemma Distinct.put (h : fields.Distinct) (key : Scalar) (v : Value) :
    (fields.put key v).Distinct := by
  induction fields with
  | nil => exact List.pairwise_singleton _ _
  | cons f rest ih =>
      obtain ⟨k, w⟩ := f
      obtain ⟨hk, hrest⟩ := List.pairwise_cons.mp h
      by_cases hkey : k.same key = true
      · simp only [Fields.put, hkey, if_true]
        exact List.pairwise_cons.mpr ⟨hk, hrest⟩
      · simp only [Fields.put, hkey, Bool.false_eq_true, if_false]
        refine List.pairwise_cons.mpr ⟨fun g hg => ?_, ih hrest⟩
        rcases mem_put hg with hg | ⟨g', hg', hgg⟩
        · rw [hg]
          exact Bool.eq_false_iff.mpr hkey
        · rw [← hgg]
          exact hk g' hg'

lemma distinct_putAll (h : base.Distinct) (layer : Fields) : (putAll base layer).Distinct := by
  unfold putAll
  induction layer generalizing base with
  | nil => exact h
  | cons f rest ih => exact ih (h.put _ _)

/-! ## Merges -/

lemma mergeFields_cons (base : Fields) (key : Scalar) (v : Value) (rest : Fields) :
    mergeFields base ((key, v) :: rest)
      = mergeFields (base.put key (Value.mergeInto (base.find? key) v)) rest := by
  rw [mergeFields]

lemma distinct_merge (h : base.Distinct) (layer : Fields) : (merge base layer).Distinct := by
  unfold merge
  induction layer generalizing base with
  | nil => rwa [mergeFields]
  | cons f rest ih =>
      rw [mergeFields_cons]
      exact ih (h.put _ _)

/-- **A look-up after a merge.**  The layer decides where it has the key, by what the base holds
there; the base decides elsewhere. -/
theorem find?_merge (base : Fields) (h : layer.Distinct) (k : Scalar) :
    (merge base layer).find? k = match layer.find? k with
      | some v => some (Value.mergeInto (base.find? k) v)
      | none => base.find? k := by
  unfold merge
  induction layer generalizing base with
  | nil => simp [mergeFields, find?]
  | cons f rest ih =>
      obtain ⟨key, v⟩ := f
      obtain ⟨hkey, hrest⟩ := List.pairwise_cons.mp h
      rw [mergeFields_cons, ih _ hrest, find?_put]
      by_cases hk : key.same k = true
      · -- the key stands nowhere else, so nothing after this field touches it
        have hnone : find? rest k = none := by
          rw [← find?_congr hk]
          refine find?_eq_none fun g hg => ?_
          rw [Scalar.same_comm]
          exact hkey g hg
        simp [hnone, find?, hk, find?_congr hk]
      · simp [find?, hk]

/-- A merge over a field that is missing or no mapping replaces it. -/
lemma mergeInto_of_not_map {b : Option Value} (h : b.bind Value.asMap = none) (v : Value) :
    Value.mergeInto b v = v := by
  match b with
  | none => rw [Value.mergeInto] <;> simp
  | some (.map fields) => simp [Value.asMap] at h
  | some (.scalar _) | some (.list _) | some (.pair _ _) | some (.set _) | some (.again _) =>
      rw [Value.mergeInto] <;> simp

/-- What a field holds after a merge: two mappings merged, the mapping of the base where null goes
over it, or else what goes over the base. -/
lemma mergeInto_cases {motive : Value → Prop} {b : Option Value} {v : Value}
    (merged : ∀ base layer, b = some (.map base) → v = .map layer →
      motive (.map (mergeFields base layer)))
    (kept : ∀ base, b = some (.map base) → v = .null → motive (.map base))
    (replaced : motive v) : motive (Value.mergeInto b v) := by
  match hb : b.bind Value.asMap with
  | none => rwa [mergeInto_of_not_map hb]
  | some base =>
      obtain ⟨w, rfl, hw⟩ := Option.bind_eq_some_iff.mp hb
      obtain rfl := Value.asMap_eq_some.mp hw
      match v with
      | .map layer =>
          rw [Value.mergeInto]
          exact merged base layer rfl rfl
      | .null =>
          rw [Value.mergeInto]
          exact kept base rfl rfl
      | .bool _ | .int _ | .float _ | .text _ | .bytes _ | .scalar (.date _) | .scalar (.moment _)
      | .list _ | .pair _ _ | .set _ | .again _ =>
          rw [Value.mergeInto]
          · exact replaced
          all_goals simp

end Fields

/-! ## Tidy values -/

namespace Value

mutual

/-- Whether no mapping inside a value holds a key twice. -/
def isTidy : Value → Bool
  | .list items => allTidy items
  | .map fields => decide (Fields.Distinct fields) && allFieldsTidy fields
  | .pair first second => isTidy first && isTidy second
  | _ => true

/-- Whether all items of a list are tidy. -/
def allTidy : List Value → Bool
  | [] => true
  | item :: rest => isTidy item && allTidy rest

/-- Whether the values of all fields are tidy. -/
def allFieldsTidy : List (Scalar × Value) → Bool
  | [] => true
  | (_, value) :: rest => isTidy value && allFieldsTidy rest

end

lemma allTidy_iff {items : List Value} : allTidy items = true ↔ ∀ v ∈ items, v.isTidy = true := by
  induction items with
  | nil => simp [allTidy]
  | cons v rest ih => simp [allTidy, ih]

lemma allFieldsTidy_iff {fields : Fields} :
    allFieldsTidy fields = true ↔ ∀ f ∈ fields, f.2.isTidy = true := by
  induction fields with
  | nil => simp [allFieldsTidy]
  | cons f rest ih =>
      obtain ⟨k, v⟩ := f
      simp only [allFieldsTidy, Bool.and_eq_true, ih, List.mem_cons, forall_eq_or_imp]

lemma isTidy_map {fields : Fields} :
    (Value.map fields).isTidy = true ↔ fields.Distinct ∧ ∀ f ∈ fields, f.2.isTidy = true := by
  simp [isTidy, allFieldsTidy_iff]

lemma isTidy_list {items : List Value} :
    (Value.list items).isTidy = true ↔ ∀ v ∈ items, v.isTidy = true := by
  simp [isTidy, allTidy_iff]

end Value

/-- What is found in tidy fields is tidy. -/
lemma Fields.isTidy_of_find? {fields : Fields} {key : Scalar} {v : Value}
    (h : ∀ f ∈ fields, f.2.isTidy = true) (hv : fields.find? key = some v) : v.isTidy = true := by
  induction fields with
  | nil => simp [Fields.find?] at hv
  | cons f rest ih =>
      obtain ⟨k, w⟩ := f
      simp only [Fields.find?] at hv
      split at hv
      · cases hv
        exact h _ List.mem_cons_self
      · exact ih (fun g hg => h g (List.mem_cons_of_mem _ hg)) hv

end Mailshot
