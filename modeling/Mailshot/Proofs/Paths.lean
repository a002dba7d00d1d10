import Mailshot.Config.Defaults
import Mailshot.Proofs.Merge

/-!
# What a merge holds along a path

A path is a list of keys, followed from mapping to mapping.  Where a path leads to a value of the
layer, the merge holds there what that value makes of the base's value at the same place
(`Value.along_mergeInto`).  So nothing depends on how the rest of the layer looks, and the rules for
one field are the rules for a path of any length.

* `Value.under`, `Value.along` — the value under a key, and the one that a path leads to.  A place
  where a collection holds itself ends a path, as a scalar does.
* `Value.under_mergeInto`, **`Value.along_mergeInto`** — one step into a merge, and a whole path.
* `Value.MergedAlong`, **`Value.merge_along`** — the rules for a path, and that every merge follows
  them along every path.
-/

namespace Mailshot.Value

variable {b : Option Value} {v w : Value} {key : Scalar} {p q : List Scalar} {fields : Fields}

/-! ## Paths -/

/-- The value that a mapping holds under a key. -/
def under (v : Value) (key : Scalar) : Option Value := v.asMap.bind (Fields.find? · key)

/-- The value that a path of keys leads to. -/
def along (v : Value) (q : List Scalar) : Option Value := q.foldlM under v

@[simp] lemma under_map (fields : Fields) (key : Scalar) :
    (Value.map fields).under key = fields.find? key := rfl

@[simp] lemma along_nil (v : Value) : v.along [] = some v := rfl

@[simp] lemma along_cons (v : Value) (key : Scalar) (q : List Scalar) :
    v.along (key :: q) = (v.under key).bind (along · q) := by
  unfold along
  rw [List.foldlM_cons]
  rfl

lemma along_append (v : Value) (p q : List Scalar) :
    v.along (p ++ q) = (v.along p).bind (along · q) := by
  unfold along
  rw [List.foldlM_append]
  rfl

lemma exists_of_under (h : v.under key = some w) :
    ∃ fields : Fields, v = .map fields ∧ fields.find? key = some w := by
  obtain ⟨fields, hf, h⟩ := Option.bind_eq_some_iff.mp h
  exact ⟨fields, asMap_eq_some.mp hf, h⟩

lemma bind_under (b : Option Value) (key : Scalar) :
    b.bind (under · key) = (b.bind asMap).bind (Fields.find? · key) := by
  rw [Option.bind_assoc]
  rfl

/-- A path ends where there is no mapping. -/
lemma along_append_eq_none (h : (v.along p).bind asMap = none) :
    v.along (p ++ key :: q) = none := by
  simp only [along_append, along_cons]
  rw [← Option.bind_assoc, bind_under, h]
  rfl

/-- What a tidy value holds along a path is tidy. -/
lemma isTidy_along (hv : v.isTidy = true) (h : v.along q = some w) : w.isTidy = true := by
  induction q generalizing v with
  | nil => rwa [← Option.some.inj h]
  | cons key q ih =>
      rw [along_cons, Option.bind_eq_some_iff] at h
      obtain ⟨u, hu, h⟩ := h
      obtain ⟨fields, rfl, hu⟩ := exists_of_under hu
      exact ih (Fields.isTidy_of_find? (isTidy_map.mp hv).2 hu) h

/-! ## Paths into a merge -/

/-- What is neither null nor a mapping replaces whatever the base holds. -/
lemma mergeInto_of_leaf (b : Option Value) (hnull : v ≠ .null) (hmap : v.asMap = none) :
    mergeInto b v = v := by
  refine Fields.mergeInto_cases (motive := (· = v)) (fun base layer _ h => ?_)
    (fun base _ h => absurd h hnull) rfl
  simp [h, asMap] at hmap

/-- One step into a merge with a mapping: what the mapping holds under the key, merged into what the
base holds there, and where it has no such key what the base holds. -/
lemma under_mergeInto {layer : Fields} (hl : layer.Distinct) (b : Option Value) (key : Scalar) :
    (mergeInto b (.map layer)).under key
      = match layer.find? key with
        | some w => some (mergeInto (b.bind (under · key)) w)
        | none => b.bind (under · key) := by
  cases hb : b.bind asMap with
  | none =>
      rw [Fields.mergeInto_of_not_map hb, bind_under, hb, under_map]
      cases layer.find? key <;> simp [Fields.mergeInto_of_not_map]
  | some base =>
      obtain ⟨u, rfl, hu⟩ := Option.bind_eq_some_iff.mp hb
      obtain rfl := asMap_eq_some.mp hu
      rw [mergeInto]
      exact Fields.find?_merge base hl key

/-- **A path into a merge.**  Where the layer leads to a value, the merge holds that value merged
into what the base holds there. -/
theorem along_mergeInto (hv : v.isTidy = true) (b : Option Value) (hw : v.along q = some w) :
    (mergeInto b v).along q = some (mergeInto (b.bind (along · q)) w) := by
  -- one key after the other: the rest of the path lies in what the first key leads to
  induction q generalizing b v with
  | nil =>
      obtain rfl := Option.some.inj hw
      simp
  | cons key q ih =>
      rw [along_cons, Option.bind_eq_some_iff] at hw
      obtain ⟨u, hu, hw⟩ := hw
      obtain ⟨layer, rfl, hu⟩ := exists_of_under hu
      obtain ⟨hd, htidy⟩ := isTidy_map.mp hv
      have hstep : (mergeInto b (.map layer)).under key
          = some (mergeInto (b.bind (under · key)) u) := by
        rw [under_mergeInto hd, ← under_map, hu]
      simp only [along_cons, hstep, Option.bind_some, ih (Fields.isTidy_of_find? htidy hu) _ hw,
        Option.bind_assoc]

/-- Behind a mapping of the layer that lacks the next key, the merge holds what the base holds. -/
lemma along_mergeInto_of_lacking (hv : v.isTidy = true) (b : Option Value)
    (hp : v.along p = some (.map fields)) (hkey : fields.find? key = none) (q : List Scalar) :
    (mergeInto b v).along (p ++ key :: q) = b.bind (along · (p ++ key :: q)) := by
  have hd : fields.Distinct := (isTidy_map.mp (isTidy_along hv hp)).1
  simp only [along_append, along_mergeInto hv b hp, Option.bind_some, along_cons,
    under_mergeInto hd, hkey, Option.bind_assoc]

/-- A merge holds nothing along a path along which neither of the two holds anything. -/
lemma isSome_along_mergeInto (hv : v.isTidy = true) (b : Option Value)
    (h : ((mergeInto b v).along q).isSome = true) :
    (v.along q).isSome = true ∨ (b.bind (along · q)).isSome = true := by
  induction q generalizing b v with
  | nil => exact .inl rfl
  | cons key q ih =>
      match hm : v.asMap with
      | none =>
          -- no mapping goes over the base: what is there after the merge was there before
          revert h
          refine Fields.mergeInto_cases
            (motive := fun m => (m.along (key :: q)).isSome = true → _)
            (fun base layer _ h => ?_) (fun base hb _ h => ?_) .inl
          · simp [h, asMap] at hm
          · exact .inr (by simpa [hb] using h)
      | some layer =>
          obtain rfl := asMap_eq_some.mp hm
          obtain ⟨hd, htidy⟩ := isTidy_map.mp hv
          rw [along_cons, under_mergeInto hd] at h
          cases hw : layer.find? key with
          | none =>
              rw [hw] at h
              exact .inr (by simpa [Option.bind_assoc] using h)
          | some w =>
              rw [hw] at h
              have := ih (Fields.isTidy_of_find? htidy hw) _ h
              simpa [hw, Option.bind_assoc] using this

/-! ## The rules for a path -/

/-- The rules for a path `q` into a merge of two values. -/
structure MergedAlong (base layer merged : Value) (q : List Scalar) : Prop where
  /-- A value of the layer that is neither null nor a mapping counts. -/
  leaf : ∀ v, layer.along q = some v → v ≠ .null → v.asMap = none → merged.along q = some v
  /-- A null of the layer leaves a mapping of the base as it was … -/
  kept : layer.along q = some .null → ∀ fields, base.along q = some (.map fields) →
    merged.along q = some (.map fields)
  /-- … and replaces everything else. -/
  emptied : layer.along q = some .null → (∀ fields, base.along q ≠ some (.map fields)) →
    merged.along q = some .null
  /-- Where a mapping of the layer lacks the next key, a mapping of the base decides … -/
  lacking : ∀ p key rest (fields : Fields), q = p ++ key :: rest → layer.along p = some (.map fields) →
    fields.find? key = none → ∀ below, base.along p = some (.map below) →
      merged.along q = base.along q
  /-- … and nothing is there where the base has no mapping. -/
  absent : ∀ p key rest (fields : Fields), q = p ++ key :: rest → layer.along p = some (.map fields) →
    fields.find? key = none → (∀ below, base.along p ≠ some (.map below)) → merged.along q = none
  /-- A mapping of the layer is there unchanged where the base has none. -/
  fresh : ∀ fields, layer.along q = some (.map fields) →
    (∀ below, base.along q ≠ some (.map below)) → merged.along q = some (.map fields)
  /-- Nothing is there that neither of the two has. -/
  noOther : (merged.along q).isSome = true →
    (layer.along q).isSome = true ∨ (base.along q).isSome = true

lemma bind_asMap_eq_none (h : ∀ fields, b ≠ some (.map fields)) : b.bind asMap = none := by
  rw [Option.bind_eq_none_iff]
  intro v hv
  cases hm : v.asMap with
  | none => rfl
  | some fields => exact absurd (asMap_eq_some.mp hm ▸ hv) (h fields)

/-- **Every merge of two mappings follows the rules along every path.** -/
theorem merge_along (base layer : Fields) (htidy : (Value.map layer).isTidy = true) :
    ∃ merged, merge (.map base) (.map layer) = .ok merged ∧
      ∀ q, MergedAlong (.map base) (.map layer) merged q := by
  refine ⟨mergeInto (some (.map base)) (.map layer), by rw [mergeInto]; rfl, fun q => ?_⟩
  have hpath : ∀ {w}, (Value.map layer).along q = some w →
      (mergeInto (some (.map base)) (.map layer)).along q
        = some (mergeInto ((Value.map base).along q) w) :=
    along_mergeInto htidy (some (.map base))
  have hlacking : ∀ p key rest (fields : Fields), q = p ++ key :: rest →
      (Value.map layer).along p = some (.map fields) → fields.find? key = none →
        (mergeInto (some (.map base)) (.map layer)).along q = (Value.map base).along q := by
    rintro p key rest fields rfl hp hkey
    exact along_mergeInto_of_lacking htidy _ hp hkey rest
  exact
    { leaf := fun v hv hnull hmap => by rw [hpath hv, mergeInto_of_leaf _ hnull hmap]
      kept := fun hv fields hb => by rw [hpath hv, hb, mergeInto]
      emptied := fun hv hb => by
        rw [hpath hv, Fields.mergeInto_of_not_map (bind_asMap_eq_none hb)]
      lacking := fun p key rest fields hq hp hkey _ _ => hlacking p key rest fields hq hp hkey
      absent := fun p key rest fields hq hp hkey hb => by
        rw [hlacking p key rest fields hq hp hkey, hq,
          along_append_eq_none (bind_asMap_eq_none hb)]
      fresh := fun fields hv hb => by
        rw [hpath hv, Fields.mergeInto_of_not_map (bind_asMap_eq_none hb)]
      noOther := isSome_along_mergeInto htidy _ }

/-- Sections that are emptied, replaced and filled, to be merged over the defaults. -/
def draft : Fields := Fields.named [
  ("theme", .null),
  ("footer", .int 7),
  ("hero", .map (Fields.named [("title", .text "Spring")])),
  ("company", .map (Fields.named [("name", .map []), ("website_url", .null)]))]

/-- One path for each of the rules. -/
theorem merge_along_draft :
    ∃ merged, merge (.map Config.defaults) (.map draft) = .ok merged ∧
      merged.along [.text "footer"] = some (.int 7) ∧
      merged.along [.text "theme"] = (Value.map Config.defaults).along [.text "theme"] ∧
      merged.along [.text "company", .text "website_url"] = some .null ∧
      merged.along [.text "hero", .text "show"] = some (.bool true) ∧
      merged.along [.text "company", .text "name", .text "legal"] = none ∧
      merged.along [.text "company", .text "name"] = some (.map []) ∧
      merged.along [.text "intro"] = none := by
  obtain ⟨merged, hmerged, h⟩ := merge_along Config.defaults draft (by decide)
  refine ⟨merged, hmerged, (h _).leaf _ rfl nofun rfl, (h _).kept rfl _ rfl,
    (h _).emptied rfl ?_, ?_, ?_, (h _).fresh _ rfl ?_, ?_⟩
  · rintro fields ⟨⟩
  · exact (h _).lacking [.text "hero"] (.text "show") [] _ rfl rfl rfl _ rfl
  · refine (h _).absent [.text "company", .text "name"] (.text "legal") [] _ rfl rfl rfl ?_
    rintro fields ⟨⟩
  · rintro fields ⟨⟩
  · refine Option.not_isSome_iff_eq_none.mp fun hsome => ?_
    rcases (h _).noOther hsome with h | h <;> cases h

end Mailshot.Value
