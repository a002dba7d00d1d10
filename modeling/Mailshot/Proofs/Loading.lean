import Mailshot.Campaign.Load
import Mailshot.Proofs.Steady
import Mailshot.Proofs.Working

/-!
# Loaded configurations

A configuration that is loaded is complete, and the compiler completes it once more.  That changes
nothing but the order of sets: a completion is a fixed point, and nothing but the completion of a
configuration reaches its document.  But to complete is to copy, and a copy may show a set in another
order.

* `Yaml.Objects.isTidy_valueIn`, `Campaign.isTidy_configOf` — what is read from a file holds no key
  twice, at any depth.
* `Campaign.Describes`, `Campaign.describes_load` — the configuration that a file describes; what is
  loaded is its completion.
* **`Document.completed_once`** — whether a configuration was completed before makes no difference.
-/

namespace Mailshot

/-! ## What is read is tidy -/

lemma Fields.forall_putAll {P : Value → Prop} {base layer : Fields} (h : ∀ f ∈ base, P f.2)
    (hl : ∀ f ∈ layer, P f.2) : ∀ f ∈ putAll base layer, P f.2 := by
  unfold putAll
  induction layer generalizing base with
  | nil => exact h
  | cons f rest ih =>
      obtain ⟨hf, hrest⟩ := List.forall_mem_cons.mp hl
      have hput : ∀ g ∈ base.put f.1 f.2, True ∧ P g.2 :=
        forall_put (K := fun _ => True) (fun g hg => ⟨trivial, h g hg⟩) trivial hf
      exact ih (fun g hg => (hput g hg).2) hrest

/-- Fields that are put one after the other into an empty mapping are tidy if their values are. -/
lemma Value.isTidy_putAll {fields : Fields} (h : ∀ f ∈ fields, f.2.isTidy = true) :
    (Value.map (Fields.putAll [] fields)).isTidy = true :=
  Value.isTidy_map.mpr ⟨Fields.distinct_putAll Fields.distinct_nil _,
    Fields.forall_putAll (P := fun v => v.isTidy = true) (fun _ hf => absurd hf List.not_mem_nil) h⟩

namespace Yaml.Objects

/-- The value of an object is tidy.  The induction is on the length of the way into it. -/
theorem isTidy_valueIn (objects : Objects) (bound : Nat) (around : List Nat) (n : Nat) :
    (objects.valueIn bound around n).isTidy = true := by
  induction bound generalizing around n with
  | zero => rfl
  | succ bound ih =>
      unfold valueIn
      match objects.object n with
      | .scalar s => rfl
      | .set items => rfl
      | .list items =>
          dsimp only
          split
          · rfl
          · rw [Value.isTidy_list, List.forall_mem_map]
            exact fun item _ => ih _ item
      | .pairs items =>
          dsimp only
          split
          · rfl
          · rw [Value.isTidy_list, List.forall_mem_map]
            intro item _
            rw [Value.isTidy, ih, ih]
            rfl
      | .map fields =>
          dsimp only
          split
          · rfl
          · refine Value.isTidy_putAll ?_
            rw [List.forall_mem_map]
            exact fun field _ => ih _ field.2

lemma isTidy_value (objects : Objects) (n : Nat) : (objects.value n).isTidy = true :=
  isTidy_valueIn _ _ _ _

/-- So are the fields of an object, if they are seen in a way that shows tidy values. -/
lemma isTidy_fields? {objects : Objects} {see : Scalar → Nat → Value} {n : Nat} {fields : Fields}
    (hsee : ∀ key n, (see key n).isTidy = true) (h : objects.fields? see n = some fields) :
    (Value.map fields).isTidy = true := by
  unfold fields? at h
  split at h
  · cases h
    refine Value.isTidy_putAll ?_
    rw [List.forall_mem_map]
    exact fun field _ => hsee field.1 field.2
  · cases h

lemma isTidy_openedMap (objects : Objects) (n : Nat) : (objects.openedMap n).isTidy = true := by
  unfold openedMap
  split
  · next h => exact isTidy_fields? (fun _ => isTidy_value objects) h
  · exact isTidy_value objects n

lemma isTidy_openedList (objects : Objects) (n : Nat) : (objects.openedList n).isTidy = true := by
  unfold openedList
  split
  · rw [Value.isTidy_list, List.forall_mem_map]
    exact fun item _ => isTidy_openedMap objects item
  · exact isTidy_value objects n

end Yaml.Objects

namespace Campaign

lemma isTidy_sectionOf (objects : Yaml.Objects) (key : Scalar) (n : Nat) :
    (sectionOf objects key n).isTidy = true := by
  unfold sectionOf
  split
  · exact objects.isTidy_openedMap n
  · exact objects.isTidy_openedList n
  · exact objects.isTidy_value n

/-- **What a file describes holds no key twice**, at any depth. -/
theorem isTidy_configOf {objects : Yaml.Objects} {config : Fields}
    (h : configOf objects = some config) : (Value.map config).isTidy = true :=
  Yaml.Objects.isTidy_fields? (isTidy_sectionOf objects) h

/-! ## What is loaded -/

open Work

/-- The configuration that the file at a path describes. -/
def Describes (files : FileTree) (path : Path) (config : Fields) : Prop :=
  ∃ content objects, files.read path = .ok content ∧ Yaml.load content = .ok objects ∧
    configOf objects = some config

/-- **What is loaded is the completion of what the file describes**, its sets in order. -/
theorem describes_load {world : World} {path : Path} {r : Fields}
    (h : ((load path).runIn world).1 = .ok r) : ∃ config, Describes world.files path config ∧
      Config.resolve (.map (config.ordered (world.sets .loading))) = .ok r := by
  unfold load at h
  rw [runIn_get_bind] at h
  dsimp only at h
  split at h
  · cases h
  · obtain ⟨content, hcontent, h⟩ := runIn_bind_eq_ok.mp h
    obtain ⟨objects, hobjects, h⟩ := runIn_bind_eq_ok.mp h
    rw [runIn_lift] at hcontent hobjects
    split at h
    · next config hconfig =>
        obtain ⟨count, -, h⟩ := runIn_bind_eq_ok.mp h
        obtain ⟨-, -, h⟩ := runIn_bind_eq_ok.mp h
        rw [runIn_get_bind, runIn_lift, runIn_enter] at h
        exact ⟨config, ⟨content, objects, hcontent, hobjects, hconfig⟩, h⟩
    · cases h

end Campaign

/-! ## Completed once or twice -/

namespace Document

/-- **It makes no difference whether a configuration was completed before**, but for the order of sets.
To complete it again changes nothing, in whatever order its sets stand; and what the compiler makes of it
is what it makes of the configuration as it was, the sets put into both orders.  So it is the same
document or fault, with the same journal, where no set holds two items.  What is loaded from a file is
complete. -/
theorem completed_once (r : Fields) :
    (∀ c : Value, c.isTidy = true → Config.resolve c = .ok r →
      (∀ σ, Config.resolve (.map (r.ordered σ)) = .ok (r.ordered σ) ∧
        ∀ escaped ρ, html (.map (r.ordered σ)) escaped ρ = html c escaped (σ.andThen ρ)) ∧
      Config.resolve (.map r) = .ok r ∧ SameButForSets (.map r) c) ∧
    ∀ (world : World) (path : Path), ((Campaign.load path).runIn world).1 = .ok r →
      Config.resolve (.map r) = .ok r ∧ ∃ c, Campaign.Describes world.files path c ∧
        SameButForSets (.map r) (.map (c.ordered (world.sets .loading))) ∧
        ((Value.map c).isRigid = true → SameButForSets (.map r) (.map c)) := by
  constructor
  · intro c hc hr
    have hagain := Config.resolve_resolve hc hr
    refine ⟨fun σ => ?_, hagain, sameButForSets (hagain.trans hr.symm)⟩
    have hordered := Config.resolve_ordered hagain σ
    refine ⟨hordered, fun escaped ρ => ?_⟩
    simp only [html, markup, hordered, hr, Report.lift_ok_bind, Fields.ordered_ordered]
  · intro world path hload
    obtain ⟨c, hdescribes, hr⟩ := Campaign.describes_load hload
    obtain ⟨_, _, _, _, hconfig⟩ := id hdescribes
    have hd : c.Distinct := (Value.isTidy_map.mp (Campaign.isTidy_configOf hconfig)).1
    have hagain := Config.resolve_resolve_of_apart
      (fun _ => Config.distinct_of_fieldsOrNone_map hd.ordered) hr
    have hsame := sameButForSets (hagain.trans hr.symm)
    exact ⟨hagain, c, hdescribes, hsame, fun hrigid => Fields.ordered_of_isRigid hrigid ▸ hsame⟩

/-- A section that is emptied, one that is no mapping, unknown fields, and a mapping for the products
whose one key counts as a blank product. -/
def patched : Fields := Fields.named [
  ("hero", .null),
  ("theme", .int 5),
  ("company", .map (Fields.named [("legal", .map (Fields.named [("vat", .int 7)]))])),
  ("products", .map (Fields.named [("", .int 1)]))]

/-- A file whose one section is emptied. -/
def blankHero : World :=
  World.initial (FileTree.empty.withFile ⟨.above 0, ["c.yaml"]⟩ "hero:\n".toUTF8)
    ⟨none, none, none, none⟩ none

/-- A configuration that is given, and one that is loaded. -/
theorem completed_once_patched :
    (∃ r, Config.resolve (.map patched) = .ok r ∧ (Config.listed r).length = 1 ∧
      Config.resolve (.map r) = .ok r ∧
      ∀ escaped ρ ρ', html (.map r) escaped ρ = html (.map patched) escaped ρ') ∧
    ∃ r, ((Campaign.load "c.yaml").runIn blankHero).1 = .ok r ∧ Config.resolve (.map r) = .ok r := by
  have hr := eq_ok_of_isOk (x := Config.resolve (.map patched)) (by decide +kernel)
  have hload := eq_ok_of_isOk (x := ((Campaign.load "c.yaml").runIn blankHero).1) (by decide +kernel)
  obtain ⟨-, hagain, hsame⟩ := (completed_once _).1 (.map patched) (by decide +kernel) hr
  exact ⟨⟨_, hr, by decide +kernel, hagain, hsame.rigid _ hagain (by decide +kernel)⟩, _, hload,
    ((completed_once _).2 _ _ hload).1⟩

/-- **A completed configuration may have another document**: it is a copy, and the compiler copies it
again, so that a set of two numbers shows the other way round. -/
theorem completed_once_contending : ∃ r d d', Config.resolve (.map contending) = .ok r ∧
    (html (.map (r.ordered .copied)) false).outcome = .ok d ∧
    (html (.map contending) false).outcome = .ok d' ∧ d ≠ d' :=
  ⟨_, _, _, eq_ok_of_isOk (by decide +kernel), eq_ok_of_isOk (by decide +kernel),
    eq_ok_of_isOk (by decide +kernel), by decide +kernel⟩

end Document

end Mailshot
