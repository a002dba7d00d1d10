import Mailshot.Proofs.Commuting
import Mailshot.Proofs.Compiling
import Mailshot.Proofs.Completion

/-!
# What editing can reach

A configuration that can be completed and compiled stays one, whatever is done to it: an edit puts
values of any kind into products, but a product stays a mapping and the products a list of them, and
no edit touches the sections.

* `Config.Compilable`, `Config.contentWidth` — the invariant, and the width that edits keep.
* `Config.Compilable.withListed`, `Config.Compilable.completed`, `Config.Compilable.escape` — what
  edits make of a configuration.
* **`Edit.run_compilable`** — an edit keeps both.
* `Document.Compiles` — a configuration has documents, up to what cannot be shown or visited.
* **`Session.versions_compile`** — every version of every session compiles.
-/

namespace Mailshot

open Outcome

namespace Config

variable {c r : Fields} {key : String}

/-! ## The invariant -/

/-- The width of the content, the usual one where a configuration gives none. -/
def contentWidth (c : Fields) : Value :=
  ((sectionFields c "layout").find? (.text (Text.ofString "content_width"))).getD
    Layout.defaultContent

/-- A configuration whose sections and products can be completed, with keys apart, and whose width is
a number that is finite and not enormous. -/
structure Compilable (c : Fields) : Prop where
  editable : Editable c
  wellFormed : WellFormed c
  sections : ∀ key ∈ sectionNames, (sectionFields c key).Distinct
  width : ∃ n, (contentWidth c).number? = some n ∧ n.Moderate

/-- What is escaped can still be edited. -/
lemma Editable.escape (h : Editable c) : Editable (Fields.escape c) where
  config := h.config.escape
  lists := listsProducts_escape h.lists
  products := by
    rw [listed_escape h.lists, List.forall_mem_map]
    exact fun p hp => (h.products p hp).escape

/-- The sections are other fields than the products. -/
lemma ne_products (hk : key ∈ sectionNames) : key ≠ "products" := by
  rintro rfl
  exact absurd hk (by decide)

lemma look_withListed (hk : key ∈ sectionNames) (c : Fields) (products : List Fields) :
    (withListed c products).look key = c.look key :=
  look_withListed_of_ne (ne_products hk) c products

/-- Sections and width are those of a configuration with the same sections. -/
lemma sectionFields_congr {d : Fields} (h : c.look key = d.look key) :
    sectionFields c key = sectionFields d key := by
  unfold sectionFields
  rw [h]

namespace Compilable

/-- **A change of the products** keeps the invariant, and the width. -/
theorem withListed (h : Compilable c) {products : List Fields} (hp : ∀ p ∈ products, p.Distinct) :
    Compilable (withListed c products) ∧
      contentWidth (Config.withListed c products) = contentWidth c := by
  have hsection {key : String} (hk : key ∈ sectionNames) :
      sectionFields (Config.withListed c products) key = sectionFields c key :=
    sectionFields_congr (look_withListed hk c products)
  have hwidth : contentWidth (Config.withListed c products) = contentWidth c := by
    unfold contentWidth
    rw [hsection (by decide)]
  refine ⟨⟨h.editable.withListed hp, ⟨fun key hk => ?_, ?_⟩, fun key hk => ?_, ?_⟩, hwidth⟩
  · rw [look_withListed hk]
    exact h.wellFormed.sections key hk
  · exact listsProducts_withListed c products
  · rw [hsection hk]
    exact h.sections key hk
  · rw [hwidth]
    exact h.width

/-- The sections of the complete configuration. -/
lemma look_completed (h : Compilable c) (hk : key ∈ sectionNames) :
    (Config.completed c).look key =
      .map (Fields.merge (sectionFields defaults key) (sectionFields c key)) :=
  look_section (resolve_of_editable h.editable) h.editable.config h.wellFormed hk

lemma sectionFields_completed (h : Compilable c) (hk : key ∈ sectionNames) :
    sectionFields (Config.completed c) key =
      Fields.merge (sectionFields defaults key) (sectionFields c key) :=
  sectionFields_of_look (h.look_completed hk)

/-- A field that the defaults have is there in the complete configuration. -/
lemma field_completed (h : Compilable c) (hk : key ∈ sectionNames) {name : String} {b : Value}
    (hb : (sectionFields defaults key).find? (.text (Text.ofString name)) = some b) :
    ((Config.completed c).look key).field name =
      .ok (((sectionFields c key).find? (.text (Text.ofString name))).getD b) := by
  rw [h.look_completed hk, Value.field_eq_ok]
  refine ⟨_, rfl, ?_⟩
  rw [(defaults_section hk).2.1.find?_merge (h.sections key hk), hb]
  cases (sectionFields c key).find? (.text (Text.ofString name)) <;> rfl

/-- The width is there in the complete configuration. -/
theorem field_contentWidth (h : Compilable c) :
    ((Config.completed c).look "layout").field "content_width" = .ok (contentWidth c) :=
  h.field_completed (by decide) rfl

/-- **Completing** keeps the invariant, and the width. -/
theorem completed (h : Compilable c) :
    Compilable (completed c) ∧ contentWidth (Config.completed c) = contentWidth c := by
  have hwidth : contentWidth (Config.completed c) = contentWidth c := by
    obtain ⟨fields, hlook, hfind⟩ := Value.field_eq_ok.mp h.field_contentWidth
    unfold contentWidth at hfind ⊢
    rw [sectionFields_of_look hlook, hfind]
    rfl
  refine ⟨⟨editable_completed c, ⟨fun key hk => .inr ⟨_, h.look_completed hk⟩, ?_⟩, fun key hk => ?_,
    ?_⟩, hwidth⟩
  · exact listsProducts_withListed _ _
  · rw [h.sectionFields_completed hk]
    exact Fields.distinct_merge (defaults_section hk).2.2 _
  · rw [hwidth]
    exact h.width

/-- **Escaping** keeps the invariant, and the width: it is a number. -/
theorem escape (h : Compilable c) :
    Compilable (Fields.escape c) ∧ contentWidth (Fields.escape c) = contentWidth c := by
  have hsection := sectionFields_escape c
  have hwidth : contentWidth (Fields.escape c) = contentWidth c := by
    obtain ⟨n, hn, -⟩ := h.width
    have hescape : contentWidth (Fields.escape c) = (contentWidth c).escape := by
      unfold contentWidth
      rw [hsection, Fields.find?_escape]
      cases (sectionFields c "layout").find? (.text (Text.ofString "content_width")) <;> rfl
    rw [hescape, Value.escape_of_number (by rw [hn]; rfl)]
  refine ⟨⟨h.editable.escape, ⟨fun key hk => ?_, h.editable.escape.lists⟩, fun key hk => ?_, ?_⟩,
    hwidth⟩
  · rw [Fields.look_escape]
    rcases h.wellFormed.sections key hk with hn | ⟨fields, hf⟩
    · exact .inl (by rw [hn]; rfl)
    · exact .inr ⟨Fields.escape fields, by rw [hf]; rfl⟩
  · rw [hsection]
    exact (h.sections key hk).escape
  · rw [hwidth]
    exact h.width

/-- The complete configuration is sound. -/
theorem sound (h : Compilable c) : Sound (Config.completed c) where
  sections key hk := ⟨_, h.look_completed hk⟩
  products := look_products (resolve_of_editable h.editable)
  size := ⟨_, h.field_completed (b := .text "large") (by decide) rfl⟩
  ground := ⟨_, h.field_completed (b := .text "#ffffff") (by decide) rfl⟩
  width := by
    obtain ⟨n, hn, hm⟩ := h.width
    exact ⟨_, n, h.field_contentWidth, hn, hm⟩

end Compilable

/-- **The sample campaign** has the invariant. -/
theorem sample_compilable : Compilable sample := by
  have hlook : sample.look "products" = .list (sampleProducts.map .map) := rfl
  refine ⟨⟨by decide +kernel, .inr ⟨_, hlook⟩, ?_⟩, ⟨?_, .inr ⟨_, hlook⟩⟩, by decide +kernel,
    ⟨.int 600, rfl, Number.moderate_of_small (by decide)⟩⟩
  · rw [listed_of_look hlook]
    decide +kernel
  · intro key hk
    simp only [sectionNames, List.mem_cons, List.not_mem_nil, or_false] at hk
    rcases hk with rfl | rfl | rfl | rfl | rfl <;> exact .inr ⟨_, rfl⟩

end Config

/-! ## Edits -/

/-- An edit of the products, by mappings whose keys are apart, or of the whole configuration. -/
def Edit.Admitted (e : Edit) : Prop := e.Ordinary ∨ e = .resolve ∨ e = .escape

/-- **What an edit makes** of a configuration that compiles is one again, of the same width. -/
theorem Edit.run_compilable {e : Edit} {ids : Nat → Text} {drawn : Nat} {c : Fields} {v : Value}
    (he : e.Admitted) (h : Config.Compilable c) (hrun : (e.run ids drawn (.map c)).1 = .ok v) :
    ∃ d, v = .map d ∧ Config.Compilable d ∧ Config.contentWidth d = Config.contentWidth c := by
  rcases he with he | rfl | rfl
  · obtain ⟨change, hchange, rfl, -⟩ := exists_change_of_run h.editable.lists he hrun
    exact ⟨_, rfl, h.withListed
      (Change.distinct_apply (proper_of_change he hchange) h.editable.products)⟩
  · rw [run, Config.resolve_of_editable h.editable] at hrun
    cases hrun
    exact ⟨_, rfl, h.completed⟩
  · obtain ⟨-, rfl⟩ := run_escape_eq_ok.mp hrun
    exact ⟨_, rfl, h.escape⟩

/-! ## Documents -/

namespace Document

/-- A configuration has a document, escaped or not and in whatever order its sets stand, unless it holds
an integer that is too long to be shown or, where it is escaped, holds itself. -/
def Compiles (c : Value) : Prop := ∀ (escaped : Bool) (ρ : SetOrder),
  (∃ d, (html c escaped ρ).outcome = .ok d) ∨
    (html c escaped ρ).outcome = .error .tooManyDigits ∧ c.isShowable = false ∨
    (html c escaped ρ).outcome = .error .endless ∧ escaped = true ∧ c.isEndless = true

/-- Completing keeps a hereditary property that the defaults have. -/
lemma hereditary_completed {K : Scalar → Prop} {Q : Value → Prop} (hQ : Value.Hereditary K Q)
    (hdefaults : Q (.map Config.defaults)) (hblank : Q (.map Product.blank)) {c : Fields}
    (h : Config.Editable c) (hc : Q (.map c)) : Q (.map (Config.completed c)) := by
  refine hQ.resolve hdefaults hblank hc (fun a b hpair => ?_) (Config.resolve_of_editable h)
  rcases Config.look_merge_products h.config h.lists with ⟨hn, -⟩ | hp
  · rw [hn] at hpair
    cases hpair
  · rw [hp] at hpair
    cases hpair

/-- **A configuration with the invariant compiles.** -/
theorem compiles {c : Fields} (h : Config.Compilable c) : Compiles (.map c) := by
  intro escaped ρ
  -- the one fault that is allowed while the parts are made, and the reason for it
  let P : Fault → Prop := fun fault => fault = .tooManyDigits ∧ (Value.map c).isShowable = false
  have hshows : (Value.map (Config.completed c)).Shows P := by
    refine hereditary_completed Value.hereditary_shows (.inl rfl) (.inl rfl) h.editable ?_
    cases hc : (Value.map c).isShowable with
    | true => exact .inl hc
    | false => exact .inr ⟨rfl, hc⟩
  replace hshows : (Value.map ((Config.completed c).ordered ρ)).Shows P :=
    Value.ordered_map (Config.completed c) ▸ hshows.ordered ρ []
  have honly : Only P (ofResolved (if escaped then ((Config.completed c).ordered ρ).escape else
      (Config.completed c).ordered ρ)).outcome := by
    split
    · exact only_ofResolved (h.sound.ordered ρ).escape hshows.escape
    · exact only_ofResolved (h.sound.ordered ρ) hshows
  rw [outcome_html, outcome_markup (Config.resolve_of_editable h.editable)]
  split
  · next hendless =>
      obtain ⟨hescaped, hr⟩ := Bool.and_eq_true_iff.mp hendless
      refine .inr (.inr ⟨rfl, hescaped, ?_⟩)
      by_contra hc
      have hfinite := hereditary_completed Value.hereditary_isFinite rfl rfl h.editable
        (Bool.eq_false_iff.mpr hc)
      rw [Fields.isEndless, ← Value.isEndless, hfinite] at hr
      cases hr
  · cases hm : (ofResolved (if escaped then ((Config.completed c).ordered ρ).escape else
        (Config.completed c).ordered ρ)).outcome with
    | ok m => exact .inl ⟨m.text, rfl⟩
    | error fault =>
        obtain ⟨rfl, hc⟩ := honly fault hm
        exact .inr (.inl ⟨rfl, hc⟩)

end Document

/-! ## Sessions -/

namespace Session

variable {ids : Nat → Text} {s : Session}

/-- All versions, the first one in front. -/
def versions (s : Session) : List Value := s.first :: s.later

lemma version_mem (s : Session) (n : Nat) : s.version n ∈ s.versions := by
  unfold version versions
  rw [List.getD_eq_getElem?_getD]
  cases h : (s.first :: s.later)[n]? with
  | none => exact List.mem_cons_self
  | some v => exact List.mem_of_getElem? h

/-- What every edit keeps is true of all versions after a step. -/
lemma take_versions {A : Edit → Prop} {Q : Value → Prop}
    (hQ : ∀ e drawn v w, A e → Q v → (e.run ids drawn v).1 = .ok w → Q w) {step : Step}
    (hstep : ∀ e, step.action = .edit e → A e) (h : ∀ v ∈ s.versions, Q v) :
    ∀ v ∈ (s.take ids step).1.versions, Q v := by
  obtain ⟨n, action⟩ := step
  cases action with
  | look l => exact h
  | edit e =>
      have hversion := fun w => hQ e s.drawn _ w (hstep e rfl) (h _ (s.version_mem (n.getD s.newest)))
      unfold take
      dsimp only
      generalize e.run ids s.drawn (s.version (n.getD s.newest)) = result at hversion
      obtain ⟨outcome, drawn⟩ := result
      cases outcome with
      | error fault => exact h
      | ok edited =>
          show ∀ v ∈ s.first :: (s.later ++ [edited]), Q v
          rw [← List.cons_append, List.forall_mem_append]
          exact ⟨h, List.forall_mem_singleton.mpr (hversion edited rfl)⟩

/-- **What every edit keeps** is true of all versions of a session. -/
theorem run_versions (ids : Nat → Text) {A : Edit → Prop} {Q : Value → Prop}
    (hQ : ∀ e drawn v w, A e → Q v → (e.run ids drawn v).1 = .ok w → Q w) {steps : List Step}
    (hsteps : ∀ step ∈ steps, ∀ e, step.action = .edit e → A e) (h : ∀ v ∈ s.versions, Q v) :
    ∀ v ∈ (s.run ids steps).1.versions, Q v := by
  induction steps generalizing s with
  | nil => exact h
  | cons step rest ih =>
      obtain ⟨hstep, hrest⟩ := List.forall_mem_cons.mp hsteps
      exact ih hrest (take_versions hQ hstep h)

/-- **Whatever editing reaches compiles.**  From the sample campaign, or any configuration with the
invariant, a session may add products, given or made from a placeholder, set fields to values of any
kind, take products out, complete and escape, each step from any version.  Every version has the
invariant, the width of the first one once it is completed, and a document with and without
escaping. -/
theorem versions_compile : Config.Compilable Config.sample ∧
    ∀ (c : Fields) (ids : Nat → Text) (steps : List Step), Config.Compilable c →
      (∀ step ∈ steps, ∀ e, step.action = .edit e → e.Admitted) →
      ∀ v ∈ ((start (.map c)).run ids steps).1.versions, ∃ d r,
        v = .map d ∧ Config.Compilable d ∧ Config.resolve v = .ok r ∧
        (r.look "layout").field "content_width" = .ok (Config.contentWidth c) ∧
        Document.Compiles v := by
  refine ⟨Config.sample_compilable, fun c ids steps hc hsteps v hv => ?_⟩
  have hinvariant := run_versions ids (A := Edit.Admitted) (s := start (.map c))
    (Q := fun v => ∃ d, v = .map d ∧ Config.Compilable d ∧
      Config.contentWidth d = Config.contentWidth c) ?_ hsteps ?_ v hv
  · obtain ⟨d, rfl, hd, hwidth⟩ := hinvariant
    refine ⟨d, _, rfl, hd, Config.resolve_of_editable hd.editable, ?_, Document.compiles hd⟩
    rw [hd.field_contentWidth, hwidth]
  · rintro e drawn _ w he ⟨d, rfl, hd, hwidth⟩ hrun
    obtain ⟨d', rfl, hd', hwidth'⟩ := Edit.run_compilable he hd hrun
    exact ⟨d', rfl, hd', hwidth'.trans hwidth⟩
  · exact List.forall_mem_singleton.mpr ⟨c, rfl, hc, rfl⟩

/-- A campaign with an odd width, an empty section and a product of odd values. -/
def odd : Fields := Fields.named [
  ("layout", .map (Fields.named [("content_width", .int (-560))])), ("hero", .null),
  ("products", .list [.map (Fields.named [("render_mode", .list []), ("name", .int 7)])])]

theorem versions_compile_odd :
    let steps : List Step := [⟨none, .edit (.add none)⟩,
      ⟨some 0, .edit (.update (.int 0) (.text "pricing_mode") (.map []))⟩, ⟨none, .edit .escape⟩,
      ⟨some 1, .edit .resolve⟩, ⟨none, .edit (.remove (.int 2))⟩]
    let last := ((start (.map odd)).run Text.ofNat steps).1
    Config.Compilable odd ∧ (∀ step ∈ steps, ∀ e, step.action = .edit e → e.Admitted) ∧
      last.versions.length = 5 ∧ ∀ v ∈ last.versions, ∃ d r,
        v = .map d ∧ Config.Compilable d ∧ Config.resolve v = .ok r ∧
        (r.look "layout").field "content_width" = .ok (.int (-560)) ∧ Document.Compiles v := by
  intro steps last
  have hodd : Config.Compilable odd := by
    have hlook : odd.look "products" =
        .list ([Fields.named [("render_mode", .list []), ("name", .int 7)]].map .map) := rfl
    refine ⟨⟨by decide, .inr ⟨_, hlook⟩, by decide⟩, ⟨?_, .inr ⟨_, hlook⟩⟩, by decide,
      ⟨.int (-560), rfl, Number.moderate_of_small (by decide)⟩⟩
    intro key hk
    simp only [Config.sectionNames, List.mem_cons, List.not_mem_nil, or_false] at hk
    rcases hk with rfl | rfl | rfl | rfl | rfl
    exacts [.inr ⟨_, rfl⟩, .inl rfl, .inl rfl, .inl rfl, .inl rfl]
  have hsteps : ∀ step ∈ steps, ∀ e, step.action = .edit e → e.Admitted := by
    simp [steps, Edit.Admitted, Edit.Ordinary]
  exact ⟨hodd, hsteps, rfl, versions_compile.2 odd Text.ofNat steps hodd hsteps⟩

end Session

end Mailshot
