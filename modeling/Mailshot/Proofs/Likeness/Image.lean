import Mailshot.Proofs.Singles

/-!
# A configuration beside what was made of it

What is compiled is seldom the configuration itself: its texts are escaped, its sets stand in another
order.  Such a change reaches into every value, and yet the compiler decides about the new configuration
as it did about the old one.  What a change must keep for that is said here once.

* `Likeness.Keeps` — a change of values that keeps all that the compiler decides by.
* `Likeness.Keeps.fields`, `Likeness.Keeps.field`, `Likeness.Keeps.item` — what it keeps of sections and
  products.
* **`Likeness.Keeps.config`** — the new configuration is compiled like the old one, if the values that
  show compare.
-/

namespace Mailshot

open Text

/-- Mappings that hold something under the same names, changed. -/
def Fields.Beside (T : Value → Value → Prop) (f g : Fields) : Prop :=
  ∀ t, Option.Rel T (f.find? (.text t)) (g.find? (.text t))

/-- A change of values that keeps all that the compiler decides by: the truth of a value, the number it
is, what it names and whether it shows, and of a mapping under which names it holds something. -/
structure Likeness.Keeps (T : Value → Value → Prop) : Prop where
  truthy : ∀ {v w : Value}, T v w → v.truthy = w.truthy
  number : ∀ {v w : Value}, T v w → v.number? = w.number?
  name : ∀ {v w : Value} {s : String}, T v w → Unmarked (ofString s) → v.isText s = w.isText s
  shows : ∀ {v w : Value}, T v w → v.isShowable = w.isShowable
  null : T .null .null
  empty : T (.text []) (.text [])
  map : ∀ {v : Value} {g : Fields}, T v (.map g) → ∃ f : Fields, v = .map f ∧ f.Beside T g
  other : ∀ {v w : Value}, T v w → w.asMap = none → v.asMap = none

namespace Fields.Beside

variable {T : Value → Value → Prop} {f g : Fields} {v w : Value}

/-- What is found in the one mapping was found in the other. -/
lemma exists_of_some {t : Text} (h : f.Beside T g) (hw : g.find? (.text t) = some w) :
    ∃ v, f.find? (.text t) = some v ∧ T v w := by
  have hfind := h t
  rw [hw] at hfind
  generalize f.find? (.text t) = x at hfind
  cases hfind with
  | some hvw => exact ⟨_, rfl, hvw⟩

/-- What stands in for what is not found was changed likewise. -/
lemma getD (h : f.Beside T g) (t : Text) (hvw : T v w) :
    T ((f.find? (.text t)).getD v) ((g.find? (.text t)).getD w) := by
  have hfind := h t
  generalize f.find? (.text t) = x at hfind ⊢
  generalize g.find? (.text t) = y at hfind ⊢
  cases hfind with
  | some hab => exact hab
  | none => exact hvw

end Fields.Beside

namespace Likeness.Keeps

variable {T : Value → Value → Prop} {L : Likeness} {v w : Value} {f g r r' : Fields}
  {name : String}

/-! ## What names name -/

lemma template (h : Keeps T) (hvw : T v w) :
    (Template.ofValue v).outcome = (Template.ofValue w).outcome := by
  have hname : Template.ofValue? v = Template.ofValue? w := by
    unfold Template.ofValue?
    congr 1
    funext t
    exact h.name hvw t.name_unmarked
  rw [Template.outcome_ofValue, Template.outcome_ofValue, hname, h.shows hvw]

lemma tier (h : Keeps T) (hvw : T v w) : Tier.ofValue v = Tier.ofValue w := by
  unfold Tier.ofValue Tier.ofValue?
  congr 2
  funext t
  exact h.name hvw t.name_unmarked

/-! ## Mappings -/

/-- What is found under a name, null where nothing is. -/
lemma look (h : Keeps T) (hfg : f.Beside T g) : T (f.look name) (g.look name) := hfg.getD _ h.null

/-- Or the empty text. -/
lemma shown (h : Keeps T) (hfg : f.Beside T g) : T (f.shown name) (g.shown name) :=
  hfg.getD _ h.empty

/-- The fields of a value that should be a mapping. -/
lemma fields (h : Keeps T) (hvw : T v w) {R : Fields → Fields → Prop}
    (hR : ∀ f g : Fields, w = .map g → f.Beside T g → R f g) : Outcome.Alike L.loose R v.fields w.fields := by
  cases hw : w.asMap with
  | none =>
      rw [Value.fields_eq_error (h.other hvw hw), Value.fields_eq_error hw]
      exact .fault _
  | some g =>
      obtain rfl := Value.asMap_eq_some.mp hw
      obtain ⟨f, rfl, hfg⟩ := h.map hvw
      exact .ok (hR f g rfl hfg)

/-- A field that must be there. -/
lemma field (h : Keeps T) (hvw : T v w) {R : Value → Value → Prop}
    (hR : ∀ a b, w.field name = .ok b → T a b → R a b) :
    Outcome.Alike L.loose R (v.field name) (w.field name) := by
  cases hw : w.asMap with
  | none =>
      rw [Value.field_eq_error (h.other hvw hw), Value.field_eq_error hw]
      exact .fault _
  | some g =>
      obtain rfl := Value.asMap_eq_some.mp hw
      obtain ⟨f, rfl, hfg⟩ := h.map hvw
      have hfind := hfg (ofString name)
      unfold Value.field at hR ⊢
      dsimp only at hR ⊢
      generalize f.find? (.text (ofString name)) = x at hfind ⊢
      generalize g.find? (.text (ofString name)) = y at hfind hR ⊢
      cases hfind with
      | some hab => exact .ok (hR _ _ rfl hab)
      | none => exact .fault _

/-! ## Products -/

/-- The prices that show, if they compare. -/
lemma priced (h : Keeps T) {p q : Fields} (hpq : p.Beside T q)
    (hshown : ∀ name ∈ Product.texts, L.same (p.shown name) (q.shown name)) :
    Option.Rel (fun a b => (L.loose ∨ a.1 = b.1) ∧ L.same a.2 b.2)
      (Product.priced? p) (Product.priced? q) := by
  have hmode : Product.Pricing.ofProduct p = Product.Pricing.ofProduct q := by
    unfold Product.Pricing.ofProduct
    congr 2
    funext mode
    exact h.name (h.look hpq) mode.name_unmarked
  unfold Product.priced?
  rw [hmode]
  cases Product.Pricing.ofProduct q with
  | hidden => exact .none
  | discount => exact .some ⟨.inr rfl, hshown _ (by decide)⟩
  | standard => exact .some ⟨.inr rfl, hshown _ (by decide)⟩

/-- **A product** beside what was made of it. -/
theorem item (h : Keeps T) {p q : Fields} (hpq : p.Beside T q)
    (hshown : ∀ name ∈ Product.texts, L.same (p.shown name) (q.shown name)) : L.Item p q where
  imageOnly := h.name (h.look hpq) (by decide)
  image name hn := hshown name (Product.mem_texts_of_image hn)
  words _ := {
    texts := fun name hn => hshown name (Product.mem_texts_of_words hn)
    brand := h.truthy (h.look hpq)
    logo := h.truthy (h.look hpq)
    price := h.priced hpq hshown }

/-! ## Configurations -/

/-- **A configuration beside what was made of it.**  Its texts compare if they are of a kind, which
numbers are of too, and the width of its content is a number. -/
theorem config (h : Keeps T) {K : Value → Prop} (hsame : ∀ {v w : Value}, T v w → K w → L.same v w)
    (hnumber : ∀ {v : Value}, v.number?.isSome = true → K v) (hloose : ¬L.loose)
    (hr : r'.Beside T r) (hs : Config.Texts K r)
    {ps ps' : List Fields} (hp : r.look "products" = .list (ps.map .map))
    (hp' : r'.look "products" = .list (ps'.map .map))
    (hpp : List.Forall₂ (Fields.Beside T) ps' ps) {content : Value} (hc : (r.look "layout").field "content_width" = .ok content)
    (hn : content.number?.isSome = true) : L.Config r' r := by
  have hcontent : ∀ {v : Value}, T v content → L.Content v content := fun hv =>
    ⟨hsame hv (hnumber hn), .inr (h.number hv)⟩
  have hshown {key : String} {names : List String} (hkey : (key, names) ∈ Section.texts)
      {f g : Fields} (hg : r.look key = .map g) (hfg : f.Beside T g) :
      L.Names names f g := fun name hname =>
    hsame (h.shown hfg) (hs.shown hkey hg hname)
  constructor
  case template =>
    rw [h.template (h.look hr)]
    exact .refl (fun _ => rfl) _
  case layout =>
    obtain ⟨layout, hlayout, hwidth⟩ := Value.field_eq_ok.mp hc
    have hlook : T (r'.look "layout") (r.look "layout") := h.look hr
    rw [hlayout] at hlook ⊢
    obtain ⟨f, hf, hfg⟩ := h.map hlook
    obtain ⟨v, hv, hvw⟩ := hfg.exists_of_some hwidth
    rw [hf, Layout.ofValue_map hv, Layout.ofValue_map hwidth]
    exact .ok ⟨.inr (h.tier (h.look hfg)), hcontent hvw⟩
  case content =>
    exact h.field (h.look hr) fun v w hw hv => by
      obtain rfl := Except.ok.inj (hc.symm.trans hw)
      exact hcontent hv
  case size => exact h.field (h.look hr) fun v w _ hv => .inr (h.shows hv)
  case theme =>
    refine h.fields (h.look hr) fun f g hg hfg a ha b _ hab => ?_
    obtain rfl := hab.resolve_left hloose
    exact hshown Section.theme_texts hg hfg a ha
  case ground =>
    exact h.field (h.look hr) fun v w hw hv => hsame hv (hs.field Section.theme_texts hw (by decide))
  case company =>
    refine h.fields (h.look hr) fun f g hg hfg => ⟨?_, h.truthy (h.look hfg)⟩
    exact hshown (by decide) hg hfg
  case hero =>
    refine h.fields (h.look hr) fun f g hg hfg => ⟨h.truthy (h.look hfg), fun _ => ?_⟩
    exact hshown (by decide) hg hfg
  case footer => exact h.fields (h.look hr) fun f g hg hfg => hshown (by decide) hg hfg
  case products =>
    refine ⟨ps', ps, hp', hp, ?_⟩
    rw [List.forall₂_iff_zip] at hpp ⊢
    refine ⟨hpp.1, fun {p q} hpq => h.item (hpp.2 hpq) fun name hname => ?_⟩
    have hq : q ∈ Config.listed r := Config.listed_of_look hp ▸ (List.of_mem_zip hpq).2
    exact hsame (h.shown (hpp.2 hpq)) (hs.products q hq name hname)

end Likeness.Keeps

end Mailshot
