import Mailshot.Proofs.Pixels

/-!
# Widths grow

A wider content never has narrower images, and a larger tier has none either.  Every step of a width
keeps order, however far it is from exact: integers beyond the precision share a width with their
neighbours, but never change places with them.

* `Width.pixels_mono`, `Width.pixels_mono_scale` — the pixels of a length grow with it, and with its
  scale.
* `Width.image_mono`, `Width.image_between` — the width of an image grows with the content, and there is
  one wherever there is one on both sides.
* `Width.least?` — the contents from which on the scales keep order.
* **`Width.imageOf_rises`** — the widths of images grow with the content, and with the tier.
-/

namespace Mailshot

open Binary64

/-! ## Numbers from a bound on -/

/-- Whether a number is at least an integer. -/
def Number.AtLeast (bound : ℤ) : Number → Prop
  | .int i => bound ≤ i
  | .float (.nan _) => False
  | .float (.infinite negative) => negative = false
  | .float (.finite s m e h) => (bound : ℚ) ≤ (Binary64.finite s m e h).value

namespace Number

variable {m : Number} {x : Binary64}

/-- A number that is not negative is none in double precision. -/
lemma le_value_of_toBinary64? (h : m.toBinary64? = some x) (hx : x.isFinite = true)
    (hm : m.AtLeast 0) : 0 ≤ x.value := by
  cases m with
  | int i =>
      obtain ⟨hrange, rfl⟩ := toBinary64?_int.mp h
      rw [value_ofRat hrange]
      exact rounded_nonneg (by exact_mod_cast hm)
  | float y =>
      cases h
      cases x <;> cases hx
      exact_mod_cast hm

/-- Half of what is at least forty is at least twenty. -/
lemma le_value_of_half? (h : m.half? = some x) (hx : x.isFinite = true) (hm : m.AtLeast 40) :
    20 ≤ x.value := by
  have hkept : rounded 20 = 20 := by
    have hint := rounded_int (i := 20) (by norm_num)
    exact_mod_cast hint
  rw [← hkept]
  cases m with
  | int i =>
      obtain ⟨hrange, rfl⟩ := half?_int.mp h
      have hi : (40 : ℚ) ≤ i := by exact_mod_cast (show (40 : ℤ) ≤ i from hm)
      rw [value_ofRat hrange]
      exact rounded_mono (by linarith)
  | float y =>
      cases h
      have hy := isFinite_of_mul hx
      have hrange := Width.abs_scaled_lt (y := half) y (by rw [half_spec.2]; norm_num)
      have hle : (40 : ℚ) ≤ y.value := by
        cases y <;> cases hy
        exact_mod_cast hm
      rw [value_mul hy half_spec.1 hrange, half_spec.2]
      exact rounded_mono (by linarith)

end Number

namespace Width

variable {l l' s s' : ℚ} {w₁ w w₂ n₁ n₂ n n' : ℤ} {template content v : Value} {t : Template}
  {tier : Tier}

/-! ## Steps that keep order -/

/-- A greater product has no fewer pixels. -/
lemma pixels_le_pixels (h : l * s ≤ l' * s') : pixels l s ≤ pixels l' s' := by
  have hraised : rounded (l * s) + 1 / 2 ≤ rounded (l' * s') + 1 / 2 := by
    linarith [rounded_mono h]
  exact Int.floor_le_floor (rounded_mono hraised)

/-- The pixels of a length grow with it. -/
lemma pixels_mono (hs : 0 ≤ s) (h : l ≤ l') : pixels l s ≤ pixels l' s :=
  pixels_le_pixels (mul_le_mul_of_nonneg_right h hs)

/-- And with its scale. -/
lemma pixels_mono_scale (hl : 0 ≤ l) (h : s ≤ s') : pixels l s ≤ pixels l s' :=
  pixels_le_pixels (mul_le_mul_of_nonneg_left h hl)

/-! ## Growing with the content -/

/-- **The width of an image** grows with the content. -/
theorem image_mono (hw : w₁ ≤ w₂) (h₁ : image t (.int w₁) tier = .ok n₁)
    (h₂ : image t (.int w₂) tier = .ok n₂) : n₁ ≤ n₂ := by
  have hcast : (w₁ : ℚ) ≤ w₂ := Int.cast_le.mpr hw
  cases t with
  | classic =>
      obtain ⟨-, rfl⟩ := grid_int_eq_ok.mp h₁
      obtain ⟨-, rfl⟩ := grid_int_eq_ok.mp h₂
      have hhalf : rounded ((w₁ : ℚ) / 2) ≤ rounded ((w₂ : ℚ) / 2) := rounded_mono (by linarith)
      exact pixels_mono (gridScale_nonneg tier) (rounded_mono (by linarith))
  | modern =>
      cases h₁
      cases h₂
      exact le_rfl
  | banner =>
      obtain ⟨-, rfl⟩ := banner_int_eq_ok.mp h₁
      obtain ⟨-, rfl⟩ := banner_int_eq_ok.mp h₂
      exact pixels_mono (bannerScale_nonneg tier) (rounded_mono hcast)

/-- What lies between two rationals in range is in range. -/
lemma abs_lt_of_between {p q r b : ℚ} (hp : |p| < b) (hr : |r| < b) (hpq : p ≤ q) (hqr : q ≤ r) :
    |q| < b := by
  rw [abs_lt] at hp hr ⊢
  constructor <;> linarith

/-- **There is a width between two widths.** -/
theorem image_between (hw₁ : w₁ ≤ w) (hw₂ : w ≤ w₂) (h₁ : image t (.int w₁) tier = .ok n₁)
    (h₂ : image t (.int w₂) tier = .ok n₂) : ∃ n, image t (.int w) tier = .ok n := by
  have hcast₁ : (w₁ : ℚ) ≤ w := Int.cast_le.mpr hw₁
  have hcast₂ : (w : ℚ) ≤ w₂ := Int.cast_le.mpr hw₂
  cases t with
  | classic =>
      obtain ⟨hrange₁, -⟩ := grid_int_eq_ok.mp h₁
      obtain ⟨hrange₂, -⟩ := grid_int_eq_ok.mp h₂
      have hrange := abs_lt_of_between (q := (w : ℚ) / 2) hrange₁ hrange₂ (by linarith) (by linarith)
      exact ⟨_, grid_int_eq_ok.mpr ⟨hrange, rfl⟩⟩
  | modern => exact ⟨_, rfl⟩
  | banner =>
      obtain ⟨hrange₁, -⟩ := banner_int_eq_ok.mp h₁
      obtain ⟨hrange₂, -⟩ := banner_int_eq_ok.mp h₂
      exact ⟨_, banner_int_eq_ok.mpr ⟨abs_lt_of_between hrange₁ hrange₂ hcast₁ hcast₂, rfl⟩⟩

/-! ## Growing with the tier -/

/-- The content from which on a larger tier has no narrower images, if there is a least one. -/
def least? : Template → Option ℤ
  | .classic => some 40
  | .modern => none
  | .banner => some 0

/-- **The width of an image** grows with the tier. -/
theorem image_tiers (hm : ∀ bound ∈ least? t, ∀ m ∈ content.number?, m.AtLeast bound) :
    Tier.all.Pairwise fun tier tier' => ∀ n n', image t content tier = .ok n →
      image t content tier' = .ok n' → n ≤ n' := by
  cases t with
  | classic =>
      have hscales : Tier.all.Pairwise fun tier tier' =>
          (gridScale tier).value ≤ (gridScale tier').value := by
        norm_num [Tier.all, value_gridScale]
      refine hscales.imp fun hscale n n' h h' => ?_
      obtain ⟨m, x, hnumber, hx, hfinite, rfl⟩ := grid_eq_ok.mp h
      obtain ⟨m', x', hnumber', hx', -, rfl⟩ := grid_eq_ok.mp h'
      obtain rfl := Option.some.inj (hnumber.symm.trans hnumber')
      obtain rfl := Option.some.inj (hx.symm.trans hx')
      have hcolumn := Number.le_value_of_half? hx hfinite (hm 40 rfl m hnumber)
      exact pixels_mono_scale (rounded_nonneg (by linarith)) hscale
  | modern =>
      have hsizes : Tier.all.Pairwise fun tier tier' => list tier ≤ list tier' := by decide
      refine hsizes.imp fun hsize n n' h h' => ?_
      cases h
      cases h'
      exact hsize
  | banner =>
      have hscales : Tier.all.Pairwise fun tier tier' =>
          (bannerScale tier).value ≤ (bannerScale tier').value := by
        norm_num [Tier.all, value_bannerScale]
      refine hscales.imp fun hscale n n' h h' => ?_
      obtain ⟨m, x, hnumber, hx, hfinite, rfl⟩ := banner_eq_ok.mp h
      obtain ⟨m', x', hnumber', hx', -, rfl⟩ := banner_eq_ok.mp h'
      obtain rfl := Option.some.inj (hnumber.symm.trans hnumber')
      obtain rfl := Option.some.inj (hx.symm.trans hx')
      exact pixels_mono_scale (Number.le_value_of_toBinary64? hx hfinite (hm 0 rfl m hnumber)) hscale

/-! ## Templates by name -/

lemma imageOf_eq_ok : (imageOf v content tier).outcome = .ok n ↔
    ∃ t, (Template.ofValue v).outcome = .ok t ∧ image t content tier = .ok n := by
  simp only [imageOf, Report.outcome_bind, Report.outcome_lift, bind_eq_ok]

/-- **The widths of images grow.**  Whatever template and tier are named, the width of an image grows
with an integer content, and there is one wherever there is one on both sides.  And at one content,
which must not be too narrow for its template, it grows with the tier. -/
theorem imageOf_rises :
    (∀ (template tier : Value) (w₁ w₂ n₁ n₂ : ℤ), w₁ ≤ w₂ →
      (imageOf template (.int w₁) (Tier.ofValue tier)).outcome = .ok n₁ →
      (imageOf template (.int w₂) (Tier.ofValue tier)).outcome = .ok n₂ →
      n₁ ≤ n₂ ∧ ∀ w, w₁ ≤ w → w ≤ w₂ →
        ∃ n, (imageOf template (.int w) (Tier.ofValue tier)).outcome = .ok n) ∧
    ∀ (template content : Value) (t : Template), (Template.ofValue template).outcome = .ok t →
      (∀ bound ∈ least? t, ∀ m ∈ content.number?, m.AtLeast bound) →
      Tier.all.Pairwise fun tier tier' => ∀ n n',
        (imageOf template content tier).outcome = .ok n →
        (imageOf template content tier').outcome = .ok n' → n ≤ n' := by
  constructor
  · intro template tier w₁ w₂ n₁ n₂ hw h₁ h₂
    obtain ⟨t, ht, hn₁⟩ := imageOf_eq_ok.mp h₁
    obtain ⟨t', ht', hn₂⟩ := imageOf_eq_ok.mp h₂
    obtain rfl := Except.ok.inj (ht.symm.trans ht')
    refine ⟨image_mono hw hn₁ hn₂, fun w hw₁ hw₂ => ?_⟩
    obtain ⟨n, hn⟩ := image_between hw₁ hw₂ hn₁ hn₂
    exact ⟨n, imageOf_eq_ok.mpr ⟨t, ht, hn⟩⟩
  · intro template content t ht hm
    refine (image_tiers hm).imp fun himage n n' h h' => ?_
    obtain ⟨u, hu, hn⟩ := imageOf_eq_ok.mp h
    obtain ⟨u', hu', hn'⟩ := imageOf_eq_ok.mp h'
    obtain rfl := Except.ok.inj (ht.symm.trans hu)
    obtain rfl := Except.ok.inj (ht.symm.trans hu')
    exact himage n n' hn hn'

/-- Banners of contents beyond the precision, and the tiers of a narrow grid by a name that is
unknown. -/
theorem imageOf_rises_huge :
    (∃ n₁ n₂ n, (imageOf (.text "banner") (.int (2 ^ 60)) (Tier.ofValue (.text "medium"))).outcome
        = .ok n₁ ∧
      (imageOf (.text "banner") (.int (2 ^ 60 + 200)) (Tier.ofValue (.text "medium"))).outcome
        = .ok n₂ ∧ n₁ ≤ n₂ ∧
      (imageOf (.text "banner") (.int (2 ^ 60 + 1)) (Tier.ofValue (.text "medium"))).outcome
        = .ok n) ∧
    ∃ n n', (imageOf (.text "zine") (.int 41) .small).outcome = .ok n ∧
      (imageOf (.text "zine") (.int 41) .medium).outcome = .ok n' ∧ n ≤ n' := by
  obtain ⟨hcontents, htiers⟩ := imageOf_rises
  constructor
  · have h₁ := eq_ok_of_isOk (x := (imageOf (.text "banner") (.int (2 ^ 60))
      (Tier.ofValue (.text "medium"))).outcome) (by decide +kernel)
    have h₂ := eq_ok_of_isOk (x := (imageOf (.text "banner") (.int (2 ^ 60 + 200))
      (Tier.ofValue (.text "medium"))).outcome) (by decide +kernel)
    obtain ⟨hle, hbetween⟩ := hcontents _ _ _ _ _ _ (by norm_num) h₁ h₂
    obtain ⟨n, hn⟩ := hbetween (2 ^ 60 + 1) (by norm_num) (by norm_num)
    exact ⟨_, _, n, h₁, h₂, hle, hn⟩
  · have htemplate : (Template.ofValue (.text "zine")).outcome = .ok .classic := by rfl
    have hwide : ∀ bound ∈ least? .classic, ∀ m ∈ (Value.int 41).number?, m.AtLeast bound := by
      rintro _ ⟨⟩ _ ⟨⟩
      exact (by decide : (40 : ℤ) ≤ 41)
    have hpairs := htiers (.text "zine") (.int 41) .classic htemplate hwide
    have hsmall := eq_ok_of_isOk (x := (imageOf (.text "zine") (.int 41) .small).outcome)
      (by decide +kernel)
    have hmedium := eq_ok_of_isOk (x := (imageOf (.text "zine") (.int 41) .medium).outcome)
      (by decide +kernel)
    have hfirst := (List.pairwise_cons.mp hpairs).1 .medium (by decide)
    exact ⟨_, _, hsmall, hmedium, hfirst _ _ hsmall hmedium⟩

end Width

end Mailshot
