import Mathlib.Tactic.LinearCombination
import Mailshot.Proofs.Pixels

/-!
# Widths as proportions of the content

A width is meant to be a part of the content, rounded half up.  The parts are no double-precision
numbers, and every step on the way is rounded; for contents of up to forty bits that makes no
difference, save for a small banner.  There the product of the content and its scale stands too low
for a half, wherever the content is an odd multiple of five in the upper part of a binade.

* `Width.gridPart`, `Width.bannerPart` — the parts that the tiers stand for.
* `Width.pixels_eq_of_apart` — away from the halves, small errors do not count.
* `Width.rounded_half` — a scale that is near enough to its part meets the halves.
* **`Width.grid_of_int`** — the widths in the grid are the exact ones, rounded half up.
* `Width.FallsShort` — the contents whose small banner loses its half.
* **`Width.banner_of_int`** — the widths of banners are the exact ones, less one pixel for just those.
-/

namespace Mailshot.Width

open Binary64

/-! ## The parts that tiers stand for -/

/-- The part of half the content, less the gutter, that an image in the grid takes. -/
def gridPart : Tier → ℚ
  | .small => 3 / 5
  | .medium => 4 / 5
  | .large => 1

/-- The part of the content that the image of a banner takes. -/
def bannerPart : Tier → ℚ
  | .small => 7 / 10
  | .medium => 17 / 20
  | .large => 1

/-- The scales of the grid are the parts, as near as it gets. -/
lemma gridScale_near (tier : Tier) : 0 < (gridScale tier).value ∧
    |(gridScale tier).value - gridPart tier| ≤ (gridScale tier).value / 2 ^ 54 := by
  cases tier <;> norm_num [value_gridScale, gridPart, abs_le]

/-- And so are those of banners, but for the small one. -/
lemma bannerScale_near {tier : Tier} (h : tier ≠ .small) : 0 < (bannerScale tier).value ∧
    |(bannerScale tier).value - bannerPart tier| ≤ (bannerScale tier).value / 2 ^ 54 := by
  cases tier with
  | small => exact absurd rfl h
  | medium | large => norm_num [value_bannerScale, bannerPart, abs_le]

/-! ## Away from the halves -/

variable {l s σ q q' : ℚ} {z m : ℤ}

/-- Numbers of up to forty-two bits are moved only a little. -/
lemma abs_rounded_sub_le (h : |q| < 2 ^ 42) : |rounded q - q| ≤ 1 / 2 ^ 12 := by
  rcases (abs_nonneg q).eq_or_lt with hzero | hpos
  · rw [abs_eq_zero.mp hzero.symm, rounded_zero]
    norm_num
  · have hplace : place |q| ≤ -11 := place_le hpos (by norm_num) (by norm_num; exact h)
    calc |rounded q - q| = |(nearest (|q|)) - (|q|)| := abs_rounded_sub q
      _ ≤ 2 ^ place |q| / 2 := abs_nearest_sub_le (abs_nonneg q)
      _ ≤ 2 ^ (-11 : ℤ) / 2 := by gcongr; norm_num
      _ = 1 / 2 ^ 12 := by norm_num

/-- Near a number of twentieths that is no whole number, all numbers have the same floor. -/
lemma floor_eq_of_near (hz : 20 * q = z) (hwhole : z % 20 ≠ 0) (h : |q' - q| < 1 / 20) :
    ⌊q'⌋ = ⌊q⌋ := by
  have hdiv : (z : ℚ) = 20 * (z / 20 : ℤ) + (z % 20 : ℤ) := by
    exact_mod_cast (Int.mul_ediv_add_emod z 20).symm
  have hlow : (1 : ℚ) ≤ (z % 20 : ℤ) := by
    have : 1 ≤ z % 20 := by omega
    exact_mod_cast this
  have hhigh : ((z % 20 : ℤ) : ℚ) ≤ 19 := by
    have : z % 20 ≤ 19 := by omega
    exact_mod_cast this
  rw [abs_lt] at h
  have hq : ⌊q⌋ = z / 20 := by
    rw [Int.floor_eq_iff]
    constructor <;> linarith
  rw [hq, Int.floor_eq_iff]
  constructor <;> linarith

/-- **Away from the halves**, the errors of all steps together do not count. -/
theorem pixels_eq_of_apart (hl : |l| ≤ 2 ^ 40) (hs : |s| ≤ 1) (hσ : |s - σ| ≤ 1 / 2 ^ 53)
    (hz : 20 * (l * σ + 1 / 2) = z) (hapart : z % 20 ≠ 0) : pixels l s = ⌊l * σ + 1 / 2⌋ := by
  have hproduct : |l * s| ≤ 2 ^ 40 := by
    rw [abs_mul]
    exact (mul_le_of_le_one_right (abs_nonneg l) hs).trans hl
  have hscale : |l * s - l * σ| ≤ 1 / 2 ^ 13 := by
    calc |l * s - l * σ| = |l| * |s - σ| := by rw [← abs_mul, mul_sub]
      _ ≤ 2 ^ 40 * (1 / 2 ^ 53) := by gcongr
      _ = 1 / 2 ^ 13 := by norm_num
  have hfirst := abs_rounded_sub_le (q := l * s) (by linarith)
  rw [abs_le] at hproduct hscale hfirst
  have hsecond := abs_rounded_sub_le (q := rounded (l * s) + 1 / 2) (by
    rw [abs_lt]
    constructor <;> linarith)
  rw [abs_le] at hsecond
  refine floor_eq_of_near hz hapart ?_
  rw [abs_lt]
  constructor <;> linarith

/-! ## At the halves -/

/-- **A scale that is near enough to its part** meets every half: the product is rounded to it. -/
theorem rounded_half (hl : |l| ≤ 2 ^ 40) (hs : 0 < s ∧ |s| ≤ 1) (hσ : |s - σ| ≤ s / 2 ^ 54)
    (hz : 2 * (l * σ) = z) : rounded (l * s) = l * σ := by
  have hpart : 0 < σ := by
    rw [abs_le] at hσ
    have hsmall : s / 2 ^ 54 < s := div_lt_self hs.1 (by norm_num)
    linarith
  -- on the positive side first, since rounding is the same on both
  have hpositive {l : ℚ} {z : ℤ} (hl : 0 < l) (hle : l ≤ 2 ^ 40) (hz : 2 * (l * σ) = z) :
      rounded (l * s) = l * σ := by
    have hproduct : 0 < l * s := mul_pos hl hs.1
    have hsmall : l * s ≤ 2 ^ 40 :=
      (mul_le_of_le_one_right hl.le ((le_abs_self s).trans hs.2)).trans hle
    have hplace : place (l * s) ≤ -2 := place_le hproduct (by norm_num) (by norm_num; linarith)
    obtain ⟨n, rfl⟩ : ∃ n : ℕ, z = n := by
      refine ⟨z.toNat, (Int.toNat_of_nonneg ?_).symm⟩
      have hcast : (0 : ℚ) < z := by
        rw [← hz]
        positivity
      exact_mod_cast hcast.le
    have hhalf : l * σ = n * 2 ^ (-1 : ℤ) := by
      rw [zpow_neg_one]
      push_cast at hz
      linarith
    have hunit := units_lt hproduct
    have hpos : (0 : ℚ) < 2 ^ place (l * s) := by positivity
    rw [zpow_neg, ← div_eq_mul_inv, div_lt_iff₀ hpos] at hunit
    rw [rounded_of_nonneg hproduct.le, hhalf]
    refine nearest_eq_of_near hproduct.le (by omega) ?_
    rw [← hhalf]
    calc |l * s - l * σ| = l * |s - σ| := by rw [← mul_sub, abs_mul, abs_of_pos hl]
      _ ≤ l * (s / 2 ^ 54) := by gcongr
      _ = l * s / 2 ^ 54 := by ring
      _ ≤ 2 ^ place (l * s) / 2 := by linarith
  rw [abs_le] at hl
  rcases lt_trichotomy l 0 with hneg | rfl | hpos
  · have hmirror := hpositive (l := -l) (z := -z) (by linarith) (by linarith) (by
      push_cast
      linarith)
    rw [neg_mul, neg_mul, rounded_neg] at hmirror
    linarith
  · simp
  · exact hpositive hpos hl.2 hz

/-- One half more than such a half is a whole number, which is kept. -/
lemma pixels_eq_of_half (hm : l * σ + 1 / 2 = m) (hsmall : |m| < 2 ^ 52)
    (h : rounded (l * s) = l * σ) : pixels l s = ⌊l * σ + 1 / 2⌋ := by
  rw [pixels, h, hm, rounded_int hsmall]

/-- **The pixels of a length** whose scale is near enough to its part. -/
theorem pixels_eq (hl : |l| ≤ 2 ^ 40) (hs : 0 < s ∧ |s| ≤ 1) (hσ : |s - σ| ≤ s / 2 ^ 54)
    (hz : 20 * (l * σ + 1 / 2) = z) : pixels l s = ⌊l * σ + 1 / 2⌋ := by
  have hunit : |s - σ| ≤ 1 / 2 ^ 53 := by
    have hle := (le_abs_self s).trans hs.2
    linarith
  by_cases hwhole : z % 20 = 0
  · obtain ⟨m, rfl⟩ := Int.dvd_of_emod_eq_zero hwhole
    have hm : l * σ + 1 / 2 = m := by
      push_cast at hz
      linarith
    have hhalf := rounded_half (z := 2 * m - 1) hl hs hσ (by
      push_cast
      linarith)
    refine pixels_eq_of_half hm ?_ hhalf
    have hproduct : |l * σ| ≤ 2 ^ 41 := by
      have hpart : |σ| ≤ 2 := by
        rw [abs_le] at hσ hs ⊢
        constructor <;> linarith
      calc |l * σ| = |l| * |σ| := abs_mul l σ
        _ ≤ 2 ^ 40 * 2 := by gcongr
        _ = 2 ^ 41 := by norm_num
    have hcast : |(m : ℚ)| < 2 ^ 52 := by
      rw [abs_le] at hproduct
      rw [abs_lt, ← hm]
      constructor <;> linarith
    exact_mod_cast hcast
  · exact pixels_eq_of_apart hl hs.2 hunit hz hwhole

/-! ## The grid -/

/-- The content of the grid is halved, and loses its gutter, without an error. -/
lemma column_of_int {w : ℤ} (hw : |w| ≤ 2 ^ 40) :
    rounded (rounded ((w : ℚ) / 2) - 20) = ((w : ℚ) - 40) / 2 := by
  have hcolumn : (w : ℚ) / 2 - 20 = ((w - 40 : ℤ) : ℚ) / 2 := by
    push_cast
    ring
  rw [abs_le] at hw
  rw [rounded_half_int (by rw [abs_lt]; omega), hcolumn,
    rounded_half_int (by rw [abs_lt]; omega)]
  push_cast
  ring

/-- What the tiers make of a column, in twentieths of a pixel. -/
lemma twentieths_of_column (tier : Tier) (w : ℤ) :
    ∃ z : ℤ, 20 * (((w : ℚ) - 40) / 2 * gridPart tier + 1 / 2) = z := by
  cases tier with
  | small => exact ⟨6 * (w - 40) + 10, by push_cast [gridPart]; ring⟩
  | medium => exact ⟨8 * (w - 40) + 10, by push_cast [gridPart]; ring⟩
  | large => exact ⟨10 * (w - 40) + 10, by push_cast [gridPart]; ring⟩

/-- An integer of up to forty bits, as a rational. -/
lemma abs_cast_le {w : ℤ} (hw : |w| ≤ 2 ^ 40) : |(w : ℚ)| ≤ 2 ^ 40 := by exact_mod_cast hw

/-- It is in range. -/
lemma abs_cast_lt_overflow {w : ℤ} (hw : |w| ≤ 2 ^ 40) : |(w : ℚ)| < overflow := by
  refine lt_overflow ((abs_cast_le hw).trans ?_)
  calc (2 : ℚ) ^ 40 = 2 ^ (40 : ℤ) := by norm_num
    _ ≤ topPower := zpow_le_zpow_right₀ one_le_two (by norm_num)

/-- **The widths in the grid are exact.**  For every content of up to forty bits, an image takes the
part of its column that its tier stands for, rounded half up. -/
theorem grid_of_int (tier : Value) {w : ℤ} (hw : |w| ≤ 2 ^ 40) :
    grid (.int w) (Tier.ofValue tier) =
      .ok ⌊((w : ℚ) - 40) / 2 * gridPart (Tier.ofValue tier) + 1 / 2⌋ := by
  have hlength := abs_cast_le hw
  have hrange : |(w : ℚ) / 2| < overflow := by
    rw [abs_div, abs_two]
    linarith [abs_cast_lt_overflow hw, abs_nonneg (w : ℚ)]
  have hcolumn : |((w : ℚ) - 40) / 2| ≤ 2 ^ 40 := by
    rw [abs_le] at hlength ⊢
    constructor <;> linarith
  obtain ⟨z, hz⟩ := twentieths_of_column (Tier.ofValue tier) w
  obtain ⟨hpos, hnear⟩ := gridScale_near (Tier.ofValue tier)
  refine grid_int_eq_ok.mpr ⟨hrange, ?_⟩
  rw [column_of_int hw]
  exact pixels_eq hcolumn ⟨hpos, (gridScale_spec _).2⟩ hnear hz

/-- A small image in a column of half pixels, beside a negative width. -/
theorem grid_of_int_odd :
    grid (.int 645) (Tier.ofValue (.text "small")) = .ok 182 ∧
    grid (.int (-105)) (Tier.ofValue .null) = .ok (-72) := by
  have hsmall := grid_of_int (.text "small") (w := 645) (by decide)
  have hlarge := grid_of_int .null (w := -105) (by decide)
  rw [show Tier.ofValue (.text "small") = .small by rfl] at hsmall ⊢
  rw [show Tier.ofValue .null = .large by rfl] at hlarge ⊢
  norm_num [gridPart] at hsmall hlarge
  exact ⟨hsmall, hlarge⟩

/-! ## Banners -/

/-- The contents of a small banner whose half is lost: the odd multiples of five in the upper part of a
binade, from five halves of a power of two to twenty sevenths of it. -/
def FallsShort (tier : Tier) (w : ℤ) : Prop :=
  tier = .small ∧ w % 10 = 5 ∧ ∃ k : ℕ, 5 * 2 ^ k < 2 * w ∧ 7 * w < 20 * 2 ^ k

/-- There is no need to look beyond the length of the content. -/
lemma fallsShort_iff {tier : Tier} {w : ℤ} : FallsShort tier w ↔ tier = .small ∧ w % 10 = 5 ∧
    ∃ k < w.toNat.log2 + 1, 5 * 2 ^ k < 2 * w ∧ 7 * w < 20 * 2 ^ k := by
  refine and_congr_right fun _ => and_congr_right fun _ => exists_congr fun k => ?_
  refine (and_iff_right_of_imp fun ⟨hlow, _⟩ => ?_).symm
  have hpow : (0 : ℤ) < 2 ^ k := by positivity
  have hle : ((2 ^ k : ℕ) : ℤ) ≤ w := by
    push_cast
    omega
  have hlog : k ≤ w.toNat.log2 := (Nat.le_log2 (by omega)).mpr (by omega)
  omega

instance (tier : Tier) (w : ℤ) : Decidable (FallsShort tier w) :=
  decidable_of_iff' _ fallsShort_iff

/-- What the tiers make of a content, in twentieths of a pixel. -/
lemma twentieths_of_content (tier : Tier) (w : ℤ) :
    ∃ z : ℤ, 20 * ((w : ℚ) * bannerPart tier + 1 / 2) = z := by
  cases tier with
  | small => exact ⟨14 * w + 10, by push_cast [bannerPart]; ring⟩
  | medium => exact ⟨17 * w + 10, by push_cast [bannerPart]; ring⟩
  | large => exact ⟨20 * w + 10, by push_cast [bannerPart]; ring⟩

section Small

/-! A small banner of an odd multiple of five is meant to have an odd number of half pixels. -/

variable {a c k : ℕ}

lemma unit_eq (k : ℕ) : (2 : ℚ) ^ ((k : ℤ) - 52) = 2 ^ k / 2 ^ 52 := by
  rw [zpow_sub₀ two_ne_zero, zpow_natCast]
  norm_num

lemma units_of_one (hk : k ≤ 52) : (2 : ℚ) ^ (52 - k) * 2 ^ ((k : ℤ) - 52) = 1 := by
  rw [← zpow_natCast, ← zpow_add₀ two_ne_zero, Nat.cast_sub hk]
  simp

lemma unit_lt_one (hk : k ≤ 50) : (2 : ℚ) ^ ((k : ℤ) - 52) < 1 :=
  zpow_lt_one_of_neg₀ one_lt_two (by omega)

/-- The product with the scale is too small by two fifths of a unit for each pixel of the content. -/
lemma product_small (c : ℕ) :
    (c : ℚ) * (bannerScale .small).value = c * (7 / 10) - c * (2 / 5) / 2 ^ 53 := by
  rw [value_bannerScale]
  ring

lemma product_small_nonneg (c : ℕ) : 0 ≤ (c : ℚ) * (bannerScale .small).value :=
  mul_nonneg (Nat.cast_nonneg c) (bannerScale_nonneg .small)

/-- In the upper part of a binade that is more than half of the last place, and the half is lost. -/
lemma rounded_short (hc : c = 10 * a + 5) (hlow : 5 * 2 ^ k < 2 * c) (hhigh : 7 * c < 20 * 2 ^ k)
    (hk : k ≤ 50) : rounded (c * (bannerScale .small).value) =
      c * (7 / 10) - 2 ^ ((k : ℤ) - 52) := by
  have hlow' : 5 * 2 ^ k < 2 * (c : ℚ) := by exact_mod_cast hlow
  have hhigh' : 7 * (c : ℚ) < 20 * 2 ^ k := by exact_mod_cast hhigh
  have hpow : (0 : ℚ) < 2 ^ k := by positivity
  have hbinade : binade (c * (bannerScale .small).value) = k := by
    refine binade_eq ?_ ?_
    · rw [product_small, zpow_natCast]
      linarith
    · rw [product_small, zpow_add_one₀ two_ne_zero, zpow_natCast]
      linarith
  have hplace : place (c * (bannerScale .small).value) = (k : ℤ) - 52 := by
    unfold place
    omega
  have hunits : (c : ℚ) * (7 / 10) - 2 ^ ((k : ℤ) - 52) =
      ((14 * a + 7) * 2 ^ (51 - k) - 1 : ℕ) * 2 ^ ((k : ℤ) - 52) := by
    have hone := units_of_one (k := k) (by omega)
    have hle : 1 ≤ (14 * a + 7) * 2 ^ (51 - k) := Nat.one_le_iff_ne_zero.mpr (by positivity)
    rw [show 52 - k = 51 - k + 1 by omega, pow_succ] at hone
    rw [hc, Nat.cast_sub hle]
    push_cast
    linear_combination (-(14 * (a : ℚ) + 7) / 2) * hone
  rw [rounded_of_nonneg (product_small_nonneg c), hunits, ← hplace]
  refine nearest_eq_of_units (product_small_nonneg c) ?_
  rw [hplace, ← hunits, unit_eq, product_small, abs_lt]
  constructor <;> linarith

/-- Elsewhere it is at most that, and the product is rounded to the half. -/
lemma rounded_met_of_nat (hc : c = 10 * a + 5) (hle : c ≤ 2 ^ 40)
    (h : ¬ ∃ k, 5 * 2 ^ k < 2 * c ∧ 7 * c < 20 * 2 ^ k) :
    rounded (c * (bannerScale .small).value) = c * (7 / 10) := by
  have hle' : (c : ℚ) ≤ 2 ^ 40 := by exact_mod_cast hle
  have hge : (5 : ℚ) ≤ c := by exact_mod_cast (by omega : 5 ≤ c)
  have hproduct := product_small c
  have hpos : 1 ≤ (c : ℚ) * (bannerScale .small).value := by linarith
  obtain ⟨k, hk⟩ : ∃ k : ℕ, binade (c * (bannerScale .small).value) = k := by
    refine ⟨(binade (c * (bannerScale .small).value)).toNat, (Int.toNat_of_nonneg ?_).symm⟩
    have hlt : (2 : ℚ) ^ (0 : ℤ) < 2 ^ (binade (c * (bannerScale .small).value) + 1) :=
      lt_of_le_of_lt (by simpa using hpos) (lt_binade (by linarith))
    have := (zpow_lt_zpow_iff_right₀ one_lt_two).mp hlt
    omega
  have hlow := le_binade (q := c * (bannerScale .small).value) (by linarith)
  have hhigh := lt_binade (q := c * (bannerScale .small).value) (by linarith)
  rw [hk, zpow_natCast] at hlow
  rw [hk, zpow_add_one₀ two_ne_zero, zpow_natCast] at hhigh
  have hsmall : k < 51 := by
    have hlt : (2 : ℚ) ^ k < 2 ^ 51 := by linarith
    exact (pow_lt_pow_iff_right₀ one_lt_two).mp hlt
  have hplace : place (c * (bannerScale .small).value) = (k : ℤ) - 52 := by
    unfold place
    omega
  -- in the lower part: were it in the upper one, the half would be in the next binade
  have hlower : 2 * c ≤ 5 * 2 ^ k := by
    by_contra hupper
    have hnext : 20 * 2 ^ k ≤ 7 * c := by
      by_contra hlt
      exact h ⟨k, by omega, by omega⟩
    have hodd : 4 * 2 ^ k + 1 ≤ 14 * a + 7 := by omega
    have hodd' : (4 : ℚ) * 2 ^ k + 1 ≤ 14 * a + 7 := by exact_mod_cast hodd
    have hcast : (c : ℚ) = 10 * a + 5 := by exact_mod_cast hc
    linarith
  have hlower' : 2 * (c : ℚ) ≤ 5 * 2 ^ k := by exact_mod_cast hlower
  have hhalf : (c : ℚ) * (7 / 10) = (14 * a + 7 : ℕ) * 2 ^ (-1 : ℤ) := by
    rw [hc, zpow_neg_one]
    push_cast
    ring
  rw [rounded_of_nonneg (product_small_nonneg c), hhalf]
  refine nearest_eq_of_near (product_small_nonneg c) (by omega) ?_
  rw [← hhalf, hplace, unit_eq, product_small, abs_le]
  constructor <;> linarith

/-- A whole number less such a unit is kept. -/
lemma rounded_less_unit {m : ℕ} (hm : 0 < m) (hmk : m ≤ 2 ^ (k + 1)) (hk : k ≤ 50) :
    rounded (m - 2 ^ ((k : ℤ) - 52)) = m - 2 ^ ((k : ℤ) - 52) := by
  have hone := units_of_one (k := k) (by omega)
  have hle : 1 ≤ m * 2 ^ (52 - k) := Nat.one_le_iff_ne_zero.mpr (by positivity)
  have hunits : (m : ℚ) - 2 ^ ((k : ℤ) - 52) =
      (m * 2 ^ (52 - k) - 1 : ℕ) * 2 ^ ((k : ℤ) - 52) := by
    rw [Nat.cast_sub hle]
    push_cast
    linear_combination (-(m : ℚ)) * hone
  have hunit := unit_lt_one hk
  have hm' : (1 : ℚ) ≤ m := by exact_mod_cast hm
  have hmk' : (m : ℚ) ≤ 2 ^ (k + 1) := by exact_mod_cast hmk
  have hpos : (0 : ℚ) < 2 ^ ((k : ℤ) - 52) := by positivity
  rw [rounded_of_nonneg (by linarith), hunits]
  refine nearest_eq_self (place_le ?_ (by omega) ?_)
  · rw [← hunits]
    linarith
  · rw [← hunits, show (k : ℤ) - 52 + 53 = (k + 1 : ℕ) by push_cast; ring, zpow_natCast]
    linarith

/-- So where the half is lost, the pixel is lost with it. -/
lemma pixels_short (hc : c = 10 * a + 5) (hlow : 5 * 2 ^ k < 2 * c) (hhigh : 7 * c < 20 * 2 ^ k)
    (hk : k ≤ 50) : pixels c (bannerScale .small).value = 7 * a + 3 := by
  have hcast : (c : ℚ) = 10 * a + 5 := by exact_mod_cast hc
  have hunit : (0 : ℚ) < 2 ^ ((k : ℤ) - 52) := by positivity
  have hunit' := unit_lt_one hk
  -- the sum is just below a whole number
  have hsum : (c : ℚ) * (7 / 10) - 2 ^ ((k : ℤ) - 52) + 1 / 2 =
      (7 * a + 4 : ℕ) - 2 ^ ((k : ℤ) - 52) := by
    rw [hcast]
    push_cast
    ring
  have hkept := rounded_less_unit (m := 7 * a + 4) (k := k) (by omega) (by rw [pow_succ]; omega) hk
  rw [pixels, rounded_short hc hlow hhigh hk, hsum, hkept, Int.floor_eq_iff]
  push_cast
  constructor <;> linarith

/-- Below zero it makes no difference. -/
lemma pixels_neg_short (hc : c = 10 * a + 5) (hlow : 5 * 2 ^ k < 2 * c) (hhigh : 7 * c < 20 * 2 ^ k)
    (hk : k ≤ 50) : pixels (-c) (bannerScale .small).value = -(7 * a + 3) := by
  have hcast : (c : ℚ) = 10 * a + 5 := by exact_mod_cast hc
  have hunit : (0 : ℚ) < 2 ^ ((k : ℤ) - 52) := by positivity
  have hunit' := unit_lt_one hk
  -- the sum is just above a whole number
  have hsum : -((c : ℚ) * (7 / 10) - 2 ^ ((k : ℤ) - 52)) + 1 / 2 =
      -((7 * a + 3 : ℕ) - 2 ^ ((k : ℤ) - 52)) := by
    rw [hcast]
    push_cast
    ring
  have hkept := rounded_less_unit (m := 7 * a + 3) (k := k) (by omega) (by rw [pow_succ]; omega) hk
  rw [pixels, neg_mul, rounded_neg, rounded_short hc hlow hhigh hk, hsum, rounded_neg, hkept,
    Int.floor_eq_iff]
  push_cast
  constructor <;> linarith

end Small

/-- Where the half is not lost, a product is rounded to it, on both sides of zero. -/
lemma rounded_met {w : ℤ} (hw : |w| ≤ 2 ^ 40) (hfive : w % 10 = 5)
    (h : ¬ ∃ k : ℕ, 5 * 2 ^ k < 2 * |w| ∧ 7 * |w| < 20 * 2 ^ k) :
    rounded (w * (bannerScale .small).value) = w * bannerPart .small := by
  obtain ⟨c, hc⟩ : ∃ c : ℕ, |w| = c := ⟨w.natAbs, Int.abs_eq_natAbs w⟩
  rw [hc] at hw h
  obtain ⟨a, ha⟩ : ∃ a, c = 10 * a + 5 := by
    refine ⟨c / 10, ?_⟩
    rcases (abs_eq (Int.natCast_nonneg c)).mp hc with rfl | rfl <;> omega
  have hmet := rounded_met_of_nat ha (by exact_mod_cast hw) (by exact_mod_cast h)
  rcases (abs_eq (Int.natCast_nonneg c)).mp hc with rfl | rfl
  · rw [Int.cast_natCast, hmet, bannerPart]
  · rw [Int.cast_neg, Int.cast_natCast, neg_mul, rounded_neg, hmet, bannerPart, neg_mul]

/-- What a small banner of an odd multiple of five is meant to be, one half raised. -/
lemma raised_small (b : ℤ) :
    ((10 * b + 5 : ℤ) : ℚ) * bannerPart .small + 1 / 2 = (7 * b + 4 : ℤ) := by
  rw [bannerPart]
  push_cast
  ring

/-- One pixel of it is lost where the half is. -/
lemma pixels_small {b : ℤ} (hw : |10 * b + 5| ≤ 2 ^ 40) :
    pixels (10 * b + 5 : ℤ) (bannerScale .small).value =
      7 * b + 4 - if FallsShort .small (10 * b + 5) then 1 else 0 := by
  have hfive : (10 * b + 5) % 10 = 5 := by omega
  by_cases hshort : ∃ k : ℕ, 5 * 2 ^ k < 2 * |10 * b + 5| ∧ 7 * |10 * b + 5| < 20 * 2 ^ k
  · obtain ⟨k, hlow, hhigh⟩ := hshort
    have hk : k ≤ 50 := by
      have hlt : (2 : ℤ) ^ k < 2 ^ 51 := by omega
      have := (pow_lt_pow_iff_right₀ (by norm_num : (1 : ℤ) < 2)).mp hlt
      omega
    rcases le_or_gt 0 (10 * b + 5) with hpos | hneg
    · rw [abs_of_nonneg hpos] at hlow hhigh
      rw [if_pos ⟨rfl, hfive, k, hlow, hhigh⟩]
      lift b to ℕ using by omega
      have hpixels := pixels_short (a := b) (c := 10 * b + 5) rfl (by exact_mod_cast hlow)
        (by exact_mod_cast hhigh) hk
      push_cast at hpixels ⊢
      rw [hpixels]
      ring
    · rw [if_neg fun ⟨_, _, k, hlow, _⟩ => by
        have hpow : (0 : ℤ) < 2 ^ k := by positivity
        omega]
      rw [abs_of_neg hneg] at hlow hhigh
      obtain ⟨a, rfl⟩ : ∃ a : ℕ, b = -a - 1 := ⟨(-b - 1).toNat, by omega⟩
      have hmirror : (10 * (-a - 1) + 5 : ℤ) = -((10 * a + 5 : ℕ) : ℤ) := by
        push_cast
        ring
      rw [hmirror, neg_neg] at hlow hhigh
      have hpixels := pixels_neg_short (a := a) (c := 10 * a + 5) rfl (by exact_mod_cast hlow)
        (by exact_mod_cast hhigh) hk
      rw [hmirror, Int.cast_neg, Int.cast_natCast, hpixels]
      ring
  · have hsmall : |7 * b + 4| < 2 ^ 52 := by
      rw [abs_le] at hw
      rw [abs_lt]
      omega
    rw [if_neg fun ⟨_, _, k, hlow, hhigh⟩ => hshort ⟨k, by
      have hpow : (0 : ℤ) < 2 ^ k := by positivity
      rw [abs_of_nonneg (by omega)]
      exact ⟨hlow, hhigh⟩⟩]
    rw [pixels_eq_of_half (raised_small b) hsmall (rounded_met hw hfive hshort), raised_small,
      Int.floor_intCast, sub_zero]

/-- **The widths of banners**, for every content of up to forty bits: the part of the content that the
tier stands for, rounded half up, and one pixel less if the content falls short. -/
theorem banner_of_int (tier : Value) {w : ℤ} (hw : |w| ≤ 2 ^ 40) :
    banner (.int w) (Tier.ofValue tier) =
      .ok (⌊(w : ℚ) * bannerPart (Tier.ofValue tier) + 1 / 2⌋ -
        if FallsShort (Tier.ofValue tier) w then 1 else 0) := by
  generalize Tier.ofValue tier = tier
  refine banner_int_eq_ok.mpr ⟨abs_cast_lt_overflow hw, ?_⟩
  rw [rounded_int (by omega)]
  obtain ⟨z, hz⟩ := twentieths_of_content tier w
  by_cases hsmall : tier = .small
  · obtain rfl := hsmall
    by_cases hfive : w % 10 = 5
    · obtain ⟨b, rfl⟩ : ∃ b, w = 10 * b + 5 := ⟨w / 10, by omega⟩
      rw [pixels_small hw, raised_small, Int.floor_intCast]
    · have hz' : z = 14 * w + 10 := by
        rw [bannerPart] at hz
        have hcast : (z : ℚ) = 14 * w + 10 := by linarith
        exact_mod_cast hcast
      rw [if_neg fun h => hfive h.2.1, sub_zero]
      refine pixels_eq_of_apart (abs_cast_le hw) (bannerScale_spec .small).2 ?_ hz (by omega)
      rw [value_bannerScale, bannerPart]
      norm_num
  · obtain ⟨hpos, hnear⟩ := bannerScale_near hsmall
    rw [if_neg fun h => hsmall h.1, sub_zero]
    exact pixels_eq (abs_cast_le hw) ⟨hpos, (bannerScale_spec tier).2⟩ hnear hz

/-- Two small banners of half pixels next to the end of a binade, and one that is unknown. -/
theorem banner_of_int_edges :
    banner (.int 645) (Tier.ofValue (.text "small")) = .ok 451 ∧
    banner (.int 735) (Tier.ofValue (.text "small")) = .ok 515 ∧
    banner (.int (-645)) (Tier.ofValue (.text "huge")) = .ok (-645) := by
  have hshort := banner_of_int (.text "small") (w := 645) (by decide)
  have hmet := banner_of_int (.text "small") (w := 735) (by decide)
  have hlarge := banner_of_int (.text "huge") (w := -645) (by decide)
  rw [show Tier.ofValue (.text "small") = .small by rfl] at hshort hmet ⊢
  rw [show Tier.ofValue (.text "huge") = .large by rfl] at hlarge ⊢
  rw [if_pos (by decide)] at hshort
  rw [if_neg (by decide)] at hmet hlarge
  norm_num [bannerPart] at hshort hmet hlarge
  exact ⟨hshort, hmet, hlarge⟩

/-- A small banner of 645 pixels is meant to be 451 and a half wide.  The half does not go up. -/
theorem banner_half_down :
    banner (.int 645) (Tier.ofValue (.text "small")) = .ok 451 ∧
    ⌊(645 : ℚ) * bannerPart (Tier.ofValue (.text "small")) + 1 / 2⌋ = 452 :=
  ⟨(eq_ok_of_isOk (by decide +kernel)).trans (congrArg Except.ok (by decide +kernel)),
    by decide +kernel⟩

end Mailshot.Width
