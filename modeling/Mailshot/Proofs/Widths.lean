import Mathlib.Data.Nat.Digits.Defs
import Mailshot.Proofs.Display
import Mailshot.Proofs.Nearest
import Mailshot.Proofs.Resolve
import Mailshot.Width

/-!
# Widths in range

Every width can be computed from a number that is finite and, if it is an integer, not enormous: no
step on the way leaves the range of double-precision numbers.

* `Binary64.value_gridScale`, `Binary64.value_bannerScale` — the scales, exactly.
* `Number.Moderate` — such numbers.
* `Width.roundHalfUp_ok` — a finite number can be rounded.
* **`Width.image_ok`**, `Width.fullBleed_ok` — the widths of images, under every template.
-/

namespace Mailshot

open Binary64

/-! ## Constants -/

namespace Binary64

/-- The greatest power of two that is in range. -/
def topPower : ℚ := 2 ^ (1023 : ℤ)

lemma topPower_eq : topPower = 2 ^ (52 : ℤ) * 2 ^ (971 : ℤ) := by
  rw [← zpow_add₀ two_ne_zero]
  rfl

/-- It is in range, and so is a little more. -/
lemma add_lt_overflow {q : ℚ} (h : q ≤ topPower) : q + 20 < overflow := by
  have hunit : (20 : ℚ) < 2 ^ (971 : ℤ) := by
    calc (20 : ℚ) < 2 ^ (5 : ℤ) := by norm_num
      _ ≤ 2 ^ (971 : ℤ) := zpow_le_zpow_right₀ one_le_two (by norm_num)
  rw [topPower_eq] at h
  unfold overflow
  generalize (2 : ℚ) ^ (971 : ℤ) = unit at *
  norm_num at h ⊢
  linarith

lemma lt_overflow {q : ℚ} (h : q ≤ topPower) : q < overflow := by
  linarith [add_lt_overflow h]

/-- The greatest finite number is in range, and so is a half more. -/
lemma abs_value_add_lt (x : Binary64) : |x.value| + 1 / 2 < overflow := by
  have hunit : (1 : ℚ) < 2 ^ (971 : ℤ) := one_lt_zpow₀ one_lt_two (by norm_num)
  have hle := abs_value_le x
  unfold overflow
  generalize (2 : ℚ) ^ (971 : ℤ) = unit at *
  linarith

lemma half_spec : half.isFinite = true ∧ half.value = 1 / 2 := by
  have hhalf : (mkRat 1 2 : ℚ) = 1 / 2 := by norm_num [Rat.mkRat_eq_div]
  have hrange : |(1 / 2 : ℚ)| < overflow := by
    refine lt_overflow (le_trans ?_ (one_le_zpow₀ one_le_two (by norm_num)))
    norm_num
  have hkept := rounded_half_int (i := 1) (by norm_num)
  rw [Int.cast_one] at hkept
  rw [half, hhalf, isFinite_ofRat, value_ofRat hrange]
  exact ⟨hrange, hkept⟩

lemma gutter_spec : (ofInt Width.gridGutter).isFinite = true ∧ (ofInt Width.gridGutter).value = 20 := by
  have hrange : |((20 : ℤ) : ℚ)| < overflow := by
    refine lt_overflow (le_trans ?_ (zpow_le_zpow_right₀ one_le_two (by norm_num : (5 : ℤ) ≤ 1023)))
    norm_num
  rw [Width.gridGutter, ofInt, isFinite_ofRat, value_ofRat hrange, rounded_int (by decide)]
  exact ⟨hrange, rfl⟩

/-- The scales of the grid, two of which are a part of a unit off what they stand for. -/
lemma value_gridScale (tier : Tier) : (Width.gridScale tier).value = match tier with
    | .small => 3 / 5 - 1 / 5 / 2 ^ 53
    | .medium => 4 / 5 + 2 / 5 / 2 ^ 53
    | .large => 1 := by
  cases tier <;> decide +kernel

/-- And those of banners. -/
lemma value_bannerScale (tier : Tier) : (Width.bannerScale tier).value = match tier with
    | .small => 7 / 10 - 2 / 5 / 2 ^ 53
    | .medium => 17 / 20 - 1 / 5 / 2 ^ 53
    | .large => 1 := by
  cases tier <;> decide +kernel

/-- The numbers that are not finite count as zero. -/
lemma isFinite_of_value_ne_zero {x : Binary64} (h : x.value ≠ 0) : x.isFinite = true := by
  cases x with
  | finite negative mantissa exponent hc => rfl
  | nan mark | infinite negative => exact absurd rfl h

lemma gridScale_spec (tier : Tier) :
    (Width.gridScale tier).isFinite = true ∧ |(Width.gridScale tier).value| ≤ 1 := by
  refine ⟨isFinite_of_value_ne_zero ?_, ?_⟩ <;>
    cases tier <;> norm_num [value_gridScale, abs_le]

lemma bannerScale_spec (tier : Tier) :
    (Width.bannerScale tier).isFinite = true ∧ |(Width.bannerScale tier).value| ≤ 1 := by
  refine ⟨isFinite_of_value_ne_zero ?_, ?_⟩ <;>
    cases tier <;> norm_num [value_bannerScale, abs_le]

end Binary64

/-- A number that widths can be computed from: finite, and of no more than a thousand bits if it is an
integer. -/
def Number.Moderate : Number → Prop
  | .int i => |i| ≤ 2 ^ 1000
  | .float x => x.isFinite = true

namespace Number

variable {x : Number}

lemma abs_cast_le {i : ℤ} (h : (int i).Moderate) : |(i : ℚ)| ≤ topPower := by
  calc |(i : ℚ)| = ((|i| : ℤ) : ℚ) := Int.cast_abs.symm
    _ ≤ ((2 ^ 1000 : ℤ) : ℚ) := Int.cast_le.mpr h
    _ = 2 ^ (1000 : ℤ) := by rw [Int.cast_pow, Int.cast_ofNat, ← zpow_natCast]; rfl
    _ ≤ topPower := zpow_le_zpow_right₀ one_le_two (by norm_num)

/-- Every width that one would write is moderate. -/
lemma moderate_of_small {i : ℤ} (h : |i| ≤ 2 ^ 10) : (int i).Moderate :=
  h.trans (pow_le_pow_right₀ one_le_two (by norm_num))

/-- An integer of that size less a small one still shows. -/
lemma isShowable_less {i j : ℤ} (h : (int i).Moderate) (hj : |j| ≤ 40) :
    (Scalar.int (i - j)).isShowable = true := by
  have hsmall : (i - j).natAbs < 10 ^ Scalar.digitLimit := by
    have hle : |i - j| ≤ 2 ^ 1000 + 40 := (abs_sub i j).trans (add_le_add h hj)
    have hbound : (2 ^ 1000 + 40 : ℤ) < 10 ^ Scalar.digitLimit := by
      calc (2 ^ 1000 + 40 : ℤ) < 10 ^ 1000 + 10 ^ 1000 := by
            refine add_lt_add_of_le_of_lt (pow_le_pow_left₀ (by norm_num) (by norm_num) _) ?_
            exact lt_of_lt_of_le (by norm_num : (40 : ℤ) < 10 ^ 2)
              (pow_le_pow_right₀ (by norm_num) (by norm_num))
        _ = 2 * 10 ^ 1000 := (two_mul _).symm
        _ ≤ 10 * 10 ^ 1000 := mul_le_mul_of_nonneg_right (by norm_num) (by positivity)
        _ = 10 ^ 1001 := (pow_succ' _ _).symm
        _ ≤ 10 ^ Scalar.digitLimit := pow_le_pow_right₀ (by norm_num) (by decide)
    have habs : ((i - j).natAbs : ℤ) < 10 ^ Scalar.digitLimit := by
      rw [Int.natCast_natAbs]
      exact lt_of_le_of_lt hle hbound
    exact_mod_cast habs
  have hlength := Nat.toDigits_length 10 _ _ (by decide) hsmall
  rw [Scalar.isShowable, decide_eq_true_eq, Nat.toString_eq_ofList_toDigits, String.length_ofList]
  exact hlength

/-- A finite number is in range. -/
lemma some_of_isFinite : ∀ {y : Binary64}, y.isFinite = true →
    (match y with
      | .infinite _ => none
      | y => some y) = some y
  | .finite _ _ _ _, _ => rfl

/-- A moderate number is held in double precision. -/
lemma toBinary64?_of_moderate (h : x.Moderate) :
    ∃ y, x.toBinary64? = some y ∧ y.isFinite = true := by
  cases x with
  | float x => exact ⟨x, rfl, h⟩
  | int i =>
      have hfinite := (ofRat_spec (lt_overflow (abs_cast_le h))).1
      exact ⟨_, some_of_isFinite hfinite, hfinite⟩

/-- And so is its half, with room to spare. -/
lemma half?_of_moderate (h : x.Moderate) :
    ∃ y, x.half? = some y ∧ y.isFinite = true ∧ |y.value| ≤ topPower := by
  cases x with
  | float x =>
      have hhalf : |x.value * half.value| ≤ topPower := by
        have hle := abs_value_le x
        have hunit : (0 : ℚ) < 2 ^ (971 : ℤ) := by positivity
        rw [topPower_eq, half_spec.2, abs_mul]
        generalize (2 : ℚ) ^ (971 : ℤ) = unit at *
        norm_num at hle ⊢
        linarith
      obtain ⟨hfinite, hvalue⟩ := mul_spec h half_spec.1 (lt_overflow hhalf)
      refine ⟨_, rfl, hfinite, ?_⟩
      rw [hvalue]
      exact nearest_le (abs_nonneg _) (by norm_num) hhalf
  | int i =>
      have hhalf : |mkRat i 2| ≤ topPower := by
        have hle := abs_cast_le h
        rw [Rat.mkRat_eq_div, abs_div]
        norm_num
        linarith [abs_nonneg (i : ℚ)]
      obtain ⟨hfinite, hvalue⟩ := ofRat_spec (lt_overflow hhalf)
      refine ⟨_, some_of_isFinite hfinite, hfinite, ?_⟩
      rw [hvalue]
      exact nearest_le (abs_nonneg _) (by norm_num) hhalf

end Number

namespace Width

variable {x y : Binary64} {content : Value}

/-- One half more than a finite number is in range. -/
lemma abs_add_half_lt (x : Binary64) : |x.value + half.value| < overflow := by
  refine lt_of_le_of_lt (abs_add_le _ _) ?_
  rw [half_spec.2, abs_of_pos (by norm_num : (0 : ℚ) < 1 / 2)]
  exact abs_value_add_lt x

/-- **A finite number can be rounded.** -/
theorem roundHalfUp_ok (h : x.isFinite = true) : ∃ i, roundHalfUp x = .ok i := by
  obtain ⟨i, hi⟩ := exists_floor (isFinite_add h half_spec.1 (abs_add_half_lt x))
  refine ⟨i, ?_⟩
  unfold roundHalfUp
  dsimp only
  rw [hi]

/-- What is scaled down stays in range. -/
lemma abs_scaled_lt (x : Binary64) (hy : |y.value| ≤ 1) : |x.value * y.value| < overflow := by
  rw [abs_mul]
  have hle := mul_le_of_le_one_right (abs_nonneg x.value) hy
  linarith [abs_value_add_lt x]

/-- And finite. -/
lemma isFinite_scaled (hx : x.isFinite = true) (hy : y.isFinite = true ∧ |y.value| ≤ 1) :
    (x.mul y).isFinite = true :=
  (mul_spec hx hy.1 (abs_scaled_lt x hy.2)).1

/-- **The width of an image**, under every template. -/
theorem image_ok {n : Number} (hn : content.number? = some n) (h : n.Moderate) (template : Template)
    (tier : Tier) : ∃ width, image template content tier = .ok width := by
  cases template with
  | modern => exact ⟨_, rfl⟩
  | banner =>
      obtain ⟨y, hy, hfinite⟩ := Number.toBinary64?_of_moderate h
      obtain ⟨i, hi⟩ := roundHalfUp_ok (isFinite_scaled hfinite (bannerScale_spec tier))
      refine ⟨i, ?_⟩
      simp only [image, banner, number, hn, ok_bind, hy, inRange, hi]
  | classic =>
      obtain ⟨y, hy, hfinite, hle⟩ := Number.half?_of_moderate h
      have hcolumn : (y.sub (ofInt gridGutter)).isFinite = true := by
        refine isFinite_add hfinite (isFinite_neg gutter_spec.1) (lt_of_le_of_lt (abs_add_le _ _) ?_)
        rw [value_neg, gutter_spec.2, abs_neg, abs_of_pos (by norm_num : (0 : ℚ) < 20)]
        exact add_lt_overflow hle
      obtain ⟨i, hi⟩ := roundHalfUp_ok (isFinite_scaled hcolumn (gridScale_spec tier))
      refine ⟨i, ?_⟩
      simp only [image, grid, number, hn, ok_bind, hy, inRange, hi]

/-- A moderate number shows. -/
lemma isShowable_of_moderate {n : Number} (hn : content.number? = some n) (h : n.Moderate) :
    content.isShowable = true := by
  match content with
  | .int i =>
      cases hn
      have hless := Number.isShowable_less h (abs_zero.trans_le (by norm_num) : |(0 : ℤ)| ≤ 40)
      rwa [sub_zero] at hless
  | .bool _ | .float _ => rfl

/-- **The width of an item that is only an image** shows as well. -/
theorem fullBleed_ok {n : Number} (hn : content.number? = some n) (h : n.Moderate) :
    ∃ full, fullBleed content = .ok full ∧ full.isShowable = true := by
  cases n with
  | int i =>
      exact ⟨.int (i - fullBleedInset), by simp [fullBleed, number, hn, Number.less]; rfl,
        Number.isShowable_less h (by decide)⟩
  | float x =>
      exact ⟨.float (x.sub (ofInt fullBleedInset)),
        by simp [fullBleed, number, hn, Number.less]; rfl, rfl⟩

end Width

end Mailshot
