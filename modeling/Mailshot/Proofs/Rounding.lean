import Mathlib.Algebra.Order.Field.Power
import Mathlib.Data.Nat.Log
import Mathlib.Data.Rat.Floor
import Mathlib.Tactic.Linarith
import Mathlib.Tactic.NormNum
import Mathlib.Tactic.Positivity
import Mathlib.Tactic.Ring
import Mailshot.Number.Binary64

/-!
# Rounding to double precision

A magnitude is rounded to a whole number of units of its last place.  Unless it is beyond the range,
the result is a finite number, and no power of two lies between the magnitude and the result.

* `Binary64.twoPow_eq`, `Binary64.le_binade`, `Binary64.lt_binade` — powers of two, and the binade of
  a magnitude.
* `Binary64.place`, `Binary64.nearest` — the last place of a magnitude, and what it is rounded to.
* **`Binary64.ofMagnitude_spec`** — rounding a magnitude that is in range.
* `Binary64.abs_value_le` — the greatest finite number.
* `Binary64.isFinite_add`, `Binary64.isFinite_mul` — sums and products that are in range.
-/

namespace Mailshot.Binary64

/-! ## Powers of two -/

theorem twoPow_eq (e : ℤ) : twoPow e = (2 : ℚ) ^ e := by
  unfold twoPow scale
  split
  · next h =>
      obtain ⟨n, rfl⟩ := Int.eq_ofNat_of_zero_le h
      simp
  · next h =>
      obtain ⟨n, rfl⟩ : ∃ n : ℕ, e = -n := ⟨(-e).toNat, by omega⟩
      simp [Rat.mkRat_eq_div]

/-- The lengths of numerator and denominator give the binade, or the one above it. -/
lemma log2_bounds {q : ℚ} (hq : 0 < q) :
    (2 : ℚ) ^ ((q.num.toNat.log2 : ℤ) - q.den.log2 - 1) ≤ q ∧
      q < 2 ^ ((q.num.toNat.log2 : ℤ) - q.den.log2 + 1) := by
  have hnum : ((q.num.toNat : ℤ) : ℚ) = q.num := by
    rw [Int.toNat_of_nonneg (Rat.num_pos.mpr hq).le]
  have hq' : q = (q.num.toNat : ℚ) / q.den := by
    rw [← Int.cast_natCast, hnum, Rat.num_div_den]
  have hn : q.num.toNat ≠ 0 := by
    have := Rat.num_pos.mpr hq
    omega
  have hd : (0 : ℚ) < q.den := by exact_mod_cast q.den_pos
  have hn₁ : (2 : ℚ) ^ q.num.toNat.log2 ≤ q.num.toNat := by
    exact_mod_cast Nat.log2_self_le hn
  have hn₂ : (q.num.toNat : ℚ) < 2 ^ (q.num.toNat.log2 + 1) := by
    exact_mod_cast Nat.lt_log2_self
  have hd₁ : (2 : ℚ) ^ q.den.log2 ≤ q.den := by
    exact_mod_cast Nat.log2_self_le q.den_nz
  have hd₂ : (q.den : ℚ) < 2 ^ (q.den.log2 + 1) := by
    exact_mod_cast Nat.lt_log2_self
  constructor
  · calc (2 : ℚ) ^ ((q.num.toNat.log2 : ℤ) - q.den.log2 - 1)
        = 2 ^ q.num.toNat.log2 / 2 ^ (q.den.log2 + 1) := by
          rw [sub_sub, zpow_sub₀ two_ne_zero, ← zpow_natCast, ← zpow_natCast]
          norm_cast
      _ ≤ q.num.toNat / q.den := by gcongr
      _ = q := hq'.symm
  · calc q = q.num.toNat / q.den := hq'
      _ < 2 ^ (q.num.toNat.log2 + 1) / 2 ^ q.den.log2 := by gcongr
      _ = 2 ^ ((q.num.toNat.log2 : ℤ) - q.den.log2 + 1) := by
          rw [sub_add_eq_add_sub, zpow_sub₀ two_ne_zero, ← zpow_natCast, ← zpow_natCast]
          norm_cast

/-- The binade of a magnitude begins below it. -/
theorem le_binade {q : ℚ} (hq : 0 < q) : (2 : ℚ) ^ binade q ≤ q := by
  unfold binade
  dsimp only
  rw [twoPow_eq]
  split
  · exact (log2_bounds hq).1
  · next h => exact not_lt.mp h

/-- And ends above it. -/
theorem lt_binade {q : ℚ} (hq : 0 < q) : q < (2 : ℚ) ^ (binade q + 1) := by
  unfold binade
  dsimp only
  rw [twoPow_eq]
  split
  · next h => rwa [sub_add_cancel]
  · exact (log2_bounds hq).2

/-! ## Whole numbers -/

/-- The whole number below a magnitude. -/
lemma floor_bounds {q : ℚ} (hq : 0 ≤ q) :
    ((q.floor.toNat : ℕ) : ℚ) ≤ q ∧ q < (q.floor.toNat : ℕ) + 1 := by
  have hfloor : ((q.floor.toNat : ℤ) : ℚ) = ((⌊q⌋ : ℤ) : ℚ) :=
    congrArg _ (Int.toNat_of_nonneg (Int.floor_nonneg.mpr hq))
  rw [← Int.cast_natCast, hfloor]
  exact ⟨Int.floor_le q, Int.lt_floor_add_one q⟩

/-- A magnitude is rounded to the whole number below it, or to the next one if it is not nearer to the
first. -/
lemma roundHalfEven_cases {q : ℚ} (hq : 0 ≤ q) : ∃ k : ℕ, (k : ℚ) ≤ q ∧ q < k + 1 ∧
    (roundHalfEven q = k ∧ q ≤ k + 1 / 2 ∨ roundHalfEven q = k + 1 ∧ (k : ℚ) + 1 / 2 ≤ q) := by
  obtain ⟨hle, hlt⟩ := floor_bounds hq
  refine ⟨_, hle, hlt, ?_⟩
  unfold roundHalfEven
  dsimp only
  rw [Rat.mkRat_eq_div]
  push_cast
  split
  · exact .inl ⟨rfl, by linarith⟩
  · split
    · exact .inr ⟨rfl, by linarith⟩
    · split
      · exact .inl ⟨rfl, by linarith⟩
      · exact .inr ⟨rfl, by linarith⟩

/-- A whole number more than one half above is not reached. -/
lemma roundHalfEven_le {q : ℚ} {n : ℕ} (hq : 0 ≤ q) (h : q < n + 1 / 2) : roundHalfEven q ≤ n := by
  obtain ⟨k, hk, -, ⟨hr, -⟩ | ⟨hr, hhalf⟩⟩ := roundHalfEven_cases hq
  · have hkn : (k : ℚ) < n + 1 := by linarith
    rw [hr]
    exact Nat.lt_succ_iff.mp (by exact_mod_cast hkn)
  · have hkn : (k : ℚ) < n := by linarith
    rw [hr]
    exact_mod_cast hkn

/-- No whole number is passed. -/
lemma le_roundHalfEven {q : ℚ} {n : ℕ} (h : (n : ℚ) ≤ q) : n ≤ roundHalfEven q := by
  have hq : 0 ≤ q := le_trans (Nat.cast_nonneg n) h
  obtain ⟨k, -, hk, ⟨hr, -⟩ | ⟨hr, -⟩⟩ := roundHalfEven_cases hq
  all_goals
    have hnk : (n : ℚ) < k + 1 := lt_of_le_of_lt h hk
    have hnk' : n < k + 1 := by exact_mod_cast hnk
    omega

/-! ## Magnitudes -/

/-- The exponent of the last place of a magnitude. -/
def place (q : ℚ) : ℤ := max (binade q - 52) (-1074)

/-- What a magnitude is rounded to, if it is in range. -/
def nearest (q : ℚ) : ℚ := roundHalfEven (q * 2 ^ (-place q)) * 2 ^ place q

/-- The least magnitude that is rounded beyond the range: half a unit above the greatest finite
number. -/
def overflow : ℚ := (2 ^ 53 - 1 / 2) * 2 ^ (971 : ℤ)

/-- A power of two times a smaller number of units. -/
lemma units_lt_pow {x : ℚ} {k n : ℤ} (h : x < 2 ^ n) : x * 2 ^ k < (2 : ℚ) ^ (n + k) := by
  rw [zpow_add₀ two_ne_zero]
  gcongr

lemma overflow_lt : overflow < 2 ^ (1024 : ℤ) := units_lt_pow (n := 53) (k := 971) (by norm_num)

/-- The units of the last place that a magnitude has. -/
lemma units_lt {q : ℚ} (hq : 0 < q) : q * 2 ^ (-place q) < 2 ^ 53 := by
  have hplace : binade q + 1 + -place q ≤ 53 := by
    unfold place
    omega
  calc q * 2 ^ (-place q) < 2 ^ (binade q + 1) * 2 ^ (-place q) := by
        have := lt_binade hq
        gcongr
    _ = 2 ^ (binade q + 1 + -place q) := (zpow_add₀ two_ne_zero _ _).symm
    _ ≤ 2 ^ (53 : ℤ) := by gcongr; norm_num
    _ = 2 ^ 53 := by norm_num

lemma le_units {q : ℚ} (hq : 0 < q) (h : place q ≠ -1074) : 2 ^ 52 ≤ q * 2 ^ (-place q) := by
  have hplace : binade q + -place q = 52 := by
    unfold place at h ⊢
    omega
  calc (2 : ℚ) ^ 52 = 2 ^ (52 : ℤ) := by norm_num
    _ = 2 ^ (binade q + -place q) := by rw [hplace]
    _ = 2 ^ binade q * 2 ^ (-place q) := zpow_add₀ two_ne_zero _ _
    _ ≤ q * 2 ^ (-place q) := by
        have := le_binade hq
        gcongr

lemma le_place (q : ℚ) : -1074 ≤ place q := le_max_right _ _

lemma place_le {q : ℚ} (hq : 0 < q) {k : ℤ} (hk : -1074 ≤ k) (h : q < 2 ^ (k + 53)) :
    place q ≤ k := by
  have hbinade : binade q < k + 53 :=
    (zpow_lt_zpow_iff_right₀ one_lt_two).mp (lt_of_le_of_lt (le_binade hq) h)
  unfold place
  omega

/-- What is rounded up to a full unit more than the mantissa has is at least half a unit below. -/
lemma le_of_full {q : ℚ} (hq : 0 < q) (h : roundHalfEven (q * 2 ^ (-place q)) = 2 ^ 53) :
    (2 ^ 53 - 1 / 2) * 2 ^ place q ≤ q := by
  by_contra hlt
  have hunits : q * 2 ^ (-place q) < ((2 ^ 53 - 1 : ℕ) : ℚ) + 1 / 2 := by
    rw [zpow_neg, ← div_eq_mul_inv, div_lt_iff₀ (by positivity)]
    calc q < (2 ^ 53 - 1 / 2) * 2 ^ place q := not_le.mp hlt
      _ = (((2 ^ 53 - 1 : ℕ) : ℚ) + 1 / 2) * 2 ^ place q := by norm_num
  have := roundHalfEven_le (by positivity) hunits
  omega

/-- **Rounding a magnitude.**  One that is in range is rounded to a finite number of the given sign,
which is the magnitude rounded at its last place. -/
theorem ofMagnitude_spec (negative : Bool) {q : ℚ} (hq : 0 ≤ q) (h : q < overflow) :
    ∃ m e hc, ofMagnitude negative q = .finite negative m e hc ∧ (m : ℚ) * 2 ^ e = nearest q := by
  rcases hq.eq_or_lt with rfl | hpos
  · refine ⟨0, -1074, by decide, rfl, ?_⟩
    have hzero : roundHalfEven 0 = 0 := by decide +kernel
    simp [nearest, hzero]
  have hrange : place q ≤ 971 := place_le hpos (by norm_num) (h.trans overflow_lt)
  have hlow := le_place q
  have hfull : roundHalfEven (q * 2 ^ (-place q)) ≤ 2 ^ 53 :=
    roundHalfEven_le (by positivity) (by push_cast; linarith [units_lt hpos])
  unfold ofMagnitude
  rw [if_neg hpos.ne']
  simp only [twoPow_eq]
  rw [show max (binade q - 52) (-1074) = place q from rfl]
  split
  · next hm =>
      -- the mantissa is full: the next power of two, which is in range as well
      have hle := le_of_full hpos hm
      have hroom : place q + 1 ≤ 971 := by
        by_contra hout
        have hplace : place q = 971 := by omega
        rw [hplace] at hle
        exact absurd h (not_lt.mpr hle)
      have hc : Canonical leadingBit (place q + 1) :=
        ⟨by norm_num, by omega, hroom, .inl le_rfl⟩
      refine ⟨_, _, hc, by rw [ofParts, dif_pos hc], ?_⟩
      rw [nearest, hm, zpow_add_one₀ two_ne_zero]
      push_cast
      ring
  · next hm =>
      have hc : Canonical (roundHalfEven (q * 2 ^ (-place q))) (place q) := by
        refine ⟨by unfold leadingBit at hm ⊢; omega, hlow, hrange, ?_⟩
        by_cases hleast : place q = -1074
        · exact .inr hleast
        · exact .inl (le_roundHalfEven (by exact_mod_cast le_units hpos hleast))
      exact ⟨_, _, hc, by rw [ofParts, dif_pos hc], rfl⟩

/-- No power of two is passed. -/
lemma nearest_le {q : ℚ} {k : ℤ} (hq : 0 ≤ q) (hk : -1074 ≤ k) (h : q ≤ 2 ^ k) :
    nearest q ≤ 2 ^ k := by
  rcases hq.eq_or_lt with rfl | hpos
  · have hzero : roundHalfEven 0 = 0 := by decide +kernel
    simp only [nearest, zero_mul, hzero, Nat.cast_zero]
    positivity
  have hbinade : binade q ≤ k :=
    (zpow_le_zpow_iff_right₀ one_lt_two).mp ((le_binade hpos).trans h)
  obtain ⟨n, hn⟩ : ∃ n : ℕ, (n : ℤ) = k - place q := by
    refine ⟨(k - place q).toNat, Int.toNat_of_nonneg ?_⟩
    unfold place
    omega
  have hpow : ((2 ^ n : ℕ) : ℚ) * 2 ^ place q = 2 ^ k := by
    rw [Nat.cast_pow, Nat.cast_ofNat, ← zpow_natCast, hn, ← zpow_add₀ two_ne_zero, sub_add_cancel]
  have hunits : q * 2 ^ (-place q) ≤ ((2 ^ n : ℕ) : ℚ) := by
    rw [zpow_neg, ← div_eq_mul_inv, div_le_iff₀ (by positivity), hpow]
    exact h
  have hround : roundHalfEven (q * 2 ^ (-place q)) ≤ 2 ^ n :=
    roundHalfEven_le (by positivity) (by linarith)
  calc nearest q ≤ ((2 ^ n : ℕ) : ℚ) * 2 ^ place q := by
        unfold nearest
        gcongr
    _ = 2 ^ k := hpow

/-! ## Numbers in range -/

/-- Whether a number is neither infinite nor no number. -/
def isFinite : Binary64 → Bool
  | .finite _ _ _ _ => true
  | _ => false

variable {x y : Binary64}

@[simp] lemma value_finite (negative : Bool) (m : ℕ) (e : ℤ) (h : Canonical m e) :
    (finite negative m e h).value = if negative then -((m : ℚ) * 2 ^ e) else (m : ℚ) * 2 ^ e := by
  rw [value, twoPow_eq]

lemma abs_value_finite (negative : Bool) (m : ℕ) (e : ℤ) (h : Canonical m e) :
    |(finite negative m e h).value| = (m : ℚ) * 2 ^ e := by
  rw [value_finite]
  split
  · rw [abs_neg, abs_of_nonneg (by positivity)]
  · rw [abs_of_nonneg (by positivity)]

/-- **The greatest finite number.** -/
theorem abs_value_le (x : Binary64) : |x.value| ≤ (2 ^ 53 - 1) * 2 ^ (971 : ℤ) := by
  cases x with
  | nan mark => norm_num [value]
  | infinite negative => norm_num [value]
  | finite negative m e h =>
      have hmantissa : (m : ℚ) ≤ 2 ^ 53 - 1 := by
        have hm : m + 1 ≤ 2 ^ 53 := h.1
        have hm' : (m : ℚ) + 1 ≤ 2 ^ 53 := by exact_mod_cast hm
        linarith
      have he : e ≤ 971 := h.2.2.1
      rw [abs_value_finite]
      gcongr
      norm_num

/-- A rational in range is rounded to a finite number, by its magnitude. -/
theorem ofRat_spec {q : ℚ} (h : |q| < overflow) :
    (ofRat q).isFinite = true ∧ |(ofRat q).value| = nearest |q| := by
  unfold ofRat
  split
  · next hneg =>
      rw [abs_of_neg hneg] at h ⊢
      obtain ⟨m, e, hc, heq, hvalue⟩ := ofMagnitude_spec true (neg_pos.mpr hneg).le h
      rw [heq, abs_value_finite, hvalue]
      exact ⟨rfl, rfl⟩
  · next hpos =>
      rw [abs_of_nonneg (not_lt.mp hpos)] at h ⊢
      obtain ⟨m, e, hc, heq, hvalue⟩ := ofMagnitude_spec false (not_lt.mp hpos) h
      rw [heq, abs_value_finite, hvalue]
      exact ⟨rfl, rfl⟩

/-- A sum in range is finite. -/
theorem isFinite_add (hx : x.isFinite = true) (hy : y.isFinite = true)
    (h : |x.value + y.value| < overflow) : (x.add y).isFinite = true := by
  cases x <;> cases y <;> cases hx <;> cases hy
  unfold add
  dsimp only
  split
  · rfl
  · exact (ofRat_spec h).1

/-- A product in range is finite, and rounded by its magnitude. -/
theorem mul_spec (hx : x.isFinite = true) (hy : y.isFinite = true)
    (h : |x.value * y.value| < overflow) :
    (x.mul y).isFinite = true ∧ |(x.mul y).value| = nearest |x.value * y.value| := by
  cases x <;> cases y <;> cases hx <;> cases hy
  rw [abs_mul, abs_value_finite, abs_value_finite] at h ⊢
  unfold mul
  simp only [twoPow_eq]
  obtain ⟨m, e, hc, heq, hvalue⟩ := ofMagnitude_spec _ (by positivity) h
  rw [heq, abs_value_finite, hvalue]
  exact ⟨rfl, rfl⟩

lemma isFinite_neg (hx : x.isFinite = true) : x.neg.isFinite = true := by
  cases x <;> cases hx
  rfl

lemma value_neg (x : Binary64) : x.neg.value = -x.value := by
  cases x with
  | nan mark => simp [neg, value]
  | infinite negative => simp [neg, value]
  | finite negative m e h => cases negative <;> simp [neg]

/-- A finite number has a floor. -/
lemma exists_floor (hx : x.isFinite = true) : ∃ i, x.floor? = some i := by
  cases x <;> cases hx
  exact ⟨_, rfl⟩

end Mailshot.Binary64
