import Mailshot.Proofs.Rounding

/-!
# Rounding keeps order

Every operation gives the number nearest to its exact result.  What that is of rationals, their sign
included, is an order-preserving function; it moves a rational by no more than half of its last place,
and not at all if the rational is itself a whole number of such places.

* `Binary64.rounded` — what a rational is rounded to.
* **`Binary64.nearest_mono`**, **`Binary64.rounded_mono`** — rounding keeps order.
* **`Binary64.isFinite_ofRat`** — which rationals are in range.
* `Binary64.value_ofRat`, `Binary64.value_add`, `Binary64.value_mul` — every operation rounds the exact
  result.
* `Binary64.abs_nearest_sub_le`, **`Binary64.nearest_eq_of_near`** — how far rounding moves a
  magnitude, and the magnitudes near a number of few places, which are rounded to it.
-/

namespace Mailshot.Binary64

variable {p q : ℚ} {x y : Binary64}

/-! ## Whole numbers -/

/-- Rounding to whole numbers keeps order. -/
lemma roundHalfEven_mono (hp : 0 ≤ p) (h : p ≤ q) : roundHalfEven p ≤ roundHalfEven q := by
  obtain ⟨k, hk, hk', hrk⟩ := roundHalfEven_cases hp
  obtain ⟨l, hl, hl', hrl⟩ := roundHalfEven_cases (hp.trans h)
  have hkl : k ≤ l := by
    have hcast : (k : ℚ) < l + 1 := lt_of_le_of_lt (hk.trans h) hl'
    exact Nat.lt_succ_iff.mp (by exact_mod_cast hcast)
  rcases hkl.eq_or_lt with rfl | hlt
  · -- between the same whole numbers, only a half could go two ways
    rcases hrk with ⟨hrk, -⟩ | ⟨hrk, hhalf⟩
    · rcases hrl with ⟨hrl, -⟩ | ⟨hrl, -⟩ <;> omega
    · rcases hrl with ⟨-, hle⟩ | ⟨hrl, -⟩
      · have heq : p = q := by linarith
        rw [heq]
      · omega
  · rcases hrk with ⟨hrk, -⟩ | ⟨hrk, -⟩ <;> rcases hrl with ⟨hrl, -⟩ | ⟨hrl, -⟩ <;> omega

/-- A magnitude is moved by at most one half. -/
lemma abs_roundHalfEven_sub_le (hq : 0 ≤ q) : |(roundHalfEven q : ℚ) - q| ≤ 1 / 2 := by
  obtain ⟨k, hk, hk', ⟨hr, hhalf⟩ | ⟨hr, hhalf⟩⟩ := roundHalfEven_cases hq
  all_goals
    rw [hr, abs_le]
    push_cast
    constructor <;> linarith

/-- Whole numbers less than one apart are the same. -/
lemma eq_of_cast_lt {m n : ℕ} (hlt : (m : ℚ) < n + 1) (hgt : (n : ℚ) < m + 1) : m = n := by
  have hlt' : m < n + 1 := by exact_mod_cast hlt
  have hgt' : n < m + 1 := by exact_mod_cast hgt
  omega

/-- The whole number that is nearer than any other. -/
lemma roundHalfEven_eq {n : ℕ} (hq : 0 ≤ q) (h : |q - n| < 1 / 2) : roundHalfEven q = n := by
  have hmoved := abs_roundHalfEven_sub_le hq
  rw [abs_lt] at h
  rw [abs_le] at hmoved
  exact eq_of_cast_lt (by linarith) (by linarith)

/-- An even whole number that is as near as any other. -/
lemma roundHalfEven_eq_of_even {n : ℕ} (hq : 0 ≤ q) (hn : n % 2 = 0) (h : |q - n| ≤ 1 / 2) :
    roundHalfEven q = n := by
  rcases h.lt_or_eq with hlt | heq
  · exact roundHalfEven_eq hq hlt
  have hhalf : (mkRat 1 2 : ℚ) = 1 / 2 := by norm_num [Rat.mkRat_eq_div]
  obtain ⟨hfloor, hfloor'⟩ := floor_bounds hq
  unfold roundHalfEven
  dsimp only
  rw [hhalf]
  rcases (abs_eq (by norm_num)).mp heq with hover | hunder
  · -- one half above it
    have hbelow : q.floor.toNat = n := eq_of_cast_lt (by linarith) (by linarith)
    rw [hbelow, hover, if_neg (lt_irrefl _), if_neg (lt_irrefl _), if_pos hn]
  · -- one half below it
    have hbelow : q.floor.toNat + 1 = n := by
      refine eq_of_cast_lt ?_ ?_
      all_goals
        push_cast
        linarith
    have hrest : q - ((q.floor.toNat : ℕ) : ℚ) = 1 / 2 := by
      have hcast : ((q.floor.toNat : ℕ) : ℚ) + 1 = n := by exact_mod_cast hbelow
      linarith
    rw [hrest, if_neg (lt_irrefl _), if_neg (lt_irrefl _), if_neg (by omega), hbelow]

/-! ## Magnitudes -/

@[simp] lemma nearest_zero : nearest 0 = 0 := by
  have hzero : roundHalfEven 0 = 0 := roundHalfEven_eq le_rfl (by norm_num)
  rw [nearest, zero_mul, hzero, Nat.cast_zero, zero_mul]

lemma nearest_nonneg (q : ℚ) : 0 ≤ nearest q := by
  unfold nearest
  positivity

lemma binade_mono (hp : 0 < p) (h : p ≤ q) : binade p ≤ binade q := by
  have hlt : (2 : ℚ) ^ binade p < 2 ^ (binade q + 1) :=
    lt_of_le_of_lt ((le_binade hp).trans h) (lt_binade (hp.trans_le h))
  have := (zpow_lt_zpow_iff_right₀ one_lt_two).mp hlt
  omega

lemma binade_eq {k : ℤ} (h : 2 ^ k ≤ q) (h' : q < 2 ^ (k + 1)) : binade q = k := by
  have hpos : 0 < q := lt_of_lt_of_le (by positivity) h
  have hle := (zpow_lt_zpow_iff_right₀ one_lt_two).mp (lt_of_le_of_lt (le_binade hpos) h')
  have hge := (zpow_lt_zpow_iff_right₀ one_lt_two).mp (lt_of_le_of_lt h (lt_binade hpos))
  omega

/-- The power of two that a magnitude begins with is not passed. -/
lemma pow_binade_le_nearest (hq : 0 < q) (h : -1074 ≤ binade q) : 2 ^ binade q ≤ nearest q := by
  obtain ⟨n, hn⟩ : ∃ n : ℕ, (n : ℤ) = binade q - place q := by
    refine ⟨(binade q - place q).toNat, Int.toNat_of_nonneg ?_⟩
    unfold place
    omega
  have hpow : ((2 ^ n : ℕ) : ℚ) * 2 ^ place q = 2 ^ binade q := by
    rw [Nat.cast_pow, Nat.cast_ofNat, ← zpow_natCast, hn, ← zpow_add₀ two_ne_zero, sub_add_cancel]
  have hunits : ((2 ^ n : ℕ) : ℚ) ≤ q * 2 ^ (-place q) := by
    rw [zpow_neg, ← div_eq_mul_inv, le_div_iff₀ (by positivity), hpow]
    exact le_binade hq
  calc (2 : ℚ) ^ binade q = ((2 ^ n : ℕ) : ℚ) * 2 ^ place q := hpow.symm
    _ ≤ nearest q := by
        unfold nearest
        gcongr
        exact le_roundHalfEven hunits

/-- **Rounding magnitudes keeps order.** -/
theorem nearest_mono (hp : 0 ≤ p) (h : p ≤ q) : nearest p ≤ nearest q := by
  rcases hp.eq_or_lt with rfl | hpos
  · rw [nearest_zero]
    exact nearest_nonneg q
  have hbinade := binade_mono hpos h
  have hplace : place p ≤ place q := by
    unfold place
    omega
  rcases hplace.eq_or_lt with heq | hlt
  · -- the same last place
    have hunits : p * 2 ^ (-place p) ≤ q * 2 ^ (-place p) := by gcongr
    unfold nearest
    rw [← heq]
    gcongr
    exact roundHalfEven_mono (by positivity) hunits
  · -- a power of two lies between them
    have hless : binade p + 1 ≤ binade q ∧ -1074 ≤ binade q := by
      unfold place at hlt
      omega
    have hpow : p ≤ 2 ^ binade q :=
      (lt_binade hpos).le.trans (zpow_le_zpow_right₀ one_le_two hless.1)
    exact (nearest_le hp hless.2 hpow).trans
      (pow_binade_le_nearest (hpos.trans_le h) hless.2)

/-- Rounding moves a magnitude by at most half of its last place. -/
theorem abs_nearest_sub_le (hq : 0 ≤ q) : |nearest q - q| ≤ 2 ^ place q / 2 := by
  have hunits : q = q * 2 ^ (-place q) * 2 ^ place q := by
    rw [mul_assoc, ← zpow_add₀ two_ne_zero, neg_add_cancel, zpow_zero, mul_one]
  have hmoved := abs_roundHalfEven_sub_le (q := q * 2 ^ (-place q)) (by positivity)
  have hpos : (0 : ℚ) < 2 ^ place q := by positivity
  calc |nearest q - q|
      = |(roundHalfEven (q * 2 ^ (-place q)) - q * 2 ^ (-place q)) * 2 ^ place q| := by
        rw [sub_mul, ← hunits, nearest]
    _ = |(roundHalfEven (q * 2 ^ (-place q)) : ℚ) - q * 2 ^ (-place q)| * 2 ^ place q := by
        rw [abs_mul, abs_of_pos hpos]
    _ ≤ 1 / 2 * 2 ^ place q := by gcongr
    _ = 2 ^ place q / 2 := by ring

/-- The distance of a magnitude from a number of its last places, in those. -/
lemma abs_units_sub (q : ℚ) (n : ℕ) :
    |q * 2 ^ (-place q) - n| = |q - n * 2 ^ place q| / 2 ^ place q := by
  have hpos : (0 : ℚ) < 2 ^ place q := by positivity
  rw [eq_div_iff hpos.ne', ← abs_of_pos hpos, ← abs_mul, abs_of_pos hpos, sub_mul, mul_assoc,
    ← zpow_add₀ two_ne_zero, neg_add_cancel, zpow_zero, mul_one]

/-- A number of places, in smaller ones. -/
lemma units_of_add (n d : ℕ) (e : ℤ) : (n : ℚ) * 2 ^ (e + d) = (n * 2 ^ d : ℕ) * 2 ^ e := by
  rw [zpow_add₀ two_ne_zero, zpow_natCast]
  push_cast
  ring

/-- A magnitude less than half a place away from a number of places is rounded to it. -/
lemma nearest_eq_of_units {n : ℕ} (hq : 0 ≤ q) (h : |q - n * 2 ^ place q| < 2 ^ place q / 2) :
    nearest q = n * 2 ^ place q := by
  have hpos : (0 : ℚ) < 2 ^ place q := by positivity
  rw [nearest, roundHalfEven_eq (by positivity) (n := n)]
  rw [abs_units_sub, div_lt_iff₀ hpos]
  linarith

/-- **A magnitude at most half a place away from a number of greater places** is rounded to it: that
number is even. -/
theorem nearest_eq_of_near {n : ℕ} {k : ℤ} (hq : 0 ≤ q) (hk : place q < k)
    (h : |q - n * 2 ^ k| ≤ 2 ^ place q / 2) : nearest q = n * 2 ^ k := by
  obtain ⟨d, rfl⟩ : ∃ d : ℕ, k = place q + (d + 1 : ℕ) := ⟨(k - place q - 1).toNat, by omega⟩
  have hpos : (0 : ℚ) < 2 ^ place q := by positivity
  rw [units_of_add] at h ⊢
  rw [nearest, roundHalfEven_eq_of_even (by positivity) (n := n * 2 ^ (d + 1))]
  · rw [pow_succ, ← mul_assoc, Nat.mul_mod_left]
  · rw [abs_units_sub, div_le_iff₀ hpos]
    linarith

/-- A number of places that are not smaller than its last one is kept. -/
lemma nearest_eq_self {n : ℕ} {k : ℤ} (hk : place (n * 2 ^ k) ≤ k) :
    nearest (n * 2 ^ k) = n * 2 ^ k := by
  obtain ⟨d, hd⟩ : ∃ d : ℕ, k = place (n * 2 ^ k) + d := ⟨(k - place (n * 2 ^ k)).toNat, by omega⟩
  have hunits : (n : ℚ) * 2 ^ k = (n * 2 ^ d : ℕ) * 2 ^ place (n * 2 ^ k) :=
    (congrArg ((n : ℚ) * 2 ^ ·) hd).trans (units_of_add n d _)
  conv_rhs => rw [hunits]
  refine nearest_eq_of_units (by positivity) ?_
  rw [← hunits, sub_self, abs_zero]
  positivity

/-! ## Signed numbers -/

/-- What a rational is rounded to, if it is in range. -/
def rounded (q : ℚ) : ℚ := if q < 0 then -nearest (-q) else nearest q

lemma rounded_of_nonneg (hq : 0 ≤ q) : rounded q = nearest q := by
  rw [rounded, if_neg (not_lt.mpr hq)]

@[simp] lemma rounded_zero : rounded 0 = 0 := by
  rw [rounded_of_nonneg le_rfl, nearest_zero]

/-- Rounding is the same on both sides of zero. -/
lemma rounded_neg (q : ℚ) : rounded (-q) = -rounded q := by
  unfold rounded
  rcases lt_trichotomy q 0 with hneg | rfl | hpos
  · rw [if_neg (by linarith), if_pos hneg, neg_neg]
  · simp
  · rw [if_pos (by linarith), if_neg (by linarith), neg_neg]

/-- A magnitude of a sign. -/
lemma rounded_signed (negative : Bool) (hq : 0 ≤ q) :
    rounded (if negative then -q else q) = if negative then -nearest q else nearest q := by
  cases negative with
  | false => exact rounded_of_nonneg hq
  | true =>
      rw [if_pos rfl, if_pos rfl, rounded_neg, rounded_of_nonneg hq]

lemma rounded_nonneg (hq : 0 ≤ q) : 0 ≤ rounded q := by
  rw [rounded_of_nonneg hq]
  exact nearest_nonneg q

/-- **Rounding keeps order.** -/
theorem rounded_mono (h : p ≤ q) : rounded p ≤ rounded q := by
  rcases lt_or_ge p 0 with hp | hp
  · rcases lt_or_ge q 0 with hq | hq
    · rw [rounded, if_pos hp, rounded, if_pos hq, neg_le_neg_iff]
      exact nearest_mono (by linarith) (by linarith)
    · calc rounded p = -nearest (-p) := if_pos hp
        _ ≤ 0 := neg_nonpos.mpr (nearest_nonneg _)
        _ ≤ rounded q := rounded_nonneg hq
  · rw [rounded_of_nonneg hp, rounded_of_nonneg (hp.trans h)]
    exact nearest_mono hp h

/-- Rounding moves a number as far as its magnitude. -/
lemma abs_rounded_sub (q : ℚ) : |rounded q - q| = |(nearest (|q|)) - (|q|)| := by
  rcases lt_or_ge q 0 with hq | hq
  · rw [rounded, if_pos hq, abs_of_neg hq, ← abs_neg]
    congr 1
    ring
  · rw [rounded_of_nonneg hq, abs_of_nonneg hq]

/-- A multiple of one half that is not enormous is kept. -/
theorem rounded_half_int {i : ℤ} (h : |i| < 2 ^ 53) : rounded (i / 2) = i / 2 := by
  have hnat (n : ℕ) (hn : n < 2 ^ 53) : rounded (n / 2) = n / 2 := by
    rcases Nat.eq_zero_or_pos n with rfl | hpos
    · simp
    have hhalf : (n : ℚ) / 2 = n * 2 ^ (-1 : ℤ) := by rw [zpow_neg_one, div_eq_mul_inv]
    rw [rounded_of_nonneg (by positivity), hhalf]
    refine nearest_eq_self (place_le (by positivity) (by norm_num) ?_)
    have hcast : (n : ℚ) < 2 ^ 53 := by exact_mod_cast hn
    norm_num
    linarith
  obtain ⟨n, rfl | rfl⟩ := Int.eq_nat_or_neg i
  · rw [Int.cast_natCast]
    exact hnat n (by simpa using h)
  · have hn := hnat n (by simpa using h)
    push_cast
    rw [neg_div, rounded_neg, hn]

/-- And so is a whole number. -/
lemma rounded_int {i : ℤ} (h : |i| < 2 ^ 52) : rounded i = i := by
  have hdouble : |2 * i| < 2 ^ 53 := by
    rw [abs_mul, abs_two]
    linarith
  have hrounded := rounded_half_int hdouble
  rwa [Int.cast_mul, Int.cast_ofNat, mul_div_cancel_left₀ _ two_ne_zero] at hrounded

/-! ## Range -/

/-- A magnitude beyond the range is rounded to an infinity. -/
lemma ofMagnitude_of_overflow (negative : Bool) (h : overflow ≤ q) :
    ofMagnitude negative q = .infinite negative := by
  have hunit : (0 : ℚ) < 2 ^ (971 : ℤ) := by positivity
  have hpos : 0 < q := lt_of_lt_of_le (mul_pos (by norm_num) hunit) h
  have hbig : (2 : ℚ) ^ (1023 : ℤ) ≤ q := by
    calc (2 : ℚ) ^ (1023 : ℤ) = 2 ^ (52 : ℤ) * 2 ^ (971 : ℤ) := by
          rw [← zpow_add₀ two_ne_zero]
          rfl
      _ ≤ overflow := by
          unfold overflow
          gcongr
          norm_num
      _ ≤ q := h
  have hbinade : 1023 ≤ binade q := by
    have hlt := lt_of_le_of_lt hbig (lt_binade hpos)
    have := (zpow_lt_zpow_iff_right₀ one_lt_two).mp hlt
    omega
  have hplace : place q = binade q - 52 := by
    unfold place
    omega
  have hout (m : ℕ) {e : ℤ} (he : 971 < e) : ofParts negative m e = .infinite negative := by
    rw [ofParts, dif_neg fun hc => absurd hc.2.2.1 (not_le.mpr he)]
  unfold ofMagnitude
  rw [if_neg hpos.ne']
  simp only [twoPow_eq]
  rw [show max (binade q - 52) (-1074) = place q from rfl]
  rcases hbinade.eq_or_lt with heq | hlt
  · -- in the last binade, the mantissa is rounded to one bit more than it may have
    have hlast : place q = 971 := by omega
    have hfull : roundHalfEven (q * 2 ^ (-place q)) = 2 * leadingBit := by
      have hunits : (2 : ℚ) ^ 53 - 1 / 2 ≤ q * 2 ^ (-place q) := by
        rw [hlast, zpow_neg, ← div_eq_mul_inv, le_div_iff₀ hunit]
        exact h
      have hlt := units_lt hpos
      refine roundHalfEven_eq_of_even (by positivity) (by decide) ?_
      rw [abs_le]
      push_cast
      constructor <;> linarith
    rw [if_pos hfull, hout _ (by omega)]
  · have hpast : 971 < place q := by omega
    split
    · exact hout _ (by omega)
    · exact hout _ hpast

/-- So is a rational beyond the range. -/
lemma exists_ofRat_eq_infinite (h : overflow ≤ |q|) : ∃ negative, ofRat q = .infinite negative := by
  unfold ofRat
  split
  · next hneg =>
      rw [abs_of_neg hneg] at h
      exact ⟨_, ofMagnitude_of_overflow _ h⟩
  · next hpos =>
      rw [abs_of_nonneg (not_lt.mp hpos)] at h
      exact ⟨_, ofMagnitude_of_overflow _ h⟩

/-- **The rationals in range** are those that are rounded to a finite number. -/
theorem isFinite_ofRat : (ofRat q).isFinite = true ↔ |q| < overflow := by
  refine ⟨fun h => ?_, fun h => (ofRat_spec h).1⟩
  by_contra hover
  obtain ⟨negative, hq⟩ := exists_ofRat_eq_infinite (not_lt.mp hover)
  rw [hq] at h
  cases h

/-! ## Operations -/

lemma value_ofMagnitude (negative : Bool) (hq : 0 ≤ q) (h : q < overflow) :
    (ofMagnitude negative q).value = rounded (if negative then -q else q) := by
  obtain ⟨m, e, hc, heq, hvalue⟩ := ofMagnitude_spec negative hq h
  rw [heq, value_finite, hvalue, rounded_signed negative hq]

/-- A rational in range is rounded. -/
theorem value_ofRat (h : |q| < overflow) : (ofRat q).value = rounded q := by
  unfold ofRat
  split
  · next hneg =>
      rw [abs_of_neg hneg] at h
      rw [value_ofMagnitude true (by linarith) h, if_pos rfl, neg_neg]
  · next hpos =>
      rw [abs_of_nonneg (not_lt.mp hpos)] at h
      rw [value_ofMagnitude false (not_lt.mp hpos) h]
      rfl

/-- A sum in range is the exact one, rounded. -/
theorem value_add (hx : x.isFinite = true) (hy : y.isFinite = true)
    (h : |x.value + y.value| < overflow) : (x.add y).value = rounded (x.value + y.value) := by
  cases x <;> cases y <;> cases hx <;> cases hy
  unfold add
  dsimp only
  split
  · next hzero => rw [hzero, rounded_zero, zero, value_finite]; simp
  · exact value_ofRat h

/-- A product in range is the exact one, rounded. -/
theorem value_mul (hx : x.isFinite = true) (hy : y.isFinite = true)
    (h : |x.value * y.value| < overflow) : (x.mul y).value = rounded (x.value * y.value) := by
  cases x with
  | nan mark => cases hx
  | infinite negative => cases hx
  | finite s m e hm =>
      cases y with
      | nan mark => cases hy
      | infinite negative => cases hy
      | finite t n f hn =>
          rw [abs_mul, abs_value_finite, abs_value_finite] at h
          unfold mul
          simp only [twoPow_eq]
          rw [value_ofMagnitude _ (by positivity) h]
          congr 1
          cases s <;> cases t <;> simp

/-- What is not finite stays so in a sum. -/
lemma isFinite_of_add (h : (x.add y).isFinite = true) : x.isFinite = true := by
  cases x with
  | finite s m e hc => rfl
  | nan mark => cases h
  | infinite s =>
      cases y with
      | nan mark => cases h
      | finite t n f hn => cases h
      | infinite t =>
          unfold add at h
          dsimp only at h
          split at h <;> cases h

/-- And in a product. -/
lemma isFinite_of_mul (h : (x.mul y).isFinite = true) : x.isFinite = true := by
  cases x with
  | finite s m e hc => rfl
  | nan mark => cases h
  | infinite s =>
      cases y with
      | nan mark => cases h
      | infinite t => cases h
      | finite t n f hn =>
          unfold mul at h
          dsimp only at h
          split at h <;> cases h

end Mailshot.Binary64
