import Mailshot.Proofs.Widths

/-!
# Widths in exact terms

A width is a chain of roundings: the content is made a double-precision number, scaled, raised by one
half, and what is below it is the number of pixels.  Here the chain is put in terms of rationals, with
the range of the contents that it does not leave.

* `Width.pixels` — the pixels of a length that is scaled, on rationals.
* `Width.roundHalfUp_mul` — a finite number scaled and rounded has just those.
* `Number.half?_int`, `Number.toBinary64?_int` — the integers that are in range, and their halves.
* **`Width.grid_eq_ok`**, **`Width.banner_eq_ok`** — the widths of a content of any kind, and where they
  cannot be computed.
* `Width.grid_int_eq_ok`, `Width.banner_int_eq_ok` — the same for integers.
-/

namespace Mailshot

open Binary64

/-! ## Numbers in range -/

namespace Number

variable {x : Binary64} {q : ℚ} {i : ℤ}

/-- Of the nearest number to a rational, only an infinity is out of range. -/
lemma ofRat_eq_some : (match ofRat q with
      | .infinite _ => none
      | y => some y) = some x ↔ |q| < overflow ∧ ofRat q = x := by
  by_cases h : |q| < overflow
  · have hsome := some_of_isFinite (isFinite_ofRat.mpr h)
    exact (Eq.congr_left hsome).trans (by rw [Option.some_inj, and_iff_right h])
  · obtain ⟨negative, hq⟩ := exists_ofRat_eq_infinite (not_lt.mp h)
    simp [hq, h]

/-- An integer in range is rounded once. -/
lemma toBinary64?_int : (int i).toBinary64? = some x ↔ |(i : ℚ)| < overflow ∧ ofRat i = x :=
  ofRat_eq_some

/-- And so is its half. -/
lemma half?_int : (int i).half? = some x ↔ |(i : ℚ) / 2| < overflow ∧ ofRat (i / 2) = x := by
  have hhalf : mkRat i 2 = (i : ℚ) / 2 := by rw [Rat.mkRat_eq_div, Nat.cast_ofNat]
  rw [← hhalf]
  exact ofRat_eq_some

end Number

namespace Width

variable {x s : Binary64} {content : Value} {tier : Tier} {n w : ℤ}

/-! ## Scales -/

lemma gridScale_nonneg (tier : Tier) : 0 ≤ (gridScale tier).value := by
  cases tier <;> norm_num [value_gridScale]

lemma bannerScale_nonneg (tier : Tier) : 0 ≤ (bannerScale tier).value := by
  cases tier <;> norm_num [value_bannerScale]

/-! ## Scaling -/

/-- The pixels of a length that is scaled: the product is rounded, and so is one half more. -/
def pixels (length scale : ℚ) : ℤ := ⌊rounded (rounded (length * scale) + 1 / 2)⌋

/-- A finite number is rounded half up. -/
lemma roundHalfUp_eq (hx : x.isFinite = true) :
    roundHalfUp x = .ok ⌊rounded (x.value + 1 / 2)⌋ := by
  have hfinite := isFinite_add hx half_spec.1 (abs_add_half_lt x)
  have hvalue := value_add hx half_spec.1 (abs_add_half_lt x)
  have hfloor : (x.add half).floor? = some ⌊(x.add half).value⌋ := by
    cases hraised : x.add half with
    | finite s m e h => rfl
    | nan mark => rw [hraised] at hfinite; cases hfinite
    | infinite s => rw [hraised] at hfinite; cases hfinite
  unfold roundHalfUp
  dsimp only
  rw [hfloor, hvalue, half_spec.2]

/-- Nothing else can be rounded. -/
lemma isFinite_of_roundHalfUp (h : roundHalfUp x = .ok n) : x.isFinite = true := by
  refine isFinite_of_add (y := half) ?_
  unfold roundHalfUp at h
  dsimp only at h
  cases hraised : x.add half with
  | finite s m e hc => rfl
  | nan mark => rw [hraised] at h; cases h
  | infinite s => rw [hraised] at h; cases h

/-- **A finite number that is scaled down**, and rounded. -/
theorem roundHalfUp_mul (hx : x.isFinite = true) (hs : s.isFinite = true ∧ |s.value| ≤ 1) :
    roundHalfUp (x.mul s) = .ok (pixels x.value s.value) := by
  rw [roundHalfUp_eq (isFinite_scaled hx hs), value_mul hx hs.1 (abs_scaled_lt x hs.2)]
  rfl

/-- The gutter never takes a number out of range. -/
lemma abs_sub_gutter_lt (x : Binary64) : |x.value + (ofInt gridGutter).neg.value| < overflow := by
  have hunit : (20 : ℚ) < 2 ^ (971 : ℤ) / 2 := by
    calc (20 : ℚ) < 2 ^ (6 : ℤ) / 2 := by norm_num
      _ ≤ 2 ^ (971 : ℤ) / 2 := by gcongr <;> norm_num
  have hle := abs_value_le x
  refine lt_of_le_of_lt (abs_add_le _ _) ?_
  rw [value_neg, gutter_spec.2, abs_neg, abs_of_pos (by norm_num : (0 : ℚ) < 20)]
  unfold overflow
  generalize (2 : ℚ) ^ (971 : ℤ) = unit at *
  linarith

/-- A column less its gutter. -/
lemma sub_gutter_spec (hx : x.isFinite = true) :
    (x.sub (ofInt gridGutter)).isFinite = true ∧
      (x.sub (ofInt gridGutter)).value = rounded (x.value - 20) := by
  have hgutter := isFinite_neg gutter_spec.1
  refine ⟨isFinite_add hx hgutter (abs_sub_gutter_lt x), ?_⟩
  rw [Binary64.sub, value_add hx hgutter (abs_sub_gutter_lt x), value_neg, gutter_spec.2,
    ← sub_eq_add_neg]

/-! ## Widths -/

lemma number_eq_ok {m : Number} : number content = .ok m ↔ content.number? = some m := by
  unfold number
  cases content.number? <;> simp

lemma inRange_eq_ok {α : Type} {o : Option α} {a : α} : inRange o = .ok a ↔ o = some a := by
  cases o <;> simp [inRange]

/-- **The width of an image in the grid**: it has one if half of the content is a finite number. -/
theorem grid_eq_ok : grid content tier = .ok n ↔ ∃ m x, content.number? = some m ∧
    m.half? = some x ∧ x.isFinite = true ∧
    pixels (rounded (x.value - 20)) (gridScale tier).value = n := by
  simp only [grid, bind_eq_ok, number_eq_ok, inRange_eq_ok]
  refine exists_congr fun m => ?_
  rw [← exists_and_left]
  refine exists_congr fun x => and_congr_right fun _ => and_congr_right fun _ => ?_
  constructor
  · intro h
    have hx : x.isFinite = true := isFinite_of_add (isFinite_of_mul (isFinite_of_roundHalfUp h))
    obtain ⟨hfinite, hvalue⟩ := sub_gutter_spec hx
    rw [roundHalfUp_mul hfinite (gridScale_spec tier), hvalue] at h
    exact ⟨hx, Except.ok.inj h⟩
  · rintro ⟨hx, rfl⟩
    obtain ⟨hfinite, hvalue⟩ := sub_gutter_spec hx
    rw [roundHalfUp_mul hfinite (gridScale_spec tier), hvalue]

/-- **The width of the image of a banner**: it has one if the content is a finite number. -/
theorem banner_eq_ok : banner content tier = .ok n ↔ ∃ m x, content.number? = some m ∧
    m.toBinary64? = some x ∧ x.isFinite = true ∧
    pixels x.value (bannerScale tier).value = n := by
  simp only [banner, bind_eq_ok, number_eq_ok, inRange_eq_ok]
  refine exists_congr fun m => ?_
  rw [← exists_and_left]
  refine exists_congr fun x => and_congr_right fun _ => and_congr_right fun _ => ?_
  constructor
  · intro h
    have hx := isFinite_of_mul (isFinite_of_roundHalfUp h)
    rw [roundHalfUp_mul hx (bannerScale_spec tier)] at h
    exact ⟨hx, Except.ok.inj h⟩
  · rintro ⟨hx, rfl⟩
    exact roundHalfUp_mul hx (bannerScale_spec tier)

/-- The grid of an integer. -/
lemma grid_int_eq_ok : grid (.int w) tier = .ok n ↔ |(w : ℚ) / 2| < overflow ∧
    pixels (rounded (rounded (w / 2) - 20)) (gridScale tier).value = n := by
  rw [grid_eq_ok]
  constructor
  · rintro ⟨m, x, hm, hx, -, rfl⟩
    cases hm
    obtain ⟨hrange, rfl⟩ := Number.half?_int.mp hx
    rw [value_ofRat hrange]
    exact ⟨hrange, rfl⟩
  · rintro ⟨hrange, rfl⟩
    refine ⟨_, _, rfl, Number.half?_int.mpr ⟨hrange, rfl⟩, isFinite_ofRat.mpr hrange, ?_⟩
    rw [value_ofRat hrange]

/-- The banner of an integer. -/
lemma banner_int_eq_ok : banner (.int w) tier = .ok n ↔ |(w : ℚ)| < overflow ∧
    pixels (rounded w) (bannerScale tier).value = n := by
  rw [banner_eq_ok]
  constructor
  · rintro ⟨m, x, hm, hx, -, rfl⟩
    cases hm
    obtain ⟨hrange, rfl⟩ := Number.toBinary64?_int.mp hx
    rw [value_ofRat hrange]
    exact ⟨hrange, rfl⟩
  · rintro ⟨hrange, rfl⟩
    refine ⟨_, _, rfl, Number.toBinary64?_int.mpr ⟨hrange, rfl⟩, isFinite_ofRat.mpr hrange, ?_⟩
    rw [value_ofRat hrange]

end Width

end Mailshot
