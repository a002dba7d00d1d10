import Mailshot.Proofs.Rounding
import Mailshot.Value.Basic

/-!
# Keys of any kind

A key of a mapping need not be a text, and a key can be held in several ways: the number one is the
same key as an integer, in double precision and as a truth value, and a moment is the same key at
every offset.  To be the same key is an equivalence all the same, which look-ups rest on.

* `Binary64.canonical_unique` — a finite number is held in one way, but for the sign of zero.
* `Number.same_comm`, `Number.same_trans`, `Moment.same_iff` — numbers and moments that are the same
  key.
* **`Scalar.same_congr`** — keys that are the same are the same as any third.
-/

namespace Mailshot

/-! ## Numbers -/

namespace Binary64

variable {x y z : Binary64} {i j : ℤ}

/-- A value is not held with two exponents: the larger one would be above the least exponent, so its
mantissa would be full, and the other mantissa would have a bit more than a full one. -/
lemma exponent_le {m n : ℕ} {e f : ℤ} (hm : Canonical m e) (hn : Canonical n f)
    (h : (m : ℚ) * 2 ^ e = n * 2 ^ f) : f ≤ e := by
  obtain ⟨hfull, hleast, -, -⟩ := hm
  obtain ⟨-, -, -, hn⟩ := hn
  by_contra hlt
  obtain ⟨k, rfl⟩ : ∃ k : ℕ, f = e + (k + 1 : ℕ) := ⟨(f - e - 1).toNat, by omega⟩
  have hn : leadingBit ≤ n := hn.resolve_right (by omega)
  rw [zpow_add₀ two_ne_zero, zpow_natCast, mul_left_comm, mul_comm (m : ℚ)] at h
  have hmantissa : (m : ℚ) = n * 2 ^ (k + 1) := mul_left_cancel₀ (by positivity) h
  have hmantissa : m = n * 2 ^ (k + 1) := by exact_mod_cast hmantissa
  have hpow : n * 2 ^ 1 ≤ n * 2 ^ (k + 1) :=
    Nat.mul_le_mul_left n (Nat.pow_le_pow_right (by decide) (by omega))
  omega

/-- **Mantissa and exponent** of a magnitude are determined. -/
theorem canonical_unique {m n : ℕ} {e f : ℤ} (hm : Canonical m e) (hn : Canonical n f)
    (h : (m : ℚ) * 2 ^ e = n * 2 ^ f) : m = n ∧ e = f := by
  obtain rfl : e = f := le_antisymm (exponent_le hn hm h.symm) (exponent_le hm hn h)
  have hmantissa : (m : ℚ) = n := mul_right_cancel₀ (by positivity) h
  exact ⟨by exact_mod_cast hmantissa, rfl⟩

/-- Two numbers that are one integer are one key. -/
lemma same_of_isInt (hx : x.isInt i = true) (hy : y.isInt i = true) : x.same y = true := by
  cases x with
  | nan | infinite => simp [isInt] at hx
  | finite s m e hm =>
  cases y with
  | nan | infinite => simp [isInt] at hy
  | finite t n f hn =>
  simp only [isInt, decide_eq_true_eq] at hx hy
  have hvalue := hx.trans hy.symm
  obtain ⟨rfl, rfl⟩ := canonical_unique hm hn (by
    rw [← abs_value_finite s m e hm, ← abs_value_finite t n f hn, hvalue])
  rw [value_finite, value_finite] at hvalue
  rcases eq_or_ne m 0 with rfl | hne
  · simp [same, isZero]
  · have hpos : (0 : ℚ) < m * 2 ^ e := by positivity
    cases s <;> cases t <;> simp [same] at hvalue ⊢ <;> linarith

lemma isInt_of_isZero (hx : x.isZero = true) (hy : y.isZero = true) : x.isInt i = y.isInt i := by
  cases x with
  | nan | infinite => simp [isZero] at hx
  | finite s m e hm =>
  cases y with
  | nan | infinite => simp [isZero] at hy
  | finite t n f hn =>
  simp only [isZero, beq_iff_eq] at hx hy
  subst hx hy
  simp [isInt]

lemma same_comm (x y : Binary64) : x.same y = y.same x := by
  unfold same
  rw [Bool.and_comm, decide_eq_decide.mpr eq_comm]

lemma same_trans (h : x.same y = true) (h' : y.same z = true) : x.same z = true := by
  simp only [same, Bool.or_eq_true, decide_eq_true_eq, Bool.and_eq_true] at h h' ⊢
  rcases h with rfl | ⟨hx, hy⟩
  · exact h'
  · rcases h' with rfl | ⟨-, hz⟩
    · exact .inr ⟨hx, hy⟩
    · exact .inr ⟨hx, hz⟩

/-- Numbers that are one key are the same integers. -/
lemma isInt_of_same (h : x.same y = true) : x.isInt i = y.isInt i := by
  simp only [same, Bool.or_eq_true, decide_eq_true_eq, Bool.and_eq_true] at h
  rcases h with rfl | ⟨hx, hy⟩
  · rfl
  · exact isInt_of_isZero hx hy

/-- A number is one integer at most. -/
lemma eq_of_isInt (hi : x.isInt i = true) (hj : x.isInt j = true) : i = j := by
  cases x with
  | nan | infinite => simp [isInt] at hi
  | finite s m e h =>
  simp only [isInt, decide_eq_true_eq] at hi hj
  exact_mod_cast hi.symm.trans hj

end Binary64

namespace Number

variable {a b c : Number}

lemma same_comm (a b : Number) : a.same b = b.same a := by
  cases a <;> cases b <;> simp only [same]
  · exact decide_eq_decide.mpr eq_comm
  · exact Binary64.same_comm _ _

/-- Numbers that are one key with a third are one key. -/
lemma same_trans (h : a.same b = true) (h' : b.same c = true) : a.same c = true := by
  cases a with
  | int i =>
      cases b with
      | int j =>
          obtain rfl : i = j := by simpa [same] using h
          exact h'
      | float y =>
          cases c with
          | int k => simpa [same] using Binary64.eq_of_isInt h h'
          | float z => exact (Binary64.isInt_of_same h').symm.trans h
  | float x =>
      cases b with
      | int j =>
          cases c with
          | int k =>
              obtain rfl : j = k := by simpa [same] using h'
              exact h
          | float z => exact Binary64.same_of_isInt h h'
      | float y =>
          cases c with
          | int k => exact (Binary64.isInt_of_same h).trans h'
          | float z => exact Binary64.same_trans h h'

end Number

/-! ## Moments -/

/-- What a moment is compared by: the point of time where it has an offset, or else all of it. -/
def Moment.instant (m : Moment) : Moment ⊕ ℤ × ℕ × ℕ :=
  match m.offset with
  | none => .inl m
  | some p => .inr (m.clockMinute - p, m.second, m.microsecond)

lemma Moment.same_iff (m n : Moment) : m.same n = true ↔ m.instant = n.instant := by
  unfold same instant
  cases m.offset <;> cases n.offset <;> simp [and_assoc]

/-! ## Scalars -/

namespace Scalar

variable {a b c : Scalar}

/-- What a key that is no number is compared by. -/
def point : Scalar → Scalar ⊕ Moment ⊕ ℤ × ℕ × ℕ
  | .moment m => .inr m.instant
  | s => .inl s

/-- Keys are compared as numbers, if both are, or by what they stand for, if neither is. -/
lemma same_iff (a b : Scalar) : a.same b = true ↔
    (∃ x y, a.number? = some x ∧ b.number? = some y ∧ x.same y = true) ∨
      a.number? = none ∧ b.number? = none ∧ a.point = b.point := by
  unfold same
  cases ha : a.number? with
  | some x => cases b.number? <;> simp
  | none =>
      cases hb : b.number? with
      | some y => simp
      | none => cases a <;> cases b <;> simp [point, Moment.same_iff] at ha hb ⊢

lemma same_comm (a b : Scalar) : a.same b = b.same a := by
  rw [Bool.eq_iff_iff, same_iff, same_iff]
  constructor
  · rintro (⟨x, y, hx, hy, h⟩ | ⟨ha, hb, h⟩)
    · exact .inl ⟨y, x, hy, hx, Number.same_comm x y ▸ h⟩
    · exact .inr ⟨hb, ha, h.symm⟩
  · rintro (⟨x, y, hx, hy, h⟩ | ⟨ha, hb, h⟩)
    · exact .inl ⟨y, x, hy, hx, Number.same_comm x y ▸ h⟩
    · exact .inr ⟨hb, ha, h.symm⟩

lemma same_trans (h : a.same b = true) (h' : b.same c = true) : a.same c = true := by
  rw [same_iff] at h h' ⊢
  rcases h with ⟨x, y, hx, hy, h⟩ | ⟨ha, hb, h⟩
  · rcases h' with ⟨y', z, hy', hz, h'⟩ | ⟨hb, -, -⟩
    · obtain rfl := Option.some.inj (hy.symm.trans hy')
      exact .inl ⟨x, z, hx, hz, Number.same_trans h h'⟩
    · simp [hy] at hb
  · rcases h' with ⟨y, z, hy, -, -⟩ | ⟨-, hc, h'⟩
    · simp [hb] at hy
    · exact .inr ⟨ha, hc, h.trans h'⟩

/-- **Keys that are the same** are the same as any third. -/
theorem same_congr (h : a.same b = true) (c : Scalar) : a.same c = b.same c := by
  rw [Bool.eq_iff_iff]
  exact ⟨same_trans (same_comm a b ▸ h), same_trans h⟩

end Scalar

end Mailshot
