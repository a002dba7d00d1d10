/-!
# Double-precision numbers, exactly

Widths and configured numbers are binary64 numbers, and a pixel count depends on the last bit of
every step.  A number is kept here as what it is, a signed mantissa times a power of two, and every
operation is the exact rational result rounded once, half to even.

* `Binary64.Canonical` — which pairs of mantissa and exponent stand for a number; with it two equal
  finite numbers are the same data, signed zeros apart.
* `Binary64.ofRat` — the nearest number to a rational; beyond the range it is an infinity.
* `Binary64.add`, `Binary64.mul` — sum and product, correctly rounded.
* `Binary64.floor?` — the greatest integer below a finite number.
-/

namespace Mailshot

/-- The leading one of the 53 bits of a full mantissa, which is `2 ^ 52`. -/
abbrev Binary64.leadingBit : Nat := 4503599627370496

/-- The pairs `mantissa * 2 ^ exponent` that are kept: 53 bits at most, the exponent in range, and
the mantissa full unless the exponent is already the least one. -/
def Binary64.Canonical (mantissa : Nat) (exponent : Int) : Prop :=
  mantissa < 2 * leadingBit ∧ -1074 ≤ exponent ∧ exponent ≤ 971 ∧
    (leadingBit ≤ mantissa ∨ exponent = -1074)

instance (mantissa : Nat) (exponent : Int) : Decidable (Binary64.Canonical mantissa exponent) := by
  unfold Binary64.Canonical; infer_instance

/-- A double-precision number. -/
inductive Binary64
  /-- The value that is no number.  Such values behave alike, but two of them are one key of a mapping
  only if they are the same one, so each has a mark of its own. -/
  | nan (mark : Nat)
  | infinite (negative : Bool)
  | finite (negative : Bool) (mantissa : Nat) (exponent : Int)
      (canonical : Binary64.Canonical mantissa exponent)
deriving DecidableEq

namespace Binary64

/-- The value that is no number, as arithmetic gives it. -/
def notNumber : Binary64 := .nan 0

instance : Inhabited Binary64 := ⟨notNumber⟩

/-! ## Exact values -/

/-- The rational `base ^ exponent`. -/
def scale (base : Nat) (exponent : Int) : Rat :=
  if 0 ≤ exponent then (base.pow exponent.toNat : Rat) else mkRat 1 (base.pow (-exponent).toNat)

/-- The rational `2 ^ exponent`. -/
def twoPow (exponent : Int) : Rat := scale 2 exponent

/-- The rational that a finite number is; the others count as zero here. -/
def value : Binary64 → Rat
  | .finite negative mantissa exponent _ =>
      let magnitude := (mantissa : Rat) * twoPow exponent
      if negative then -magnitude else magnitude
  | _ => 0

/-- The two zeros. -/
def zero (negative : Bool) : Binary64 := .finite negative 0 (-1074) (by decide)

/-- Whether a number is one of the two zeros. -/
def isZero : Binary64 → Bool
  | .finite _ mantissa _ _ => mantissa == 0
  | _ => false

/-! ## Rounding -/

/-- The nearest natural number to a rational that is not negative, a half going to the even one. -/
def roundHalfEven (q : Rat) : Nat :=
  let below := q.floor.toNat
  let rest := q - (below : Rat)
  if rest < mkRat 1 2 then below
  else if mkRat 1 2 < rest then below + 1
  else if below % 2 = 0 then below else below + 1

/-- The exponent `k` with `2 ^ k ≤ q < 2 ^ (k + 1)`, for a positive rational. -/
def binade (q : Rat) : Int :=
  let guess : Int := (q.num.toNat.log2 : Int) - (q.den.log2 : Int)
  if q < twoPow guess then guess - 1 else guess

/-- A finite number from its parts, or the infinity of its sign when they are out of range. -/
def ofParts (negative : Bool) (mantissa : Nat) (exponent : Int) : Binary64 :=
  if h : Canonical mantissa exponent then .finite negative mantissa exponent h
  else .infinite negative

/-- The nearest number of the given sign to a magnitude.  The mantissa is rounded at the last place
of the magnitude's binade; when that fills a 54th bit, the number is the next power of two. -/
def ofMagnitude (negative : Bool) (magnitude : Rat) : Binary64 :=
  if magnitude = 0 then zero negative
  else
    let exponent := max (binade magnitude - 52) (-1074)
    let mantissa := roundHalfEven (magnitude * twoPow (-exponent))
    if mantissa = 2 * leadingBit then ofParts negative leadingBit (exponent + 1)
    else ofParts negative mantissa exponent

/-- The nearest number to a rational; zero is the positive one. -/
def ofRat (q : Rat) : Binary64 :=
  if q < 0 then ofMagnitude true (-q) else ofMagnitude false q

/-- The nearest number to an integer. -/
def ofInt (i : Int) : Binary64 := ofRat (i : Rat)

/-- One half. -/
def half : Binary64 := ofRat (mkRat 1 2)

/-! ## Arithmetic -/

/-- The same magnitude with the other sign. -/
def neg : Binary64 → Binary64
  | .nan mark => .nan mark
  | .infinite negative => .infinite !negative
  | .finite negative mantissa exponent h => .finite (!negative) mantissa exponent h

/-- Sum.  A sum that is exactly zero is negative only when both terms are. -/
def add : Binary64 → Binary64 → Binary64
  | .nan _, _ => notNumber
  | _, .nan _ => notNumber
  | .infinite s, .infinite t => if s = t then .infinite s else notNumber
  | .infinite s, .finite _ _ _ _ => .infinite s
  | .finite _ _ _ _, .infinite t => .infinite t
  | .finite s m e h, .finite t n f k =>
      let sum := (finite s m e h).value + (finite t n f k).value
      if sum = 0 then zero (s && t) else ofRat sum

/-- Difference. -/
def sub (x y : Binary64) : Binary64 := x.add y.neg

/-- Product.  Its sign is that of the factors together, also when it rounds to zero. -/
def mul : Binary64 → Binary64 → Binary64
  | .nan _, _ => notNumber
  | _, .nan _ => notNumber
  | .infinite s, .infinite t => .infinite (s != t)
  | .infinite s, .finite t n _ _ => if n = 0 then notNumber else .infinite (s != t)
  | .finite s m _ _, .infinite t => if m = 0 then notNumber else .infinite (s != t)
  | .finite s m e _, .finite t n f _ =>
      ofMagnitude (s != t) ((m : Rat) * twoPow e * ((n : Rat) * twoPow f))

/-- The greatest integer that is not above a finite number. -/
def floor? : Binary64 → Option Int
  | .finite s m e h => some (finite s m e h).value.floor
  | _ => none

end Binary64

end Mailshot
