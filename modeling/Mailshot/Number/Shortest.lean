import Mailshot.Number.Binary64

/-!
# The shortest decimal of a double-precision number

A finite number is written with the fewest significant digits that read back as the same number
and, of those, with the digits nearest to it.

* `Decimal` — digits and the place of the decimal point.
* `Binary64.readsBackAs` — the interval of magnitudes that round to a number.
* `Binary64.shortest` — the shortest decimal: for one, two, … seventeen digits the two neighbours of
  the number on that decimal grid are tried, and the first grid with a hit wins.
-/

namespace Mailshot

/-- A decimal magnitude `0.d₁d₂… * 10 ^ point`. -/
structure Decimal where
  digits : List Char
  point : Int
deriving DecidableEq, Repr

namespace Binary64

/-- The rational `10 ^ exponent`. -/
def tenPow (exponent : Int) : Rat := scale 10 exponent

/-- Whether a magnitude rounds to `mantissa * 2 ^ exponent`.  The ends of the interval belong to it
when the mantissa is even; below a power of two the neighbour is half as far away. -/
def readsBackAs (mantissa : Nat) (exponent : Int) (magnitude : Rat) : Bool :=
  let value := (mantissa : Rat) * twoPow exponent
  let gapBelow :=
    if mantissa = leadingBit ∧ -1074 < exponent then twoPow (exponent - 2) else twoPow (exponent - 1)
  let low := value - gapBelow
  let high := value + twoPow (exponent - 1)
  if mantissa % 2 = 0 then low ≤ magnitude && magnitude ≤ high
  else low < magnitude && magnitude < high

/-- The exponent `k` with `10 ^ k ≤ q < 10 ^ (k + 1)` for a positive rational, found by counting the
digits of its whole part or the zeros that open its fraction. -/
def decade (q : Rat) : Int :=
  let count (n : Nat) : Int := (Nat.toDigits 10 n).length
  let guess : Int := count q.num.toNat - count q.den
  if q < tenPow guess then guess - 1 else guess

/-- The neighbour on the grid of step `10 ^ place` that reads back, the nearer one if both do and
the even one if they are equally near. -/
def onGrid? (mantissa : Nat) (exponent place : Int) : Option Nat :=
  let value := (mantissa : Rat) * twoPow exponent
  let scaled := value * tenPow (-place)
  let below := scaled.floor.toNat
  let fits (n : Nat) : Bool := readsBackAs mantissa exponent ((n : Rat) * tenPow place)
  match fits below, fits (below + 1) with
  | false, false => none
  | true, false => some below
  | false, true => some (below + 1)
  | true, true =>
      let rest := scaled - (below : Rat)
      if rest < mkRat 1 2 then some below
      else if mkRat 1 2 < rest then some (below + 1)
      else some (if below % 2 = 0 then below else below + 1)

/-- The shortest decimal of a positive finite magnitude. -/
def shortest (mantissa : Nat) (exponent : Int) : Decimal :=
  let top := decade ((mantissa : Rat) * twoPow exponent)
  let attempt (count : Nat) : Option Decimal :=
    let place := top - (count : Int)
    (onGrid? mantissa exponent place).map fun n =>
      let digits := Nat.toDigits 10 n
      ⟨(digits.reverse.dropWhile (· == '0')).reverse, (digits.length : Int) + place⟩
  ((List.range 17).findSome? attempt).getD ⟨['0'], 0⟩

end Binary64

end Mailshot
