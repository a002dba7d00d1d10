import Mailshot.Number.Written

/-!
# Configured numbers

A number of a configuration is an integer of any size or a double-precision number.

* `Number.same` — whether two numbers are one key: what they stand for counts, whichever way they
  are held.
* `Number.toBinary64?` — the double-precision number of a configured one, if it is in range.
* `Number.half?`, `Number.less` — halving with one rounding, and exact subtraction of an integer.
* `Number.isIndexBelow` — whether a number lies between zero and a count.
-/

namespace Mailshot

/-- An integer or a double-precision number. -/
inductive Number
  | int (i : Int)
  | float (x : Binary64)
deriving DecidableEq

namespace Binary64

/-- Whether two numbers are one key: the zeros are, and a value that is no number is one key with
itself alone. -/
def same (x y : Binary64) : Bool := x = y || (x.isZero && y.isZero)

/-- Whether a finite number is a given integer. -/
def isInt (x : Binary64) (i : Int) : Bool :=
  match x with
  | .finite s m e h => (finite s m e h).value = (i : Rat)
  | _ => false

end Binary64

namespace Number

/-- Whether two numbers are one key, exact also between the two ways to hold one. -/
def same : Number → Number → Bool
  | .int i, .int j => i = j
  | .float x, .float y => x.same y
  | .int i, .float y => y.isInt i
  | .float x, .int j => x.isInt j

/-- Whether a number is zero. -/
def isZero : Number → Bool
  | .int i => i = 0
  | .float x => x.isZero

/-- The text of a number. -/
def text : Number → String
  | .int i => toString i
  | .float x => x.text

/-- The double-precision number nearest to a number; an integer beyond the range has none. -/
def toBinary64? : Number → Option Binary64
  | .float x => some x
  | .int i => match Binary64.ofInt i with
    | .infinite _ => none
    | x => some x

/-- Half of a number.  The half of an integer is the exact quotient rounded once, so it can be in
range when the integer is not. -/
def half? : Number → Option Binary64
  | .float x => some (x.mul Binary64.half)
  | .int i => match Binary64.ofRat (mkRat i 2) with
    | .infinite _ => none
    | x => some x

/-- A number less a small integer: exact on integers, rounded once otherwise. -/
def less : Number → Int → Number
  | .int i, j => .int (i - j)
  | .float x, j => .float (x.sub (Binary64.ofInt j))

/-- Whether zero is at most the number and the number is below a count. -/
def isIndexBelow : Number → Nat → Bool
  | .int i, count => 0 ≤ i && i < (count : Int)
  | .float (.finite s m e h), count =>
      let value := (Binary64.finite s m e h).value
      0 ≤ value && value < (count : Rat)
  | .float _, _ => false

end Number

end Mailshot
