import Mailshot.Number.Digits
import Mailshot.Number.Shortest

/-!
# How numbers are written and read

* `DecimalStyle` — the decisions of a written form that the shortest digits leave open.
* `Binary64.text` — the written form used wherever a number is shown.
* `Binary64.read?` — reading a decimal: the number nearest to the rational it stands for.
-/

namespace Mailshot

/-! ## Writing -/

/-- What a written form decides beyond the digits. -/
structure DecimalStyle where
  /-- The least exponent of the first digit that is still written positionally. -/
  positionalFrom : Int
  /-- The first exponent that is no longer written positionally. -/
  positionalBelow : Int
  /-- What follows the digits of a whole number in positional form. -/
  wholeEnding : List Char
  /-- The mark in front of an exponent. -/
  exponentMark : Char
  /-- The least number of digits of an exponent. -/
  exponentWidth : Nat
  infinityText : List Char
  nanText : List Char

/-- Shown numbers are positional from `0.0001` up to, but not including, ten to the sixteenth; a
whole one ends in `.0`, and an exponent has a sign and two digits at least. -/
def DecimalStyle.shown : DecimalStyle where
  positionalFrom := -4
  positionalBelow := 16
  wholeEnding := ['.', '0']
  exponentMark := 'e'
  exponentWidth := 2
  infinityText := ['i', 'n', 'f']
  nanText := ['n', 'a', 'n']

namespace Decimal

/-- An exponent with its sign, padded with zeros to the width of the style. -/
def exponentText (style : DecimalStyle) (exponent : Int) : List Char :=
  let sign := if exponent < 0 then '-' else '+'
  style.exponentMark :: sign :: Digits.written 10 style.exponentWidth exponent.natAbs

/-- Digits with the point at its place, zeros filling the gap on either side. -/
def positional (style : DecimalStyle) (d : Decimal) : List Char :=
  if d.point ≤ 0 then
    '0' :: '.' :: (List.replicate (-d.point).toNat '0' ++ d.digits)
  else if (d.digits.length : Int) ≤ d.point then
    d.digits ++ List.replicate (d.point.toNat - d.digits.length) '0' ++ style.wholeEnding
  else
    d.digits.take d.point.toNat ++ '.' :: d.digits.drop d.point.toNat

/-- The first digit, the others behind the point, and the exponent of the first digit. -/
def scientific (style : DecimalStyle) (d : Decimal) : List Char :=
  match d.digits with
  | [] => []
  | [first] => first :: exponentText style (d.point - 1)
  | first :: rest => first :: '.' :: (rest ++ exponentText style (d.point - 1))

/-- A magnitude in positional or scientific form, as the style decides. -/
def written (style : DecimalStyle) (d : Decimal) : List Char :=
  let exponent := d.point - 1
  if style.positionalFrom ≤ exponent ∧ exponent < style.positionalBelow then d.positional style
  else d.scientific style

end Decimal

namespace Binary64

/-- A number in the given style.  Zero has the one digit `0` in front of the point. -/
def written (style : DecimalStyle) : Binary64 → List Char
  | .nan _ => style.nanText
  | .infinite negative => (if negative then ['-'] else []) ++ style.infinityText
  | .finite negative mantissa exponent _ =>
      let decimal := if mantissa = 0 then ⟨['0'], 1⟩ else shortest mantissa exponent
      (if negative then ['-'] else []) ++ decimal.written style

/-- The text of a number. -/
def text (x : Binary64) : String := String.ofList (x.written .shown)

/-! ## Reading -/

/-- The exponent behind its mark, zero when there is none. -/
def readExponent? : List Char → Option Int
  | [] => some 0
  | mark :: rest =>
      if mark = 'e' ∨ mark = 'E' then
        let (negative, digits) := Digits.splitSign rest
        (Digits.natural? 10 digits).map fun n => if negative then -(n : Int) else (n : Int)
      else none

/-- The nearest number to `digits * 10 ^ exponent`.  An exponent far outside the range is decided
without forming the power of ten. -/
def ofScaled (negative : Bool) (digits : Nat) (exponent : Int) : Binary64 :=
  let size : Int := (Nat.toDigits 10 digits).length
  if digits = 0 then zero negative
  else if 400 < size + exponent then .infinite negative
  else if size + exponent < -400 then zero negative
  else ofMagnitude negative ((digits : Rat) * tenPow exponent)

/-- A decimal: a sign, digits with at most one point among or beside them, an exponent. -/
def readDecimal? (cs : List Char) : Option Binary64 :=
  let (negative, unsigned) := Digits.splitSign cs
  let whole := unsigned.takeWhile Char.isDigit
  let afterWhole := unsigned.dropWhile Char.isDigit
  let (fraction, ending) := match afterWhole with
    | '.' :: rest => (rest.takeWhile Char.isDigit, rest.dropWhile Char.isDigit)
    | rest => ([], rest)
  match Digits.natural? 10 (whole ++ fraction), readExponent? ending with
  | some digits, some exponent =>
      some (ofScaled negative digits (exponent - (fraction.length : Int)))
  | _, _ => none

/-- A decimal, or one of the words for the values that have no digits. -/
def read? (cs : List Char) : Option Binary64 :=
  let (negative, word) := Digits.splitSign cs
  if word = ['i', 'n', 'f'] ∨ word = ['i', 'n', 'f', 'i', 'n', 'i', 't', 'y'] then
    some (.infinite negative)
  else if word = ['n', 'a', 'n'] then some notNumber
  else readDecimal? cs

end Binary64

end Mailshot
