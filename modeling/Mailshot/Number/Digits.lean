/-!
# Digits

* `Digits.written` — a natural number in a base, padded with zeros to a width.
* `Digits.natural?` — the natural number that digits of a base stand for.
* `Digits.splitSign` — an optional sign and what follows it.
-/

namespace Mailshot.Digits

/-- A natural number in a base up to sixteen, padded with zeros to a width. -/
def written (base width n : Nat) : List Char :=
  let digits := Nat.toDigits base n
  List.replicate (width - digits.length) '0' ++ digits

/-- The value of a digit of a base up to sixteen. -/
def value? (c : Char) : Option Nat :=
  if '0' ≤ c ∧ c ≤ '9' then some (c.toNat - '0'.toNat)
  else if 'a' ≤ c ∧ c ≤ 'f' then some (c.toNat - 'a'.toNat + 10)
  else if 'A' ≤ c ∧ c ≤ 'F' then some (c.toNat - 'A'.toNat + 10)
  else none

/-- The natural number written in a base; there must be a digit, and every character must be one. -/
def natural? (base : Nat) : List Char → Option Nat
  | [] => none
  | cs => cs.foldlM (fun total c => do
      let d ← value? c
      if d < base then some (total * base + d) else none) 0

/-- Whether there is a minus in front, and what follows the sign, if there is a sign. -/
def splitSign : List Char → Bool × List Char
  | '-' :: rest => (true, rest)
  | '+' :: rest => (false, rest)
  | rest => (false, rest)

end Mailshot.Digits
