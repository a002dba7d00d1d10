/-!
# Bytes in letters

Bytes may be written in letters that count six bits each.

* `Base64.sextet?` — the bits that a letter counts.
* `Base64.decode?` — the bytes of a text.  What is no letter is passed over; the text ends at the signs
  that fill up a group of four, and must end with a group.
-/

namespace Mailshot.Yaml.Base64

/-- The number that a letter stands for. -/
def sextet? (c : Char) : Option Nat :=
  if 'A' ≤ c ∧ c ≤ 'Z' then some (c.toNat - 'A'.toNat)
  else if 'a' ≤ c ∧ c ≤ 'z' then some (c.toNat - 'a'.toNat + 26)
  else if '0' ≤ c ∧ c ≤ '9' then some (c.toNat - '0'.toNat + 52)
  else if c = '+' then some 62
  else if c = '/' then some 63
  else none

/-- The sign that fills up a group. -/
def filler : Char := '='

/-- The letters in front of the fillers that end the text, as numbers; and how many of them stand in
the last group.  `count` letters stand in the open group, and `fillers` signs directly behind them. -/
def letters : Nat → Nat → List Char → List Nat × Nat
  | count, _, [] => ([], count)
  | count, fillers, c :: rest =>
      if c = filler then
        if 2 ≤ count ∧ 4 ≤ count + fillers + 1 then ([], 0)
        else letters count (if 2 ≤ count then fillers + 1 else fillers) rest
      else match sextet? c with
        | none => letters count fillers rest
        | some n =>
            let (more, last) := letters ((count + 1) % 4) 0 rest
            (n :: more, last)

/-- The bytes of groups of letters; a group of two or three letters has one byte less. -/
def bytes : List Nat → List UInt8
  | a :: b :: c :: d :: rest =>
      UInt8.ofNat (a * 4 + b / 16) :: UInt8.ofNat (b % 16 * 16 + c / 4) ::
        UInt8.ofNat (c % 4 * 64 + d) :: bytes rest
  | [a, b, c] => [UInt8.ofNat (a * 4 + b / 16), UInt8.ofNat (b % 16 * 16 + c / 4)]
  | [a, b] => [UInt8.ofNat (a * 4 + b / 16)]
  | _ => []

/-- The bytes of a text in ASCII, unless a group at its end is not filled up. -/
def decode? (cs : List Char) : Option (List UInt8) :=
  if cs.any fun c => 128 ≤ c.toNat then none
  else
    let (found, unfilled) := letters 0 0 cs
    if unfilled = 0 then some (bytes found) else none

end Mailshot.Yaml.Base64
