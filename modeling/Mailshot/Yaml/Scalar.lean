import Mailshot.Fault
import Mailshot.Text.Numeral
import Mailshot.Yaml.Base64
import Mailshot.Yaml.Tag

/-!
# The values of scalars

* `Scalar.ofTagged` — what the text of a scalar stands for under its tag.

A text under a tag written by hand may be anything, so each reader says what is wrong with a text that
does not fit.
-/

namespace Mailshot.Yaml

/-- Characters without those that group digits. -/
def ungrouped (cs : List Char) : List Char := cs.filter (· ≠ '_')

/-! ## Integers -/

namespace Integer

/-- The greatest number of digits of a decimal integer. -/
def digitLimit : Nat := 4300

/-- The letters that may announce a base behind a zero. -/
def baseLetters : List (Nat × List Char) := [(2, ['b', 'B']), (8, ['o', 'O']), (16, ['x', 'X'])]

/-- Digits without the announcement of their base. -/
def unannounced (base : Nat) : List Char → List Char
  | '0' :: letter :: rest =>
      if ((baseLetters.lookup base).getD []).contains letter then rest else '0' :: letter :: rest
  | digits => digits

/-- An integer in a base, with a sign if there is one and blanks around it. -/
def read (base : Nat) (cs : List Char) : Except Fault Int :=
  let (negative, digits) := Digits.splitSign (Text.plainNumeral cs)
  if base = 10 ∧ digitLimit < digits.length then .error .badScalar
  else match Digits.natural? base (unannounced base digits) with
    | some n => .ok (if negative then -(n : Int) else n)
    | none => .error .badScalar

/-- Parts in base sixty, the last one counting ones. -/
def readSixty (parts : List (List Char)) : Except Fault Int := do
  return (← parts.mapM (read 10)).foldl (fun total part => total * 60 + part) 0

/-- An integer without its sign. -/
def readUnsigned (cs : List Char) : Except Fault Int :=
  match cs with
  | [] => .error .emptyNumber
  | ['0'] => .ok 0
  | '0' :: 'b' :: digits => read 2 digits
  | '0' :: 'x' :: digits => read 16 digits
  | '0' :: _ => read 8 cs
  | _ =>
      match Plain.splitAt ':' cs with
      | [_] => read 10 cs
      | parts => readSixty parts

/-- The integer that a text stands for. -/
def ofText (cs : List Char) : Except Fault Int :=
  let cs := ungrouped cs
  if cs.isEmpty then .error .emptyNumber
  else
    let (negative, unsigned) := Digits.splitSign cs
    (readUnsigned unsigned).map fun n => if negative then -n else n

end Integer

/-! ## Numbers with a point -/

namespace Decimal

/-- The mark of a value that is no number where it has the usual notation of one. -/
def usualMark : Nat := 0

/-- A number; if it is none, it gets the given mark. -/
def marked (mark : Nat) : Binary64 → Binary64
  | .nan _ => .nan mark
  | x => x

/-- A number with blanks around it. -/
def read (cs : List Char) : Except Fault Binary64 :=
  match Binary64.read? (Text.plainNumeral cs) with
  | some x => .ok x
  | none => .error .badScalar

/-- The sum of parts in base sixty, from the last one, each product and sum rounded. -/
def sumSixty (total : Binary64) (base : Nat) : List Binary64 → Except Fault Binary64
  | [] => .ok total
  | part :: parts =>
      match (Number.int base).toBinary64? with
      | some weight => sumSixty (total.add (part.mul weight)) (base * 60) parts
      | none => .error .outOfRange

/-- A number without its sign. -/
def readUnsigned (mark : Nat) (cs : List Char) : Except Fault Binary64 :=
  if cs = ".inf".toList then .ok (.infinite false)
  else if cs = ".nan".toList then .ok (.nan usualMark)
  else match Plain.splitAt ':' cs with
    | [_] => (read cs).map (marked mark)
    | parts => do return marked mark (← sumSixty (Binary64.zero false) 1 (← parts.mapM read).reverse)

/-- The number that a text stands for. -/
def ofText (mark : Nat) (cs : List Char) : Except Fault Binary64 :=
  let cs := (ungrouped cs).map Char.toLower
  if cs.isEmpty then .error .emptyNumber
  else
    let (negative, unsigned) := Digits.splitSign cs
    (readUnsigned mark unsigned).map fun x => if negative then x.neg else x

end Decimal

/-! ## Dates, moments and truth values -/

/-- The date or the moment that written parts name; a fraction counts to the sixth digit. -/
def Clock.scalar (clock : Clock) : Except Fault Scalar :=
  match Date.ofParts? clock.year clock.month clock.day, clock.time with
  | none, _ => .error .badScalar
  | some date, none => .ok (.date date)
  | some date, some (hour, minute, second, fraction) =>
      let micros := (Digits.natural? 10 ((fraction ++ List.replicate 6 '0').take 6)).getD 0
      match Moment.ofParts? date hour minute second micros clock.offset with
      | some moment => .ok (.moment moment)
      | none => .error .badScalar

/-- The truth value that a word stands for, in any case. -/
def truthOfText (cs : List Char) : Except Fault Bool :=
  let word := String.ofList (cs.map Char.toLower)
  if Plain.trueWords.contains word then .ok true
  else if Plain.falseWords.contains word then .ok false
  else .error .notTruth

/-! ## Scalars -/

/-- What the text of a scalar stands for under its tag.  Values that are no numbers are told apart by
the given mark. -/
def Scalar.ofTagged (tag : Tag) (mark : Nat) (text : Text) : Except Fault Scalar :=
  let cs := text.chars
  match tag with
  | .null => .ok .null
  | .bool => (truthOfText cs).map .bool
  | .int => (Integer.ofText cs).map .int
  | .float => (Decimal.ofText mark cs).map .float
  | .moment => match Clock.read? (lineOf cs) with
    | some clock => clock.scalar
    | none => .error .notMoment
  | .bytes => match Base64.decode? cs with
    | some bytes => .ok (.bytes bytes)
    | none => .error .malformed
  | .text => .ok (.text text)
  | .sequence | .mapping | .set | .pairs | .merge | .standIn | .unknown => .error .malformed

end Mailshot.Yaml
