import Mailshot.Calendar
import Mailshot.Text.Basic

/-!
# Tags, and the words of plain scalars

A scalar without a tag of its own is resolved by its text alone: `12` is an integer, `12:60` a text.

* `Tag` — the kinds of nodes.
* `Tag.ofPlain` — the tag of a plain scalar.
* `Clock.read?` — the parts of a date or a moment.
-/

namespace Mailshot.Yaml

/-! ## Tags -/

/-- The kinds of nodes. -/
inductive Tag
  | null
  | bool
  | int
  | float
  | moment
  | bytes
  | text
  | sequence
  | mapping
  | set
  /-- A list of pairs. -/
  | pairs
  /-- The key under which other mappings are merged. -/
  | merge
  /-- The key of a value that stands for its mapping. -/
  | standIn
  | unknown
deriving DecidableEq

namespace Tag

/-- What the names of the known tags begin with. -/
def start : String := "tag:yaml.org,2002:"

/-- The tags by the ends of their names. -/
def names : List (String × Tag) := [
  ("null", null), ("bool", bool), ("int", int), ("float", float), ("timestamp", moment),
  ("binary", bytes), ("str", text), ("seq", sequence), ("map", mapping), ("set", set),
  ("omap", pairs), ("pairs", pairs), ("merge", merge), ("value", standIn)]

/-- The tag with a name. -/
def ofName (name : String) : Tag :=
  ((names.find? fun entry => start ++ entry.1 == name).map Prod.snd).getD unknown

end Tag

/-- The line of a text, if it has only one: a line break at its end does not count. -/
def lineOf (cs : List Char) : List Char :=
  match cs.reverse with
  | '\n' :: c :: rest => (c :: rest).reverse
  | _ => cs

/-! ## Dates and moments -/

/-- The parts of a date or a moment as they are written; they need not name a real one. -/
structure Clock where
  year : Nat
  month : Nat
  day : Nat
  /-- Both the month and the day have two digits. -/
  full : Bool
  time : Option (Nat × Nat × Nat × List Char)
  /-- The offset: none is written, universal time, or a sign, hours and minutes. -/
  offset : Option Int

namespace Clock

/-- Between one and some number of digits, as many as there are, and what follows them. -/
def digits? (least most : Nat) (cs : List Char) : Option (Nat × Nat × List Char) :=
  let run := (cs.take most).takeWhile Char.isDigit
  if run.length < least then none
  else (Digits.natural? 10 run).map fun n => (n, run.length, cs.drop run.length)

/-- What follows a character, if that comes first. -/
def after? (c : Char) : List Char → Option (List Char)
  | d :: rest => if d = c then some rest else none
  | [] => none

/-- The offset at the end of a moment; none may be written. -/
def offset? (cs : List Char) : Option (Option Int) :=
  match cs, cs.dropWhile fun c => c = ' ' || c = '\t' with
  | [], _ => some none
  | _, ['Z'] => some (some 0)
  | _, sign :: rest => do
      if sign ≠ '+' ∧ sign ≠ '-' then none
      let (hours, _, rest) ← digits? 1 2 rest
      let minutes ← match rest with
        | [] => some 0
        | _ => do
            let (minutes, _, ending) ← digits? 2 2 (← after? ':' rest)
            if ending.isEmpty then some minutes else none
      let size : Int := hours * 60 + minutes
      return some (if sign = '-' then -size else size)
  | _, [] => none

/-- The time of day and the offset behind a date. -/
def time? (cs : List Char) : Option ((Nat × Nat × Nat × List Char) × Option Int) := do
  let rest ← match cs with
    | 'T' :: rest => some rest
    | 't' :: rest => some rest
    | c :: _ =>
        if c = ' ' ∨ c = '\t' then some (cs.dropWhile fun c => c = ' ' || c = '\t') else none
    | [] => none
  let (hour, _, rest) ← digits? 1 2 rest
  let (minute, _, rest) ← digits? 2 2 (← after? ':' rest)
  let (second, _, rest) ← digits? 2 2 (← after? ':' rest)
  let (fraction, rest) := match rest with
    | '.' :: rest => (rest.takeWhile Char.isDigit, rest.dropWhile Char.isDigit)
    | rest => ([], rest)
  return ((hour, minute, second, fraction), ← offset? rest)

/-- The parts of a date, or of a date with a time of day. -/
def read? (cs : List Char) : Option Clock := do
  let (year, _, rest) ← digits? 4 4 cs
  let (month, monthWidth, rest) ← digits? 1 2 (← after? '-' rest)
  let (day, dayWidth, rest) ← digits? 1 2 (← after? '-' rest)
  let full := monthWidth = 2 && dayWidth = 2
  match rest with
  | [] => return ⟨year, month, day, full, none, none⟩
  | _ =>
      let (time, offset) ← time? rest
      return ⟨year, month, day, full, some time, offset⟩

/-- Whether a text is taken for a date or a moment without a tag: a date alone needs two digits for
month and day. -/
def isPlain (cs : List Char) : Bool :=
  match read? cs with
  | some clock => clock.full || clock.time.isSome
  | none => false

end Clock

/-! ## Words of plain scalars -/

namespace Plain

/-- The words for nothing. -/
def nullWords : List String := ["", "~", "null", "Null", "NULL"]

/-- The words for true. -/
def trueWords : List String :=
  ["yes", "Yes", "YES", "true", "True", "TRUE", "on", "On", "ON"]

/-- The words for false. -/
def falseWords : List String :=
  ["no", "No", "NO", "false", "False", "FALSE", "off", "Off", "OFF"]

/-- A decimal digit or the character that groups digits. -/
def isGrouped (c : Char) : Bool := c.isDigit || c = '_'

/-- Parts of a text between the occurrences of a character. -/
def splitAt (separator : Char) : List Char → List (List Char)
  | [] => [[]]
  | c :: rest =>
      match splitAt separator rest with
      | [] => [[c]]
      | part :: parts => if c = separator then [] :: part :: parts else (c :: part) :: parts

/-- One or two digits, the first of two below six. -/
def isSixtieth : List Char → Bool
  | [d] => d.isDigit
  | [t, d] => '0' ≤ t && t ≤ '5' && d.isDigit
  | _ => false

/-- Whether a text is that of an integer: binary, octal, decimal, hexadecimal or in base sixty. -/
def isInt (cs : List Char) : Bool :=
  match (Digits.splitSign cs).2 with
  | '0' :: 'b' :: digits => !digits.isEmpty && digits.all fun c => c = '0' || c = '1' || c = '_'
  | '0' :: 'x' :: digits =>
      !digits.isEmpty && digits.all fun c => (Digits.value? c).isSome || c = '_'
  | '0' :: digits => digits.all fun c => ('0' ≤ c && c ≤ '7') || c = '_'
  | digits =>
      (digits.headD '0').isDigit && digits.headD '0' ≠ '0' &&
      match splitAt ':' digits with
      | [] => false
      | whole :: sixtieths => whole.all isGrouped && sixtieths.all isSixtieth

/-- An exponent with a mark and a sign, or nothing. -/
def isExponent : List Char → Bool
  | [] => true
  | mark :: sign :: digits =>
      (mark = 'e' || mark = 'E') && (sign = '-' || sign = '+') && !digits.isEmpty &&
        digits.all Char.isDigit
  | _ => false

/-- Grouped digits with a point among or behind them, and an exponent. -/
def isDecimal (cs : List Char) : Bool :=
  (cs.headD '.').isDigit &&
  match cs.dropWhile isGrouped with
  | '.' :: fraction => isExponent (fraction.dropWhile isGrouped)
  | _ => false

/-- A number in base sixty with a point in or behind its last part. -/
def isSixtyDecimal (cs : List Char) : Bool :=
  let whole := cs.takeWhile (· ≠ '.')
  let fraction := cs.dropWhile (· ≠ '.')
  (cs.headD '.').isDigit && !fraction.isEmpty && (fraction.drop 1).all isGrouped &&
  match splitAt ':' whole with
  | first :: part :: parts => first.all isGrouped && (part :: parts).all isSixtieth
  | _ => false

/-- Whether a text is that of a number with a point.  Where nothing stands before the point there is
no sign, unless an infinity follows. -/
def isFloat (cs : List Char) : Bool :=
  let unsigned := (Digits.splitSign cs).2
  isDecimal unsigned || isSixtyDecimal unsigned ||
  [".inf", ".Inf", ".INF"].contains (String.ofList unsigned) ||
  [".nan", ".NaN", ".NAN"].contains (String.ofList cs) ||
  match cs with
  | '.' :: digit :: rest => digit.isDigit && isExponent (rest.dropWhile isGrouped)
  | _ => false

end Plain

/-- The tag of a scalar that has none and no quotes. -/
def Tag.ofPlain (text : Text) : Tag :=
  let cs := lineOf text.chars
  let word := String.ofList cs
  if Plain.nullWords.contains word then .null
  else if Plain.trueWords.contains word || Plain.falseWords.contains word then .bool
  else if Plain.isFloat cs then .float
  else if Plain.isInt cs then .int
  else if Clock.isPlain cs then .moment
  else if word = "<<" then .merge
  else if word = "=" then .standIn
  else .text

end Mailshot.Yaml
