import Mailshot.Number.Digits

/-!
# Dates and moments

A configuration file may hold a date, or a date with a time of day and an offset.

* `Date.ofParts?`, `Moment.ofParts?` — only parts that name a real day and time are accepted.
* `Moment.same` — when two moments are the same one, whatever their offsets.
* `Date.text`, `Moment.text` — the form in which they are shown.
* `Date.construction`, `Moment.construction` — the form inside lists and mappings.
-/

namespace Mailshot

/-! ## Days -/

/-- A day of the proleptic Gregorian calendar. -/
structure Date where
  year : Nat
  month : Nat
  day : Nat
deriving DecidableEq, Repr

namespace Date

/-- Whether a year has a 29th of February. -/
def isLeap (year : Nat) : Bool := year % 4 == 0 && (year % 100 != 0 || year % 400 == 0)

/-- The number of days in a month; a number that is no month has none. -/
def daysIn (year month : Nat) : Nat :=
  if month = 2 then (if isLeap year then 29 else 28)
  else if month = 4 ∨ month = 6 ∨ month = 9 ∨ month = 11 then 30
  else if 1 ≤ month ∧ month ≤ 12 then 31
  else 0

/-- The day with the given parts, if there is one in the years 1 to 9999. -/
def ofParts? (year month day : Nat) : Option Date :=
  if 1 ≤ year ∧ year ≤ 9999 ∧ 1 ≤ day ∧ day ≤ daysIn year month then some ⟨year, month, day⟩
  else none

/-- The number of a day, counted from the first day of the year one. -/
def number (d : Date) : Nat :=
  let years := d.year - 1
  let months := (List.range (d.month - 1)).foldl (fun days m => days + daysIn d.year (m + 1)) 0
  365 * years + years / 4 - years / 100 + years / 400 + months + d.day

end Date

/-- A number in decimal digits, padded with zeros to a width. -/
def paddedDigits (width n : Nat) : String :=
  String.ofList (Digits.written 10 width n)

/-- A day as year, month and day, joined by hyphens. -/
def Date.text (d : Date) : String :=
  paddedDigits 4 d.year ++ "-" ++ paddedDigits 2 d.month ++ "-" ++ paddedDigits 2 d.day

/-- Numbers joined by a comma and a space. -/
def listed (parts : List Nat) : String :=
  String.intercalate ", " (parts.map fun n => paddedDigits 1 n)

/-- A day as the expression that builds it. -/
def Date.construction (d : Date) : String :=
  "datetime.date(" ++ listed [d.year, d.month, d.day] ++ ")"

/-! ## Moments -/

/-- A time of day on a day, with the offset from universal time in minutes where one is given. -/
structure Moment where
  date : Date
  hour : Nat
  minute : Nat
  second : Nat
  microsecond : Nat
  offset : Option Int
deriving DecidableEq, Repr

namespace Moment

/-- The moment with the given time of day; an offset must be less than a day either way. -/
def ofParts? (date : Date) (hour minute second microsecond : Nat) (offset : Option Int) :
    Option Moment :=
  let offsetFits := offset.all fun minutes => -1440 < minutes && minutes < 1440
  if hour < 24 ∧ minute < 60 ∧ second < 60 ∧ microsecond < 1000000 ∧ offsetFits = true then
    some ⟨date, hour, minute, second, microsecond, offset⟩
  else none

/-- The minute of a moment, counted from the first one of all, as its own clock shows it. -/
def clockMinute (m : Moment) : Int := (m.date.number * 24 + m.hour) * 60 + m.minute

/-- Whether two moments are the same one.  Moments with an offset are compared in universal time; one
without an offset is never the same as one with it. -/
def same (m n : Moment) : Bool :=
  match m.offset, n.offset with
  | some p, some q =>
      m.clockMinute - p = n.clockMinute - q && m.second = n.second && m.microsecond = n.microsecond
  | none, none => m = n
  | _, _ => false

/-- An offset as a sign, hours and minutes. -/
def offsetText (minutes : Int) : String :=
  let size := minutes.natAbs
  (if minutes < 0 then "-" else "+") ++ paddedDigits 2 (size / 60) ++ ":" ++
    paddedDigits 2 (size % 60)

/-- A moment as date and time of day; the fraction is left out when it is zero. -/
def text (m : Moment) : String :=
  let time := paddedDigits 2 m.hour ++ ":" ++ paddedDigits 2 m.minute ++ ":" ++
    paddedDigits 2 m.second
  let fraction := if m.microsecond = 0 then "" else "." ++ paddedDigits 6 m.microsecond
  m.date.text ++ " " ++ time ++ fraction ++ (m.offset.map offsetText).getD ""

/-- An offset as the expression that builds it: whole days below zero, and seconds above that. -/
def offsetConstruction (minutes : Int) : String :=
  if minutes = 0 then "datetime.timezone.utc"
  else
    let days := if minutes < 0 then "days=-1, " else ""
    let seconds := (if minutes < 0 then minutes + 1440 else minutes).toNat * 60
    "datetime.timezone(datetime.timedelta(" ++ days ++ "seconds=" ++ paddedDigits 1 seconds ++ "))"

/-- A moment as the expression that builds it; seconds are left out when they and the fraction are
zero, the fraction when it is zero. -/
def construction (m : Moment) : String :=
  let seconds :=
    if m.microsecond ≠ 0 then [m.second, m.microsecond]
    else if m.second ≠ 0 then [m.second] else []
  let zone := (m.offset.map fun minutes => ", tzinfo=" ++ offsetConstruction minutes).getD ""
  "datetime.datetime(" ++
    listed ([m.date.year, m.date.month, m.date.day, m.hour, m.minute] ++ seconds) ++ zone ++ ")"

end Moment

end Mailshot
