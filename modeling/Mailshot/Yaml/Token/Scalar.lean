import Mailshot.Number.Digits
import Mailshot.Yaml.Cursor
import Mailshot.Yaml.Token.Basic

/-!
# Scalars of a text

* `Plain.read` — a scalar without quotes, possibly over several lines.
* `Quoted.read` — a scalar in single or double quotes.
* `Block.read` — a scalar of indented lines, kept as they are or folded.

In all three a single line break between words becomes a space, and further ones stay.
-/

namespace Mailshot.Yaml

/-- What the break behind a line and the breaks after it leave between two words. -/
def foldedGap (first breaks : List Char) : List Char :=
  if first ≠ ['\n'] then first ++ breaks else if breaks.isEmpty then [' '] else breaks

/-! ## Plain scalars -/

namespace Plain

/-- The marks that end a plain scalar inside a flow collection. -/
def flowMarks : List Char := ",?[]\x7b\x7d".toList

/-- The marks that make a colon before them a value's mark inside a flow collection. -/
def colonMarks : List Char := ",[]\x7b\x7d".toList

/-- The part of a line that belongs to a plain scalar, up to the next blank. -/
def word (flow : Bool) : List Char → List Char
  | [] => []
  | c :: rest =>
      let ahead := rest.headD endMark
      let isColon := c = ':' && (endsWord ahead || (flow && colonMarks.contains ahead))
      if endsWord c || isColon || (flow && flowMarks.contains c) then []
      else c :: word flow rest

/-- The line breaks and the indentation before the next line of a scalar, unless a mark between
documents stands there. -/
def breaksBelow (c : Cursor) : Option (List Char) × Cursor :=
  match _h : c.rest with
  | [] => (some [], c)
  | ch :: _ =>
      have := Cursor.next_rest_length _h
      if ch = ' ' then breaksBelow c.next
      else if isBreak ch then
        if c.next.atSeparator then (none, c.next)
        else
          let (breaks, last) := breaksBelow c.next
          (breaks.map (keptBreak ch :: ·), last)
      else (some [], c)
termination_by c.rest.length

/-- What stands between two words of a scalar, whether a line ended there, and the place behind it.
Before a mark between documents there is nothing. -/
def gap (c : Cursor) : List Char × Bool × Cursor :=
  let (blanks, c) := c.span (· = ' ')
  if isBreak c.peek then
    let (first, c) := c.takeBreak
    if c.atSeparator then ([], true, c)
    else match breaksBelow c with
      | (none, last) => ([], true, last)
      | (some breaks, last) => (foldedGap first breaks, true, last)
  else (blanks, false, c)

/-- The words of a scalar, those on further lines indented at least as given; whether a line ended
behind the last one; and the place behind it. -/
def words (flow : Bool) (indent : Int) (c : Cursor) : List Char × Bool × Cursor :=
  let here := word flow c.rest
  let (between, broke, next) := gap (c.skip here.length)
  if between.isEmpty || next.peek = '#' || (!flow && (next.column : Int) < indent) ||
      (word flow next.rest).isEmpty then
    (here, broke, next)
  else if _h : next.rest.length < c.rest.length then
    let (more, brokeLast, last) := words flow indent next
    (here ++ between ++ more, brokeLast, last)
  else (here, broke, next)
termination_by c.rest.length

/-- A plain scalar; with it, whether a line ended behind it. -/
def read (flow : Bool) (indent : Int) (c : Cursor) : Token × Bool × Cursor :=
  let (text, broke, last) := words flow indent c
  (.scalar (Text.ofChars text) true, broke, last)

end Plain

/-! ## Quoted scalars -/

namespace Quoted

/-- The characters that a letter behind a backslash stands for. -/
def escapes : List (Char × Char) := [
  ('0', '\x00'), ('a', '\x07'), ('b', '\x08'), ('t', '\t'), ('\t', '\t'), ('n', '\n'),
  ('v', '\x0B'), ('f', '\x0C'), ('r', '\r'), ('e', '\x1B'), (' ', ' '), ('"', '"'),
  ('\\', '\\'), ('/', '/'), ('N', '\x85'), ('_', '\xA0'), ('L', '\u2028'), ('P', '\u2029')]

/-- The number of hexadecimal digits behind a letter that announces a code. -/
def codeWidths : List (Char × Nat) := [('x', 2), ('u', 4), ('U', 8)]

/-- The letter with a code. -/
def letterOfCode (code : Nat) : Except Fault Letter :=
  if h : Letter.firstHalf ≤ code ∧ code < Letter.firstHalf + 2048 then
    .ok (.half ⟨code - Letter.firstHalf, by omega⟩)
  else if code < 0x110000 then .ok (.char (Char.ofNat code))
  else if code < 0x80000000 then .error .badScalar
  else .error .outOfRange

/-- The blank lines inside a scalar, each leaving its break, and the indentation of the line below.
No mark between documents may stand there. -/
def breaksBelow (c : Cursor) : Except Fault (List Char × Cursor) :=
  if c.atSeparator then .error .malformed
  else
    let below := c.skipWhile isSpace
    if isBreak below.peek then
      if _h : below.next.rest.length < c.rest.length then do
        let (breaks, last) ← breaksBelow below.next
        return (keptBreak below.peek :: breaks, last)
      else .error .malformed
    else .ok ([], below)
termination_by c.rest.length

/-- What an escape stands for, and the place behind it; an escaped line break joins two lines. -/
def escape (c : Cursor) : Except Fault (Text × Cursor) :=
  match escapes.lookup c.peek, codeWidths.lookup c.peek with
  | some ch, _ => .ok ([.char ch], c.next)
  | none, some width => do
      let digits := c.next.rest.take width
      match Digits.natural? 16 digits with
      | some code =>
          if digits.length < width then throw c.missing
          else return ([← letterOfCode code], c.next.skip width)
      | none => throw (if digits.isEmpty then c.missing else .malformed)
  | none, none =>
      if isBreak c.peek then do
        let (breaks, last) ← breaksBelow c.next
        return (Text.ofChars breaks, last)
      else .error (if c.peek = endMark then c.missing else .malformed)

/-- The text up to the next blank or the closing quote. -/
def word (double : Bool) (c : Cursor) : Except Fault (Text × Cursor) :=
  let onward (text : Text) (next : Cursor) : Except Fault (Text × Cursor) :=
    if _h : next.rest.length < c.rest.length then do
      let (more, last) ← word double next
      return (text ++ more, last)
    else .error .malformed
  match c.peek with
  | '\'' =>
      if double then onward [.char '\''] c.next
      else if c.ahead 1 = '\'' then onward [.char '\''] (c.skip 2)
      else .ok ([], c)
  | '"' => if double then .ok ([], c) else onward [.char '"'] c.next
  | '\\' =>
      if double then do
        let (text, next) ← escape c.next
        onward text next
      else onward [.char '\\'] c.next
  | ch => if endsWord ch then .ok ([], c) else onward [.char ch] c.next
termination_by c.rest.length

/-- What stands between two words of a scalar. -/
def gap (c : Cursor) : Except Fault (List Char × Cursor) := do
  let (blanks, c) := c.span isSpace
  if c.peek = endMark then throw c.missing
  else if isBreak c.peek then
    let (first, c) := c.takeBreak
    let (breaks, last) ← breaksBelow c
    return (foldedGap first breaks, last)
  else return (blanks, c)

/-- The words of a scalar up to its closing quote, and the place of that quote. -/
def words (double : Bool) (c : Cursor) : Except Fault (Text × Cursor) := do
  let (here, c') ← word double c
  if c'.peek = (if double then '"' else '\'') then return (here, c')
  else
    let (between, next) ← gap c'
    if _h : next.rest.length < c.rest.length then
      let (more, last) ← words double next
      return (here ++ Text.ofChars between ++ more, last)
    else throw .malformed
termination_by c.rest.length

/-- A scalar in quotes. -/
def read (double : Bool) (c : Cursor) : Except Fault (Token × Cursor) := do
  let (text, last) ← words double c.next
  return (.scalar text false, last.next)

end Quoted

/-! ## Block scalars -/

namespace Block

/-- What becomes of the line breaks at the end of a block scalar. -/
inductive Chomping
  /-- One is kept. -/
  | clip
  /-- None is kept. -/
  | strip
  /-- All are kept. -/
  | keep
deriving DecidableEq

/-- The chomping that a sign asks for. -/
def chomping? (c : Char) : Option Chomping :=
  if c = '+' then some .keep else if c = '-' then some .strip else none

/-- The indentation that a digit asks for; zero is none. -/
def indentation? (c : Char) : Except Fault (Option Nat) :=
  if c = '0' then .error .malformed
  else if c.isDigit then .ok (some (c.toNat - '0'.toNat)) else .ok none

/-- The signs behind the mark of a block scalar, in either order, and the place behind them. -/
def header (c : Cursor) : Except Fault (Chomping × Option Nat × Cursor) := do
  let (chomping, indentation, after) ←
    match chomping? c.peek with
    | some chomping => do
        match ← indentation? c.next.peek with
        | some n => pure (chomping, some n, c.next.next)
        | none => pure (chomping, none, c.next)
    | none => do
        match ← indentation? c.peek with
        | some n => match chomping? c.next.peek with
          | some chomping => pure (chomping, some n, c.next.next)
          | none => pure (.clip, some n, c.next)
        | none => pure (.clip, none, c)
  if endsItem after.peek then return (chomping, indentation, after) else throw .malformed

/-- The blank lines before the first line with text, the greatest indentation among them and it, and
its place. -/
def leading (deepest : Nat) (c : Cursor) : List Char × Nat × Cursor :=
  match _h : c.rest with
  | [] => ([], deepest, c)
  | ch :: _ =>
      have := Cursor.next_rest_length _h
      if ch = ' ' then leading (max deepest c.next.column) c.next
      else if isBreak ch then
        let (breaks, deepest, last) := leading deepest c.next
        (keptBreak ch :: breaks, deepest, last)
      else ([], deepest, c)
termination_by c.rest.length

/-- The place behind the spaces of an indentation. -/
def indented (indent : Nat) (c : Cursor) : Cursor :=
  c.skip ((c.rest.takeWhile (· = ' ')).length.min (indent - c.column))

/-- The blank lines from here on, and the place where the next line with text begins. -/
def blankLines (indent : Nat) (c : Cursor) : List Char × Cursor :=
  let here := indented indent c
  if isBreak here.peek then
    if _h : here.next.rest.length < c.rest.length then
      let (breaks, last) := blankLines indent here.next
      (keptBreak here.peek :: breaks, last)
    else ([], here)
  else ([], here)
termination_by c.rest.length

/-- Whether a line of the scalar begins here. -/
def atLine (indent : Nat) (c : Cursor) : Bool := c.column = indent && c.peek ≠ endMark

/-- The lines of a scalar from here on; the break behind the last one; the blank lines after it; and
the place behind all.  A folded break between two lines that begin with text becomes a space, or
nothing before blank lines. -/
def lines (folded : Bool) (indent : Nat) (c : Cursor) :
    List Char × List Char × List Char × Cursor :=
  let (text, ended) := c.span fun ch => !endsLine ch
  let (lineBreak, next) := ended.takeBreak
  let (breaks, next) := blankLines indent next
  if atLine indent next then
    if _h : next.rest.length < c.rest.length then
      let between :=
        if folded && lineBreak = ['\n'] && !isSpace c.peek && !isSpace next.peek then
          if breaks.isEmpty then [' '] else []
        else lineBreak
      let (more, lastBreak, lastBreaks, last) := lines folded indent next
      (text ++ between ++ breaks ++ more, lastBreak, lastBreaks, last)
    else (text, lineBreak, breaks, next)
  else (text, lineBreak, breaks, next)
termination_by c.rest.length

/-- A block scalar below a line of the given indentation. -/
def read (folded : Bool) (parentIndent : Int) (c : Cursor) : Except Fault (Token × Cursor) := do
  let (chomping, indentation, c) ← header c.next
  let some c := c.below? | throw .malformed
  let least := (max (parentIndent + 1) 1).toNat
  let (indent, breaks, c) := match indentation with
    | some n =>
        let indent := least + n - 1
        let (breaks, c) := blankLines indent c
        (indent, breaks, c)
    | none =>
        let (breaks, deepest, c) := leading 0 c
        (max least deepest, breaks, c)
  let (text, lastBreak, lastBreaks, c) :=
    if atLine indent c then
      let (text, lastBreak, lastBreaks, c) := lines folded indent c
      (breaks ++ text, lastBreak, lastBreaks, c)
    else ([], [], breaks, c)
  let ending := match chomping with
    | .clip => lastBreak
    | .strip => []
    | .keep => lastBreak ++ lastBreaks
  return (.scalar (Text.ofChars (text ++ ending)) false, c)

end Block

end Mailshot.Yaml
