import Mailshot.Fault

/-!
# Reading position

* `Yaml.isBreak`, `Yaml.endsWord` — line breaks, and the characters that end a word.
* `Cursor` — the text that is still to be read, with line and column; at the end of the text the
  next character is `endMark`, which no text holds.
* `Cursor.next`, `Cursor.span`, `Cursor.takeBreak` — steps over a character, a run and a line break.
* `Cursor.below?` — the step to the next line where nothing but a comment is left of this one.
-/

namespace Mailshot.Yaml

/-! ## Characters -/

/-- What the next character is at the end of the text. -/
def endMark : Char := '\x00'

/-- The characters that end a line. -/
def isBreak (c : Char) : Bool := c = '\n' || c = '\x85' || c = '\u2028' || c = '\u2029'

/-- The character that a line break leaves in a text. -/
def keptBreak (c : Char) : Char := if c = '\x85' then '\n' else c

/-- A space or a tab. -/
def isSpace (c : Char) : Bool := c = ' ' || c = '\t'

/-- A line break or the end of the text. -/
def endsLine (c : Char) : Bool := c = endMark || isBreak c

/-- A line break, the end of the text, or a space. -/
def endsItem (c : Char) : Bool := c = ' ' || endsLine c

/-- A line break, the end of the text, a space or a tab. -/
def endsWord (c : Char) : Bool := isSpace c || endsLine c

/-- The characters of the names of anchors, directives and tag handles. -/
def isNameChar (c : Char) : Bool := c.isAlphanum || c = '-' || c = '_'

/-- The characters that a text may hold. -/
def isAllowed (c : Char) : Bool :=
  let code := c.toNat
  code = 0x09 || code = 0x0A || (0x20 ≤ code && code ≤ 0x7E) || code = 0x85 ||
  (0xA0 ≤ code && code ≤ 0xFFFD) || 0x10000 ≤ code

/-! ## Cursor -/

/-- The text still to be read and where it begins. -/
structure Cursor where
  rest : List Char
  index : Nat
  line : Nat
  column : Nat
  /-- What keeps the reading from going on behind the text, unless the text ends there. -/
  stop : Option Fault

namespace Cursor

/-- The beginning of a text. -/
def start (text : List Char) (stop : Option Fault) : Cursor := ⟨text, 0, 0, 0, stop⟩

/-- What is wrong where more is needed than the text has. -/
def missing (c : Cursor) : Fault := c.stop.getD .malformed

/-- The character some places ahead. -/
def ahead (c : Cursor) (n : Nat) : Char := c.rest.getD n endMark

/-- The next character. -/
def peek (c : Cursor) : Char := c.ahead 0

/-- One character further.  A byte order mark takes no column. -/
def next (c : Cursor) : Cursor :=
  match c.rest with
  | [] => c
  | ch :: rest =>
      if isBreak ch then ⟨rest, c.index + 1, c.line + 1, 0, c.stop⟩
      else ⟨rest, c.index + 1, c.line, if ch = '\uFEFF' then c.column else c.column + 1, c.stop⟩

/-- Some characters further. -/
def skip (c : Cursor) : Nat → Cursor
  | 0 => c
  | n + 1 => c.next.skip n

/-- The run of characters that satisfy a test, and the place behind it. -/
def span (c : Cursor) (test : Char → Bool) : List Char × Cursor :=
  let run := c.rest.takeWhile test
  (run, c.skip run.length)

/-- The place behind a run of characters that satisfy a test. -/
def skipWhile (c : Cursor) (test : Char → Bool) : Cursor := (c.span test).2

/-- What a line break here leaves in the text, nothing if there is none, and the place behind it. -/
def takeBreak (c : Cursor) : List Char × Cursor :=
  if isBreak c.peek then ([keptBreak c.peek], c.next) else ([], c)

/-- The place behind spaces and a comment. -/
def skipComment (c : Cursor) : Cursor :=
  let c := c.skipWhile (· = ' ')
  if c.peek = '#' then c.skipWhile fun ch => !endsLine ch else c

/-- The place below this line, of which the rest may only hold a comment. -/
def below? (c : Cursor) : Option Cursor :=
  let c := c.skipComment
  if endsLine c.peek then some c.takeBreak.2 else none

/-- Whether a mark of three characters stands here as a word of its own. -/
def atMark (c : Cursor) (mark : Char) : Bool :=
  c.ahead 0 = mark && c.ahead 1 = mark && c.ahead 2 = mark && endsWord (c.ahead 3)

/-- Whether a mark between documents stands here. -/
def atSeparator (c : Cursor) : Bool := c.atMark '-' || c.atMark '.'

/-- A step forward leaves less to read. -/
theorem next_rest_length {c : Cursor} {ch : Char} {rest : List Char} (h : c.rest = ch :: rest) :
    c.next.rest.length < c.rest.length := by
  have : c.next.rest = rest := by
    simp only [next, h]; split <;> rfl
  simp [this, h]

end Cursor

end Mailshot.Yaml
