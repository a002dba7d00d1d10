import Mailshot.Text.Basic

/-!
# Blank characters

* `isBlank` — the white space that trimming removes, in and beyond ASCII.
* `trim` — a text without its leading and trailing blanks.
-/

namespace Mailshot.Text

/-- White space: the ASCII blanks and separators, the next-line control, and the space, line and
paragraph separators.  The zero-width space and the byte order mark are none. -/
def isBlank (c : Char) : Bool :=
  let code := c.toNat
  (0x09 ≤ code && code ≤ 0x0D) || (0x1C ≤ code && code ≤ 0x20) || code == 0x85 || code == 0xA0 ||
  code == 0x1680 || (0x2000 ≤ code && code ≤ 0x200A) || code == 0x2028 || code == 0x2029 ||
  code == 0x202F || code == 0x205F || code == 0x3000

/-- The blanks of ASCII that separate words; its separators of files and records are none. -/
def isPlainBlank (c : Char) : Bool := c = ' ' || (0x09 ≤ c.toNat && c.toNat ≤ 0x0D)

/-- A sequence without those at either end that satisfy a test. -/
def trimBy {α : Type} (skip : α → Bool) (cs : List α) : List α :=
  ((cs.dropWhile skip).reverse.dropWhile skip).reverse

/-- Whether a letter is white space. -/
def isBlankLetter : Letter → Bool
  | .char c => isBlank c
  | .half _ => false

/-- A text without leading and trailing blanks. -/
def trim (t : Text) : Text := trimBy isBlankLetter t

end Mailshot.Text
