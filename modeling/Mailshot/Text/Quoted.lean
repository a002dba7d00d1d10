import Mailshot.Number.Digits
import Mailshot.Text.Printable

/-!
# Quoted text

A text inside a list or a mapping, and a text named in a message, is shown in quotes.

* `Quoted.mark` — which quote is used: the single one, unless the text holds it and no double one.
* `Quoted.encode` — the quoted form of a text: the quote in use, the backslash and what is not
  printable are escaped, all else stands as it is.
* `Quoted.encodeBytes` — the quoted form of bytes, in which only printable ASCII stands as it is.
-/

namespace Mailshot.Text.Quoted

/-- The escape of a code, in the shortest form that can hold it. -/
def codeEscape (code : Nat) : List Char :=
  if code ≤ 0xFF then '\\' :: 'x' :: Digits.written 16 2 code
  else if code ≤ 0xFFFF then '\\' :: 'u' :: Digits.written 16 4 code
  else '\\' :: 'U' :: Digits.written 16 8 code

/-- A character of a quoted form, of which some are shown as they are. -/
def encodeChar (shown : Char → Bool) (quote c : Char) : List Char :=
  if c = quote ∨ c = '\\' then ['\\', c]
  else if c = '\n' then ['\\', 'n']
  else if c = '\t' then ['\\', 't']
  else if c = '\r' then ['\\', 'r']
  else if shown c then [c]
  else codeEscape c.toNat

/-- A letter of a quoted text. -/
def encodeLetter (quote : Char) : Letter → List Char
  | .char c => encodeChar isPrintable quote c
  | .half n => codeEscape (Letter.half n).code

/-- The quote that a text is put in. -/
def mark (t : Text) : Char :=
  if t.contains (.char '\'') && !t.contains (.char '"') then '"' else '\''

/-- The quoted form of a text. -/
def encode (t : Text) : List Char :=
  mark t :: (t.flatMap (encodeLetter (mark t)) ++ [mark t])

/-- Bytes as the characters with their codes. -/
def charsOfBytes (bytes : List UInt8) : List Char := bytes.map fun b => Char.ofNat b.toNat

/-- The quoted form of bytes, behind the letter that marks it. -/
def encodeBytes (bytes : List UInt8) : List Char :=
  let cs := charsOfBytes bytes
  let quote := mark (ofChars cs)
  'b' :: quote :: (cs.flatMap (encodeChar (fun c => ' ' ≤ c && c ≤ '~') quote) ++ [quote])

end Mailshot.Text.Quoted

namespace Mailshot.Text

/-- A text in quotes. -/
def quote (t : Text) : Text := ofChars (Quoted.encode t)

/-- Bytes in quotes. -/
def quoteBytes (bytes : List UInt8) : Text := ofChars (Quoted.encodeBytes bytes)

end Mailshot.Text
