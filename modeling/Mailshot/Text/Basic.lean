/-!
# Texts

A text is a sequence of characters.  An escape in a file can also leave half a character, which no
file can hold but which a message can name, so a text may hold halves as well.

* `Letter`, `Text` — characters and halves, and sequences of them.
* `Text.ofString`, `Text.string?` — the texts without halves are the strings.
* `Text.ofBytes` — the text of the name of a file; a byte that belongs to no character becomes the
  half that stands for it.
-/

namespace Mailshot

/-! ## Letters -/

/-- A character, or half of one: of the codes from `0xD800` on, which no character has, the one with
the given number. -/
inductive Letter
  | char (c : Char)
  | half (n : Fin 2048)
deriving DecidableEq

namespace Letter

/-- The code of the first half. -/
def firstHalf : Nat := 0xD800

/-- The code of a letter. -/
def code : Letter → Nat
  | char c => c.toNat
  | half n => firstHalf + n

/-- The half that stands for a byte that belongs to no character. -/
def ofStrayByte (b : UInt8) : Letter := half ⟨0x400 + b.toNat, by have := b.toNat_lt; omega⟩

/-- The number of bytes of a letter in the name of a file.  A stray byte is one; the other halves
have no bytes. -/
def byteCount? : Letter → Option Nat
  | char c => some c.utf8Size
  | half n => if 0x480 ≤ n.val ∧ n.val < 0x500 then some 1 else none

end Letter

/-! ## Texts -/

/-- A sequence of letters. -/
abbrev Text := List Letter

namespace Text

/-- A text of characters. -/
def ofChars (cs : List Char) : Text := cs.map .char

/-- A string as a text. -/
def ofString (s : String) : Text := ofChars s.toList

instance : Coe String Text := ⟨ofString⟩

/-- The characters of a text that holds no halves. -/
def chars? (t : Text) : Option (List Char) :=
  t.mapM fun
    | .char c => some c
    | .half _ => none

/-- The string that a text is, unless it holds halves. -/
def string? (t : Text) : Option String := t.chars?.map String.ofList

/-- The characters of a text, the replacement character in the place of each half. -/
def chars (t : Text) : List Char :=
  t.map fun
    | .char c => c
    | .half _ => '\uFFFD'

/-- Texts one behind the other. -/
def join (parts : List Text) : Text := parts.flatten

/-- Whether a text comes before another or is the same, letters compared by their codes. -/
def atMost : Text → Text → Bool
  | [], _ => true
  | _ :: _, [] => false
  | a :: s, b :: t => a.code < b.code || (a.code = b.code && atMost s t)

/-- A natural number in decimal digits. -/
def ofNat (n : Nat) : Text := ofString (toString n)

/-- An integer in decimal digits. -/
def ofInt (i : Int) : Text := ofString (toString i)

/-! ## Names of files -/

/-- The number of bytes of a text in the name of a file, if it can be one. -/
def byteCount? (t : Text) : Option Nat :=
  (t.mapM Letter.byteCount?).map fun counts => counts.foldl (· + ·) 0

/-- The character that the first bytes encode, and the number of those bytes. -/
def firstChar? (bytes : List UInt8) : Option (Char × Nat) :=
  [1, 2, 3, 4].findSome? fun n =>
    match (String.fromUTF8? ⟨(bytes.take n).toArray⟩).map String.toList with
    | some [c] => if c.utf8Size = n then some (c, n) else none
    | _ => none

/-- The text that the bytes of a file's name encode. -/
def ofBytes (bytes : List UInt8) : Text := decode bytes.length bytes
where
  /-- The text of at most so many bytes. -/
  decode : Nat → List UInt8 → Text
    | 0, _ => []
    | _, [] => []
    | bound + 1, b :: rest =>
        match firstChar? (b :: rest) with
        | some (c, n) => .char c :: decode bound ((b :: rest).drop n)
        | none => Letter.ofStrayByte b :: decode bound rest

end Text

end Mailshot
