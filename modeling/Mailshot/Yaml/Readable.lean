import Mailshot.Text.Basic
import Mailshot.Yaml.Cursor

/-!
# What can be read of a file

A file is decoded in blocks of bytes, and its characters are looked through in pieces.  What is wrong
with a piece matters only when the reading gets there.

* `Readable` — the characters in front of the first piece with which something is wrong.
* `Readable.ofBytes` — what can be read of the content of a file.
-/

namespace Mailshot.Yaml

/-- The characters that can be read, and what stops the reading, unless the text ends there. -/
structure Readable where
  chars : List Char
  stop : Option Fault

namespace Readable

/-- The number of bytes in a block. -/
def blockSize : Nat := 8192

/-- The number of characters in a piece. -/
def pieceSize : Nat := 4096

/-- The number of characters in the first two pieces, which are looked through together. -/
def opening : Nat := 2 * pieceSize

/-- The place where the piece begins in which a character stands. -/
def pieceOf (index : Nat) : Nat := if index < opening then 0 else index / pieceSize * pieceSize

/-- The characters in front of the first bytes that belong to none. -/
def decodable (bytes : List UInt8) : List Char := go bytes.length bytes
where
  /-- The characters of at most so many bytes. -/
  go : Nat → List UInt8 → List Char
    | 0, _ => []
    | bound + 1, bytes =>
        match Text.firstChar? bytes with
        | some (c, n) => c :: go bound (bytes.drop n)
        | none => []

/-- The first characters that fit into some number of bytes. -/
def within : Nat → List Char → List Char
  | _, [] => []
  | bytes, c :: rest => if c.utf8Size ≤ bytes then c :: within (bytes - c.utf8Size) rest else []

/-- The characters of the blocks in front of the first that cannot be decoded, and whether there is
such a block. -/
def decoded (content : ByteArray) : List Char × Bool :=
  match String.fromUTF8? content with
  | some text => (text.toList, false)
  | none =>
      let cs := decodable content.toList
      let size := cs.foldl (fun size c => size + c.utf8Size) 0
      (within (size / blockSize * blockSize) cs, true)

/-- Characters with every line end written as one line feed. -/
def normalised : List Char → List Char
  | [] => []
  | '\r' :: '\n' :: rest => '\n' :: normalised rest
  | c :: rest => (if c = '\r' then '\n' else c) :: normalised rest

/-- What can be read of the content of a file. -/
def ofBytes (content : ByteArray) : Readable :=
  let (cs, broken) := decoded content
  let cs := normalised cs
  let refused := (cs.findIdx? fun c => !isAllowed c).map pieceOf
  let undecodable := if broken then some (pieceOf cs.length) else none
  match undecodable, refused with
  | none, none => ⟨cs, none⟩
  | none, some n => ⟨cs.take n, some .malformed⟩
  | some m, none => ⟨cs.take m, some .undecodable⟩
  | some m, some n =>
      if m ≤ n then ⟨cs.take m, some .undecodable⟩ else ⟨cs.take n, some .malformed⟩

end Readable

end Mailshot.Yaml
