import Mailshot.Number.Digits
import Mailshot.Yaml.Cursor
import Mailshot.Yaml.Token.Basic

/-!
# Anchors, references, tags and directives

Each reader starts at the character that opens its token and gives the token with the place behind
it.
-/

namespace Mailshot.Yaml.Token

/-- A token and the place behind it. -/
abbrev Reading := Except Fault (Token × Cursor)

/-! ## Anchors and references -/

/-- The characters that may stand behind the name of an anchor or a reference. -/
def endsName (c : Char) : Bool := endsWord c || "?:,]\x7d%@\x60".toList.contains c

/-- A name behind the sign of an anchor or a reference. -/
def readName (make : String → Token) (c : Cursor) : Reading :=
  let (name, after) := c.next.span isNameChar
  if name.isEmpty || !endsName after.peek then .error .malformed
  else .ok (make (String.ofList name), after)

/-! ## Tags -/

/-- The characters of a tag besides letters and digits. -/
def tagPunctuation : List Char := "-;/?:@&=+$,_.!~*'()[]".toList

/-- The bytes of a run of percent escapes, and the place behind it. -/
def percentBytes (c : Cursor) : Except Fault (List UInt8 × Cursor) :=
  match c.rest with
  | '%' :: high :: low :: _ =>
      match Digits.value? high, Digits.value? low with
      | some a, some b => do
          let next := c.skip 3
          if _h : next.rest.length < c.rest.length then
            let (bytes, last) ← percentBytes next
            return (UInt8.ofNat (a * 16 + b) :: bytes, last)
          else throw .malformed
      | _, _ => .error .malformed
  | '%' :: _ => .error .malformed
  | _ => .ok ([], c)
termination_by c.rest.length

/-- The text of a tag, percent escapes decoded, and the place behind it. -/
def tagText (c : Cursor) : Except Fault (List Char × Cursor) :=
  match h : c.rest with
  | [] => .ok ([], c)
  | ch :: _ =>
      if ch = '%' then do
        let (bytes, next) ← percentBytes c
        match String.fromUTF8? ⟨bytes.toArray⟩ with
        | none => throw .malformed
        | some text =>
            if _h : next.rest.length < c.rest.length then
              let (more, last) ← tagText next
              return (text.toList ++ more, last)
            else throw .malformed
      else if ch.isAlphanum || tagPunctuation.contains ch then do
        have := Cursor.next_rest_length h
        let (more, last) ← tagText c.next
        return (ch :: more, last)
      else .ok ([], c)
termination_by c.rest.length

/-- The text of a tag, which must not be empty. -/
def someTagText (c : Cursor) : Except Fault (List Char × Cursor) := do
  let (text, last) ← tagText c
  if last.rest.length < c.rest.length then return (text, last) else throw .malformed

/-- A handle: the sign alone, or a name between two signs. -/
def tagHandle (c : Cursor) : Except Fault (List Char × Cursor) :=
  if c.peek ≠ '!' then .error .malformed
  else if c.ahead 1 = ' ' then .ok (['!'], c.next)
  else
    let (name, after) := c.next.span isNameChar
    if after.peek = '!' then .ok ('!' :: (name ++ ['!']), after.next) else .error .malformed

/-- Whether a sign stands again within the word that a tag's sign opens. -/
def hasHandle (c : Cursor) : Bool :=
  (c.next.rest.takeWhile fun ch => !endsItem ch).contains '!'

/-- The tag of the node that follows: in full between angles, the sign alone, or with a handle. -/
def readTag (c : Cursor) : Reading := do
  let (found, after) ←
    if c.ahead 1 = '<' then do
      let (suffix, after) ← someTagText (c.skip 2)
      if after.peek = '>' then
        pure (Token.tag none (String.ofList suffix), after.next)
      else throw .malformed
    else if endsWord (c.ahead 1) then pure (Token.tag none "!", c.next)
    else do
      let (sign, after) ← if hasHandle c then tagHandle c else pure (['!'], c.next)
      let (suffix, after) ← someTagText after
      pure (Token.tag (some (String.ofList sign)) (String.ofList suffix), after)
  if endsItem after.peek then return (found, after) else throw .malformed

/-! ## Directives -/

/-- A number of a version, and the place behind it. -/
def versionNumber (c : Cursor) : Except Fault (Nat × Cursor) :=
  let (digits, after) := c.span Char.isDigit
  match Digits.natural? 10 digits with
  | some n => .ok (n, after)
  | none => .error .malformed

/-- The version of the language. -/
def readVersion (c : Cursor) : Reading := do
  let (major, after) ← versionNumber (c.skipWhile (· = ' '))
  if after.peek ≠ '.' then throw .malformed
  let (_, after) ← versionNumber after.next
  if endsItem after.peek then return (.version major, after) else throw .malformed

/-- A handle and the beginning of a tag that it stands for. -/
def readHandle (c : Cursor) : Reading := do
  let (name, after) ← tagHandle (c.skipWhile (· = ' '))
  if after.peek ≠ ' ' then throw .malformed
  let (start, after) ← someTagText (after.skipWhile (· = ' '))
  if endsItem after.peek then
    return (.handle (String.ofList name) (String.ofList start), after)
  else throw .malformed

/-- A directive, with the whole of its line. -/
def readDirective (c : Cursor) : Reading := do
  let (name, after) := c.next.span isNameChar
  if name.isEmpty || !endsItem after.peek then throw .malformed
  let (token, after) ←
    if name = "YAML".toList then readVersion after
    else if name = "TAG".toList then readHandle after
    else pure (Token.directive, after.skipWhile fun ch => !endsLine ch)
  match after.below? with
  | some last => return (token, last)
  | none => throw .malformed

end Mailshot.Yaml.Token
