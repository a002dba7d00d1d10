import Mailshot.Fault

/-!
# Tokens

* `Token` — the marks, names and scalars of a text, in the order in which it holds them.
-/

namespace Mailshot.Yaml

/-- A mark, a name or a scalar. -/
inductive Token
  /-- The version of the language, of which the first number counts. -/
  | version (major : Nat)
  /-- A handle that stands for the beginning of a tag. -/
  | handle (name start : String)
  /-- A directive without a meaning. -/
  | directive
  | documentStart
  | documentEnd
  | streamEnd
  | blockSequence
  | blockMapping
  | blockEnd
  | flowSequence
  | flowSequenceEnd
  | flowMapping
  | flowMappingEnd
  | blockEntry
  | flowEntry
  | key
  | value
  /-- The name of a node that stands elsewhere. -/
  | reference (name : String)
  /-- The name of the node that follows. -/
  | anchor (name : String)
  /-- The tag of the node that follows. -/
  | tag (handle : Option String) (suffix : String)
  | scalar (text : Text) (plain : Bool)
  /-- The place from which the text cannot be read. -/
  | broken (fault : Fault)

end Mailshot.Yaml
