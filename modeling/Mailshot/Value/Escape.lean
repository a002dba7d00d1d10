import Mailshot.Value.Basic
import Mailshot.Text.Entity

/-!
# Escaped values

* `Value.escape` — a value with every text in it entity-encoded.  The keys of a mapping, pairs, sets
  and whatever is no text stay as they are.
* `Value.isEndless` — whether a value holds itself, so that its texts are never all visited.
-/

namespace Mailshot

/-- A scalar with its text entity-encoded. -/
def Scalar.escape : Scalar → Scalar
  | .text t => .text (Text.escape t)
  | s => s

namespace Value

mutual

/-- A value with every text in it entity-encoded. -/
def escape : Value → Value
  | .scalar s => .scalar s.escape
  | .list items => .list (escapeItems items)
  | .map fields => .map (escapeFields fields)
  | v => v

/-- The items of a list, each escaped. -/
def escapeItems : List Value → List Value
  | [] => []
  | item :: rest => escape item :: escapeItems rest

/-- The fields of a mapping, each value escaped under its old key. -/
def escapeFields : List (Scalar × Value) → List (Scalar × Value)
  | [] => []
  | (key, value) :: rest => (key, escape value) :: escapeFields rest

end

mutual

/-- Whether a value holds itself. -/
def isEndless : Value → Bool
  | .list items => anyEndless items
  | .map fields => anyFieldEndless fields
  | .again _ => true
  | _ => false

/-- Whether an item of a list holds itself or the list. -/
def anyEndless : List Value → Bool
  | [] => false
  | item :: rest => isEndless item || anyEndless rest

/-- Whether the value of a field holds itself or the mapping. -/
def anyFieldEndless : List (Scalar × Value) → Bool
  | [] => false
  | (_, value) :: rest => isEndless value || anyFieldEndless rest

end

end Value

/-- The fields of a mapping with their values escaped. -/
def Fields.escape (fields : Fields) : Fields := Value.escapeFields fields

/-- Whether a mapping with the given fields holds itself. -/
def Fields.isEndless (fields : Fields) : Bool := Value.anyFieldEndless fields

end Mailshot
