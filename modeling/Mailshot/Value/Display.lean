import Mailshot.Value.Basic
import Mailshot.Text.Quoted

/-!
# Values as text

* `Value.display` — what a value shows in a document or a message.
* `Value.inspect` — the same with texts in quotes and dates as constructions; this is how a value
  shows inside a collection, and wherever a message names it.
* `Value.isShowable` — whether a value shows at all: an integer has a greatest number of digits.
-/

namespace Mailshot

/-! ## Scalars -/

namespace Scalar

/-- What a scalar shows as. -/
def display : Scalar → Text
  | .null => "None"
  | .bool b => if b then "True" else "False"
  | .int i => (Number.int i).text
  | .float x => (Number.float x).text
  | .text t => t
  | .bytes b => Text.quoteBytes b
  | .date d => d.text
  | .moment m => m.text

/-- What a scalar shows as inside a collection. -/
def inspect : Scalar → Text
  | .text t => Text.quote t
  | .date d => d.construction
  | .moment m => m.construction
  | s => s.display

/-- The greatest number of digits of an integer that is shown. -/
def digitLimit : Nat := 4300

/-- Whether a scalar shows: an integer with too many digits does not. -/
def isShowable : Scalar → Bool
  | .int i => (toString i.natAbs).length ≤ digitLimit
  | _ => true

end Scalar

/-! ## Collections -/

/-- What stands in the place where a collection holds itself. -/
def Shape.text : Shape → Text
  | .list => "[...]"
  | .map => "\x7b...\x7d"

/-- What separates the items of a collection. -/
def itemSeparator : Text := ", "

namespace Value

mutual

/-- A value as a collection shows it; a set shows its items as they stand. -/
def inspect : Value → Text
  | .scalar s => s.inspect
  | .list items => "[" ++ List.intercalate itemSeparator (inspectItems items) ++ "]"
  | .map fields => "\x7b" ++ List.intercalate itemSeparator (inspectFields fields) ++ "\x7d"
  | .pair first second => "(" ++ inspect first ++ itemSeparator ++ inspect second ++ ")"
  | .set [] => "set()"
  | .set items => "\x7b" ++ List.intercalate itemSeparator (items.map Scalar.inspect) ++ "\x7d"
  | .again shape => shape.text

/-- The items of a list, each inspected. -/
def inspectItems : List Value → List Text
  | [] => []
  | item :: rest => inspect item :: inspectItems rest

/-- The fields of a mapping, key and value joined by a colon. -/
def inspectFields : List (Scalar × Value) → List Text
  | [] => []
  | (key, value) :: rest => (key.inspect ++ ": " ++ inspect value) :: inspectFields rest

end

/-- What a value shows as. -/
def display : Value → Text
  | .scalar s => s.display
  | v => v.inspect

mutual

/-- Whether a value shows. -/
def isShowable : Value → Bool
  | .scalar s => s.isShowable
  | .list items => allShowable items
  | .map fields => allFieldsShowable fields
  | .pair first second => isShowable first && isShowable second
  | .set items => items.all Scalar.isShowable
  | .again _ => true

/-- Whether all items of a list show. -/
def allShowable : List Value → Bool
  | [] => true
  | item :: rest => isShowable item && allShowable rest

/-- Whether all fields of a mapping show. -/
def allFieldsShowable : List (Scalar × Value) → Bool
  | [] => true
  | (key, value) :: rest => key.isShowable && isShowable value && allFieldsShowable rest

end

end Value

end Mailshot
