import Mailshot.Number.Basic
import Mailshot.Calendar
import Mailshot.Text.Basic

/-!
# Configuration values

A configuration is data whose kinds are known only when it is read: a text may stand where a number
was meant, and a section may be missing or of the wrong kind altogether.

* `Scalar`, `Value` — single values, and collections of values; a mapping keeps its order.
* `Value.truthy` — the truth of a value: empty, zero and null are false.
* `Scalar.same` — when two scalars are the same mapping key.
* `Fields.find?`, `Fields.put` — reading and writing a mapping; writing keeps a key's place.
-/

namespace Mailshot

/-! ## Kinds of values -/

/-- A single value. -/
inductive Scalar
  | null
  | bool (b : Bool)
  | int (i : Int)
  | float (x : Binary64)
  | text (t : Text)
  | bytes (b : List UInt8)
  | date (d : Date)
  | moment (m : Moment)
deriving DecidableEq

/-- The kinds of collections that can hold themselves. -/
inductive Shape
  | list
  | map
deriving DecidableEq

/-- A value of a configuration. -/
inductive Value
  | scalar (s : Scalar)
  | list (items : List Value)
  /-- The fields of a mapping stand in the order of their insertion. -/
  | map (fields : List (Scalar × Value))
  /-- An item of a list of pairs. -/
  | pair (first second : Value)
  /-- A set holds no item twice.  Its items are listed as they stand, which is no part of the set. -/
  | set (items : List Scalar)
  /-- The place where a collection holds itself: one of those around it stands here again. -/
  | again (shape : Shape)

instance : Inhabited Value := ⟨.scalar .null⟩

/-- The fields of a mapping, each a key and its value. -/
abbrev Fields := List (Scalar × Value)

namespace Value

@[match_pattern] abbrev null : Value := .scalar .null

@[match_pattern] abbrev bool (b : Bool) : Value := .scalar (.bool b)

@[match_pattern] abbrev int (i : Int) : Value := .scalar (.int i)

@[match_pattern] abbrev float (x : Binary64) : Value := .scalar (.float x)

@[match_pattern] abbrev text (t : Text) : Value := .scalar (.text t)

@[match_pattern] abbrev bytes (b : List UInt8) : Value := .scalar (.bytes b)

end Value

/-! ## Scalars as numbers, truths and keys -/

namespace Scalar

/-- The number that a scalar is; a truth value counts as one or zero. -/
def number? : Scalar → Option Number
  | .bool b => some (.int (if b then 1 else 0))
  | .int i => some (.int i)
  | .float x => some (.float x)
  | _ => none

/-- The truth of a scalar: null, false, zero and the empty text are false. -/
def truthy : Scalar → Bool
  | .null => false
  | .text t => !t.isEmpty
  | .bytes b => !b.isEmpty
  | s => match s.number? with
    | some x => !x.isZero
    | none => true

/-- Whether two scalars are the same key: numbers and moments by what they stand for, all else by
kind and content. -/
def same (s t : Scalar) : Bool :=
  match s.number?, t.number? with
  | some x, some y => x.same y
  | none, none =>
      match s, t with
      | .moment m, .moment n => m.same n
      | s, t => s = t
  | _, _ => false

end Scalar

namespace Value

/-- The truth of a value: an empty collection is false, as is a false scalar. -/
def truthy : Value → Bool
  | .scalar s => s.truthy
  | .list items => !items.isEmpty
  | .map fields => !fields.isEmpty
  | .set items => !items.isEmpty
  | .pair _ _ => true
  | .again _ => true

/-- The number that a value is. -/
def number? : Value → Option Number
  | .scalar s => s.number?
  | _ => none

/-- The text that a value is. -/
def text? : Value → Option Text
  | .text t => some t
  | _ => none

/-- Whether a value is the given text. -/
def isText (v : Value) (s : String) : Bool := v.text? == some (Text.ofString s)

end Value

/-! ## Fields of a mapping -/

namespace Fields

/-- Fields named by texts. -/
def named (fields : List (String × Value)) : Fields :=
  fields.map fun field => (.text (Text.ofString field.1), field.2)

/-- The value under a key. -/
def find? : Fields → Scalar → Option Value
  | [], _ => none
  | (k, v) :: rest, key => if k.same key then some v else find? rest key

/-- The fields with a value put under a key: in its place if it is there, at the end if not. -/
def put : Fields → Scalar → Value → Fields
  | [], key, v => [(key, v)]
  | (k, w) :: rest, key, v =>
      if k.same key then (k, v) :: rest else (k, w) :: put rest key v

/-- Fields with others put over them, one after the other. -/
def putAll (base layer : Fields) : Fields :=
  layer.foldl (fun fields field => put fields field.1 field.2) base

/-- The value of a named field, null where there is none. -/
def look (fields : Fields) (name : String) : Value :=
  (find? fields (.text (Text.ofString name))).getD .null

/-- The value shown for a named field, the empty text where there is none. -/
def shown (fields : Fields) (name : String) : Value :=
  (find? fields (.text (Text.ofString name))).getD (.text [])

end Fields

end Mailshot
