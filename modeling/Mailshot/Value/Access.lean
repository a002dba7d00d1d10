import Mailshot.Fault

/-!
# Reading values

A value may be of any kind, so every way to read one names what is wrong with a value that cannot be
read in that way.

* `Value.fields`, `Value.field` — the fields of a mapping, and one that must be there.
* `Value.look`, `Value.shown` — one that may be missing: it is null then, or shows as nothing.
* `Value.items`, `Value.count`, `Value.runs` — the items of a value, visited, counted or taken in
  runs.
* `Value.fieldsOrNone`, `Value.itemsOrNone`, `Value.countOrNone` — what is false counts as empty.
* `Value.written`, `Value.named` — what a value shows, and how a message names it.
-/

namespace Mailshot.Value

/-! ## Mappings -/

/-- The fields of a value that must be a mapping. -/
def fields : Value → Except Fault Fields
  | .map fields => .ok fields
  | _ => .error .notMapping

/-- The fields of a value that may be left out. -/
def fieldsOrNone (v : Value) : Except Fault Fields :=
  if v.truthy then v.fields else .ok []

/-- A field that must be there. -/
def field (v : Value) (name : String) : Except Fault Value :=
  match v with
  | .map fields => match Fields.find? fields (.text (Text.ofString name)) with
    | some value => .ok value
    | none => .error .missingField
  | _ => .error .notIndexable

/-- The value of a named field, null where there is none. -/
def look (v : Value) (name : String) : Except Fault Value := do
  return (← v.fields).look name

/-- The value shown for a named field, the empty text where there is none. -/
def shown (v : Value) (name : String) : Except Fault Value := do
  return (← v.fields).shown name

/-! ## Collections -/

/-- The items of a value that are visited one by one: those of a collection, the characters of a
text, the numbers of bytes, the keys of a mapping. -/
def items : Value → Except Fault (List Value)
  | .list items => .ok items
  | .text t => .ok (t.map fun letter => .text [letter])
  | .bytes b => .ok (b.map fun byte => .int byte.toNat)
  | .map fields => .ok (fields.map fun field => .scalar field.1)
  | .pair first second => .ok [first, second]
  | .set items => .ok (items.map .scalar)
  | _ => .error .notIterable

/-- The items of a value that may be left out. -/
def itemsOrNone (v : Value) : Except Fault (List Value) :=
  if v.truthy then v.items else .ok []

/-- The number of items of a value. -/
def count (v : Value) : Except Fault Nat :=
  match v.items with
  | .ok items => .ok items.length
  | .error _ => .error .notCountable

/-- The number of items of a value that may be left out. -/
def countOrNone (v : Value) : Except Fault Nat :=
  if v.truthy then v.count else .ok 0

/-- The items of a value that are taken in runs: a mapping and a set have no runs, unless they are
empty. -/
def runs (v : Value) : Except Fault (List Value) :=
  match v with
  | .map (_ :: _) | .set (_ :: _) => .error .notSliceable
  | v => match v.items with
    | .ok items => .ok items
    | .error _ => .error .notCountable

/-! ## Texts -/

/-- What a value shows. -/
def written (v : Value) : Except Fault Text :=
  if v.isShowable then .ok v.display else .error .tooManyDigits

/-- A value as a message names it. -/
def named (v : Value) : Except Fault Text :=
  if v.isShowable then .ok v.inspect else .error .tooManyDigits

end Mailshot.Value
