import Mailshot.Value.Basic

/-!
# Objects

What a text describes may hold itself, which a value cannot.  An object is held by its number, and it
holds its parts by theirs; one that stands in several places is one object.

* `Object`, `Objects` — an object, and all objects of a text by their numbers.
* `Objects.value` — the value of an object, seen from there: where one of the objects around a place
  stands there again, the value says so and ends.
* `Objects.opened`, `Objects.fields?` — the same with the parts seen each from its own place.
-/

namespace Mailshot.Yaml

/-- A scalar, or a collection with the numbers of its parts. -/
inductive Object
  | scalar (s : Scalar)
  | list (items : List Nat)
  /-- The fields stand in the order of the text; of fields with one key the last one counts. -/
  | map (fields : List (Scalar × Nat))
  | pairs (items : List (Nat × Nat))
  | set (items : List Scalar)

/-- The objects of a text, each at its number, and the number of the one that holds the others. -/
structure Objects where
  made : Array Object
  root : Nat

namespace Objects

/-- The object with a number. -/
def object (objects : Objects) (n : Nat) : Object := objects.made.getD n (.scalar .null)

/-- Scalars without repetitions. -/
def distinct (items : List Scalar) : List Scalar :=
  (Fields.putAll [] (items.map fun item => (item, .null))).map Prod.fst

/-- The value of an object inside others.  A way on which no object recurs is no longer than there
are objects, so the bound is not reached. -/
def valueIn (objects : Objects) : Nat → List Nat → Nat → Value
  | 0, _, _ => .null
  | bound + 1, around, n =>
      let part := valueIn objects bound (n :: around)
      match objects.object n with
      | .scalar s => .scalar s
      | .set items => .set (distinct items)
      | .list items => if around.contains n then .again .list else .list (items.map part)
      | .pairs items =>
          if around.contains n then .again .list
          else .list (items.map fun item => .pair (part item.1) (part item.2))
      | .map fields =>
          if around.contains n then .again .map
          else .map (Fields.putAll [] (fields.map fun field => (field.1, part field.2)))

/-- The value of an object. -/
def value (objects : Objects) (n : Nat) : Value := objects.valueIn (objects.made.size + 1) [] n

/-- The fields of an object that is a mapping, their values given by a way to see them. -/
def fields? (objects : Objects) (see : Scalar → Nat → Value) (n : Nat) : Option Fields :=
  match objects.object n with
  | .map fields => some (Fields.putAll [] (fields.map fun field => (field.1, see field.1 field.2)))
  | _ => none

/-- The value of an object, the values of the fields of a mapping seen each from its own place. -/
def openedMap (objects : Objects) (n : Nat) : Value :=
  match objects.fields? (fun _ => objects.value) n with
  | some fields => .map fields
  | none => objects.value n

/-- The value of an object, the items of a list seen each from its own place, and of an item that is a
mapping the fields. -/
def openedList (objects : Objects) (n : Nat) : Value :=
  match objects.object n with
  | .list items => .list (items.map objects.openedMap)
  | _ => objects.value n

end Objects

end Mailshot.Yaml
