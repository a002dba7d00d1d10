import Mailshot.Value.Access

/-!
# Deep merge

A partial mapping is completed by merging it over another.  A mapping goes into a mapping field by
field; a null leaves a mapping as it was, since that is what a section looks like when all its
fields are commented out; anything else replaces what was there.

* `Fields.merge` — the merge of two mappings.
* `Value.merge` — the same for values of any kind.
-/

namespace Mailshot

mutual

/-- The value of a field after a merge, from what the base holds there and what goes over it. -/
def Value.mergeInto : Option Value → Value → Value
  | some (.map base), .map layer => .map (Fields.mergeFields base layer)
  | some (.map base), .scalar .null => .map base
  | _, layer => layer

/-- The merge of one mapping over another, one field after the other. -/
def Fields.mergeFields : List (Scalar × Value) → List (Scalar × Value) → List (Scalar × Value)
  | base, [] => base
  | base, (key, layer) :: rest =>
      Fields.mergeFields (Fields.put base key (Value.mergeInto (Fields.find? base key) layer)) rest

end

/-- The merge of a mapping over another. -/
def Fields.merge (base layer : Fields) : Fields := Fields.mergeFields base layer

/-- The merge of a value over another.  A base that is no mapping stays as it is when there is
nothing to merge; otherwise the first field decides what is wrong with it. -/
def Value.merge (base layer : Value) : Except Fault Value := do
  let layer ← layer.fields
  match base, layer with
  | .map base, layer => return .map (Fields.merge base layer)
  | base, [] => return base
  | _, (_, .null) :: _ => throw .notMapping
  | _, (_, .map _) :: _ => throw .notMapping
  | _, _ :: _ => throw .notAssignable

end Mailshot
