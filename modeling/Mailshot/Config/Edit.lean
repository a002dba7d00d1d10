import Mailshot.Config.Resolve
import Mailshot.Value.Escape

/-!
# Edits

The steps by which a campaign is put together.  None changes its input; each gives a new
configuration.  A configuration is a value: a list of products that stands under another key as well,
one list in two places, is not told from two equal lists, and an edit of the products leaves the other
one as it is.

* `Product.fresh` — a placeholder product with an id of its own.
* `Config.add`, `Config.update`, `Config.remove` — a product put at the end, one of its fields set,
  a product taken out.
* `Edit`, `Edit.run` — the edits as data, and what one makes of a configuration and of the supply of
  ids.
-/

namespace Mailshot

/-! ## New products -/

namespace Product

/-- Whether products carry a field. -/
def isField (key : Scalar) : Bool := blank.any fun field => field.1.same key

/-- A placeholder product with the given id, and with some fields chosen.  Fields that no product
carries are named in rising order. -/
def fresh (id : Text) (chosen : List (Text × Value)) : Except Fault Fields :=
  let unknown := (chosen.map Prod.fst).filter fun name => !isField (.text name)
  if unknown.isEmpty then
    .ok ((placeholder.put (.text "id") (.text id)).putAll
      (chosen.map fun field => (.text field.1, field.2)))
  else .error (.unknownFields (unknown.mergeSort Text.atMost))

end Product

/-! ## Edits of a configuration -/

namespace Config

/-- The products of a configuration, an empty list where they are missing or false. -/
def productsOf (config : Fields) : Value :=
  let products := config.look "products"
  if products.truthy then products else .list []

/-- A configuration with other products. -/
def withProducts (config : Fields) (products : Value) : Value :=
  .map (config.put (.text "products") products)

/-- A configuration with a product at the end. -/
def add (config product : Value) : Except Fault Value := do
  let config ← config.fields
  match productsOf config with
  | .list products => return withProducts config (.list (products ++ [product]))
  | _ => throw .notExtendable

/-- The number that a position is, if it lies among the products; one that does not is named. -/
def position (products index : Value) : Except Fault Number := do
  match index.number? with
  | none => throw .notComparable
  | some i =>
      let count ← products.count
      if i.isIndexBelow count then return i
      else
        let _ ← index.written
        throw (.noProduct index count)

/-- The place in a list that a number among its positions is. -/
def place : Number → Except Fault Nat
  | .int i => .ok i.toNat
  | .float _ => .error .notPosition

/-- A product with one field set. -/
def setField (product : Value) (field : Scalar) (value : Value) : Except Fault Value :=
  match product with
  | .map fields => .ok (.map (Fields.put fields field value))
  | _ => .error .notAssignable

/-- The key of a field that products carry; one that they do not is named. -/
def productField (field : Value) : Except Fault Scalar := do
  match field with
  | .scalar key =>
      if Product.isField key then return key
      else
        let _ ← field.named
        throw (.unknownField key)
  | _ => throw .notKey

/-- A configuration with one field of one product set. -/
def update (config index field value : Value) : Except Fault Value := do
  let key ← productField field
  let config ← config.fields
  let products := productsOf config
  let i ← position products index
  match products, index with
  | .list items, _ =>
      let n ← place i
      let product ← setField (items.getD n .null) key value
      return withProducts config (.list (items.set n product))
  | .map fields, .scalar slot =>
      match Fields.find? fields slot with
      | none => throw .missingField
      | some product =>
          return withProducts config (.map (Fields.put fields slot (← setField product key value)))
  | _, _ => throw .notAssignable

/-- A configuration without the product at a position. -/
def remove (config index : Value) : Except Fault Value := do
  let config ← config.fields
  let products := productsOf config
  let i ← position products index
  match products with
  | .list items => return withProducts config (.list (items.eraseIdx (← place i)))
  | .text s => return withProducts config (.text (s.eraseIdx (← place i)))
  | _ => throw .notSliceable

end Config

/-! ## Edits as data -/

/-- A step that makes a new configuration. -/
inductive Edit
  /-- A given product is put at the end, or a placeholder where none is given. -/
  | add (product : Option Value)
  /-- A placeholder with some fields chosen is put at the end. -/
  | addFresh (chosen : List (Text × Value))
  | update (index field value : Value)
  | remove (index : Value)
  | resolve
  | escape

/-- What an edit makes of a configuration, and the number of ids drawn after it.  The ids come from
a supply; one is drawn for each placeholder that is made. -/
def Edit.run (ids : Nat → Text) (drawn : Nat) (config : Value) :
    Edit → Except Fault Value × Nat
  | .add (some product) => (Config.add config product, drawn)
  | .add none =>
      match Product.fresh (ids drawn) [] >>= fun product => Config.add config (.map product) with
      | .ok edited => (.ok edited, drawn + 1)
      | .error fault => (.error fault, drawn)
  | .addFresh chosen =>
      match Product.fresh (ids drawn) chosen with
      | .ok product => (Config.add config (.map product), drawn + 1)
      | .error fault => (.error fault, drawn)
  | .update index field value => (Config.update config index field value, drawn)
  | .remove index => (Config.remove config index, drawn)
  | .resolve => ((Config.resolve config).map .map, drawn)
  | .escape => (if config.isEndless then .error .endless else .ok config.escape, drawn)

end Mailshot
