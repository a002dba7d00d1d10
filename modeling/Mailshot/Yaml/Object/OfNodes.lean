import Mailshot.Yaml.Node.Merge
import Mailshot.Yaml.Object.Basic
import Mailshot.Yaml.Scalar

/-!
# The objects of nodes

* `Making` — the nodes, the objects made so far, and the collections that are still empty.
* `Making.make`, `Making.fill` — an object made of a node, and an empty collection filled.
* `Objects.ofNodes` — the objects of all nodes that the root leads to.

A scalar is complete when it is made.  A collection is made empty and filled after those that were made
before it, so that of several faults the one nearest to the root counts.
-/

namespace Mailshot.Yaml

/-- What is known while objects are made. -/
structure Making where
  graph : Graph
  made : Array (Option Object)
  /-- The collections that are still empty, in the order in which they were made. -/
  empty : List Nat

namespace Making

/-- A step in which objects are made. -/
abbrev Step (α : Type) := StateT Making (Except Fault) α

/-- What stands for the object of a node is known. -/
def put (n : Nat) (object : Object) : Step Unit :=
  modify fun making => { making with made := making.made.setIfInBounds n (some object) }

/-- The collection that is made of a node with a tag, while it is empty. -/
def emptyOf : Tag → Option Object
  | .sequence => some (.list [])
  | .mapping => some (.map [])
  | .pairs => some (.pairs [])
  | .set => some (.set [])
  | _ => none

/-- The mark of the value that is no number at a node. -/
def markOf (n : Nat) : Nat := Decimal.usualMark + 1 + n

/-- The scalar that is made of a node.  The form of a moment is sought in the text of the node
itself. -/
def scalarOf (graph : Graph) (n : Nat) : Except Fault Scalar :=
  match graph.tag n with
  | .unknown | .merge | .standIn => .error .malformed
  | tag => do
      let text ← graph.scalarText n
      match tag, graph.content n with
      | .moment, .sequence _ | .moment, .mapping _ => throw .notMatchable
      | _, _ => Scalar.ofTagged tag (markOf n) text

/-- An object is made of a node, unless that was done before. -/
def make (n : Nat) : Step Unit := do
  let making ← get
  if (making.made.getD n none).isNone then
    match emptyOf (making.graph.tag n) with
    | some object =>
        put n object
        modify fun making => { making with empty := making.empty ++ [n] }
    | none => put n (.scalar (← scalarOf making.graph n))

/-- The key that a node is; a collection is no key. -/
def key (n : Nat) : Step Scalar := do
  make n
  match (← get).made.getD n none with
  | some (.scalar s) => return s
  | _ => throw .malformed

/-- The fields of a node that must be a mapping, with what it merges. -/
def fieldsOf (n : Nat) : Step (List (Scalar × Nat)) := do
  match (← get).graph.content n with
  | .mapping _ =>
      let ((), graph) ← (Graph.flatten n).run (← get).graph
      modify fun making => { making with graph := graph }
      (graph.fields n).mapM fun field => do
        let name ← key field.1
        make field.2
        return (name, field.2)
  | _ => throw .malformed

/-- The pair of a node that must be a mapping with one field. -/
def pairOf (n : Nat) : Step (Nat × Nat) := do
  match (← get).graph.content n with
  | .mapping [pair] =>
      make pair.1
      make pair.2
      return pair
  | _ => throw .malformed

/-- The items of a node that must be a sequence. -/
def itemsOf (n : Nat) : Step (List Nat) := do
  match (← get).graph.content n with
  | .sequence items => return items
  | _ => throw .malformed

/-- A collection is filled. -/
def fill (n : Nat) : Step Unit := do
  match (← get).graph.tag n with
  | .sequence =>
      let items ← itemsOf n
      items.forM make
      put n (.list items)
  | .pairs => put n (.pairs (← (← itemsOf n).mapM pairOf))
  | .set => put n (.set ((← fieldsOf n).map Prod.fst))
  | _ => put n (.map (← fieldsOf n))

/-- Collections are filled until none is empty.  Each node is made once, so no more are filled than
there are nodes. -/
def fillAll : Nat → Step Unit
  | 0 => pure ()
  | bound + 1 => do
      match (← get).empty with
      | [] => pure ()
      | n :: rest =>
          modify fun making => { making with empty := rest }
          fill n
          fillAll bound

end Making

/-- The objects of all nodes that a root leads to. -/
def Objects.ofNodes (graph : Graph) (root : Nat) : Except Fault Objects := do
  let start : Making := ⟨graph, Array.replicate graph.size none, []⟩
  let work : Making.Step Unit := do
    Making.make root
    Making.fillAll graph.size
  let ((), making) ← work.run start
  return ⟨making.made.map fun object => object.getD (.scalar .null), root⟩

end Mailshot.Yaml
