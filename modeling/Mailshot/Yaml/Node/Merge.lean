import Mailshot.Yaml.Node.Basic

/-!
# Merged mappings

Under a merge key stands a mapping, or a list of mappings, whose fields the mapping takes over.

* `Graph.flatten` — a mapping without merge keys, the fields that it takes over in front of its own.
  Of a list the fields of a later mapping stand in front of those of an earlier one.

A mapping may merge itself, so each merge key is taken out before what stands under it is looked at.
-/

namespace Mailshot.Yaml.Graph

/-- Changes to a graph that may fail. -/
abbrev Change (α : Type) := StateT Graph (Except Fault) α

/-- The fields of a node; what is no mapping has none. -/
def fields (graph : Graph) (n : Nat) : List (Nat × Nat) :=
  match graph.content n with
  | .mapping fields => fields
  | _ => []

/-- The number of merge keys in a graph. -/
def mergeCount (graph : Graph) : Nat :=
  graph.foldl (fun count node =>
    match node.content with
    | .mapping fields => count + fields.countP fun field => graph.tag field.1 = .merge
    | _ => count) 0

/-- Among the keys of a mapping the sign of a stand-in is a text. -/
def nameStandIns (fields : List (Nat × Nat)) : Change Unit :=
  modify fun graph => fields.foldl (fun graph field =>
    if graph.tag field.1 = .standIn then graph.withTag field.1 .text else graph) graph

/-- The fields that a node under a merge key contributes, each mapping being flattened first. -/
def contributed (flatten : Nat → Change Unit) (n : Nat) : Change (List (Nat × Nat)) := do
  let ofMapping (n : Nat) : Change (List (Nat × Nat)) := do
    match (← get).content n with
    | .mapping _ =>
        flatten n
        return (← get).fields n
    | _ => throw .malformed
  match (← get).content n with
  | .sequence items => return (← items.mapM ofMapping).reverse.flatten
  | _ => ofMapping n

/-- The merge keys of a mapping are taken out one after the other, from the field with the given index
on; `front` is what the mapping took over so far. -/
def flattenFrom : Nat → Nat → Nat → List (Nat × Nat) → Change Unit
  | bound, n, index, front => do
      let graph ← get
      let fields := graph.fields n
      let own := (fields.drop index).takeWhile fun field => graph.tag field.1 ≠ .merge
      nameStandIns own
      let next := index + own.length
      match fields.drop next, bound with
      | [], _ => modify fun graph => graph.withContent n (.mapping (front ++ fields))
      | _ :: _, 0 => throw .malformed
      | (_, value) :: rest, bound + 1 =>
          modify fun graph => graph.withContent n (.mapping (fields.take next ++ rest))
          let more ← contributed (fun m => flattenFrom bound m 0 []) value
          flattenFrom bound n next (front ++ more)

/-- A mapping takes over what it merges.  Every step takes a merge key out, so no more steps follow
each other than there are merge keys. -/
def flatten (n : Nat) : Change Unit := do
  flattenFrom (← get).mergeCount n 0 []

end Mailshot.Yaml.Graph
