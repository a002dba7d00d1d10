import Mailshot.Fault
import Mailshot.Yaml.Tag

/-!
# Nodes

A text describes scalars, sequences and mappings.  A node may stand in several places, also inside
itself, so each node has a number and is held by it.

* `Node`, `Graph` — a node, and all nodes of a text by their numbers.
* `Graph.scalarText` — the text of a node that is read as a scalar.
-/

namespace Mailshot.Yaml

/-- What a node holds; its parts are given by their numbers. -/
inductive Content
  | scalar (text : Text)
  | sequence (items : List Nat)
  | mapping (fields : List (Nat × Nat))

/-- A node of a text. -/
structure Node where
  tag : Tag
  content : Content

namespace Node

/-- The node of a place where nothing is written. -/
def absent : Node := ⟨.ofPlain [], .scalar []⟩

instance : Inhabited Node := ⟨absent⟩

end Node

/-- The nodes of a text, each at its number. -/
abbrev Graph := Array Node

namespace Graph

/-- The node with a number. -/
def node (graph : Graph) (n : Nat) : Node := graph.getD n .absent

/-- The tag of the node with a number. -/
def tag (graph : Graph) (n : Nat) : Tag := (graph.node n).tag

/-- What the node with a number holds. -/
def content (graph : Graph) (n : Nat) : Content := (graph.node n).content

/-- The graph with another tag at a node. -/
def withTag (graph : Graph) (n : Nat) (tag : Tag) : Graph :=
  graph.setIfInBounds n ⟨tag, graph.content n⟩

/-- The graph with another content in a node. -/
def withContent (graph : Graph) (n : Nat) (content : Content) : Graph :=
  graph.setIfInBounds n ⟨graph.tag n, content⟩

/-- The text of a node that is read as a scalar.  A mapping may have a field that stands in for it;
where such fields lead in a circle there is no text to be found. -/
def scalarText (graph : Graph) (n : Nat) : Except Fault Text := go graph.size n
where
  /-- The text that is found within so many steps. -/
  go : Nat → Nat → Except Fault Text
    | bound, n =>
        match graph.content n with
        | .scalar text => .ok text
        | .sequence _ => .error .malformed
        | .mapping fields =>
            match fields.find? fun field => graph.tag field.1 = .standIn, bound with
            | none, _ => .error .malformed
            | some _, 0 => .error .endless
            | some field, bound + 1 => go bound field.2

end Graph

end Mailshot.Yaml
