import Mailshot.Yaml.Node.Basic
import Mailshot.Yaml.Token.Basic

/-!
# The nodes of a text

* `Source` — the tokens still to be read, the nodes that were met, their names, and the handles of
  tags.
* `Grammar.node` and the functions beside it — the grammar of nodes.  Each gives the number of the
  node that it read.
* `Graph.ofTokens` — the nodes of the one document in a text, if there is a document.

A node has its number and its name before its parts are read, so that it may stand among them.

Every function of the grammar is given a bound on the depth of its recursion; `Graph.ofTokens` gives
one that no text reaches, since at most a few calls in a row take no token.
-/

namespace Mailshot.Yaml

/-- What is left of a text, and what is known from before. -/
structure Source where
  tokens : List Token
  nodes : Graph
  /-- The numbers of the nodes that have a name. -/
  anchors : List (String × Nat)
  /-- What the handles of tags stand for. -/
  handles : List (String × String)
  /-- The number of collections that are open. -/
  depth : Nat

/-- Reading of a part of a text. -/
abbrev Grammar (α : Type) := StateT Source (Except Fault) α

namespace Grammar

/-! ## Tokens -/

/-- The next token, if the text can be read as far as that. -/
def peek : Grammar Token := do
  match (← get).tokens.headD .streamEnd with
  | .broken fault => throw fault
  | token => return token

/-- One token further. -/
def advance : Grammar Unit := modify fun source => { source with tokens := source.tokens.drop 1 }

/-! ## Numbers, names and tags -/

/-- A node of which nothing more is known yet. -/
def reserve : Grammar Nat := do
  let source ← get
  set { source with nodes := source.nodes.push .absent }
  return source.nodes.size

/-- The node of a place where nothing is written. -/
def absent : Grammar Nat := reserve

/-- What stands in a node is known. -/
def complete (n : Nat) (node : Node) : Grammar Unit :=
  modify fun source => { source with nodes := source.nodes.setIfInBounds n node }

/-- The node that has a name. -/
def referred (name : String) : Grammar Nat := do
  match (← get).anchors.lookup name with
  | some n => return n
  | none => throw .malformed

/-- A node gets a name; no name is given twice. -/
def announce (n : Nat) : Option String → Grammar Unit
  | none => pure ()
  | some name => do
      if ((← get).anchors.lookup name).isSome then throw .malformed
      modify fun source => { source with anchors := (name, n) :: source.anchors }

/-- The tag that a node is given: none if it is to be resolved by the text of the node. -/
def fullTag (handle : Option String) (suffix : String) : Grammar (Option Tag) := do
  match handle with
  | none => return if suffix = "!" then none else some (.ofName suffix)
  | some handle =>
      match (← get).handles.lookup handle with
      | some start =>
          let name := start ++ suffix
          return if name = "!" then none else some (.ofName name)
      | none => throw .malformed

/-- The name and the tag in front of a node, in either order. -/
structure Properties where
  anchor : Option String
  /-- Whether a tag is written. -/
  isTagged : Bool
  tag : Option Tag

/-- The name and the tag in front of a node. -/
def properties : Grammar Properties := do
  match ← peek with
  | .anchor name =>
      advance
      match ← peek with
      | .tag handle suffix =>
          advance
          return ⟨some name, true, ← fullTag handle suffix⟩
      | _ => return ⟨some name, false, none⟩
  | .tag handle suffix =>
      advance
      match ← peek with
      | .anchor name =>
          advance
          return ⟨some name, true, ← fullTag handle suffix⟩
      | _ => return ⟨none, true, ← fullTag handle suffix⟩
  | _ => return ⟨none, false, none⟩

/-! ## Nodes -/

/-- The greatest number of collections that stand one in the other. -/
def depthLimit : Nat := 485

/-- The parts of a collection are read. -/
def inside {α : Type} (parts : Grammar α) : Grammar α := do
  let depth := (← get).depth
  if depthLimit ≤ depth then throw .tooDeep
  modify fun source => { source with depth := depth + 1 }
  let result ← parts
  modify fun source => { source with depth := depth }
  return result

mutual

/-- A node.  Block collections may stand only where a block may, a sequence without indentation of its
own only where the entry of a mapping may. -/
def node : Nat → Bool → Bool → Grammar Nat
  | 0, _, _ => throw .malformed
  | bound + 1, block, indentless => do
      match ← peek with
      | .reference name =>
          advance
          referred name
      | _ =>
          let props ← properties
          let _ ← peek
          let n ← reserve
          announce n props.anchor
          complete n (← content bound block indentless props)
          return n

/-- What stands behind the name and the tag of a node. -/
def content : Nat → Bool → Bool → Properties → Grammar Node
  | 0, _, _, _ => throw .malformed
  | bound + 1, block, indentless, props => do
      let sequence (items : List Nat) : Node := ⟨props.tag.getD .sequence, .sequence items⟩
      let mapping (fields : List (Nat × Nat)) : Node :=
        ⟨props.tag.getD .mapping, .mapping fields⟩
      match ← peek, block, indentless with
      | .blockEntry, _, true => return sequence (← inside (indentlessItems bound))
      | .scalar text plain, _, _ =>
          advance
          let resolved := if plain || props.isTagged then Tag.ofPlain text else .text
          return ⟨props.tag.getD resolved, .scalar text⟩
      | .flowSequence, _, _ =>
          advance
          return sequence (← inside (flowItems bound true))
      | .flowMapping, _, _ =>
          advance
          return mapping (← inside (flowFields bound true))
      | .blockSequence, true, _ =>
          advance
          return sequence (← inside (blockItems bound))
      | .blockMapping, true, _ =>
          advance
          return mapping (← inside (blockFields bound))
      | _, _, _ =>
          if props.anchor.isSome || props.isTagged then
            return ⟨props.tag.getD (.ofPlain []), .scalar []⟩
          else throw .malformed

/-- The items of a block sequence. -/
def blockItems : Nat → Grammar (List Nat)
  | 0 => throw .malformed
  | bound + 1 => do
      match ← peek with
      | .blockEntry =>
          advance
          let item ← match ← peek with
            | .blockEntry | .blockEnd => absent
            | _ => node bound true false
          return item :: (← blockItems bound)
      | .blockEnd =>
          advance
          return []
      | _ => throw .malformed

/-- The items of a sequence that is indented no deeper than the key before it. -/
def indentlessItems : Nat → Grammar (List Nat)
  | 0 => throw .malformed
  | bound + 1 => do
      match ← peek with
      | .blockEntry =>
          advance
          let item ← match ← peek with
            | .blockEntry | .key | .value | .blockEnd => absent
            | _ => node bound true false
          return item :: (← indentlessItems bound)
      | _ => return []

/-- A key or a value of a block mapping, behind its mark. -/
def blockPart : Nat → Grammar Nat
  | 0 => throw .malformed
  | bound + 1 => do
      match ← peek with
      | .key | .value | .blockEnd => absent
      | _ => node bound true true

/-- The fields of a block mapping. -/
def blockFields : Nat → Grammar (List (Nat × Nat))
  | 0 => throw .malformed
  | bound + 1 => do
      match ← peek with
      | .key =>
          advance
          let key ← blockPart bound
          let value ← match ← peek with
            | .value =>
                advance
                blockPart bound
            | _ => absent
          return (key, value) :: (← blockFields bound)
      | .blockEnd =>
          advance
          return []
      | _ => throw .malformed

/-- A key or a value of a flow collection, behind its mark. -/
def flowPart : Nat → Grammar Nat
  | 0 => throw .malformed
  | bound + 1 => do
      match ← peek with
      | .value | .flowEntry | .flowSequenceEnd | .flowMappingEnd => absent
      | _ => node bound false false

/-- The value of a flow collection's key, which may be missing. -/
def flowValue : Nat → Grammar Nat
  | 0 => throw .malformed
  | bound + 1 => do
      match ← peek with
      | .value =>
          advance
          flowPart bound
      | _ => absent

/-- The items of a flow sequence; a field among them is a mapping of its own. -/
def flowItems : Nat → Bool → Grammar (List Nat)
  | 0, _ => throw .malformed
  | bound + 1, first => do
      match ← peek with
      | .flowSequenceEnd =>
          advance
          return []
      | token =>
          unless first do
            match token with
            | .flowEntry => advance
            | _ => throw .malformed
          match ← peek with
          | .key =>
              advance
              let n ← reserve
              let field ← inside do
                let key ← flowPart bound
                let value ← flowValue bound
                return (key, value)
              complete n ⟨.mapping, .mapping [field]⟩
              return n :: (← flowItems bound false)
          | .flowSequenceEnd =>
              advance
              return []
          | _ =>
              let item ← node bound false false
              return item :: (← flowItems bound false)

/-- The fields of a flow mapping; a node that is no key has no value. -/
def flowFields : Nat → Bool → Grammar (List (Nat × Nat))
  | 0, _ => throw .malformed
  | bound + 1, first => do
      match ← peek with
      | .flowMappingEnd =>
          advance
          return []
      | token =>
          unless first do
            match token with
            | .flowEntry => advance
            | _ => throw .malformed
          match ← peek with
          | .key =>
              advance
              let key ← flowPart bound
              let value ← flowValue bound
              return (key, value) :: (← flowFields bound false)
          | .flowMappingEnd =>
              advance
              return []
          | _ =>
              let key ← node bound false false
              let value ← absent
              return (key, value) :: (← flowFields bound false)

end

/-! ## Documents -/

/-- The handles that every document knows. -/
def commonHandles : List (String × String) := [("!", "!"), ("!!", Tag.start)]

/-- The directives in front of a document: one version at most, and no handle twice. -/
def directives (version : Bool) (handles : List (String × String)) :
    List Token → Except Fault (List (String × String) × List Token)
  | .version major :: rest =>
      if version || major ≠ 1 then .error .malformed else directives true handles rest
  | .handle name start :: rest =>
      if (handles.lookup name).isSome then .error .malformed
      else directives version ((name, start) :: handles) rest
  | .directive :: rest => directives version handles rest
  | rest => .ok (handles ++ commonHandles, rest)

/-- The end of the text must follow, behind any number of marks that end a document. -/
def ending : List Token → Except Fault Unit
  | .documentEnd :: rest => ending rest
  | .streamEnd :: _ => .ok ()
  | .broken fault :: _ => .error fault
  | _ => .error .malformed

/-- A document that opens with its mark, behind the directives. -/
def marked (bound : Nat) : Grammar Nat := do
  let source ← get
  let (handles, rest) ← (directives false [] source.tokens : Except Fault _)
  set { source with handles := handles, tokens := rest }
  match ← peek with
  | .documentStart =>
      advance
      match ← peek with
      | .version _ | .handle _ _ | .directive | .documentStart | .documentEnd | .streamEnd =>
          absent
      | _ => node bound true false
  | _ => throw .malformed

/-- The one document of a text. -/
def document (bound : Nat) : Grammar (Option Nat) := do
  match ← peek with
  | .streamEnd => return none
  | .version _ | .handle _ _ | .directive | .documentStart =>
      let root ← marked bound
      (ending (← get).tokens : Except Fault Unit)
      return some root
  | _ =>
      let root ← node bound true false
      (ending (← get).tokens : Except Fault Unit)
      return some root

end Grammar

/-- The nodes of the one document in a text and the number of its root, if there is a document. -/
def Graph.ofTokens (tokens : List Token) : Except Fault (Option (Graph × Nat)) := do
  let source : Source := ⟨tokens, #[], [], Grammar.commonHandles, 0⟩
  let (root, source) ← (Grammar.document (8 * tokens.length + 8)).run source
  return root.map fun n => (source.nodes, n)

end Mailshot.Yaml
