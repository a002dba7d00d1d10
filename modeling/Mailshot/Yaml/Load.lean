import Mailshot.Yaml.Node.OfTokens
import Mailshot.Yaml.Object.OfNodes
import Mailshot.Yaml.Readable
import Mailshot.Yaml.Token.OfText

/-!
# The objects of a file

* `Yaml.load` — the objects that the content of a file describes.
-/

namespace Mailshot.Yaml

/-- The objects of a file; one without a document describes the value null. -/
def load (content : ByteArray) : Except Fault Objects := do
  let text := Readable.ofBytes content
  match ← Graph.ofTokens (Token.ofText text.chars text.stop) with
  | none => return ⟨#[.scalar .null], 0⟩
  | some (graph, root) => Objects.ofNodes graph root

end Mailshot.Yaml
