import Mailshot.Text.Basic

/-!
# Markup entities

Text from a configuration that is not trusted is entity-encoded before it enters a document.

* `Entity.replace` — every occurrence of a character replaced in one pass over a text.
* `Entity.table`, `Text.escape` — the four passes in order, the ampersand first, so that a later pass
  never meets an ampersand that an earlier one wrote.
-/

namespace Mailshot.Text.Entity

/-- A text with every occurrence of one character replaced. -/
def replace (c : Char) (entity : Text) : Text → Text
  | [] => []
  | d :: rest => if d = .char c then entity ++ replace c entity rest else d :: replace c entity rest

/-- The characters that markup gives a meaning, each with its entity, in the order of the passes. -/
def table : List (Char × Text) :=
  [('&', ofChars ['&', 'a', 'm', 'p', ';']),
   ('<', ofChars ['&', 'l', 't', ';']),
   ('>', ofChars ['&', 'g', 't', ';']),
   ('"', ofChars ['&', 'q', 'u', 'o', 't', ';'])]

/-- The passes of a table one after the other. -/
def escapeBy (passes : List (Char × Text)) (t : Text) : Text :=
  passes.foldl (fun text pass => replace pass.1 pass.2 text) t

end Mailshot.Text.Entity

namespace Mailshot.Text

/-- A text with its markup characters written as entities. -/
def escape (t : Text) : Text := Entity.escapeBy Entity.table t

end Mailshot.Text
