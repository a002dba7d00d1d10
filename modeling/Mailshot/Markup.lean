import Mailshot.Template

/-!
# Markup with slots

A document is put together from text that is the same for every campaign and from configured values.
The two are kept apart until the end, so that what a value can do to a document is visible.

* `Piece`, `Markup` — fixed text, a slot that shows a value, or a number of pixels; and a sequence of
  pieces.
* `Part` — a markup, unless something is wrong with a value that it shows.
* `Part.join` — parts put one behind the other; a text stands for itself, a value for its slot.  Of
  several faults the first one counts.
* `Markup.text` — the document itself, with every slot filled.
-/

namespace Mailshot

/-! ## Markup -/

/-- A piece of a document. -/
inductive Piece
  /-- Text that does not depend on the configuration. -/
  | fixed (text : String)
  /-- The place where a configured value shows. -/
  | slot (value : Value)
  /-- A computed number of pixels. -/
  | pixels (n : Int)

/-- The text of a piece. -/
def Piece.text : Piece → Text
  | fixed text => text
  | slot value => value.display
  | pixels n => Text.ofInt n

/-- A sequence of pieces. -/
abbrev Markup := List Piece

/-- The text of a markup. -/
def Markup.text (markup : Markup) : Text := markup.flatMap Piece.text

/-! ## Parts -/

/-- A part of a document, or what is wrong with it. -/
abbrev Part := Except Fault Markup

namespace Part

/-- A part of fixed text. -/
def fixed (text : String) : Part := .ok [.fixed text]

/-- The part that shows a value, which must be one that shows. -/
def ofValue (v : Value) : Part := do
  let _ ← v.written
  return [.slot v]

/-- The part of a number of pixels. -/
def pixels (n : Int) : Part := .ok [.pixels n]

/-- Parts put one behind the other. -/
def join : List Part → Part
  | [] => .ok []
  | part :: rest => do
      let front ← part
      let back ← join rest
      return front ++ back

instance : Coe String Part := ⟨fixed⟩

instance : Coe Value Part := ⟨ofValue⟩

instance : Coe (Except Fault Value) Part := ⟨fun v => v >>= ofValue⟩

instance : Coe Markup Part := ⟨Except.ok⟩

/-- The attributes of every layout table. -/
def tableAttributes : Part := "width=\"100%\" cellpadding=\"0\" cellspacing=\"0\" border=\"0\""

end Part

end Mailshot
