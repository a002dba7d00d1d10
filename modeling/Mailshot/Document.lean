import Mailshot.Config.Resolve
import Mailshot.Product.Listing
import Mailshot.Section
import Mailshot.Value.SetOrder
import Mailshot.Value.Escape

/-!
# The compiled document

* `Document.markup` — a configuration compiled: completed, escaped if asked for, and put into the
  frame that all campaigns share.
* `Document.html` — the text of that markup.

To complete a configuration is to copy it, so both depend on the order of the sets in the copy.
-/

namespace Mailshot.Document

/-! ## The frame -/

/-- What stands in front of the sections: the head of the document, and the opening of the container
with the width of the content. -/
def opening (title : Except Fault Value) (content : Value) (ground : Except Fault Value) : Part :=
  Part.join [
    "<!DOCTYPE html>\n<html>\n<head>\n<meta charset=\"utf-8\">",
    "\n<meta name=\"viewport\" content=\"width=device-width, initial-scale=1.0\">",
    "\n<title>", title, "</title>\n</head>",
    "\n<body style=\"margin: 0; padding: 0; background-color: ", Palette.pageGround, ";\">",
    "\n<center>\n",
    "\n<!-- OUTER WRAPPER -->",
    "\n<table border=\"0\" cellpadding=\"0\" cellspacing=\"0\" width=\"100%\" ",
    "style=\"background-color: ", Palette.pageGround, ";\">",
    "\n<tr><td align=\"center\" style=\"padding: 20px 0;\">\n",
    "\n<!-- INNER CONTAINER (", content, "px) -->",
    "\n<table border=\"0\" cellpadding=\"0\" cellspacing=\"0\" width=\"", content, "\"",
    "\n       style=\"max-width: ", content, "px; background-color: ", ground, "; width: ", content,
    "px;\">",
    "\n<tr><td>"]

/-- The products in the table that pads them. -/
def productsPart (products : Markup) : Part :=
  Part.join [
    "\n\n<!-- ── PRODUCTS ── -->",
    "\n<table ", .tableAttributes, ">",
    "\n  <tr>",
    "\n    <td style=\"padding: 20px;\">",
    "\n      ", products,
    "\n    </td>",
    "\n  </tr>",
    "\n</table>"]

/-- What stands behind the sections. -/
def closing : Part :=
  Part.join [
    "\n</td></tr>\n</table>\n<!-- /INNER CONTAINER -->\n",
    "\n</td></tr>\n</table>\n<!-- /OUTER WRAPPER -->\n",
    "\n</center>\n</body>\n</html>"]

/-! ## Compilation -/

/-- The document of a configuration that is complete, and escaped if it is to be. -/
def ofResolved (config : Fields) : Report Markup := do
  let template ← Template.ofValue (config.look "template")
  let layout := config.look "layout"
  let theme := config.look "theme"
  let company := config.look "company"
  let products := config.look "products"
  let content ← layout.field "content_width"
  let size ← layout.field "product_image_size"
  let count ← products.count
  Report.enter .debug ("Compiling template=" ++ Text.ofString template.name ++ " width=" ++
    (← content.written) ++ " size=" ++ (← size.written) ++ " products=" ++ Text.ofNat count)
  let header ← Section.header company theme
  let hero ← Section.hero (config.look "hero") theme (some template) content
  let listing ← Listing.render (.text template.name) products layout theme
  let footer ← Section.footer company (config.look "footer") theme
  Part.join [opening (Section.title (.map config)) content (theme.field "background_color"), "\n",
    header, "\n", hero, productsPart listing, "\n", footer, closing]

/-- The document of a configuration, its sets in order.  Not all texts of one that holds itself can be
escaped. -/
def markup (config : Value) (escaped : Bool) (ρ : SetOrder := .copied) : Report Markup := do
  let resolved := (← Config.resolve config).ordered ρ
  if escaped && resolved.isEndless then Report.ofOutcome (.error .endless)
  else ofResolved (if escaped then resolved.escape else resolved)

/-- The text of the document of a configuration, its sets in order. -/
def html (config : Value) (escaped : Bool) (ρ : SetOrder := .copied) : Report Text := do
  return (← markup config escaped ρ).text

end Mailshot.Document
