import Mailshot.Product.Parts

/-!
# The three forms of a product

* `Product.card` — a bordered card of the classic grid.
* `Product.entry` — an entry of the modern list, the image at the left of the text.
* `Product.block` — a full-width block of the banner template.
-/

namespace Mailshot.Product

/-! ## Parts in common -/

/-- A field of a product as a part of its markup. -/
def field (product : Fields) (name : String) : Part := product.shown name

/-- The opening of a framed table, `shape` being the rest of its style. -/
def framedTable (shape : String) : Part :=
  Part.join ["\n<table ", .tableAttributes, " style=\"border: 1px solid ", Palette.border, "; ",
    shape, "\">"]

/-- The product's image behind its link; `shape` is the rest of the image's style. -/
def image (product : Fields) (width : Int) (shape : Part) : Part :=
  Part.join [
    "\n      <a href=\"", field product "link", "\" style=\"text-decoration:none; display:block;\">",
    "\n        <img src=\"", field product "image_url", "\" alt=\"", field product "name",
    "\" width=\"", .pixels width, "\"",
    "\n             style=\"", shape, "\" />",
    "\n      </a>"]

/-- The heading with the product's name. -/
def heading (product : Fields) (theme : Value) (margin size : String) : Part :=
  Part.join ["\n      <h3 style=\"margin: ", margin, "; color: ", theme.shown "text_color",
    "; font-size: ", size, ";\">", field product "name", "</h3>"]

/-- The paragraph with the product's description. -/
def description (product : Fields) (margin size : String) : Part :=
  Part.join ["\n      <p style=\"margin: ", margin, "; color: ", Palette.muted, "; font-size: ", size,
    ";\">", field product "description", "</p>"]

/-! ## Card -/

/-- A bordered card: image, brand, name, description, price and a button. -/
def card (product : Fields) (theme : Value) (tier : Tier) (width : Int) : Part :=
  let padTop := if tier = .large then "0" else "15px"
  let picture := Part.join [
    "\n  <tr>",
    "\n    <td align=\"center\" valign=\"top\" style=\"padding-top: ", padTop,
    "; font-size: 0;\">",
    image product width (Part.join ["display: inline-block; width: ", .pixels width,
      "px; max-width: 100%; height: auto; object-fit: cover; aspect-ratio: 1/1;"]),
    "\n    </td>",
    "\n  </tr>"]
  let words := Part.join [
    "\n  <tr>",
    "\n    <td valign=\"top\" style=\"padding: 15px 15px 5px 15px; text-align: center;\">",
    "\n      ", badge product (.text "center"),
    heading product theme "0 0 8px 0" "16px; line-height: 1.3",
    description product "0 0 10px 0" "14px; line-height: 1.5",
    "\n      ", priceLine product theme (.text "18px"),
    "\n    </td>",
    "\n  </tr>"]
  let button := Part.join [
    "\n  <tr>",
    "\n    <td valign=\"bottom\" style=\"padding: 0 15px 20px 15px; text-align: center;\">",
    "\n      <a href=\"", field product "link",
    "\" style=\"display: inline-block; padding: 10px 20px; background-color: ",
    theme.shown "primary_color", "; color: ", Palette.buttonText,
    "; text-decoration: none; border-radius: 4px; font-size: 14px; font-weight: bold;\">",
    "View Details</a>",
    "\n    </td>",
    "\n  </tr>"]
  Part.join [
    framedTable
      ("border-radius: 8px; overflow: hidden; background-color: " ++ Palette.cardGround ++ ";"),
    picture, words, button, "\n</table>"]

/-! ## Entry -/

/-- How much wider the cell of an entry's image is than the image. -/
def entryMargin : Int := 10

/-- An entry of the list: the square image, then brand, name, price, description and a link. -/
def entry (product : Fields) (theme : Value) (size : Int) : Part :=
  let picture := Part.join [
    "\n    <td width=\"", .pixels (size + entryMargin), "\" valign=\"top\">",
    image product size (Part.join ["display: block; border-radius: 6px; object-fit: cover; height: ",
      .pixels size, "px; width: ", .pixels size, "px;"]),
    "\n    </td>"]
  let words := Part.join [
    "\n    <td valign=\"top\" style=\"padding-left: 20px;\">",
    "\n      ", badge product (.text "left"),
    heading product theme "0 0 5px 0" "18px",
    "\n      ", priceLine product theme (.text "18px"),
    description product "0 0 15px 0" "14px; line-height: 1.4",
    "\n      <a href=\"", field product "link", "\" style=\"color: ",
    theme.shown "primary_color",
    "; text-decoration: underline; font-size: 14px;\">Buy Now &rarr;</a>",
    "\n    </td>"]
  Part.join [
    "\n<table ", .tableAttributes, ">",
    "\n  <tr>", picture, words, "\n  </tr>",
    "\n</table>"]

/-- An entry that is only an image, over the whole width of the list. -/
def imageEntry (product : Fields) (width : Value) : Part :=
  Part.join ["<a href=\"", field product "link",
    "\" style=\"text-decoration:none; display:block;\">",
    "<img src=\"", field product "image_url", "\" alt=\"\" width=\"", width, "\" ",
    "style=\"display: block; border-radius: 8px; width: 100%; height: auto;\" /></a>"]

/-! ## Block -/

/-- The brand of a block in a row of its own; nothing without a brand. -/
def brandRow (product : Fields) : Part :=
  if hasBrand product then
    Part.join ["<table ", .tableAttributes, " style=\"margin-bottom: 8px;\"><tr>",
      "<td>", badge product (.text "left"), "</td></tr></table>"]
  else Part.join []

/-- A full-width block: the image over a panel with brand, name, description, price and button. -/
def block (product : Fields) (theme : Value) (tier : Tier) (width : Int) : Part :=
  let padTop := if tier = .large then "0" else "20px"
  let picture := Part.join [
    "\n  <tr>",
    "\n    <td align=\"center\" style=\"padding-top: ", padTop, ";\">",
    image product width (Part.join ["display: inline-block; width: ", .pixels width,
      "px; max-width: 100%; height: auto;"]),
    "\n    </td>",
    "\n  </tr>"]
  let button : Part := do buttonStyle (← theme.shown "primary_color") .small
  let offer := Part.join [
    "\n      <table ", .tableAttributes, " style=\"border-top: 1px solid ", Palette.divider,
    "; padding-top: 15px;\">",
    "\n        <tr>",
    "\n          <td valign=\"middle\" align=\"left\">", priceLine product theme (.text "20px"),
    "</td>",
    "\n          <td valign=\"middle\" align=\"right\">",
    "\n            <a href=\"", field product "link", "\" style=\"", button, "\">Shop Now</a>",
    "\n          </td>",
    "\n        </tr>",
    "\n      </table>"]
  let panel := Part.join [
    "\n  <tr>",
    "\n    <td style=\"padding: 24px; text-align: left; background-color: ", Palette.cardGround,
    ";\">",
    "\n      ", brandRow product,
    heading product theme "0 0 10px 0" "22px; line-height: 1.3",
    description product "0 0 20px 0" "15px; line-height: 1.6",
    offer,
    "\n    </td>",
    "\n  </tr>"]
  Part.join [
    framedTable "border-radius: 0px; margin-bottom: 20px;", picture, panel, "\n</table>"]

end Mailshot.Product
