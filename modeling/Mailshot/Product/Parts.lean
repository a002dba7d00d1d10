import Mailshot.Palette

/-!
# Parts of a product

What all templates share: the badge of the brand, the price line, the style of a button, and the
item of a product that is only an image.

* `Product.badge` — logo and name of the brand; nothing without either.
* `Product.priceLine` — the price, the discount, or nothing, as the pricing mode says.
* `Product.linkedImage` — a composed image behind its link, with no text beside it.
-/

namespace Mailshot

/-! ## Buttons -/

/-- How large a button is. -/
inductive ButtonSize
  | small
  | regular
deriving DecidableEq, Repr

/-- The padding of a button and the size of its text. -/
def ButtonSize.measures : ButtonSize → String × String
  | .small => ("8px 16px", "14px")
  | .regular => ("12px 24px", "16px")

/-- The style of a button on a ground of the given colour. -/
def buttonStyle (colour : Value) (size : ButtonSize) : Part :=
  Part.join ["display: inline-block; padding: ", size.measures.1, "; background-color: ", colour,
    "; color: ", Palette.buttonText, "; text-decoration: none; border-radius: 4px; ",
    "font-weight: bold; font-size: ", size.measures.2, ";"]

namespace Product

/-! ## Brand -/

/-- Whether a product has a brand to show. -/
def hasBrand (product : Fields) : Bool :=
  (product.look "brand_name").truthy || (product.look "brand_logo_url").truthy

/-- The logo of the brand, if there is one. -/
def logo (product : Fields) : Part :=
  let address := product.shown "brand_logo_url"
  if address.truthy then
    Part.join ["<img src=\"", address, "\" alt=\"", product.shown "brand_name",
      "\" width=\"20\" height=\"20\" ",
      "style=\"display:inline-block; vertical-align:middle;\" />"]
  else Part.join []

/-- The name of the brand, if there is one. -/
def brandName (product : Fields) : Part :=
  let name := product.shown "brand_name"
  if name.truthy then
    Part.join ["<span style=\"font-size: 11px; text-transform: uppercase; ",
      "color: ", Palette.brandLabel, "; letter-spacing: 1px; font-weight: 600; ",
      "vertical-align:middle;\">", name, "</span>"]
  else Part.join []

/-- Logo and name of the brand, aligned as given; nothing without a brand. -/
def badge (product : Fields) (align : Value) : Part :=
  if hasBrand product then
    let justify := if align.isText "left" then "flex-start" else "center"
    Part.join ["<div style=\"margin-bottom: 8px; display: flex; align-items: center; ",
      "justify-content: ", justify, "; gap: 6px; text-align: ", align, ";\">",
      logo product, brandName product, "</div>"]
  else Part.join []

/-! ## Price -/

/-- Which price a product shows. -/
inductive Pricing
  | standard
  | discount
  | hidden
deriving DecidableEq, Repr

namespace Pricing

/-- All pricing modes, in the order in which they are offered. -/
def all : List Pricing := [standard, discount, hidden]

/-- The name of a pricing mode. -/
def name : Pricing → String
  | standard => "standard"
  | discount => "discount"
  | hidden => "hidden"

/-- The pricing mode of a product: whatever names no other mode is the standard one. -/
def ofProduct (product : Fields) : Pricing :=
  (all.find? fun mode => (product.look "pricing_mode").isText mode.name).getD standard

end Pricing

/-- The price that a product shows, in a mode that shows one. -/
def shownPrice? (product : Fields) : Option Value :=
  match Pricing.ofProduct product with
  | .hidden => none
  | .discount => some (product.shown "discount_text")
  | .standard => some (product.shown "price")

/-- A line with a price in a colour of the theme. -/
def pricedLine (theme : Value) (colour : String) (price size : Value) : Part := do
  let theme ← theme.fields
  Part.join ["<p style=\"margin: 0 0 10px 0; color: ", theme.shown colour, "; font-weight: bold; ",
    "font-size: ", size, ";\">", price, "</p>"]

/-- The price line of a product: one paragraph with the discount in the accent colour or with the
price in the primary one, or nothing. -/
def priceLine (product : Fields) (theme : Value) (size : Value) : Part :=
  match Pricing.ofProduct product with
  | .hidden => Part.join []
  | .discount => pricedLine theme "accent_color" (product.shown "discount_text") size
  | .standard => pricedLine theme "primary_color" (product.shown "price") size

/-! ## Products that are only an image -/

/-- How a product is rendered. -/
inductive RenderMode
  /-- From its fields. -/
  | html
  /-- As one composed image. -/
  | imageOnly
deriving DecidableEq, Repr

namespace RenderMode

/-- All render modes, in the order in which they are offered. -/
def all : List RenderMode := [html, imageOnly]

/-- The name of a render mode. -/
def name : RenderMode → String
  | html => "html"
  | imageOnly => "image-only"

end RenderMode

/-- Whether a product is rendered as one composed image. -/
def isImageOnly (product : Fields) : Bool :=
  (product.look "render_mode").isText RenderMode.imageOnly.name

/-- A composed image behind its link, centred.  It has no alternative text, so that no text of the
product shows beside the image. -/
def linkedImage (product : Fields) (width : Int) (extraStyle : String) : Part :=
  Part.join ["<a href=\"", product.shown "link",
    "\" style=\"text-decoration:none; display:block; text-align: center;\">",
    "<img src=\"", product.shown "image_url", "\" alt=\"\" width=\"", Part.pixels width, "\" ",
    "style=\"display: inline-block; width: ", Part.pixels width,
    "px; max-width: 100%; height: auto;", extraStyle, "\" />", "</a>"]

end Product

end Mailshot
