import Mailshot.Product.Card
import Mailshot.Width

/-!
# Products under a template

Every arrangement keeps the order of the products, and what an item holds depends on nothing but its
own product and the theme, layout and template.

* `Listing.rows` — the grid's rows: two cells each, with a filler beside a last odd one.
* `Listing.grid`, `Listing.list`, `Listing.stack` — the products of the three templates.
* `Listing.render` — the products under a template, reported.
-/

namespace Mailshot

/-! ## Layout -/

/-- What a layout says about the images of the products. -/
structure Layout where
  tier : Tier
  content : Value

/-- The width of the content where a layout gives none. -/
def Layout.defaultContent : Value := .int 600

/-- The layout that a value describes. -/
def Layout.ofValue (v : Value) : Except Fault Layout := do
  let fields ← v.fields
  return ⟨Tier.ofValue (fields.look "product_image_size"),
    (fields.find? (.text (Text.ofString "content_width"))).getD defaultContent⟩

namespace Listing

/-- Rows in a table over the whole width. -/
def table (rows : List Markup) : Part :=
  Part.join ["<table ", .tableAttributes, ">", .ok rows.flatten, "</table>"]

/-! ## Grid -/

/-- The item of a product in the grid. -/
def gridItem (theme : Value) (tier : Tier) (width : Int) (product : Fields) : Part :=
  if Product.isImageOnly product then Product.linkedImage product width " border-radius: 8px;"
  else Product.card product theme tier width

/-- An item in its cell. -/
def cell (item : Markup) : Markup :=
  .fixed "<td width=\"50%\" valign=\"top\" style=\"padding: 10px;\">" :: item ++ [.fixed "\n</td>"]

/-- The cell that stands beside a last odd one. -/
def filler : Markup := [.fixed "<!-- GRID FILLER --><td width=\"50%\"></td>"]

/-- Two cells in the row of the given number. -/
def row (number : Nat) (left right : Markup) : Markup :=
  [.fixed "<!-- GRID ROW ", .fixed (toString number), .fixed " -->\n<tr>"] ++ left ++ right ++
    [.fixed "</tr>"]

/-- The rows of the grid, numbered from the given one. -/
def rows : Nat → List Markup → List Markup
  | _, [] => []
  | number, [item] => [row number (cell item) filler]
  | number, left :: right :: rest =>
      row number (cell left) (cell right) :: rows (number + 1) rest

/-- The products in a grid of two columns. -/
def grid (products layout theme : Value) : Part := do
  let layout ← Layout.ofValue layout
  let width ← Width.grid layout.content layout.tier
  let items ← (← products.runs).mapM fun product => do
    gridItem theme layout.tier width (← product.fields)
  table (rows 1 items)

/-! ## List -/

/-- The item of a product in the list. -/
def listItem (theme : Value) (size : Int) (full : Value) (product : Fields) : Part :=
  if Product.isImageOnly product then Product.imageEntry product full
  else Product.entry product theme size

/-- An item in its row of the list. -/
def listRow (item : Markup) : Markup :=
  [.fixed "<!-- LIST ITEM -->\n<tr><td style=\"padding: 15px 0; ",
    .fixed "border-bottom: 1px solid ", .fixed Palette.border, .fixed ";\">"] ++ item ++
    [.fixed "\n</td></tr>"]

/-- The products in a list of one column. -/
def list (products layout theme : Value) : Part := do
  let layout ← Layout.ofValue layout
  let size := Width.list layout.tier
  let full ← Width.fullBleed layout.content
  let items ← (← products.items).mapM fun product => do
    listItem theme size full (← product.fields)
  table (items.map listRow)

/-! ## Stack -/

/-- The item of a product in the stack. -/
def stackItem (theme : Value) (tier : Tier) (width : Int) (product : Fields) : Part :=
  if Product.isImageOnly product then Product.linkedImage product width ""
  else Product.block product theme tier width

/-- An item in its row of the stack. -/
def stackRow (item : Markup) : Markup :=
  .fixed "<!-- BANNER ITEM -->\n<tr><td style=\"padding-bottom: 20px;\">" :: item ++
    [.fixed "\n</td></tr>"]

/-- The products as full-width blocks, one below the other. -/
def stack (products layout theme : Value) : Part := do
  let layout ← Layout.ofValue layout
  let width ← Width.banner layout.content layout.tier
  let items ← (← products.items).mapM fun product => do
    stackItem theme layout.tier width (← product.fields)
  table (items.map stackRow)

/-! ## Choice of the arrangement -/

/-- The products in the arrangement of a template. -/
def ofTemplate (template : Template) (products layout theme : Value) : Part :=
  match template with
  | .classic => grid products layout theme
  | .modern => list products layout theme
  | .banner => stack products layout theme

/-- The name by which the journal calls the arrangement of a template. -/
def arrangementName : Template → String
  | .classic => "render_grid"
  | .modern => "render_list"
  | .banner => "render_banner"

/-- The products under the template that a value names, with an entry in the journal. -/
def render (template products layout theme : Value) : Report Markup := do
  let template ← Template.ofValue template
  let count ← products.count
  Report.enter .debug ("Rendering " ++ Text.ofNat count ++ " product(s) with " ++
    Text.ofString (arrangementName template))
  ofTemplate template products layout theme

end Listing

end Mailshot
