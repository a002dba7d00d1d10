import Mailshot.Product.Parts
import Mailshot.Text.Blank

/-!
# The plain-text version

For readers that refuse markup, a campaign is also written as lines of text.  It leaves out what the
document leaves out: a hidden price, and everything but the link of a product that is only an image.

* `PlainText.lines` — the lines of a campaign.
* `PlainText.ofConfig` — the lines joined, without blanks at either end, or a sentence in place of a
  text that is blank.
-/

namespace Mailshot.PlainText

/-- What stands in for a plain-text version where there is none. -/
def fallback : String := "Please paste this in an email client that supports HTML."

/-- The price that a product shows, the empty text if it shows none. -/
def price (product : Fields) : Value := (Product.shownPrice? product).getD (.text "")

/-! ## Joining -/

/-- A line that must be a text. -/
def line (v : Value) : Except Fault Text :=
  match v.text? with
  | some t => .ok t
  | none => .error .notJoinable

/-- Lines that must be texts, joined by a separator. -/
def joined (separator : Text) (parts : List Value) : Except Fault Text := do
  return List.intercalate separator (← parts.mapM line)

/-! ## Lines -/

/-- The line that calls to follow the hero's link, if there is one. -/
def callLine (hero : Fields) : Except Fault (List Value) := do
  let link := hero.look "cta_link"
  if link.truthy then
    return [.text ((← (hero.shown "cta_text").written) ++ ": " ++ (← link.written))]
  else return []

/-- The lines of a shown hero. -/
def heroLines (hero : Fields) : Except Fault (List Value) := do
  if (hero.look "show").truthy then
    return [hero.shown "title", hero.shown "subtitle"] ++ (← callLine hero) ++ [.text ""]
  else return []

/-- A line for a field of a product that has it, indented. -/
def indented (product : Fields) (name : String) : Except Fault (List Value) := do
  let value := product.look name
  if value.truthy then return [.text ("  " ++ (← value.written))] else return []

/-- The lines of a product: a bullet with name and price, its description and its link; of a product
that is only an image the link alone. -/
def productLines (product : Value) : Except Fault (List Value) := do
  let product ← product.fields
  if Product.isImageOnly product then
    return [.text ("* " ++ (← (product.shown "link").written))]
  else
    let head ← joined " — " ([product.shown "name", price product].filter Value.truthy)
    return .text ("* " ++ head) :: (← indented product "description") ++ (← indented product "link")

/-- The lines of a campaign: company, hero, products, address and closing text. -/
def lines (config : Value) : Except Fault (List Value) := do
  let config ← config.fields
  let company ← (config.look "company").fieldsOrNone
  let hero ← (config.look "hero").fieldsOrNone
  let opening := [company.shown "name", .text ""] ++ (← heroLines hero)
  let entries ← (← (config.look "products").itemsOrNone).mapM productLines
  let footer ← (config.look "footer").fieldsOrNone
  return opening ++ entries.flatten ++
    [.text "", footer.shown "address", footer.shown "text", company.shown "website_url"]

/-- The plain-text version of a campaign. -/
def ofConfig (config : Value) : Except Fault Text := do
  let text := Text.trim (← joined "\n" (← lines config))
  return if text.isEmpty then fallback else text

end Mailshot.PlainText
