import Mailshot.Product.Parts

/-!
# Header, hero and footer

* `Section.header` — the logo, or the name, of the company behind its website.
* `Section.hero` — the hero image over its title, subtitle and button; nothing when it is hidden.
* `Section.footer` — the company, its address and the closing text.
* `Section.title` — the title of the document: that of a shown hero, else the company's name.
-/

namespace Mailshot.Section

/-! ## Header -/

/-- The logo of the company, or its name in the primary colour where there is no logo. -/
def mark (company : Fields) (theme : Value) : Part :=
  let name := company.shown "name"
  let logo := company.shown "logo_url"
  if logo.truthy then
    Part.join ["<img src=\"", logo, "\" alt=\"", name,
      "\" height=\"50\" style=\"display: block; height: 50px;\" />"]
  else
    Part.join ["<h1 style=\"margin:0; color: ", theme.shown "primary_color", ";\">", name, "</h1>"]

/-- The header of a document.  The mark of the company is made first. -/
def header (company theme : Value) : Part := do
  let company ← company.fields
  let mark ← mark company theme
  Part.join [
    "\n<!-- ── HEADER ── -->",
    "\n<table ", .tableAttributes, " style=\"background-color: ", Palette.headerGround,
    "; border-bottom: 2px solid ", theme.shown "primary_color", ";\">",
    "\n  <tr>",
    "\n    <td align=\"center\" style=\"padding: 20px;\">",
    "\n      <a href=\"", company.shown "website_url", "\" style=\"text-decoration:none;\">",
    "\n        ", mark,
    "\n      </a>",
    "\n    </td>",
    "\n  </tr>",
    "\n</table>"]

/-! ## Hero -/

/-- The hero's image behind the link of its button, at most as wide as the content. -/
def heroImage (hero : Fields) (content : Value) : Part :=
  Part.join [
    "\n  <tr>",
    "\n    <td style=\"padding: 0; text-align: center;\">",
    "\n      <a href=\"", hero.shown "cta_link",
    "\" style=\"display:block; text-decoration:none;\">",
    "\n        <img src=\"", hero.shown "image_url", "\" alt=\"", hero.shown "title",
    "\" width=\"", content, "\"",
    "\n             style=\"display: block; width: 100%; max-width: ", content,
    "px; height: auto;\" />",
    "\n      </a>",
    "\n    </td>",
    "\n  </tr>"]

/-- The panel below the hero's image. -/
def heroPanel (hero : Fields) (theme : Value) (ground : Part) : Part :=
  let button : Part := do buttonStyle (← theme.shown "primary_color") .regular
  Part.join [
    "\n  <tr>",
    "\n    <td style=\"padding: 30px 20px; background-color: ", ground,
    "; text-align: center; border-bottom: 1px solid ", Palette.heroDivider, ";\">",
    "\n      <h2 style=\"margin: 0 0 10px 0; color: ", theme.shown "text_color",
    "; font-size: 24px;\">", hero.shown "title", "</h2>",
    "\n      <p style=\"margin: 0 0 20px 0; color: ", Palette.subtitle,
    "; font-size: 16px; line-height: 1.5;\">", hero.shown "subtitle", "</p>",
    "\n      <a href=\"", hero.shown "cta_link", "\" style=\"", button, "\">",
    hero.shown "cta_text", "</a>",
    "\n    </td>",
    "\n  </tr>"]

/-- The ground of the hero's panel, which is tinted under the modern template.  The theme is read
before the panel is made, and its colour shown where the panel shows it. -/
def heroGround (theme : Value) (template : Option Template) : Except Fault Part :=
  if template = some .modern then .ok Palette.heroTint
  else (theme.shown "background_color").map Part.ofValue

/-- The hero of a document. -/
def hero (hero theme : Value) (template : Option Template) (content : Value) : Part := do
  let hero ← hero.fields
  if (hero.look "show").truthy then
    let ground ← heroGround theme template
    Part.join [
      "\n<!-- ── HERO ── -->",
      "\n<table ", .tableAttributes, ">",
      heroImage hero content,
      heroPanel hero theme ground,
      "\n</table>"]
  else Part.join []

/-! ## Footer -/

/-- The footer of a document. -/
def footer (company footer theme : Value) : Part :=
  Part.join [
    "\n<!-- ── FOOTER ── -->",
    "\n<table ", .tableAttributes, " style=\"background-color: ", Palette.footerGround,
    "; margin-top: 20px;\">",
    "\n  <tr>",
    "\n    <td align=\"center\" style=\"padding: 30px 20px; color: ", Palette.footerText,
    "; font-size: 12px; line-height: 1.5;\">",
    "\n      <p style=\"margin: 0 0 10px 0; font-weight: bold;\">", company.shown "name", "</p>",
    "\n      <p style=\"margin: 0 0 10px 0;\">", footer.shown "address", "</p>",
    "\n      <p style=\"margin: 0;\">", footer.shown "text", "</p>",
    "\n      <div style=\"margin-top: 15px;\">",
    "\n        <a href=\"", company.shown "website_url", "\" style=\"color: ",
    theme.shown "primary_color", "; text-decoration: none;\">Visit Website</a>",
    "\n      </div>",
    "\n    </td>",
    "\n  </tr>",
    "\n</table>"]

/-! ## Title -/

/-- The title of a document, whatever kind of value the configuration gives. -/
def title (config : Value) : Except Fault Value := do
  let config ← config.fields
  let hero ← (config.look "hero").fieldsOrNone
  if (hero.look "show").truthy then return hero.shown "title"
  else return (← (config.look "company").fieldsOrNone).shown "name"

end Mailshot.Section
