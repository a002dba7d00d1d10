import Mailshot.Markup

/-!
# Colours that no theme changes

* `Palette.products` — the colours of products, by the names under which they are offered.
-/

namespace Mailshot.Palette

/-! ## Products -/

/-- The ground of a card. -/
def cardGround : String := "#ffffff"

/-- The frame of a card, and the line below an entry of a list. -/
def border : String := "#e5e7eb"

/-- The line inside a block. -/
def divider : String := "#f3f4f6"

/-- Running text. -/
def muted : String := "#6b7280"

/-- The name of a brand. -/
def brandLabel : String := "#9ca3af"

/-- The text of a button. -/
def buttonText : String := "#ffffff"

/-- The colours of products, by name. -/
def products : List (String × String) :=
  [("card_bg", cardGround), ("border", border), ("divider", divider), ("muted", muted),
   ("brand_label", brandLabel), ("button_text", buttonText)]

/-! ## Sections -/

/-- The ground of the page. -/
def pageGround : String := "#f3f4f6"

/-- The ground of the header. -/
def headerGround : String := "#ffffff"

/-- The ground of the hero under the modern template. -/
def heroTint : String := "#f8fafc"

/-- The line below the hero. -/
def heroDivider : String := "#f3f4f6"

/-- The subtitle of the hero. -/
def subtitle : String := "#4b5563"

/-- The ground of the footer. -/
def footerGround : String := "#f3f4f6"

/-- The text of the footer. -/
def footerText : String := "#6b7280"

end Mailshot.Palette
