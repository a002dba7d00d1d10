import Mailshot.Report
import Mailshot.Value.Access

/-!
# Templates and size tiers

* `Template`, `Tier` — the three arrangements of the products and the three sizes of their images.
* `Template.ofValue?`, `Tier.ofValue?` — the name of one, as a configuration gives it.
* `Template.ofValue`, `Tier.ofValue` — with the fallback: the classic grid, which is reported, and
  the large tier, which is not.
-/

namespace Mailshot

/-! ## Templates -/

/-- How the products of a campaign are arranged. -/
inductive Template
  /-- A grid of two columns. -/
  | classic
  /-- A list, the image beside the text. -/
  | modern
  /-- A stack of full-width blocks. -/
  | banner
deriving DecidableEq, Repr

namespace Template

/-- All templates, in the order in which they are offered. -/
def all : List Template := [classic, modern, banner]

/-- The name of a template. -/
def name : Template → String
  | classic => "classic"
  | modern => "modern"
  | banner => "banner"

/-- The template that a value names. -/
def ofValue? (v : Value) : Option Template := all.find? fun template => v.isText template.name

/-- The template that a value names, or the classic one with a warning. -/
def ofValue (v : Value) : Report Template :=
  match ofValue? v with
  | some template => pure template
  | none => do
      Report.enter .warning ("Unknown template " ++ (← v.named) ++ " — falling back to " ++
        Text.quote classic.name)
      pure classic

end Template

/-! ## Size tiers -/

/-- How large the image of a product is. -/
inductive Tier
  | small
  | medium
  | large
deriving DecidableEq, Repr

namespace Tier

/-- All tiers, in rising order. -/
def all : List Tier := [small, medium, large]

/-- The name of a tier. -/
def name : Tier → String
  | small => "small"
  | medium => "medium"
  | large => "large"

/-- The tier that a value names. -/
def ofValue? (v : Value) : Option Tier := all.find? fun tier => v.isText tier.name

/-- The tier that a value names, or the large one. -/
def ofValue (v : Value) : Tier := (ofValue? v).getD large

end Tier

end Mailshot
