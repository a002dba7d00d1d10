import Mailshot.Config.Defaults
import Mailshot.Config.Merge

/-!
# Complete configurations

* `Config.resolve` — a configuration with everything filled in that it leaves out: its sections are
  merged over the defaults, each product over the blank one.  Values are taken as given; an unknown
  template or size is left for those who use it.
-/

namespace Mailshot.Config

/-- A product with every field that products carry. -/
def resolveProduct (product : Value) : Except Fault Value := do
  return .map (Fields.merge Product.blank (← product.fieldsOrNone))

/-- A configuration with every section and every field of its products. -/
def resolve (config : Value) : Except Fault Fields := do
  let merged := Fields.merge defaults (← config.fieldsOrNone)
  let products ← (← (merged.look "products").itemsOrNone).mapM resolveProduct
  return merged.put (.text "products") (.list products)

end Mailshot.Config
