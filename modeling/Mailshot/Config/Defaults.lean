import Mailshot.Product.Parts

/-!
# Defaults and the sample campaign

* `Config.defaults` — every section with the values that a configuration may leave out.
* `Product.blank`, `Product.placeholder` — every field of a product, empty, and as a new product
  shows before anyone edits it.
* `Config.sample` — a campaign with one product for each pricing mode.
-/

namespace Mailshot

/-! ## Products -/

namespace Product

/-- Every field that a product may carry, with the value of a blank product. -/
def blank : Fields := Fields.named [
  ("id", .text ""),
  ("name", .text ""),
  ("price", .text ""),
  ("discount_text", .text ""),
  ("pricing_mode", .text "standard"),
  ("description", .text ""),
  ("image_url", .text ""),
  ("link", .text ""),
  ("brand_name", .text ""),
  ("brand_logo_url", .text ""),
  ("render_mode", .text "html")]

/-- A product that was just added. -/
def placeholder : Fields := Fields.putAll blank (Fields.named [
  ("name", .text "New Product"),
  ("price", .text "$99.00"),
  ("description", .text "Product description goes here."),
  ("image_url", .text "https://via.placeholder.com/600x600"),
  ("link", .text "#")])

end Product

/-! ## Sections -/

namespace Config

/-- The value of every section where a configuration gives none. -/
def defaults : Fields := Fields.named [
  ("template", .text "classic"),
  ("layout", .map (Fields.named [
    ("content_width", .int 600),
    ("product_image_size", .text "large")])),
  ("theme", .map (Fields.named [
    ("primary_color", .text "#3b82f6"),
    ("background_color", .text "#ffffff"),
    ("text_color", .text "#1f2937"),
    ("accent_color", .text "#ef4444")])),
  ("company", .map (Fields.named [
    ("name", .text ""),
    ("logo_url", .text ""),
    ("website_url", .text "")])),
  ("hero", .map (Fields.named [
    ("show", .bool true),
    ("image_url", .text ""),
    ("title", .text ""),
    ("subtitle", .text ""),
    ("cta_text", .text ""),
    ("cta_link", .text "")])),
  ("products", .list []),
  ("footer", .map (Fields.named [
    ("text", .text ""),
    ("address", .text "")]))]

/-! ## The sample campaign -/

/-- The products of the sample campaign. -/
def sampleProducts : List Fields := [
  Fields.putAll Product.blank (Fields.named [
    ("id", .text "1"),
    ("name", .text "Wireless Headphones"),
    ("price", .text "$199.00"),
    ("discount_text", .text "Save $50"),
    ("pricing_mode", .text "standard"),
    ("description", .text "Noise cancelling, 40h battery life. Great for travel."),
    ("image_url", .text ("https://images.unsplash.com/photo-1505740420928-5e560c06d30e" ++
      "?ixlib=rb-1.2.1&auto=format&fit=crop&w=600&q=80")),
    ("link", .text "https://example.com/p1"),
    ("brand_name", .text "Sony")]),
  Fields.putAll Product.blank (Fields.named [
    ("id", .text "2"),
    ("name", .text "Smart Watch Series 7"),
    ("price", .text "$299.00"),
    ("discount_text", .text "Up to 20% Off"),
    ("pricing_mode", .text "discount"),
    ("description", .text ("Fitness tracking, heart rate monitor, ECG, Always-On Retina " ++
      "display, water resistant.")),
    ("image_url", .text ("https://images.unsplash.com/photo-1523275335684-37898b6baf30" ++
      "?ixlib=rb-1.2.1&auto=format&fit=crop&w=600&q=80")),
    ("link", .text "https://example.com/p2"),
    ("brand_name", .text "Apple"),
    ("brand_logo_url",
      .text "https://upload.wikimedia.org/wikipedia/commons/f/fa/Apple_logo_black.svg")]),
  Fields.putAll Product.blank (Fields.named [
    ("id", .text "3"),
    ("name", .text "Exclusive Camera"),
    ("price", .text "$1200.00"),
    ("pricing_mode", .text "hidden"),
    ("description", .text "Professional grade photography gear. Inquire for pricing."),
    ("image_url", .text ("https://images.unsplash.com/photo-1516035069371-29a1b244cc32" ++
      "?ixlib=rb-1.2.1&auto=format&fit=crop&w=600&q=80")),
    ("link", .text "https://example.com/p3"),
    ("brand_name", .text "Leica")])]

/-- The sample campaign. -/
def sample : Fields := Fields.putAll defaults (Fields.named [
  ("company", .map (Fields.named [
    ("name", .text "TechNova"),
    ("logo_url",
      .text "https://via.placeholder.com/150x50/3b82f6/ffffff?text=TechNova"),
    ("website_url", .text "https://example.com")])),
  ("hero", .map (Fields.named [
    ("show", .bool true),
    ("image_url", .text ("https://images.unsplash.com/photo-1496181133206-80ce9b88a853" ++
      "?ixlib=rb-1.2.1&auto=format&fit=crop&w=1200&h=600&q=80")),
    ("title", .text "Summer Collection 2024"),
    ("subtitle", .text "Discover the latest trends in technology and design."),
    ("cta_text", .text "Shop Now"),
    ("cta_link", .text "https://example.com/shop")])),
  ("products", .list (sampleProducts.map Value.map)),
  ("footer", .map (Fields.named [
    ("text", .text "© 2024 TechNova Inc. All rights reserved."),
    ("address", .text "123 Innovation Dr, Tech City, CA 94000")]))])

end Config

end Mailshot
