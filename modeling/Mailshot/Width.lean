import Mailshot.Template

/-!
# Pixel widths

Every image width of a document is computed here, and so are the hints for whoever prepares the
artwork.  With `w` the width of the content, in double precision:

* `Width.grid` — `w / 2 - 20` times 0.6, 0.8 or 1, rounded half up.
* `Width.list` — 100, 140 or 180, whatever `w` is.
* `Width.banner` — `w` times 0.7, 0.85 or 1, rounded half up.
* `Width.fullBleed` — `w - 40`, not rounded.
* `Width.image` — the width that a template gives the image of a product.
* `imageHint`, `heroHint` — the recommended cuts.
-/

namespace Mailshot

namespace Width

/-! ## Steps of a width -/

/-- The number that a value is, for arithmetic. -/
def number (v : Value) : Except Fault Number :=
  match v.number? with
  | some x => .ok x
  | none => .error .notNumber

/-- A result that must be in range. -/
def inRange {α : Type} : Option α → Except Fault α
  | some x => .ok x
  | none => .error .outOfRange

/-- A number rounded half up: the floor of the number plus one half. -/
def roundHalfUp (x : Binary64) : Except Fault Int :=
  let raised := x.add Binary64.half
  match raised.floor? with
  | some i => .ok i
  | none => .error (match raised with
    | .nan _ => .notFinite
    | _ => .outOfRange)

/-- A value rounded half up. -/
def roundValue (v : Value) : Except Fault Int := do
  let x ← number v
  let x ← inRange x.toBinary64?
  roundHalfUp x

/-! ## Tuning of the templates -/

/-- The part of a grid cell that its image takes. -/
def gridScale : Tier → Binary64
  | .small => Binary64.ofRat (mkRat 3 5)
  | .medium => Binary64.ofRat (mkRat 4 5)
  | .large => Binary64.ofInt 1

/-- The part of the content that the image of a banner takes. -/
def bannerScale : Tier → Binary64
  | .small => Binary64.ofRat (mkRat 7 10)
  | .medium => Binary64.ofRat (mkRat 17 20)
  | .large => Binary64.ofInt 1

/-- The gutter of a grid cell, taken off half the content. -/
def gridGutter : Int := 20

/-- The padding on both sides of the products, taken off the content. -/
def fullBleedInset : Int := 40

/-- The height recommended for the hero image. -/
def heroHeight : Int := 300

/-! ## Widths -/

/-- The width of an image in the grid. -/
def grid (content : Value) (tier : Tier) : Except Fault Int := do
  let w ← number content
  let column ← inRange w.half?
  roundHalfUp ((column.sub (Binary64.ofInt gridGutter)).mul (gridScale tier))

/-- The width, and height, of an image in the list. -/
def list : Tier → Int
  | .small => 100
  | .medium => 140
  | .large => 180

/-- The width of the image of a banner. -/
def banner (content : Value) (tier : Tier) : Except Fault Int := do
  let w ← number content
  let w ← inRange w.toBinary64?
  roundHalfUp (w.mul (bannerScale tier))

/-- The width of an item in the list that is only an image. -/
def fullBleed (content : Value) : Except Fault Value := do
  match (← number content).less fullBleedInset with
  | .int i => return .int i
  | .float x => return .float x

/-- The width of the image of a product under a template. -/
def image (template : Template) (content : Value) (tier : Tier) : Except Fault Int :=
  match template with
  | .classic => grid content tier
  | .modern => .ok (list tier)
  | .banner => banner content tier

/-- The width of the image of a product, the template given by a value. -/
def imageOf (template content : Value) (tier : Tier) : Report Int := do
  let template ← Template.ofValue template
  image template content tier

end Width

/-! ## Recommended cuts -/

/-- The recommended cut of product images: square in the grid and in the list, and only a width for
banners. -/
def imageHint (template content : Value) (tier : Tier) : Report Text := do
  let template ← Template.ofValue template
  let width ← Width.image template content tier
  let pixels := Text.ofInt width
  return match template with
    | .banner => pixels ++ " px width"
    | _ => pixels ++ " x " ++ pixels ++ " px"

/-- The recommended cut of the hero image. -/
def heroHint (content : Value) : Except Fault Text := do
  return (← content.written) ++ " x " ++ Text.ofInt Width.heroHeight ++ " px"

end Mailshot
