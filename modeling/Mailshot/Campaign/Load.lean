import Mailshot.World.Basic
import Mailshot.Config.Resolve
import Mailshot.Yaml.Load

/-!
# Loading a configuration

* `Campaign.configOf` — the configuration that the objects of a file describe.
* `Campaign.load`, `Campaign.loadFrom` — the complete configuration that a file holds, the file named
  by a path or by a value.
-/

namespace Mailshot.Campaign

/-- The value of an object under a key of a configuration.  Sections and products are taken apart, so
their fields are seen each from its own place; all else is seen as a whole. -/
def sectionOf (objects : Yaml.Objects) (key : Scalar) (n : Nat) : Value :=
  match Fields.find? Config.defaults key with
  | some (.map _) => objects.openedMap n
  | some (.list _) => objects.openedList n
  | _ => objects.value n

/-- The configuration that the objects of a file describe, if they describe a mapping. -/
def configOf (objects : Yaml.Objects) : Option Fields :=
  objects.fields? (sectionOf objects) objects.root

/-- The complete configuration that the file at a path holds, its sets in order. -/
def load (path : Path) : Work Fields := do
  let files := (← get).files
  if (files.look? path).isNone then throw (.noConfigAt path)
  match configOf (← Yaml.load (← files.read path)) with
  | some config =>
      let count ← (config.look "products").countOrNone
      Work.enter .info ("Loaded campaign config from " ++ path ++ " (" ++ Text.ofNat count ++
        " products)")
      Config.resolve (.map (config.ordered ((← get).sets .loading)))
  | none => throw (.noMappingIn path)

/-- Below this number a file that is open could have one. -/
def fileNumberBound : Int := 2147483648

/-- The path by which a value names a configuration file.  A number could only name a file that is
open, and none is. -/
def sourceOf (v : Value) : Except Fault Path :=
  match v with
  | .text path => .ok path
  | .bool _ => .error (.noConfigAt v.display)
  | .int i =>
      if -fileNumberBound ≤ i ∧ i < fileNumberBound then .error (.noConfigAt v.display)
      else .error .outOfRange
  | _ => .error .notPath

/-- The complete configuration that the file holds which a value names. -/
def loadFrom (v : Value) : Work Fields := do
  load (← sourceOf v)

end Mailshot.Campaign
