import Mathlib.Data.List.GetD
import Mailshot.Proofs.Entity
import Mailshot.Proofs.Reachable

/-!
# Where products come from

Every version of a session lists products that its first version gave or that an edit added.  So an
id is not followed from version to version: it is said of each product where it comes from, and the id
is that of its origin.

* `Config.Bears` — the ids of the products of a configuration, in order.
* `Config.Bears.append`, `Config.Bears.completed`, `Config.Bears.escape` and their companions — what
  edits make of them.
* `Origin`, `Edit.origins` — where products come from, and what an edit makes of that.
* `Origin.idAfter` — the id of an origin: the drawn one, or the given one, escaped as often as the
  version was.
* `FreshIds` — what is asked of the ids that are drawn.
* **`FreshIds.idAfter_injective`** — products of different origins bear different ids.
-/

namespace Mailshot

open Text

/-! ## Ids of products -/

namespace Fields

variable {fields base layer : Fields} {t : Text}

lemma look_eq_text {name : String} :
    fields.look name = .text t ↔ fields.find? (.text (ofString name)) = some (.text t) := by
  unfold look
  cases fields.find? (.text (ofString name)) <;> simp

/-- Writes under other keys are not seen. -/
lemma find?_putAll_of_ne (h : ∀ f ∈ layer, f.1 ≠ .text t) :
    (putAll base layer).find? (.text t) = base.find? (.text t) := by
  unfold putAll
  induction layer generalizing base with
  | nil => rfl
  | cons f rest ih =>
      obtain ⟨hf, hrest⟩ := List.forall_mem_cons.mp h
      rw [List.foldl_cons, ih hrest, find?_put_of_ne _ _ hf]

end Fields

namespace Product

variable {id : Text} {chosen : List (Text × Value)} {p : Fields}

/-- A new product bears the id that was drawn for it, unless another one was chosen. -/
lemma look_id_fresh (hchosen : ∀ f ∈ chosen, f.1 ≠ ofString "id") (h : fresh id chosen = .ok p) :
    p.look "id" = .text id := by
  unfold fresh at h
  dsimp only at h
  split at h
  · cases h
    rw [Fields.look_eq_text, Fields.find?_putAll_of_ne, Fields.find?_put_self]
    rw [List.forall_mem_map]
    intro f hf heq
    exact hchosen f hf (Scalar.text.inj heq)
  · cases h

/-- Completing a product leaves it its id. -/
lemma look_id_merge (hp : p.Distinct) (h : p.look "id" = .text id) :
    (Fields.merge blank p).look "id" = .text id := by
  rw [Fields.look_eq_text] at h ⊢
  simp [Config.blank_flat.find?_merge hp, h]

end Product

namespace Config

variable {c : Fields} {ids : List Text}

/-- The products of a configuration bear the given ids, in order. -/
def Bears (c : Fields) (ids : List Text) : Prop := (listed c).map (·.look "id") = ids.map .text

namespace Bears

lemma length_listed (h : Bears c ids) : (listed c).length = ids.length := by
  simpa using congrArg List.length h

lemma exists_id (h : Bears c ids) {p : Fields} (hp : p ∈ listed c) :
    ∃ id, p.look "id" = .text id := by
  have hmem : p.look "id" ∈ (listed c).map (·.look "id") := List.mem_map_of_mem hp
  rw [h, List.mem_map] at hmem
  obtain ⟨id, -, hid⟩ := hmem
  exact ⟨id, hid.symm⟩

lemma append (h : Bears c ids) {p : Fields} {id : Text} (hp : p.look "id" = .text id) :
    Bears (withListed c ((Change.append p).apply (listed c))) (ids ++ [id]) := by
  simp only [Bears, listed_withListed, Change.apply, List.map_append, List.map_cons, List.map_nil,
    hp]
  rw [h]

lemma set (h : Bears c ids) {key : Scalar} (hkey : key ≠ .text (ofString "id")) (place : Nat)
    (value : Value) : Bears (withListed c ((Change.set place key value).apply (listed c))) ids := by
  have hlook (p : Fields) : (p.put key value).look "id" = p.look "id" := by
    simp [Fields.look, Fields.find?_put_of_ne _ _ hkey]
  have hmap : ((listed c).modify place (·.put key value)).map (·.look "id") =
      ((listed c).map (·.look "id")).modify place id := map_modify (fun p _ => hlook p) place
  simp only [Bears, listed_withListed, Change.apply]
  rw [hmap, List.modify_id, h]

lemma erase (h : Bears c ids) (place : Nat) :
    Bears (withListed c ((Change.erase place).apply (listed c))) (ids.eraseIdx place) := by
  simp only [Bears, listed_withListed, Change.apply, ← List.eraseIdx_map]
  rw [h]

lemma completed (h : Bears c ids) (hc : Editable c) : Bears (completed c) ids := by
  have hmerge : ∀ p ∈ listed c, (Fields.merge Product.blank p).look "id" = p.look "id" := by
    intro p hp
    obtain ⟨id, hid⟩ := h.exists_id hp
    rw [Product.look_id_merge (hc.products p hp) hid, hid]
  simp only [Bears, listed_completed, List.map_map]
  rw [← h]
  exact List.map_congr_left hmerge

lemma escape (h : Bears c ids) (hc : Editable c) :
    Bears (Fields.escape c) (ids.map Text.escape) := by
  simp only [Bears, listed_escape hc.lists, List.map_map]
  have hmap := congrArg (List.map Value.escape) h
  simpa [Function.comp_def, Value.escape, Scalar.escape] using hmap

end Bears

end Config

/-! ## Origins -/

/-- Where a product comes from. -/
inductive Origin
  /-- The first version has it at this place. -/
  | given (place : Nat)
  /-- It was added, and its id was drawn for it. -/
  | added (draw : Nat)
deriving DecidableEq

namespace Origin

/-- The id of a product from an origin, in a version that was escaped so many times. -/
def idAfter (given : List Text) (ids : Nat → Text) (escapes : Nat) : Origin → Text
  | .given place => Text.escape^[escapes] (given.getD place [])
  | .added draw => ids draw

/-- The origins among so many given products and so many draws. -/
def Within (count drawn : Nat) : Origin → Prop
  | given place => place < count
  | added draw => draw < drawn

lemma Within.mono {count m n : Nat} {o : Origin} (h : o.Within count m) (hmn : m ≤ n) :
    o.Within count n := by
  cases o with
  | given place => exact h
  | added draw => exact Nat.lt_of_lt_of_le h hmn

end Origin

/-- The edits that leave the ids of products to the session: no given product is added, and no id is
chosen or set. -/
def Edit.KeepsIds : Edit → Prop
  | add product => product = none
  | addFresh chosen => ∀ f ∈ chosen, f.1 ≠ ofString "id"
  | update _ field _ => field ≠ .text (ofString "id")
  | remove _ | resolve | escape => True

/-- The origins of the products after an edit that succeeds, from those before and the number of ids
drawn so far. -/
def Edit.origins (drawn : Nat) (e : Edit) (origins : List Origin) : List Origin :=
  match e with
  | add _ | addFresh _ => origins ++ [.added drawn]
  | remove index =>
      match Config.slot origins.length index with
      | .ok place => origins.eraseIdx place
      | .error _ => origins
  | update _ _ _ | resolve | escape => origins

/-! ## Drawn ids -/

/-- Whether a letter is a hexadecimal digit. -/
def Letter.isHexDigit : Letter → Bool
  | .char c => c.isDigit || ('a' ≤ c && c ≤ 'f') || ('A' ≤ c && c ≤ 'F')
  | .half _ => false

/-- A text of thirty-two hexadecimal digits. -/
def Text.IsHexId (t : Text) : Prop := t.length = 32 ∧ ∀ l ∈ t, l.isHexDigit = true

instance (t : Text) : Decidable t.IsHexId :=
  inferInstanceAs (Decidable (t.length = 32 ∧ ∀ l ∈ t, l.isHexDigit = true))

lemma Text.IsHexId.unmarked {t : Text} (h : t.IsHexId) : Unmarked t := by
  intro l hl
  by_contra hmark
  have hdigit := h.2 l hl
  rcases Entity.isMark_iff.mp (by simpa using hmark) with rfl | rfl | rfl | rfl <;>
    exact absurd hdigit (by decide)

/-- The first draws are different ids, and none of them is given. -/
structure FreshIds (given : List Text) (ids : Nat → Text) (drawn : Nat) : Prop where
  digits : ∀ n < drawn, (ids n).IsHexId
  apart : ∀ m < drawn, ∀ n < drawn, ids m = ids n → m = n
  fresh : ∀ n < drawn, ids n ∉ given

section FreshIds

variable {given : List Text} {ids : Nat → Text} {m n escapes : Nat} {o : Origin}
  {origins : List Origin}

lemma FreshIds.anti (h : FreshIds given ids n) (hmn : m ≤ n) : FreshIds given ids m where
  digits k hk := h.digits k (by omega)
  apart j hj k hk := h.apart j (by omega) k (by omega)
  fresh k hk := h.fresh k (by omega)

/-- Escaping leaves a drawn id alone, however often. -/
lemma FreshIds.iterate_escape (h : FreshIds given ids n) (hm : m < n) (escapes : Nat) :
    Text.escape^[escapes] (ids m) = ids m :=
  Function.iterate_fixed (escape_of_unmarked (h.digits m hm).unmarked) escapes

lemma iterate_escape_injective (escapes : Nat) : Function.Injective Text.escape^[escapes] :=
  Function.Injective.iterate (fun _ _ => escape_injective) escapes

/-- A given id never becomes a drawn one. -/
lemma FreshIds.given_ne_added (h : FreshIds given ids n) {place draw : Nat}
    (hplace : place < given.length) (hdraw : draw < n) :
    (Origin.given place).idAfter given ids escapes ≠
      (Origin.added draw).idAfter given ids escapes := by
  intro heq
  have hiterate : Text.escape^[escapes] (given.getD place []) = Text.escape^[escapes] (ids draw) :=
    heq.trans (h.iterate_escape hdraw escapes).symm
  have hmem := List.getElem_mem hplace
  rw [← List.getD_eq_getElem _ [] hplace, iterate_escape_injective escapes hiterate] at hmem
  exact h.fresh draw hdraw hmem

/-- Products of different origins bear different ids. -/
lemma FreshIds.idAfter_injective (h : FreshIds given ids n) (hgiven : given.Nodup) {p q : Origin}
    (hp : p.Within given.length n) (hq : q.Within given.length n)
    (heq : p.idAfter given ids escapes = q.idAfter given ids escapes) : p = q := by
  cases p with
  | given i =>
      cases q with
      | given j =>
          have hi : i < given.length := hp
          have hj : j < given.length := hq
          have hsame := iterate_escape_injective escapes heq
          rw [List.getD_eq_getElem _ _ hi, List.getD_eq_getElem _ _ hj] at hsame
          exact congrArg Origin.given (hgiven.getElem_inj_iff.mp hsame)
      | added k => exact absurd heq (h.given_ne_added hp hq)
  | added k =>
      cases q with
      | given j => exact absurd heq.symm (h.given_ne_added hq hp)
      | added l => exact congrArg Origin.added (h.apart k hp l hq heq)

lemma FreshIds.nodup (h : FreshIds given ids n) (hgiven : given.Nodup) (horigins : origins.Nodup)
    (hwithin : ∀ o ∈ origins, o.Within given.length n) :
    (origins.map (Origin.idAfter given ids escapes)).Nodup :=
  horigins.map_on fun p hp q hq => h.idAfter_injective hgiven (hwithin p hp) (hwithin q hq)

/-- The ids after one more escape. -/
lemma FreshIds.escape_idAfter (h : FreshIds given ids n) (ho : o.Within given.length n) :
    Text.escape (o.idAfter given ids escapes) = o.idAfter given ids (escapes + 1) := by
  cases o with
  | given place => exact (Function.iterate_succ_apply' Text.escape escapes _).symm
  | added draw => exact h.iterate_escape ho 1

end FreshIds

end Mailshot
