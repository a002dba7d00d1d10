import Mailshot.Proofs.Editing
import Mailshot.Proofs.Unescape

/-!
# Escaping loses nothing

Escaping writes every text of a value anew, and each text can be read back from what was written.
All else of the value stays where it is.  So the value can be read back too, however deep its texts
lie.

* `Value.unescape`, **`Value.unescape_escape`** — the texts of a value unescaped, which undoes
  escaping.
* `Value.Turn`, `Value.at?`, `Value.at?_escape` — what stands at a place inside a value, and inside
  the escaped value.
* `Value.EscapedAt` — how an escaped value looks at a place.
* **`Edit.escape_lossless`** — escaping is one pass over each text, it keeps keys, lengths and
  whatever is no text, and no two values become one.
-/

namespace Mailshot

open Text Text.Entity

namespace Value

/-! ## Values read back -/

mutual

/-- A value with every text in it unescaped. -/
def unescape : Value → Value
  | .text t => .text (Text.unescape t)
  | .list items => .list (unescapeItems items)
  | .map fields => .map (unescapeFields fields)
  | v => v

/-- The items of a list, each unescaped. -/
def unescapeItems : List Value → List Value
  | [] => []
  | item :: rest => unescape item :: unescapeItems rest

/-- The fields of a mapping, each value unescaped under its old key. -/
def unescapeFields : List (Scalar × Value) → List (Scalar × Value)
  | [] => []
  | (key, value) :: rest => (key, unescape value) :: unescapeFields rest

end

mutual

/-- **Unescaping a value** undoes escaping it. -/
theorem unescape_escape : ∀ v : Value, v.escape.unescape = v
  | .scalar s => by
      cases s with
      | text t => simp [escape, Scalar.escape, unescape, Text.unescape_escape]
      | null | bool _ | int _ | float _ | bytes _ | date _ | moment _ =>
          simp [escape, Scalar.escape, unescape]
  | .list items => by rw [escape, unescape, unescapeItems_escapeItems items]
  | .map fields => by rw [escape, unescape, unescapeFields_escapeFields fields]
  | .pair _ _ | .set _ | .again _ => by simp [escape, unescape]

theorem unescapeItems_escapeItems : ∀ items : List Value,
    unescapeItems (escapeItems items) = items
  | [] => rfl
  | v :: rest => by
      rw [escapeItems, unescapeItems, unescape_escape v, unescapeItems_escapeItems rest]

theorem unescapeFields_escapeFields : ∀ fields : List (Scalar × Value),
    unescapeFields (escapeFields fields) = fields
  | [] => rfl
  | (key, v) :: rest => by
      rw [escapeFields, unescapeFields, unescape_escape v, unescapeFields_escapeFields rest]

end

/-! ## Places inside a value -/

/-- A step into a value: to what a mapping holds under a key, or to an item of a list. -/
inductive Turn
  | key (key : Scalar)
  | item (n : Nat)

/-- What a step leads to. -/
def turn? : Value → Turn → Option Value
  | .map fields, .key key => Fields.find? fields key
  | .list items, .item n => items[n]?
  | _, _ => none

/-- What stands at the end of a path of steps. -/
def at? (v : Value) (path : List Turn) : Option Value := path.foldlM turn? v

lemma turn?_escape (v : Value) (step : Turn) :
    v.escape.turn? step = (v.turn? step).map escape := by
  match v, step with
  | .map fields, .key key => exact Fields.find?_escape fields key
  | .list items, .item n => simp [turn?]
  | .map _, .item _ | .list _, .key _ | .scalar _, _ | .pair _ _, _ | .set _, _ | .again _, _ =>
    simp [turn?, escape]

/-- **A place inside an escaped value** holds what the value holds there, escaped. -/
theorem at?_escape (v : Value) (path : List Turn) :
    v.escape.at? path = (v.at? path).map escape := by
  induction path generalizing v with
  | nil => rfl
  | cons step path ih =>
      simp only [at?, List.foldlM_cons, turn?_escape] at ih ⊢
      cases v.turn? step with
      | none => rfl
      | some w => exact ih w

/-- Whether a value is neither a text nor visited for texts inside it. -/
def isLeaf : Value → Bool
  | .text _ | .list _ | .map _ => false
  | _ => true

lemma escape_of_isLeaf {v : Value} (h : v.isLeaf = true) : v.escape = v := by
  match v with
  | .null | .bool _ | .int _ | .float _ | .bytes _ | .scalar (.date _) | .scalar (.moment _)
  | .pair _ _ | .set _ | .again _ => simp [escape, Scalar.escape]

/-- How an escaped value looks at the end of a path. -/
structure EscapedAt (v escaped : Value) (path : List Turn) : Prop where
  /-- A text is escaped … -/
  text : ∀ t, v.at? path = some (.text t) → escaped.at? path = some (.text (Text.escape t))
  /-- … and everything else stays, -/
  leaf : ∀ w, v.at? path = some w → w.isLeaf = true → escaped.at? path = some w
  /-- a mapping with its keys, in order, -/
  keys : ∀ fields, v.at? path = some (.map fields) → ∃ fields' : Fields,
    escaped.at? path = some (.map fields') ∧ fields'.map Prod.fst = fields.map Prod.fst
  /-- and a list with its length. -/
  length : ∀ items, v.at? path = some (.list items) → ∃ items',
    escaped.at? path = some (.list items') ∧ items'.length = items.length
  /-- Nothing is there that was not there before. -/
  noOther : v.at? path = none → escaped.at? path = none

theorem escapedAt (v : Value) (path : List Turn) : EscapedAt v v.escape path where
  text t h := by simp [at?_escape, h, escape, Scalar.escape]
  leaf w h hleaf := by simp [at?_escape, h, escape_of_isLeaf hleaf]
  keys fields h := ⟨Fields.escape fields, by simp [at?_escape, h], by simp [Fields.escape_eq_map]⟩
  length items h := ⟨items.map escape, by simp [at?_escape, h], by simp⟩
  noOther h := by simp [at?_escape, h]

end Value

/-! ## Escaping as an edit -/

namespace Edit

/-- **Escaping loses nothing.**  The four passes over a text, each of which replaces a character by
its entity everywhere, are one pass that writes each letter by itself; in what they write every
ampersand begins an entity, and undoing them, the last one first, gives the text back.  So a value that
does not hold itself can be escaped and read back, whatever lies in it and however deep: its keys, its
lengths and all that is no text are still in their places, and no other value becomes the same. -/
theorem escape_lossless :
    (∀ t : Text,
      Text.escape t = table.foldl (fun text pass => substitute [.char pass.1] pass.2 text) t ∧
      Text.escape t = t.flatMap encode ∧
      (∀ rest, .char '&' :: rest <:+ Text.escape t →
        ∃ pass ∈ table, pass.2 <+: .char '&' :: rest) ∧
      Text.unescape (Text.escape t) = t) ∧
    ∀ (ids : Nat → Text) (drawn : Nat) (v : Value), v.isEndless = false →
      ∃ e, Edit.escape.run ids drawn v = (.ok e, drawn) ∧ e.unescape = v ∧
        (∀ path, Value.EscapedAt v e path) ∧
        ∀ w, (Edit.escape.run ids drawn w).1 = .ok e → w = v := by
  refine ⟨fun t => ⟨escape_eq_foldl t, escape_eq_flatMap t, fun rest => entity_of_ampersand,
    unescape_escape t⟩, fun ids drawn v hv => ?_⟩
  refine ⟨v.escape, by simp [run, hv], v.unescape_escape, v.escapedAt, fun w hw => ?_⟩
  obtain ⟨-, heq⟩ := run_escape_eq_ok.mp hw
  calc w = w.escape.unescape := w.unescape_escape.symm
    _ = v.escape.unescape := by rw [heq]
    _ = v := v.unescape_escape

/-- Texts that look escaped already, inside a list and a mapping with an odd key, and beside them
values that are no texts. -/
def layered : Value := .list [
  .text "&lt;", .null,
  .map [(.text "<&>", .list [.text "\"&amp;\"", .pair (.text "<") (.int 3)]),
    (.bool true, .list [])]]

theorem escape_lossless_layered :
    layered.isEndless = false ∧ ∃ e, Edit.escape.run Text.ofNat 4 layered = (.ok e, 4) ∧
      e.unescape = layered ∧ e.at? [.item 0] = some (.text "&amp;lt;") ∧
      e.at? [.item 2, .key (.text "<&>"), .item 0] = some (.text "&quot;&amp;amp;&quot;") ∧
      e.at? [.item 2, .key (.text "<&>"), .item 1] = some (.pair (.text "<") (.int 3)) ∧
      (∃ fields : Fields, e.at? [.item 2] = some (.map fields) ∧
        fields.map Prod.fst = [.text "<&>", .bool true]) ∧
      ∃ items, e.at? [.item 2, .key (.bool true)] = some (.list items) ∧ items.length = 0 := by
  have hfinite : layered.isEndless = false := rfl
  obtain ⟨e, hrun, hback, hat, -⟩ := escape_lossless.2 Text.ofNat 4 layered hfinite
  refine ⟨hfinite, e, hrun, hback, (hat _).text "&lt;" rfl, (hat _).text "\"&amp;\"" rfl,
    (hat _).leaf _ rfl rfl, ?_, (hat _).length [] rfl⟩
  obtain ⟨fields, hfields, hkeys⟩ := (hat [.item 2]).keys _ rfl
  exact ⟨fields, hfields, hkeys⟩

end Edit

end Mailshot
