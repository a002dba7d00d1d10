import Mailshot.Proofs.Steady

/-!
# Escaping changes nothing that is displayed

A reader of a document decodes its entities.  What is then seen is the document of the configuration
as it stands: escaping is undone by the reading, wherever a text ends and markup begins.

* `Value.isReadable` — the values that are read as they are: all scalars but bytes that show an entity,
  since nothing inside of bytes is escaped.
* `Likeness.escaped` — an escaped value beside the readable value that it was made of.
* `Markup.decode_text` — markups that are alike in this way: decoding the one gives the other.
* **`Document.decode_html`** — the escaped document decoded is the document that is not escaped.
* `Document.decode_html_entityBytes` — it is another one where bytes show an entity.
-/

namespace Mailshot

open Text Text.Entity

/-! ## Values that are read as they are -/

namespace Value

/-- Whether a value is a scalar. -/
def isScalar : Value → Bool
  | .scalar _ => true
  | _ => false

/-- Whether a value is a scalar that the reader of an escaped document sees as it is. -/
def isReadable : Value → Bool
  | .bytes b => !hasEntity (quoteBytes b)
  | v => v.isScalar

lemma isReadable_iff {v : Value} : v.isReadable = true ↔
    v.isSingle = true ∨ ∃ b, v = .bytes b ∧ hasEntity (quoteBytes b) = false := by
  match v with
  | .bytes b => simp [isReadable, isSingle]
  | .null | .bool _ | .int _ | .float _ | .text _ | .scalar (.date _) | .scalar (.moment _)
  | .list _ | .map _ | .pair _ _ | .set _ | .again _ => simp [isReadable, isScalar, isSingle]

lemma isRigid_of_isReadable {v : Value} (h : v.isReadable = true) : v.isRigid = true := by
  rcases isReadable_iff.mp h with hs | ⟨b, rfl, -⟩
  · exact isRigid_of_isSingle hs
  · rfl

lemma isReadable_of_isSingle {v : Value} (h : v.isSingle = true) : v.isReadable = true :=
  isReadable_iff.mpr (.inl h)

end Value

/-- Bytes that show no entity are read as they stand: they end in a quote, which no entity has. -/
lemma Text.decode_quoteBytes_append {bytes : List UInt8} (h : hasEntity (quoteBytes bytes) = false)
    (rest : Text) : decode (quoteBytes bytes ++ rest) = quoteBytes bytes ++ decode rest := by
  have hquote : ∀ t : Text, ∀ pass ∈ table, Letter.char (Quoted.mark t) ∉ pass.2 := by
    intro t
    unfold Quoted.mark
    split
    · decide
    · decide
  have hshape : ∃ (front : List Char) (t : Text),
      Quoted.encodeBytes bytes = front ++ [Quoted.mark t] := by
    simp only [Quoted.encodeBytes, ← List.cons_append]
    exact ⟨_, _, rfl⟩
  obtain ⟨front, t, hfront⟩ := hshape
  rw [quoteBytes, hfront, ofChars, List.map_append, List.map_singleton] at h ⊢
  exact decode_append_of_not_hasEntity (hquote t) h rest

/-- **A readable value is seen as it is**, whatever follows it. -/
theorem Value.decode_display {v : Value} (h : v.isReadable = true) (rest : Text) :
    decode (v.escape.display ++ rest) = v.display ++ decode rest := by
  rcases isReadable_iff.mp h with hs | ⟨b, rfl, hb⟩
  · rw [display_escape hs]
    exact decode_escape_append _ rest
  · exact decode_quoteBytes_append hb rest

/-! ## Escaped values beside their originals -/

/-- An escaped value beside the readable value that it was made of. -/
def Likeness.escaped : Likeness where
  same v w := w.isReadable = true ∧ v = w.escape
  loose := False
  shows := by
    rintro v w ⟨-, rfl⟩
    exact .inr w.isShowable_escape
  words := by
    intro t ht
    exact ⟨rfl, (Value.escape_text_of_unmarked ht).symm⟩
  sizes := by
    intro v w hv _ h
    obtain rfl := h.resolve_left id
    exact ⟨Value.isReadable_of_isSingle (Value.isSingle_of_number hv),
      (Value.escape_of_number hv).symm⟩

/-- One piece decoded, whatever follows it. -/
lemma Piece.decode_text {p q : Piece} (h : Piece.Alike Likeness.escaped p q) (rest : Text) :
    decode (p.text ++ rest) = q.text ++ decode rest := by
  cases h with
  | fixed hs => exact hs rest
  | varied hl _ _ => exact hl.elim
  | slot hvw =>
      obtain ⟨hs, rfl⟩ := hvw
      exact Value.decode_display hs rest
  | pixels n => exact decode_append_of_unmarked (Text.ofInt_unmarked n) rest
  | resized hl => exact hl.elim

/-- **Decoding a markup** whose values are escaped. -/
theorem Markup.decode_text {m n : Markup} (h : Markup.Alike Likeness.escaped m n) :
    decode (Markup.text m) = Markup.text n := by
  induction h with
  | nil => rfl
  | cons hpq _ ih =>
      rw [Markup.text, List.flatMap_cons, Piece.decode_text hpq, Markup.text, List.flatMap_cons]
      exact congrArg _ ih

/-- Whether a piece is a value that shows an entity. -/
def Piece.showsEntity : Piece → Bool
  | .slot v => hasEntity v.display
  | _ => false

/-- An entity that a value shows stands in the text of the markup. -/
lemma Markup.hasEntity_text {m : Markup} (h : m.any Piece.showsEntity = true) :
    hasEntity (Markup.text m) = true := by
  obtain ⟨piece, hmem, hpiece⟩ := List.any_eq_true.mp h
  obtain ⟨front, back, rfl⟩ := List.mem_iff_append.mp hmem
  rw [Markup.text, List.flatMap_append, List.flatMap_cons]
  cases piece with
  | slot v => exact hasEntity_append_right _ (hasEntity_append_left hpiece _)
  | fixed _ => exact absurd hpiece Bool.false_ne_true
  | pixels _ => exact absurd hpiece Bool.false_ne_true

/-! ## Escaped configurations beside their originals -/

/-- A mapping beside its escaped one. -/
lemma Fields.beside_escape (fields : Fields) :
    fields.escape.Beside (fun v w => v = w.escape) fields := by
  intro t
  rw [find?_escape]
  cases fields.find? (.text t) with
  | none => exact .none
  | some v => exact .some rfl

namespace Likeness

/-- Escaping keeps all that the compiler decides by. -/
lemma keeps_escape : Keeps fun v w => v = w.escape where
  truthy := by
    rintro _ w rfl
    exact w.truthy_escape
  number := by
    rintro _ w rfl
    exact w.number?_escape
  name := by
    rintro _ w s rfl hs
    exact w.isText_escape hs
  shows := by
    rintro _ w rfl
    exact w.isShowable_escape
  null := rfl
  empty := rfl
  map := by
    rintro _ g rfl
    exact ⟨g.escape, rfl, g.beside_escape⟩
  other := by
    rintro _ w rfl hw
    rw [Value.asMap_escape, hw]
    rfl

/-- **A configuration beside its escaped one**, where all texts are readable and the width of the
content is a number. -/
theorem config_escaped {r : Fields} {ps : List Fields}
    (h : Config.Texts (fun v => v.isReadable = true) r)
    (hp : r.look "products" = .list (ps.map .map)) {content : Value}
    (hc : (r.look "layout").field "content_width" = .ok content)
    (hn : content.number?.isSome = true) : escaped.Config r.escape r := by
  refine keeps_escape.config (fun hvw hw => ⟨hw, hvw⟩) ?_ id r.beside_escape h hp
    (Config.look_products_escape hp) ?_ hc hn
  · exact fun hnumber => Value.isReadable_of_isSingle (Value.isSingle_of_number hnumber)
  · rw [List.forall₂_map_left_iff, List.forall₂_same]
    exact fun p _ => p.beside_escape

end Likeness

/-! ## Whole documents -/

namespace Document

/-- **Escaping changes nothing that is displayed**, of texts that are scalars and not bytes that show
an entity.  The entities of the escaped document decoded in one pass from the left give the document
that is not escaped; and where that one exists the escaped one does, unless the configuration holds
itself and is never escaped to the end. -/
theorem decode_html {c : Value} {r : Fields} (hr : Config.resolve c = .ok r)
    (hs : Config.Texts (fun v => v.isReadable = true) r) (ρ ρ' : SetOrder) :
    (∀ d, (html c true ρ).outcome = .ok d → (html c false ρ').outcome = .ok (decode d)) ∧
      ∀ d, (html c false ρ').outcome = .ok d →
        r.isEndless = true ∨ ∃ e, (html c true ρ).outcome = .ok e ∧ decode e = d := by
  have hp := Config.look_products hr
  have hrigid : Config.Texts (fun v => v.isRigid = true) r := hs.imp fun _ => Value.isRigid_of_isReadable
  constructor
  · intro d hd
    obtain ⟨-, m, hm, rfl⟩ := (html_of_rigid hr hrigid).mp hd
    rw [if_pos rfl] at hm
    obtain ⟨a⟩ := assembly_of_ok hm
    -- the width that was laid out by is the escaped one, a number like the original
    have hwidth := a.ofContent
    rw [Fields.look_escape, Value.field_escape] at hwidth
    obtain ⟨content, hc, hescape⟩ := map_eq_ok.mp hwidth
    have hn : content.number?.isSome = true := by
      rw [← Value.number?_escape, hescape]
      exact a.number
    obtain ⟨n, hn, hmn⟩ := (Likeness.config_escaped hs hp hc hn).document.result hm
    exact (html_of_rigid hr hrigid).mpr ⟨by simp, n, hn, (Markup.decode_text hmn).symm⟩
  · intro d hd
    obtain ⟨-, n, hn, rfl⟩ := (html_of_rigid hr hrigid).mp hd
    obtain ⟨a⟩ := assembly_of_ok hn
    obtain ⟨m, hm, hmn⟩ :=
      (Likeness.config_escaped hs hp a.ofContent a.number).document.result' hn
    cases hendless : r.isEndless with
    | true => exact .inl rfl
    | false =>
        refine .inr ⟨Markup.text m, (html_of_rigid hr hrigid).mpr ⟨fun _ => hendless, m, hm, rfl⟩, ?_⟩
        exact Markup.decode_text hmn

/-- A configuration with marks in its texts, some of which look like entities already. -/
def marked : Value := .map (Fields.named [
  ("template", .text "modern"),
  ("company", .map (Fields.named [("name", .text "Q&A <b>&amp;</b>"), ("logo_url", .bool true)])),
  ("hero", .null),
  ("footer", .map (Fields.named [("address", .bytes [0x3C, 0x26, 0x6C, 0x74])])),
  ("products", .list [
    .map (Fields.named [("name", .text "&lt;\"x\"&"), ("price", .int 5), ("link", .text "?a&lt")]),
    .map (Fields.named [("pricing_mode", .text "discount"), ("discount_text", .null)])])])

/-- A document that is escaped, and decoded again. -/
theorem decode_html_marked : ∃ d, (html marked true).outcome = .ok d ∧
    (html marked false).outcome = .ok (decode d) := by
  have hr := eq_ok_of_isOk (x := Config.resolve marked) (by decide +kernel)
  have hd := eq_ok_of_isOk (x := (html marked true).outcome) (by decide +kernel)
  exact ⟨_, hd, (decode_html hr (by decide +kernel) _ _).1 _ hd⟩

/-- A configuration with bytes that show an entity. -/
def entityBytes : Value := .map (Fields.named [
  ("company", .map (Fields.named [("name", .bytes [0x26, 0x6C, 0x74, 0x3B])]))])

/-- Nothing inside of bytes is escaped, but the reader decodes what they show: both documents are the
same, and another one is read. -/
theorem decode_html_entityBytes : ∃ r d, Config.resolve entityBytes = .ok r ∧
    Config.Texts (fun v => v.isScalar = true) r ∧ (html entityBytes true).outcome = .ok d ∧
    (html entityBytes false).outcome = .ok d ∧ decode d ≠ d := by
  obtain ⟨r, hr, hescape, hendless, hscalar⟩ : ∃ r, Config.resolve entityBytes = .ok r ∧
      r.escape = r ∧ r.isEndless = false ∧ Config.Texts (fun v => v.isScalar = true) r :=
    ⟨_, eq_ok_of_isOk (by decide +kernel), rfl, by decide +kernel, by decide +kernel⟩
  obtain ⟨m, hm, hentity⟩ : ∃ m, (markup entityBytes true).outcome = .ok m ∧
      m.any Piece.showsEntity = true :=
    ⟨_, eq_ok_of_isOk (by decide +kernel), by decide +kernel⟩
  have hsame : (markup entityBytes false).outcome = (markup entityBytes true).outcome := by
    simp [outcome_markup hr, Fields.escape_ordered, hescape, hendless]
  refine ⟨r, Markup.text m, hr, hscalar, ?_, ?_, ?_⟩
  · rw [outcome_html, hm]
    rfl
  · rw [outcome_html, hsame, hm]
    rfl
  · intro h
    have hlt := length_decode_lt (Markup.hasEntity_text hentity)
    rw [h] at hlt
    exact Nat.lt_irrefl _ hlt

end Document

end Mailshot
