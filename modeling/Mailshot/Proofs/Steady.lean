import Mailshot.Proofs.Assembly
import Mailshot.Proofs.Likeness.Image

/-!
# Documents that show no sets

The order of a set reaches a document where the set shows, and nowhere else: the template, the sizes,
the prices and whatever else the compiler decides by are the same in any order.  So a document whose
texts hold no set of two items is the same in any order.

* `Likeness.keeps_ordered` — another order of the sets keeps all that the compiler decides by.
* `Document.Made` — a document that is made of a complete configuration as it stands.
* **`Document.html_of_rigid`** — where the texts that show are rigid, every document is.
* **`Document.sameButForSets`** — configurations with one completion differ by the order of sets.
-/

namespace Mailshot

variable {ρ : SetOrder} {r : Fields}

/-- A mapping beside itself in another order. -/
lemma Fields.beside_ordered (fields : Fields) (way : Way) :
    (fields.ordered ρ way).Beside (fun v w => ∃ way, v = w.ordered ρ way) fields := by
  intro t
  rw [find?_ordered]
  cases fields.find? (.text t) with
  | none => exact .none
  | some v => exact .some ⟨_, rfl⟩

/-- **Another order of the sets** keeps all that the compiler decides by. -/
theorem Likeness.keeps_ordered : Keeps fun v w => ∃ way, v = w.ordered ρ way where
  truthy := by
    rintro _ w ⟨way, rfl⟩
    exact w.truthy_ordered
  number := by
    rintro _ w ⟨way, rfl⟩
    exact w.number?_ordered
  name := by
    rintro _ w s ⟨way, rfl⟩ -
    exact w.isText_ordered s
  shows := by
    rintro _ w ⟨way, rfl⟩
    exact w.isShowable_ordered
  null := ⟨[], by simp⟩
  empty := ⟨[], by simp⟩
  map := by
    rintro _ g ⟨way, rfl⟩
    exact ⟨g.ordered ρ way, by simp, g.beside_ordered way⟩
  other := by
    rintro _ w ⟨way, rfl⟩ hw
    rw [Value.asMap_ordered, hw, Option.map_none]

namespace Document

/-- A document is made of a complete configuration, its sets as they stand. -/
def Made (escaped : Bool) (r : Fields) (d : Text) : Prop :=
  (escaped = true → r.isEndless = false) ∧
    ∃ m, (ofResolved (if escaped then r.escape else r)).outcome = .ok m ∧ Markup.text m = d

variable {c c' : Value} {escaped : Bool} {d : Text}

/-- A document is made of the complete configuration with its sets in order. -/
lemma html_eq_made (hr : Config.resolve c = .ok r) :
    (html c escaped ρ).outcome = .ok d ↔ Made escaped (r.ordered ρ) d := by
  rw [html_eq_ok, Made, Fields.isEndless_ordered]
  constructor
  · rintro ⟨_, m, hr', hendless, hm, hd⟩
    obtain rfl := Except.ok.inj (hr.symm.trans hr')
    exact ⟨hendless, m, hm, hd⟩
  · rintro ⟨hendless, m, hm, hd⟩
    exact ⟨r, m, hr, hendless, hm, hd⟩

/-- A complete configuration that shows nothing that another order moves has the same document in that
order. -/
theorem ofResolved_ordered {ps : List Fields} (hp : r.look "products" = .list (ps.map .map))
    (hs : Config.Texts (fun v => ∀ way, v.ordered ρ way = v) r) :
    (∃ m, (ofResolved (r.ordered ρ)).outcome = .ok m ∧ Markup.text m = d) ↔
      ∃ m, (ofResolved r).outcome = .ok m ∧ Markup.text m = d := by
  have halike : ∀ content, (r.look "layout").field "content_width" = .ok content →
      content.number?.isSome = true →
      Outcome.Alike False (Markup.Alike Likeness.equal) (ofResolved (r.ordered ρ)).outcome
        (ofResolved r).outcome := by
    intro content hc hn
    refine (Likeness.keeps_ordered.config (L := Likeness.equal) ?_ ?_ id (r.beside_ordered []) hs hp
      (Config.look_products_ordered hp) ?_ hc hn).document
    · rintro _ w ⟨way, rfl⟩ hw
      exact hw way
    · exact fun hnumber way => Value.ordered_of_number hnumber
    · rw [List.forall₂_iff_get]
      refine ⟨by simp, fun i hi _ => ?_⟩
      rw [List.get_eq_getElem, List.getElem_mapIdx]
      exact Fields.beside_ordered _ _
  constructor
  · rintro ⟨m, hm, rfl⟩
    obtain ⟨a⟩ := assembly_of_ok hm
    have hwidth := a.ofContent
    rw [Fields.look_ordered, Value.field_ordered] at hwidth
    obtain ⟨content, hc, hordered⟩ := map_eq_ok.mp hwidth
    have hnumber := a.number
    rw [← hordered, Value.number?_ordered] at hnumber
    obtain ⟨n, hn, hmn⟩ := (halike content hc hnumber).result hm
    exact ⟨n, hn, (Likeness.text_eq hmn).symm⟩
  · rintro ⟨n, hn, rfl⟩
    obtain ⟨a⟩ := assembly_of_ok hn
    obtain ⟨m, hm, hmn⟩ := (halike a.content a.ofContent a.number).result' hn
    exact ⟨m, hm, Likeness.text_eq hmn⟩

/-- **Where the texts that show are rigid**, a document is the one of the complete configuration as it
stands. -/
theorem html_of_rigid (hr : Config.resolve c = .ok r)
    (hs : Config.Texts (fun v => v.isRigid = true) r) :
    (html c escaped ρ).outcome = .ok d ↔ Made escaped r d := by
  have hp := Config.look_products hr
  have hfixed : Config.Texts (fun v => ∀ way, v.ordered ρ way = v) r :=
    hs.imp fun v hv way => Value.ordered_of_isRigid way hv
  rw [html_eq_made hr, Made, Made, Fields.isEndless_ordered]
  refine and_congr_right fun _ => ?_
  cases escaped with
  | false => exact ofResolved_ordered hp hfixed
  | true =>
      simp only [if_true, Fields.escape_ordered]
      refine ofResolved_ordered (Config.look_products_escape hp) (hfixed.escape hp fun v hv way => ?_)
      rw [← Value.escape_ordered, hv]

/-- **Configurations of which the same is made, but for the order of sets.**  In one order they have the
same document or the same fault, and leave the same journal; so they have in any orders if no set in
their completion holds two items.  If no set that shows does, they have the same documents. -/
structure SameButForSets (c c' : Value) : Prop where
  inOrder : ∀ escaped ρ, html c escaped ρ = html c' escaped ρ
  rigid : ∀ r, Config.resolve c = .ok r → (Value.map r).isRigid = true →
    ∀ escaped ρ ρ', html c escaped ρ = html c' escaped ρ'
  texts : ∀ r, Config.resolve c = .ok r → Config.Texts (fun v => v.isRigid = true) r →
    ∀ escaped ρ ρ' d, (html c escaped ρ).outcome = .ok d ↔ (html c' escaped ρ').outcome = .ok d

/-- **One completion** makes them so. -/
theorem sameButForSets (h : Config.resolve c = Config.resolve c') : SameButForSets c c' where
  inOrder := html_congr h
  rigid r hr hrigid escaped ρ ρ' := by
    simp only [html, markup, ← h, hr, Report.lift_ok_bind, Fields.ordered_of_isRigid hrigid]
  texts r hr hs escaped ρ ρ' d := by
    rw [html_of_rigid hr hs, html_of_rigid (h ▸ hr) hs]

/-- A configuration that shows a set of two numbers, which a copy of it shows the other way round. -/
def contending : Fields := Fields.named [
  ("company", .map (Fields.named [("name", .set [.int 3, .int 11])]))]

end Document

end Mailshot
