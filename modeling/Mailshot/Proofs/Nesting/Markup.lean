import Mailshot.Proofs.Delimiters
import Mailshot.Proofs.Nesting.Tags
import Mailshot.Proofs.Reading

/-!
# Markups that nest

Whether the elements of a markup nest does not depend on what its slots show, as long as no slot shows
an angle bracket and none stands in the name of a tag.  So a markup is read piece by piece, with its
slots passed over.

* `Markup.pass` — the reader of tags over a markup.
* **`Markup.read_of_pass`** — it is where the reader of the text is.
* `Markup.Nests`, `Part.Nests` — markups that begin and end outside of tags and close what they open,
  and nothing else.
* `Part.Inner` — parts that stand in a tag and do not end it.
* `Walks` — parts one behind the other at whose end everything is closed that they open, and the rules
  by which this is shown, one for each kind of part.
-/

namespace Mailshot

open Text Text.Entity

/-! ## Texts without angle brackets -/

namespace Text

lemma tagless_of_undelimited {t : Text} (h : Undelimited t) : Tagless t := by
  intro l hl
  have hd := h l hl
  constructor <;>
    · rintro rfl
      exact absurd hd (by decide)

lemma tagless_of_unmarked {t : Text} (h : Unmarked t) : Tagless t :=
  tagless_of_undelimited (undelimited_of_unmarked h)

end Text

/-! ## The reader of a markup -/

/-- The reader of tags over a piece.  It passes over a value and a number. -/
def Piece.pass (progress : Progress) (names : List Text) : Piece → Option (Progress × List Text)
  | .fixed text => read progress names text
  | .slot _ => progress.skip names
  | .pixels _ => progress.skip names

namespace Markup

/-- The reader of tags over a markup. -/
def pass : Progress → List Text → Markup → Option (Progress × List Text)
  | progress, names, [] => some (progress, names)
  | progress, names, piece :: rest =>
      (piece.pass progress names).bind fun after => pass after.1 after.2 rest

lemma pass_append (progress : Progress) (names : List Text) (m n : Markup) :
    pass progress names (m ++ n) =
      (pass progress names m).bind fun after => pass after.1 after.2 n := by
  induction m generalizing progress names with
  | nil => rfl
  | cons piece m ih => simp only [List.cons_append, pass, ih, Option.bind_assoc]

/-- **Over a markup whose slots show no angle brackets** the reader of tags comes to the same end as
over its text. -/
theorem read_of_pass {m : Markup} (hm : ∀ v, Piece.slot v ∈ m → Tagless v.display)
    {progress : Progress} {names : List Text} {after : Progress × List Text}
    (h : pass progress names m = some after) :
    read progress names (Markup.text m) = some after := by
  induction m generalizing progress names with
  | nil => exact h
  | cons piece m ih =>
      obtain ⟨next, hpiece, hrest⟩ := Option.bind_eq_some_iff.mp h
      have htext : read progress names piece.text = some next := by
        cases piece with
        | fixed s => exact hpiece
        | slot v => exact read_of_tagless (hm v List.mem_cons_self) hpiece
        | pixels n => exact read_of_tagless (tagless_of_unmarked (Text.ofInt_unmarked n)) hpiece
      rw [Markup.text, List.flatMap_cons, read_append, htext, Option.bind_some]
      exact ih (fun v hv => hm v (List.mem_cons_of_mem _ hv)) hrest

/-- A markup that begins and ends outside of tags and closes what it opens. -/
def Nests (m : Markup) : Prop := ∀ names, pass .outside names m = some (.outside, names)

lemma Nests.nil : Nests [] := fun _ => rfl

lemma Nests.append {m n : Markup} (hm : Nests m) (hn : Nests n) : Nests (m ++ n) := by
  intro names
  rw [pass_append, hm names]
  exact hn names

lemma Nests.flatten {ms : List Markup} (h : ∀ m ∈ ms, Nests m) : Nests ms.flatten := by
  induction ms with
  | nil => exact .nil
  | cons m ms ih => exact (h m List.mem_cons_self).append (ih fun n hn => h n (List.mem_cons_of_mem _ hn))

end Markup

/-- A part that begins and ends outside of tags and closes what it opens, whenever it is made. -/
def Part.Nests (p : Part) : Prop := ∀ m, p = .ok m → Markup.Nests m

/-- A part that is made from what a step gives. -/
lemma Part.Nests.after {β : Type} {x : Except Fault β} {part : β → Part}
    (h : ∀ b, x = .ok b → Part.Nests (part b)) : Part.Nests (x >>= part) := by
  intro m hm
  obtain ⟨b, hb, hm⟩ := bind_eq_ok.mp hm
  exact h b hb m hm

/-- A part that is made already. -/
lemma Markup.Nests.made {m : Markup} (h : Markup.Nests m) : Part.Nests (.ok m) := by
  rintro _ ⟨⟩
  exact h

/-- A part that may stand in any tag, behind its name, without ending it. -/
def Part.Inner (p : Part) : Prop :=
  ∀ m, p = .ok m → ∀ name names, Markup.pass (.inside name) names m = some (.inside name, names)

namespace Part.Inner

lemma fixed {s : String} (h : Tagless (ofString s)) : (Part.fixed s).Inner := by
  rintro _ ⟨⟩ name names
  rw [Markup.pass, Piece.pass, read_of_tagless h rfl]
  rfl

lemma value (v : Value) : (Part.ofValue v).Inner := by
  intro m hm name names
  rw [ofValue_eq_ok hm]
  rfl

lemma pixels (n : Int) : (Part.pixels n).Inner := by
  rintro _ ⟨⟩ name names
  rfl

lemma nil : (Part.join []).Inner := by
  rintro _ ⟨⟩ name names
  rfl

lemma cons {p : Part} {ps : List Part} (hp : p.Inner) (hps : (Part.join ps).Inner) :
    (Part.join (p :: ps)).Inner := by
  intro m hm name names
  obtain ⟨front, back, hfront, hback, rfl⟩ := join_cons_eq_ok.mp hm
  rw [Markup.pass_append, hp front hfront]
  exact hps back hback name names

end Part.Inner

/-! ## Parts one behind the other -/

/-- Parts at whose end a reader is outside of tags, with `bottom` left open. -/
def Walks (bottom : List Text) (ps : List Part) (progress : Progress) (names : List Text) : Prop :=
  ∀ m, Part.join ps = .ok m → Markup.pass progress names m = some (.outside, bottom)

namespace Walks

variable {bottom names names' : List Text} {name : Text} {p : Part} {ps qs : List Part}
  {progress progress' : Progress}

lemma nil : Walks bottom [] .outside bottom := by
  rintro _ ⟨⟩
  rfl

/-- The first part, whatever it is. -/
lemma cons (hp : ∀ m, p = .ok m → Markup.pass progress names m = some (progress', names'))
    (h : Walks bottom ps progress' names') : Walks bottom (p :: ps) progress names := by
  intro m hm
  obtain ⟨front, back, hfront, hback, rfl⟩ := join_cons_eq_ok.mp hm
  rw [Markup.pass_append, hp front hfront]
  exact h back hback

/-- A text of the compiler. -/
lemma lit {cs : List Char} (hcs : read progress names (ofChars cs) = some (progress', names'))
    (h : Walks bottom ps progress' names') :
    Walks bottom (Part.fixed (String.ofList cs) :: ps) progress names := by
  refine cons ?_ h
  rintro _ ⟨⟩
  rw [Markup.pass, Piece.pass, ofString, String.toList_ofList, hcs]
  rfl

/-- A value between tags. -/
lemma between {v : Value} (h : Walks bottom ps .outside names) :
    Walks bottom (Part.ofValue v :: ps) .outside names := by
  refine cons (fun m hm => ?_) h
  rw [ofValue_eq_ok hm]
  rfl

/-- What stands in a tag, behind its name. -/
lemma inner (hp : p.Inner) (h : Walks bottom ps (.inside name) names) :
    Walks bottom (p :: ps) (.inside name) names := cons (fun m hm => hp m hm name names) h

/-- A value in a tag. -/
lemma value {v : Value} (h : Walks bottom ps (.inside name) names) :
    Walks bottom (Part.ofValue v :: ps) (.inside name) names := inner (.value v) h

/-- A number of pixels in a tag. -/
lemma pixels {n : Int} (h : Walks bottom ps (.inside name) names) :
    Walks bottom (Part.pixels n :: ps) (.inside name) names := inner (.pixels n) h

/-- Parts that are joined already. -/
lemma nest (h : Walks bottom (qs ++ ps) progress names) :
    Walks bottom (Part.join qs :: ps) progress names := by
  intro m hm
  obtain ⟨front, back, hfront, hback, rfl⟩ := join_cons_eq_ok.mp hm
  exact h _ (join_append_eq_ok.mpr ⟨front, back, hfront, hback, rfl⟩)

/-- A part that is made from what a step gives. -/
lemma after {β : Type} {x : Except Fault β} {part : β → Part}
    (h : ∀ b, x = .ok b → Walks bottom (part b :: ps) progress names) :
    Walks bottom ((x >>= part) :: ps) progress names := by
  intro m hm
  obtain ⟨front, back, hfront, hback, rfl⟩ := join_cons_eq_ok.mp hm
  obtain ⟨b, hb, hfront⟩ := bind_eq_ok.mp hfront
  exact h b hb _ (join_cons_eq_ok.mpr ⟨front, back, hfront, hback, rfl⟩)

/-- A part that closes what it opens. -/
lemma part (hp : p.Nests) (h : Walks bottom ps .outside names) :
    Walks bottom (p :: ps) .outside names := cons (fun m hm => hp m hm names) h

end Walks

/-- **Parts that close what they open**, whatever is open already. -/
theorem Part.Nests.of_walks {ps : List Part} (h : ∀ names, Walks names ps .outside names) :
    Part.Nests (Part.join ps) := fun m hm names => h names m hm

end Mailshot
