import Mailshot.Markup
import Mailshot.Proofs.Entity
import Mailshot.Proofs.Outcome

/-!
# Two documents side by side

Much of what is to be said of the compiler compares two of its runs: a configuration and its escaped
copy, two configurations with the same outline, two that differ in what nobody sees.  All of these are
one relation between markups, piece by piece, over a relation between the values that show.

* `Likeness` — how the values of two documents are compared, and whether sizes and faults may differ.
* `Piece.Alike`, `Markup.Alike`, `Part.Alike` — the relation on pieces, on markups, and on parts that
  may fail.  A fixed text is compared with itself only, and must be one that decoding leaves alone.
* **`Part.Alike.join`** — parts are alike, one behind the other, if they are one by one.
* `Likeness.equal` — the likeness of values that are the same.
-/

namespace Mailshot

open Text

/-! ## Likenesses -/

/-- How two documents are compared. -/
structure Likeness where
  /-- The values that may show in the same place. -/
  same : Value → Value → Prop
  /-- Whether sizes may differ, and one of the documents may fail where the other does not. -/
  loose : Prop
  /-- Values in the same place both show or both do not. -/
  shows : ∀ {v w : Value}, same v w → loose ∨ v.isShowable = w.isShowable
  /-- The words of the compiler itself are texts without marks. -/
  words : ∀ {t : Text}, Unmarked t → same (.text t) (.text t)
  /-- So are the sizes that it computes. -/
  sizes : ∀ {v w : Value}, v.number?.isSome = true → w.number?.isSome = true → loose ∨ v = w →
    same v w

variable {L : Likeness}

/-! ## Pieces and markups -/

/-- Pieces that may stand in the same place. -/
inductive Piece.Alike (L : Likeness) : Piece → Piece → Prop
  | fixed {s : String} : Transparent s → Alike L (.fixed s) (.fixed s)
  | varied {s t : String} : L.loose → Unmarked (ofString s) → Unmarked (ofString t) →
      Alike L (.fixed s) (.fixed t)
  | slot {v w : Value} : L.same v w → Alike L (.slot v) (.slot w)
  | pixels (n : Int) : Alike L (.pixels n) (.pixels n)
  | resized {m n : Int} : L.loose → Alike L (.pixels m) (.pixels n)

/-- Markups that are alike piece by piece. -/
def Markup.Alike (L : Likeness) : Markup → Markup → Prop := List.Forall₂ (Piece.Alike L)

lemma Markup.Alike.append {m m' n n' : Markup} (h : Markup.Alike L m n)
    (h' : Markup.Alike L m' n') : Markup.Alike L (m ++ m') (n ++ n') :=
  List.rel_append h h'

/-- Markups one behind the other. -/
lemma Markup.Alike.flatten {ms ns : List Markup} (h : List.Forall₂ (Markup.Alike L) ms ns) :
    Markup.Alike L ms.flatten ns.flatten := by
  induction h with
  | nil => exact .nil
  | cons h _ ih => exact h.append ih

/-! ## Parts -/

/-- Parts that end in markups that are alike, or in the same fault. -/
abbrev Part.Alike (L : Likeness) (p q : Part) : Prop := Outcome.Alike L.loose (Markup.Alike L) p q

namespace Part.Alike

/-- **Parts one behind the other.** -/
theorem join {ps qs : List Part} (h : List.Forall₂ (Part.Alike L) ps qs) :
    Part.Alike L (Part.join ps) (Part.join qs) := by
  induction h with
  | nil => exact .ok .nil
  | cons h _ ih =>
      rw [Part.join, Part.join]
      exact h.bind fun m n hmn => ih.bind fun m' n' hmn' => .ok (hmn.append hmn')

lemma empty : Part.Alike L (Part.join []) (Part.join []) := join .nil

lemma fixed {s : String} (h : Transparent s) : Part.Alike L (Part.fixed s) (Part.fixed s) :=
  .ok (.cons (.fixed h) .nil)

/-- A text of the compiler, checked character by character. -/
lemma lit {cs : List Char} (h : isTransparent cs = true) :
    Part.Alike L (Part.fixed (String.ofList cs)) (Part.fixed (String.ofList cs)) :=
  fixed (transparent_ofList h)

lemma varied {s t : String} (hl : L.loose) (hs : Unmarked (ofString s))
    (ht : Unmarked (ofString t)) : Part.Alike L (Part.fixed s) (Part.fixed t) :=
  .ok (.cons (.varied hl hs ht) .nil)

lemma written {v w : Value} (h : L.loose ∨ v.isShowable = w.isShowable) :
    Outcome.Alike L.loose (fun _ _ => True) v.written w.written := by
  unfold Value.written
  rcases h with hl | hs
  · exact .of_results hl fun _ _ _ _ => trivial
  · rw [hs]
    split
    · exact .ok trivial
    · exact .fault _

lemma value {v w : Value} (h : L.same v w) : Part.Alike L (Part.ofValue v) (Part.ofValue w) :=
  (written (L.shows h)).bind fun _ _ _ => .ok (.cons (.slot h) .nil)

/-- A value that is read where it shows. -/
lemma read {x y : Except Fault Value} (h : Outcome.Alike L.loose L.same x y) :
    Part.Alike L (x >>= Part.ofValue) (y >>= Part.ofValue) :=
  h.bind fun _ _ => value

lemma pixels {m n : Int} (h : L.loose ∨ m = n) : Part.Alike L (Part.pixels m) (Part.pixels n) := by
  rcases h with h | rfl
  · exact .ok (.cons (.resized h) .nil)
  · exact .ok (.cons (.pixels _) .nil)

lemma markup {m n : Markup} (h : Markup.Alike L m n) : Part.Alike L (.ok m) (.ok n) := .ok h

lemma tableAttributes : Part.Alike L Part.tableAttributes Part.tableAttributes := lit rfl

end Part.Alike

/-! ## The same values -/

namespace Likeness

/-- Values that are the same. -/
def equal : Likeness where
  same := (· = ·)
  loose := False
  shows := fun h => .inr (congrArg Value.isShowable h)
  words := fun _ => rfl
  sizes := fun _ _ h => h.resolve_left id

/-- Markups of the same values have the same text. -/
lemma text_eq {m n : Markup} (h : Markup.Alike equal m n) : Markup.text m = Markup.text n := by
  induction h with
  | nil => rfl
  | cons hpq _ ih =>
      simp only [Markup.text, List.flatMap_cons] at ih ⊢
      rw [ih]
      congr 1
      cases hpq with
      | fixed _ => rfl
      | varied hl _ _ => exact hl.elim
      | slot hvw => rw [hvw]
      | pixels n => rfl
      | resized hl => exact hl.elim

end Likeness

end Mailshot
