import Mailshot.Markup
import Mailshot.Proofs.Outcome

/-!
# Reading the markup of a document

What a document says of its images is found by reading its markup: from one angle bracket to the next,
and inside a tag from quote to quote.  Values and numbers are read as the places where they stand, so
that what is found does not depend on what they hold.

* `Sign` — a character of the compiler's own text, or the place of a value or of a number.
* `Tag.valueOf`, `Tag.declared` — the value of an attribute, and what a style declares.
* `collect` — what the tags of a sequence of signs have to say, by a reader that goes from the left.
* `Steps`, **`Steps.join`** — reading parts one behind the other.
-/

namespace Mailshot

/-! ## Signs -/

/-- What stands at one place of a document. -/
inductive Sign
  /-- A character of the compiler's own text. -/
  | char (c : Char)
  /-- The place where a value shows. -/
  | slot (v : Value)
  /-- The place of a number of pixels. -/
  | pixels (n : Int)

/-- The signs of a text of the compiler. -/
def Sign.ofString (s : String) : List Sign := s.toList.map .char

/-- What a sign shows. -/
def Sign.text : Sign → Text
  | .char c => [.char c]
  | .slot v => v.display
  | .pixels n => Text.ofInt n

/-- The signs of a piece. -/
def Piece.signs : Piece → List Sign
  | .fixed s => Sign.ofString s
  | .slot v => [.slot v]
  | .pixels n => [.pixels n]

/-- The signs of a markup. -/
def Markup.signs (m : Markup) : List Sign := m.flatMap Piece.signs

/-- The signs of a markup show its text. -/
lemma Markup.text_eq_signs (m : Markup) : Markup.text m = (signs m).flatMap Sign.text := by
  unfold text signs
  rw [List.flatMap_assoc]
  congr 1
  funext piece
  cases piece with
  | fixed s =>
      simp only [Piece.text, Piece.signs, Sign.ofString, List.flatMap_map, Sign.text]
      exact (List.map_eq_flatMap (f := Letter.char) (l := s.toList))
  | slot v => simp [Piece.text, Piece.signs, Sign.text]
  | pixels n => simp [Piece.text, Piece.signs, Sign.text]

@[simp] lemma Markup.signs_append (m n : Markup) : signs (m ++ n) = signs m ++ signs n :=
  List.flatMap_append

/-! ## Tags -/

/-- The signs between two angle brackets. -/
abbrev Tag := List Sign

namespace Tag

/-- The signs behind the given characters, if the signs begin with them. -/
def strip : List Char → List Sign → Option (List Sign)
  | [], signs => some signs
  | c :: cs, .char d :: rest => if c = d then strip cs rest else none
  | _ :: _, _ => none

/-- The signs behind the first place where the given characters stand. -/
def behind (cs : List Char) : List Sign → Option (List Sign)
  | [] => none
  | sign :: rest =>
      match strip cs (sign :: rest) with
      | some found => some found
      | none => behind cs rest

/-- The signs in front of a character. -/
def upTo (stop : Char) : List Sign → List Sign
  | [] => []
  | .char c :: rest => if c = stop then [] else .char c :: upTo stop rest
  | sign :: rest => sign :: upTo stop rest

/-- Whether a tag has the given name. -/
def isNamed (name : String) (tag : Tag) : Bool := (strip (name.toList ++ [' ']) tag).isSome

/-- The value of an attribute, from quote to quote. -/
def valueOf (name : String) (tag : Tag) : Option (List Sign) :=
  (behind (' ' :: name.toList ++ ['=', '"']) tag).map (upTo '"')

/-- What the style of a tag declares under a name, up to the semicolon. -/
def declared (name : String) (tag : Tag) : Option (List Sign) :=
  (valueOf "style" tag).bind fun style =>
    (behind (' ' :: name.toList ++ [':', ' ']) (.char ' ' :: style)).map (upTo ';')

end Tag

/-! ## The reader -/

/-- Where a reader is: outside of tags, or in one whose signs were read so far, the last one first. -/
abbrev Reading := Option (List Sign)

section Collect

variable {α : Type} (f : Tag → Option α)

/-- What the tags have to say that end in a sequence of signs, and where the reader is then. -/
def collect : Reading → List Sign → Reading × List α
  | reading, [] => (reading, [])
  | none, .char c :: rest => if c = '<' then collect (some []) rest else collect none rest
  | none, _ :: rest => collect none rest
  | some tag, .char c :: rest =>
      if c = '>' then
        let after := collect none rest
        (after.1, (f tag.reverse).toList ++ after.2)
      else collect (some (.char c :: tag)) rest
  | some tag, sign :: rest => collect (some (sign :: tag)) rest

/-- A reader goes on from where it is. -/
theorem collect_append (reading : Reading) (as bs : List Sign) :
    collect f reading (as ++ bs) =
      ((collect f (collect f reading as).1 bs).1,
        (collect f reading as).2 ++ (collect f (collect f reading as).1 bs).2) := by
  induction as generalizing reading with
  | nil => rfl
  | cons sign as ih =>
      cases reading with
      | none =>
          cases sign with
          | char c =>
              simp only [List.cons_append, collect]
              split
              · exact ih _
              · exact ih _
          | slot v => exact ih _
          | pixels n => exact ih _
      | some tag =>
          cases sign with
          | char c =>
              simp only [List.cons_append, collect]
              split
              · rw [ih]
                simp
              · exact ih _
          | slot v => exact ih _
          | pixels n => exact ih _

/-- Inside a tag nothing is found before its end. -/
lemma collect_inside {signs : List Sign} (h : ∀ sign ∈ signs, sign ≠ .char '>') (tag : Tag) :
    collect f (some tag) signs = (some (signs.reverse ++ tag), []) := by
  induction signs generalizing tag with
  | nil => rfl
  | cons sign rest ih =>
      have hrest := ih (fun s hs => h s (List.mem_cons_of_mem _ hs)) (sign :: tag)
      cases sign with
      | char c =>
          have hc : c ≠ '>' := fun hc => h _ List.mem_cons_self (by rw [hc])
          simp only [collect, hc, if_false, hrest, List.reverse_cons, List.append_assoc,
            List.cons_append, List.nil_append]
      | slot v =>
          simp only [collect, hrest, List.reverse_cons, List.append_assoc, List.cons_append,
            List.nil_append]
      | pixels n =>
          simp only [collect, hrest, List.reverse_cons, List.append_assoc, List.cons_append,
            List.nil_append]

/-- A text that holds the end of a tag, which has something to say or nothing. -/
lemma collect_close {cs : List Char} (hcs : '>' ∈ cs) (tag : Tag) :
    collect f (some tag) (cs.map .char) =
      ((collect f none ((cs.dropWhile (· ≠ '>')).tail.map .char)).1,
        (f (tag.reverse ++ (cs.takeWhile (· ≠ '>')).map .char)).toList ++
          (collect f none ((cs.dropWhile (· ≠ '>')).tail.map .char)).2) := by
  induction cs generalizing tag with
  | nil => simp at hcs
  | cons c cs ih =>
      by_cases hc : c = '>'
      · subst hc
        simp [collect]
      · have hrest : '>' ∈ cs := (List.mem_cons.mp hcs).resolve_left (Ne.symm hc)
        simp only [List.map_cons, collect, hc, if_false, ih hrest]
        simp [hc]

/-! ## Reading parts -/

lemma ofValue_eq_ok {v : Value} {m : Markup} (h : Part.ofValue v = .ok m) : m = [.slot v] := by
  obtain ⟨_, -, h⟩ := bind_eq_ok.mp h
  exact (Except.ok.inj h).symm

lemma join_cons_eq_ok {p : Part} {ps : List Part} {m : Markup} :
    Part.join (p :: ps) = .ok m ↔ ∃ front back, p = .ok front ∧ Part.join ps = .ok back ∧
      m = front ++ back := by
  rw [Part.join]
  constructor
  · intro h
    obtain ⟨front, hfront, h⟩ := bind_eq_ok.mp h
    obtain ⟨back, hback, h⟩ := bind_eq_ok.mp h
    exact ⟨front, back, hfront, hback, (Except.ok.inj h).symm⟩
  · rintro ⟨front, back, hfront, hback, rfl⟩
    rw [hfront, hback]
    rfl

/-- What a part reads as inside a tag, whenever it is made: these signs, none of which ends the
tag. -/
def Part.Inside (p : Part) (ss : List Sign) : Prop :=
  (∀ m, p = .ok m → Markup.signs m = ss) ∧ ∀ sign ∈ ss, sign ≠ .char '>'

namespace Part.Inside

lemma fixed {s : String} (hs : '>' ∉ s.toList) : Part.Inside (.fixed s) (Sign.ofString s) := by
  constructor
  · rintro _ ⟨⟩
    simp [Markup.signs, Piece.signs]
  · intro sign hsign
    obtain ⟨c, hc, rfl⟩ := List.mem_map.mp hsign
    rintro ⟨⟩
    exact hs hc

lemma pixels (n : Int) : Part.Inside (.pixels n) [.pixels n] := by
  constructor
  · rintro _ ⟨⟩
    rfl
  · simp

lemma ofValue (v : Value) : Part.Inside (.ofValue v) [.slot v] := by
  constructor
  · intro m hm
    rw [ofValue_eq_ok hm]
    rfl
  · simp

lemma nil : Part.Inside (.join []) [] := by
  constructor
  · rintro _ ⟨⟩
    rfl
  · simp

lemma cons {p : Part} {ps : List Part} {ss rest : List Sign} (hp : Part.Inside p ss)
    (hps : Part.Inside (.join ps) rest) : Part.Inside (.join (p :: ps)) (ss ++ rest) := by
  constructor
  · intro m hm
    obtain ⟨front, back, hfront, hback, rfl⟩ := join_cons_eq_ok.mp hm
    rw [Markup.signs_append, hp.1 front hfront, hps.1 back hback]
  · intro sign hsign
    exact (List.mem_append.mp hsign).elim (hp.2 sign) (hps.2 sign)

end Part.Inside

/-- What is found in a markup that begins and ends outside of tags. -/
def Markup.Yields (m : Markup) (as : List α) : Prop := collect f none (signs m) = (none, as)

/-- What is found in a part, whenever it is made. -/
def Part.Yields (p : Part) (as : List α) : Prop := ∀ m, p = .ok m → Markup.Yields f m as

variable {f} in
/-- A part that is made from what a step gives. -/
lemma Part.Yields.after {β : Type} {x : Except Fault β} {part : β → Part} {as : List α}
    (h : ∀ b, x = .ok b → Part.Yields f (part b) as) : Part.Yields f (x >>= part) as := by
  intro m hm
  obtain ⟨b, hb, hm⟩ := bind_eq_ok.mp hm
  exact h b hb m hm

variable {f} in
/-- A part that is made already. -/
lemma Markup.Yields.made {m : Markup} {as : List α} (h : Markup.Yields f m as) :
    Part.Yields f (.ok m) as := by
  intro _ hm
  cases hm
  exact h

/-- A reader that goes through parts one behind the other. -/
inductive Steps : List Part → Reading → Reading → List α → Prop
  /-- The end. -/
  | nil (σ : Reading) : Steps [] σ σ []
  /-- A text of the compiler. -/
  | text {ps : List Part} {cs : List Char} {σ τ υ : Reading} {as bs : List α} :
      collect f σ (cs.map .char) = (τ, as) → Steps ps τ υ bs →
      Steps (Part.fixed (String.ofList cs) :: ps) σ υ (as ++ bs)
  /-- A value between tags. -/
  | between {ps : List Part} {v : Value} {τ : Reading} {as : List α} :
      Steps ps none τ as → Steps (Part.ofValue v :: ps) none τ as
  /-- A part in a tag that does not end the tag. -/
  | inside {p : Part} {ps : List Part} {ss : List Sign} {tag : Tag} {τ : Reading} {as : List α} :
      Part.Inside p ss → Steps ps (some (ss.reverse ++ tag)) τ as →
      Steps (p :: ps) (some tag) τ as
  /-- Parts that are joined already. -/
  | nest {ps qs : List Part} {σ τ : Reading} {as : List α} :
      Steps (qs ++ ps) σ τ as → Steps (Part.join qs :: ps) σ τ as
  /-- A part that is made from what a step gives. -/
  | after {β : Type} {x : Except Fault β} {part : β → Part} {ps : List Part} {σ τ : Reading}
      {as : List α} : (∀ b, x = .ok b → Steps (part b :: ps) σ τ as) →
      Steps ((x >>= part) :: ps) σ τ as
  /-- A part that begins and ends outside of tags. -/
  | part {p : Part} {ps : List Part} {τ : Reading} {as bs : List α} :
      Part.Yields f p as → Steps ps none τ bs → Steps (p :: ps) none τ (as ++ bs)

variable {f}

namespace Steps

variable {p : Part} {ps : List Part} {cs : List Char} {σ τ υ : Reading} {tag : Tag} {a : α}
  {as : List α}

/-- A text of the compiler without anything to be found. -/
lemma lit (hcs : collect f σ (cs.map .char) = (τ, [])) (h : Steps f ps τ υ as) :
    Steps f (Part.fixed (String.ofList cs) :: ps) σ υ as := text hcs h

/-- A text of the compiler that ends a tag with something to be found. -/
lemma found (hcs : collect f σ (cs.map .char) = (τ, [a])) (h : Steps f ps τ υ as) :
    Steps f (Part.fixed (String.ofList cs) :: ps) σ υ (a :: as) := text hcs h

/-- A value in a tag. -/
lemma value {v : Value} (h : Steps f ps (some (.slot v :: tag)) τ as) :
    Steps f (Part.ofValue v :: ps) (some tag) τ as :=
  inside (.ofValue v) h

/-- A number in a tag. -/
lemma pixels {n : Int} (h : Steps f ps (some (.pixels n :: tag)) τ as) :
    Steps f (Part.pixels n :: ps) (some tag) τ as :=
  inside (.pixels n) h

/-- A text in a tag that does not end the tag. -/
lemma word {s : String} (hs : '>' ∉ s.toList)
    (h : Steps f ps (some ((Sign.ofString s).reverse ++ tag)) τ as) :
    Steps f (Part.fixed s :: ps) (some tag) τ as :=
  inside (.fixed hs) h

/-- A text of the compiler that ends a tag which has nothing to say, whatever stands in it. -/
lemma close (hcs : '>' ∈ cs)
    (htag : f (tag.reverse ++ (cs.takeWhile (· ≠ '>')).map .char) = none)
    (hread : collect f none ((cs.dropWhile (· ≠ '>')).tail.map .char) = (τ, []))
    (h : Steps f ps τ υ as) : Steps f (Part.fixed (String.ofList cs) :: ps) (some tag) υ as := by
  refine lit ?_ h
  rw [collect_close f hcs, hread, htag]
  rfl

/-- A text of the compiler that ends a tag which has something to say. -/
lemma closeFound (hcs : '>' ∈ cs)
    (htag : f (tag.reverse ++ (cs.takeWhile (· ≠ '>')).map .char) = some a)
    (hread : collect f none ((cs.dropWhile (· ≠ '>')).tail.map .char) = (τ, []))
    (h : Steps f ps τ υ as) :
    Steps f (Part.fixed (String.ofList cs) :: ps) (some tag) υ (a :: as) := by
  refine found ?_ h
  rw [collect_close f hcs, hread, htag]
  rfl

/-- A part that begins and ends outside of tags, without anything to be found. -/
lemma plain (hp : Part.Yields f p []) (h : Steps f ps none τ as) :
    Steps f (p :: ps) none τ as := part hp h

end Steps

lemma join_append_eq_ok {ps qs : List Part} {m : Markup} :
    Part.join (ps ++ qs) = .ok m ↔ ∃ front back, Part.join ps = .ok front ∧
      Part.join qs = .ok back ∧ m = front ++ back := by
  induction ps generalizing m with
  | nil =>
      constructor
      · intro h
        exact ⟨[], m, rfl, h, rfl⟩
      · rintro ⟨_, back, hfront, hback, rfl⟩
        cases hfront
        exact hback
  | cons p ps ih =>
      rw [List.cons_append, join_cons_eq_ok]
      constructor
      · rintro ⟨first, rest, hfirst, hrest, rfl⟩
        obtain ⟨front, back, hfront, hback, rfl⟩ := ih.mp hrest
        exact ⟨first ++ front, back, join_cons_eq_ok.mpr ⟨_, _, hfirst, hfront, rfl⟩, hback,
          (List.append_assoc _ _ _).symm⟩
      · rintro ⟨_, back, hboth, hback, rfl⟩
        obtain ⟨first, front, hfirst, hfront, rfl⟩ := join_cons_eq_ok.mp hboth
        exact ⟨first, front ++ back, hfirst, ih.mpr ⟨_, _, hfront, hback, rfl⟩,
          List.append_assoc _ _ _⟩

/-- Parts are joined if all parts behind the first so many are. -/
lemma join_drop_eq_ok {ps : List Part} {m : Markup} (n : Nat) (h : Part.join ps = .ok m) :
    ∃ back, Part.join (ps.drop n) = .ok back := by
  rw [← List.take_append_drop n ps] at h
  obtain ⟨_, back, -, hback, -⟩ := join_append_eq_ok.mp h
  exact ⟨back, hback⟩

lemma signs_ofList (cs : List Char) : Markup.signs [.fixed (String.ofList cs)] = cs.map .char := by
  simp [Markup.signs, Piece.signs, Sign.ofString]

/-- **Reading parts that are joined.** -/
theorem Steps.join {ps : List Part} {σ τ : Reading} {as : List α} (h : Steps f ps σ τ as) :
    ∀ m, Part.join ps = .ok m → collect f σ (Markup.signs m) = (τ, as) := by
  induction h with
  | nil σ =>
      intro m hm
      cases hm
      rfl
  | text hcs _ ih =>
      intro m hm
      obtain ⟨front, back, hfront, hback, rfl⟩ := join_cons_eq_ok.mp hm
      cases hfront
      rw [Markup.signs_append, collect_append, signs_ofList, hcs, ih back hback]
  | between _ ih =>
      intro m hm
      obtain ⟨front, back, hfront, hback, rfl⟩ := join_cons_eq_ok.mp hm
      obtain rfl := ofValue_eq_ok hfront
      exact ih back hback
  | inside hp _ ih =>
      intro m hm
      obtain ⟨front, back, hfront, hback, rfl⟩ := join_cons_eq_ok.mp hm
      rw [Markup.signs_append, hp.1 front hfront, collect_append, collect_inside f hp.2,
        ih back hback]
      rfl
  | nest _ ih =>
      intro m hm
      obtain ⟨front, back, hfront, hback, rfl⟩ := join_cons_eq_ok.mp hm
      exact ih _ (join_append_eq_ok.mpr ⟨front, back, hfront, hback, rfl⟩)
  | after _ ih =>
      intro m hm
      obtain ⟨front, back, hfront, hback, rfl⟩ := join_cons_eq_ok.mp hm
      obtain ⟨b, hb, hfront⟩ := bind_eq_ok.mp hfront
      exact ih b hb _ (join_cons_eq_ok.mpr ⟨front, back, hfront, hback, rfl⟩)
  | part hp _ ih =>
      intro m hm
      obtain ⟨front, back, hfront, hback, rfl⟩ := join_cons_eq_ok.mp hm
      have hread := hp front hfront
      unfold Markup.Yields at hread
      rw [Markup.signs_append, collect_append, hread, ih back hback]

/-- Parts that begin and end outside of tags. -/
lemma Steps.yields {ps : List Part} {as : List α} (h : Steps f ps none none as) :
    Part.Yields f (Part.join ps) as := h.join

end Collect

end Mailshot
