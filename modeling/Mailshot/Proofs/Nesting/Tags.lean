import Mathlib.Data.List.TakeWhile
import Mathlib.Tactic.Common
import Mailshot.Text.Blank

/-!
# Tags and how they nest

A tag reaches from an angle bracket to the next, and its name up to the first blank in it.  What is
opened has to be closed, and what was opened last has to be closed first.

* `Text.scan` — the tags of a text, and where their reader is at its end.
* `Edge` — where an element begins or ends.  Declarations, comments and void elements have no edges.
* `WellNested` — edges of elements that are all closed, one inside of the other or behind it.
* `settle`, **`wellNested_iff`** — this is decided with a stack of the open elements.
* `Progress`, `Text.read`, **`scan_of_read`** — a reader that remembers the name of a tag and the open
  elements and nothing else, and what it finds out about the tags.
-/

namespace Mailshot

open Text

/-! ## Tags -/

namespace Text

/-- The tags of a text, each as it stands between its brackets, and where a reader is at the end:
outside of tags, or in one that it read so far, the last letter first. -/
def scan : Option Text → Text → Option Text × List Text
  | reading, [] => (reading, [])
  | none, l :: rest => if l = .char '<' then scan (some []) rest else scan none rest
  | some tag, l :: rest =>
      if l = .char '>' then
        let after := scan none rest
        (after.1, tag.reverse :: after.2)
      else scan (some (l :: tag)) rest

/-- The name of a tag. -/
def nameOf (tag : Text) : Text := tag.takeWhile fun l => !isBlankLetter l

/-- A reader goes on from where it is. -/
lemma scan_cons (reading : Option Text) (l : Letter) (rest : Text) :
    scan reading (l :: rest) =
      ((scan (scan reading [l]).1 rest).1,
        (scan reading [l]).2 ++ (scan (scan reading [l]).1 rest).2) := by
  cases reading with
  | none => by_cases h : l = .char '<' <;> simp [scan, h]
  | some tag => by_cases h : l = .char '>' <;> simp [scan, h]

/-- A text without angle brackets. -/
def Tagless (t : Text) : Prop := ∀ l ∈ t, l ≠ .char '<' ∧ l ≠ .char '>'

instance (t : Text) : Decidable (Tagless t) :=
  List.decidableBAll (fun l => l ≠ Letter.char '<' ∧ l ≠ Letter.char '>') t

end Text

/-! ## Edges -/

/-- Where an element begins or ends. -/
inductive Edge
  | opens (name : Text)
  | closes (name : Text)
deriving DecidableEq

namespace Edge

/-- The elements that have no end. -/
def voids : List Text := ["meta", "img"]

/-- The edge that a tag of the given name is, if it is one. -/
def ofName : Text → Option Edge
  | .char '!' :: _ => none
  | .char '/' :: name => some (.closes name)
  | name => if name ∈ voids then none else some (.opens name)

/-- The edge that a tag is, if it is one. -/
def ofTag (tag : Text) : Option Edge := ofName (nameOf tag)

end Edge

/-- The edges of the elements of a text. -/
def Text.edges (t : Text) : List Edge := (scan none t).2.filterMap Edge.ofTag

/-! ## Nesting -/

/-- Edges of elements that are all closed. -/
inductive WellNested : List Edge → Prop
  | nil : WellNested []
  /-- An element around others, and what stands behind it. -/
  | element (name : Text) {inner rest : List Edge} : WellNested inner → WellNested rest →
      WellNested (.opens name :: (inner ++ .closes name :: rest))

/-- The open elements after some edges, the last one first, if none is closed that is not the last
one. -/
def settle : List Text → List Edge → Option (List Text)
  | names, [] => some names
  | names, .opens name :: rest => settle (name :: names) rest
  | [], .closes _ :: _ => none
  | last :: names, .closes name :: rest => if last = name then settle names rest else none

lemma settle_append (names : List Text) (as bs : List Edge) :
    settle names (as ++ bs) = (settle names as).bind fun names => settle names bs := by
  induction as generalizing names with
  | nil => rfl
  | cons edge as ih =>
      cases edge with
      | opens name => exact ih _
      | closes name =>
          cases names with
          | nil => rfl
          | cons last names =>
              simp only [List.cons_append, settle]
              split
              · exact ih _
              · rfl

/-- Elements that are closed leave open what was open. -/
lemma WellNested.settle {as : List Edge} (h : WellNested as) (names : List Text) :
    settle names as = some names := by
  induction h generalizing names with
  | nil => rfl
  | element name _ _ hinner hrest =>
      rw [Mailshot.settle, settle_append, hinner, Option.bind_some, Mailshot.settle, if_pos rfl, hrest]

/-- Edges that close the given elements, with closed elements before, between and behind them. -/
inductive Closing : List Text → List Edge → Prop
  | nil {as : List Edge} : WellNested as → Closing [] as
  | cons {name : Text} {names : List Text} {inner rest : List Edge} : WellNested inner →
      Closing names rest → Closing (name :: names) (inner ++ .closes name :: rest)

/-- One more element that is closed first. -/
lemma Closing.element {name : Text} {names : List Text} {inner rest : List Edge}
    (hinner : WellNested inner) (h : Closing names rest) :
    Closing names (.opens name :: (inner ++ .closes name :: rest)) := by
  cases h with
  | nil h => exact .nil (.element name hinner h)
  | @cons last names next rest hnext hrest =>
      have hclosing : Closing (last :: names)
          ((.opens name :: (inner ++ .closes name :: next)) ++ .closes last :: rest) :=
        .cons (.element name hinner hnext) hrest
      simpa using hclosing

lemma closing_of_settle {names : List Text} {as : List Edge} (h : settle names as = some []) :
    Closing names as := by
  induction as generalizing names with
  | nil =>
      cases h
      exact .nil .nil
  | cons edge as ih =>
      cases edge with
      | opens name =>
          cases ih h with
          | cons hinner hrest => exact .element hinner hrest
      | closes name =>
          cases names with
          | nil => cases h
          | cons last names =>
              rw [settle] at h
              split at h
              · next hlast =>
                  subst hlast
                  exact .cons .nil (ih h)
              · cases h

/-- **Nesting is decided with a stack.** -/
theorem wellNested_iff {as : List Edge} : WellNested as ↔ settle [] as = some [] := by
  refine ⟨fun h => h.settle [], fun h => ?_⟩
  cases closing_of_settle h with
  | nil h => exact h

instance (as : List Edge) : Decidable (WellNested as) := decidable_of_iff _ wellNested_iff.symm

/-! ## A reader with a stack -/

/-- How far a reader is with a tag. -/
inductive Progress
  | outside
  /-- In the name of a tag, of which so much is read. -/
  | naming (name : Text)
  /-- Behind the name of a tag. -/
  | inside (name : Text)

namespace Progress

/-- The end of a tag of the given name, where the given elements are open. -/
def leave (name : Text) (names : List Text) : Option (Progress × List Text) :=
  (settle names (Edge.ofName name).toList).map fun names => (outside, names)

/-- A letter further. -/
def step : Progress → List Text → Letter → Option (Progress × List Text)
  | outside, names, l => some (if l = .char '<' then naming [] else outside, names)
  | naming name, names, l =>
      if l = .char '>' then leave name names
      else some (if isBlankLetter l then inside name else naming (name ++ [l]), names)
  | inside name, names, l => if l = .char '>' then leave name names else some (inside name, names)

/-- Over something that has no brackets and does not belong to the name of a tag. -/
def skip : Progress → List Text → Option (Progress × List Text)
  | naming _, _ => none
  | progress, names => some (progress, names)

/-- What a progress says of the tag that is read so far. -/
inductive Holds : Progress → Option Text → Prop
  | outside : Holds outside none
  | naming {tag : Text} : (∀ l ∈ tag, isBlankLetter l = false) → Holds (naming tag.reverse) (some tag)
  | inside {tag more : Text} {blank : Letter} : (∀ l ∈ tag, isBlankLetter l = false) →
      isBlankLetter blank = true → Holds (inside tag.reverse) (some (more ++ blank :: tag))

end Progress

/-- A reader of a text, with the elements that are open, until one is closed that is not the last
one. -/
def Text.read : Progress → List Text → Text → Option (Progress × List Text)
  | progress, names, [] => some (progress, names)
  | progress, names, l :: rest => (progress.step names l).bind fun after => read after.1 after.2 rest

lemma Text.read_append (progress : Progress) (names : List Text) (s t : Text) :
    read progress names (s ++ t) = (read progress names s).bind fun after => read after.1 after.2 t := by
  induction s generalizing progress names with
  | nil => rfl
  | cons l s ih => simp only [List.cons_append, read, ih, Option.bind_assoc]

/-- Nothing happens where there are no brackets. -/
lemma Text.read_of_tagless {t : Text} (h : Tagless t) {progress : Progress} {names : List Text}
    {after : Progress × List Text} (hskip : progress.skip names = some after) :
    read progress names t = some after := by
  cases progress with
  | naming name => cases hskip
  | outside | inside name =>
      cases hskip
      induction t with
      | nil => rfl
      | cons l t ih =>
          have hl := h l List.mem_cons_self
          have hrest := ih fun k hk => h k (List.mem_cons_of_mem _ hk)
          simp only [read, Progress.step, hl.1, hl.2, if_false, Option.bind_some, hrest]

namespace Progress

variable {progress progress' : Progress} {names names' : List Text} {reading : Option Text}

lemma nameOf_naming {tag : Text} (h : ∀ l ∈ tag, isBlankLetter l = false) :
    nameOf tag.reverse = tag.reverse := by
  refine List.takeWhile_eq_self_iff.mpr fun l hl => ?_
  rw [h l (List.mem_reverse.mp hl)]
  rfl

lemma nameOf_inside {tag more : Text} {blank : Letter} (h : ∀ l ∈ tag, isBlankLetter l = false)
    (hblank : isBlankLetter blank = true) : nameOf (more ++ blank :: tag).reverse = tag.reverse := by
  have hreverse : (more ++ blank :: tag).reverse = tag.reverse ++ blank :: more.reverse := by simp
  have hname := nameOf_naming h
  unfold nameOf at hname ⊢
  rw [hreverse, List.takeWhile_append, hname, if_pos rfl, List.takeWhile_cons_of_neg (by simp [hblank]),
    List.append_nil]

/-- At the end of a tag the elements are open that are open behind its edge. -/
lemma leave_eq_some {name tag : Text} (hname : nameOf tag = name)
    (h : leave name names = some (progress', names')) :
    progress' = outside ∧ settle names ([tag].filterMap Edge.ofTag) = some names' := by
  obtain ⟨settled, hsettled, hpair⟩ := Option.map_eq_some_iff.mp h
  cases hpair
  refine ⟨rfl, ?_⟩
  rw [← hsettled, ← hname, List.filterMap_cons, Edge.ofTag]
  cases Edge.ofName (nameOf tag) <;> rfl

/-- **One letter.** -/
lemma holds_step {l : Letter} (h : progress.step names l = some (progress', names'))
    (hr : progress.Holds reading) : progress'.Holds (scan reading [l]).1 ∧
      settle names ((scan reading [l]).2.filterMap Edge.ofTag) = some names' := by
  cases hr with
  | outside =>
      cases h
      by_cases hl : l = .char '<'
      · rw [if_pos hl, scan, if_pos hl]
        have hnaming : Holds (naming []) (some []) :=
          .naming fun _ h => absurd h List.not_mem_nil
        exact ⟨hnaming, rfl⟩
      · rw [if_neg hl, scan, if_neg hl]
        exact ⟨.outside, rfl⟩
  | @naming tag htag =>
      rw [step] at h
      by_cases hl : l = .char '>'
      · rw [if_pos hl] at h
        obtain ⟨rfl, hsettled⟩ := leave_eq_some (nameOf_naming htag) h
        rw [scan, if_pos hl]
        exact ⟨.outside, hsettled⟩
      · rw [if_neg hl] at h
        rw [scan, if_neg hl]
        cases h
        refine ⟨?_, rfl⟩
        by_cases hblank : isBlankLetter l = true
        · rw [if_pos hblank]
          have hinside : Holds (inside tag.reverse) (some ([] ++ l :: tag)) := .inside htag hblank
          exact hinside
        · rw [if_neg hblank, ← List.reverse_cons]
          exact .naming (List.forall_mem_cons.mpr ⟨(Bool.not_eq_true _).mp hblank, htag⟩)
  | @inside tag more blank htag hblank =>
      rw [step] at h
      by_cases hl : l = .char '>'
      · rw [if_pos hl] at h
        obtain ⟨rfl, hsettled⟩ := leave_eq_some (nameOf_inside htag hblank) h
        rw [scan, if_pos hl]
        exact ⟨.outside, hsettled⟩
      · rw [if_neg hl] at h
        rw [scan, if_neg hl]
        cases h
        have hinside : Holds (inside tag.reverse) (some (l :: more ++ blank :: tag)) :=
          .inside htag hblank
        exact ⟨hinside, rfl⟩

end Progress

/-- **What the reader finds out about the tags**: where it is, and which elements are open. -/
theorem scan_of_read {t : Text} {progress progress' : Progress} {names names' : List Text}
    {reading : Option Text} (h : read progress names t = some (progress', names'))
    (hr : progress.Holds reading) : progress'.Holds (scan reading t).1 ∧
      settle names ((scan reading t).2.filterMap Edge.ofTag) = some names' := by
  induction t generalizing progress names reading with
  | nil =>
      cases h
      exact ⟨hr, rfl⟩
  | cons l t ih =>
      obtain ⟨⟨next, open'⟩, hstep, hrest⟩ := Option.bind_eq_some_iff.mp h
      obtain ⟨hnext, hsettled⟩ := Progress.holds_step hstep hr
      obtain ⟨hend, hall⟩ := ih hrest hnext
      rw [scan_cons, List.filterMap_append, settle_append, hsettled]
      exact ⟨hend, hall⟩

/-- A text that is read to its end outside of tags with nothing left open. -/
theorem wellNested_of_read {t : Text} (h : read .outside [] t = some (.outside, [])) :
    (scan none t).1 = none ∧ WellNested (edges t) := by
  obtain ⟨hend, hsettled⟩ := scan_of_read h .outside
  refine ⟨?_, wellNested_iff.mpr hsettled⟩
  cases h' : (scan none t).1 with
  | none => rfl
  | some tag =>
      rw [h'] at hend
      cases hend

end Mailshot
