import Mailshot.Proofs.Decoding
import Mailshot.Proofs.Delimiters
import Mailshot.Proofs.Reading

/-!
# Markers

The rows and items of a document are marked by comments.  Whoever reads the document finds them by
their text, so it matters that no text of a configuration can be taken for a marker, nor any text
together with the markup beside it.

* `Marker` — the markers, and their texts.
* `Text.occurrences` — how often a text stands in another.
* `Text.isCalm` — texts that neither hold nor begin a marker anywhere; **`Text.occurrences_append`** —
  such a text can stand in front of anything, and no marker is won or lost.
* `Value.isCalm` — the scalars that show a calm text once they are escaped: all but some bytes, since
  nothing inside of bytes is escaped.
* `Markup.Counts`, `Part.Counts` — the number of markers that a markup brings wherever it stands, and
  **`Part.Counts.join_around`** — among parts that bring none, one brings what it brings alone.
-/

namespace Mailshot

open Text

/-! ## The markers -/

/-- The comments by which rows and items are marked. -/
inductive Marker
  | gridRow
  | gridFiller
  | listItem
  | bannerItem
deriving DecidableEq

namespace Marker

/-- All markers. -/
def all : List Marker := [gridRow, gridFiller, listItem, bannerItem]

/-- What a document is searched for: of a row the number is left out. -/
def text : Marker → Text
  | gridRow => "<!-- GRID ROW"
  | gridFiller => "<!-- GRID FILLER -->"
  | listItem => "<!-- LIST ITEM -->"
  | bannerItem => "<!-- BANNER ITEM -->"

lemma mem_all (w : Marker) : w ∈ all := by cases w <;> decide

/-- What every marker begins with. -/
def opening : Text := [.char '<', .char '!']

lemma opening_prefix (w : Marker) : opening <+: w.text := by cases w <;> exact ⟨_, rfl⟩

/-- No marker has a quote. -/
lemma quote_not_mem_text (w : Marker) (t : Text) : Letter.char (Quoted.mark t) ∉ w.text := by
  unfold Quoted.mark
  cases w <;> split <;> decide

end Marker

/-! ## Occurrences -/

namespace Text

/-- The number of places in a text where another one stands. -/
def occurrences (w : Text) : Text → Nat
  | [] => 0
  | l :: rest => (if w <+: l :: rest then 1 else 0) + occurrences w rest

/-- What stands in a text is found there. -/
lemma occurrences_ne_zero {w t : Text} (hw : w ≠ []) (h : w <:+: t) : occurrences w t ≠ 0 := by
  induction t with
  | nil => exact absurd (List.infix_nil.mp h) hw
  | cons l rest ih =>
      rw [occurrences]
      rcases List.infix_cons_iff.mp h with hp | hrest
      · rw [if_pos hp]
        omega
      · have hfound := ih hrest
        omega

/-- Neither of two texts begins with the other. -/
def isApart (s t : Text) : Bool := decide (¬ s <+: t) && decide (¬ t <+: s)

lemma isApart_iff {s t : Text} : isApart s t = true ↔ ¬ s <+: t ∧ ¬ t <+: s := by
  simp [isApart]

/-- A text in which no marker stands or begins, at whatever place. -/
def isCalm : Text → Bool
  | [] => true
  | l :: rest =>
      (isApart Marker.opening (l :: rest) || Marker.all.all fun w => isApart w.text (l :: rest)) &&
        isCalm rest

variable {s t : Text} {l : Letter}

/-- A text is apart from another one if it begins with one that is. -/
lemma isApart_of_prefix {u w : Text} (hw : u <+: w) (h : isApart u t = true) :
    isApart w t = true := by
  obtain ⟨hut, htu⟩ := isApart_iff.mp h
  refine isApart_iff.mpr ⟨fun hp => hut (hw.trans hp), fun hp => ?_⟩
  rcases List.prefix_or_prefix_of_prefix hw hp with hu | ht
  · exact hut hu
  · exact htu ht

lemma isCalm_cons : isCalm (l :: t) = true ↔
    (∀ w : Marker, isApart w.text (l :: t) = true) ∧ isCalm t = true := by
  simp only [isCalm, Bool.and_eq_true, Bool.or_eq_true, List.all_eq_true]
  refine and_congr_left fun _ => ⟨?_, fun h => .inr fun w _ => h w⟩
  rintro (h | h) w
  · exact isApart_of_prefix w.opening_prefix h
  · exact h w w.mem_all

/-- What is apart from a text stays apart, whatever follows the text. -/
lemma isApart_append {w : Text} (h : isApart w s = true) (t : Text) : isApart w (s ++ t) = true := by
  obtain ⟨hws, hsw⟩ := isApart_iff.mp h
  refine isApart_iff.mpr ⟨fun hp => ?_, fun hp => hsw ((List.prefix_append s t).trans hp)⟩
  rcases List.prefix_or_prefix_of_prefix hp (List.prefix_append s t) with hw | hs
  · exact hws hw
  · exact hsw hs

lemma isCalm_append (hs : isCalm s = true) (ht : isCalm t = true) : isCalm (s ++ t) = true := by
  induction s with
  | nil => exact ht
  | cons l rest ih =>
      obtain ⟨hl, hrest⟩ := isCalm_cons.mp hs
      rw [List.cons_append, isCalm_cons]
      exact ⟨fun w => isApart_append (hl w) t, ih hrest⟩

/-- **A calm text wins and loses no marker**, whatever follows it. -/
theorem occurrences_append (hs : isCalm s = true) (w : Marker) (rest : Text) :
    occurrences w.text (s ++ rest) = occurrences w.text rest := by
  induction s with
  | nil => rfl
  | cons l s ih =>
      obtain ⟨hl, hrest⟩ := isCalm_cons.mp hs
      obtain ⟨hno, -⟩ := isApart_iff.mp (isApart_append (hl w) rest)
      rw [List.cons_append] at hno ⊢
      rw [occurrences, if_neg hno, Nat.zero_add, ih hrest]

/-- A text that begins with a marker, or is apart from it, and is calm behind its first letter. -/
lemma occurrences_cons_append (ht : isCalm t = true) {w : Marker}
    (h : w.text <+: l :: t ∨ isApart w.text (l :: t) = true) (rest : Text) :
    occurrences w.text (l :: t ++ rest) =
      (if w.text <+: l :: t then 1 else 0) + occurrences w.text rest := by
  rw [List.cons_append, occurrences, occurrences_append ht, ← List.cons_append]
  rcases h with h | h
  · rw [if_pos h, if_pos (h.trans (List.prefix_append (l :: t) rest))]
  · obtain ⟨hno, -⟩ := isApart_iff.mp (isApart_append h rest)
    rw [if_neg hno, if_neg (isApart_iff.mp h).1]

/-- Whether a text begins with a marker, and is apart from the other ones. -/
def isOpenedBy (t : Text) (v : Marker) : Bool :=
  Marker.all.all fun w => if w = v then decide (w.text <+: t) else isApart w.text t

/-- Without an angle bracket there is no marker. -/
lemma isCalm_of_forall (h : ∀ l ∈ t, l ≠ .char '<') : isCalm t = true := by
  induction t with
  | nil => rfl
  | cons l rest ih =>
      obtain ⟨hl, hrest⟩ := List.forall_mem_cons.mp h
      have hopening : isApart Marker.opening (l :: rest) = true :=
        isApart_iff.mpr ⟨fun hp => hl (List.cons_prefix_cons.mp hp).1.symm,
          fun hp => hl (List.cons_prefix_cons.mp hp).1⟩
      exact isCalm_cons.mpr ⟨fun w => isApart_of_prefix w.opening_prefix hopening, ih hrest⟩

/-- The characters of a literal, which need not be decoded to be looked at. -/
lemma isCalm_literal {cs : List Char} (h : isCalm (ofChars cs) = true) :
    isCalm (ofString (String.ofList cs)) = true := by
  rwa [ofString, String.toList_ofList]

lemma isCalm_concat {s t : String} (hs : isCalm (ofString s) = true)
    (ht : isCalm (ofString t) = true) : isCalm (ofString (s ++ t)) = true := by
  have happend : ofString (s ++ t) = ofString s ++ ofString t := by simp [ofString, ofChars]
  rw [happend]
  exact isCalm_append hs ht

lemma isCalm_of_undelimited (h : Undelimited t) : isCalm t = true := by
  refine isCalm_of_forall fun l hl heq => ?_
  have hd := h l hl
  rw [heq] at hd
  exact absurd hd (by decide)

lemma isCalm_of_unmarked (h : Unmarked t) : isCalm t = true :=
  isCalm_of_undelimited (undelimited_of_unmarked h)

/-- A text that ends in a letter that no marker has is calm if no marker stands in it. -/
lemma isCalm_append_singleton (hl : ∀ w : Marker, l ∉ w.text)
    (h : ∀ w : Marker, ¬ w.text <:+: t ++ [l]) : isCalm (t ++ [l]) = true := by
  induction t with
  | nil =>
      refine isCalm_of_forall (List.forall_mem_singleton.mpr ?_)
      rintro rfl
      exact hl .gridRow (Marker.gridRow.opening_prefix.subset List.mem_cons_self)
  | cons a t ih =>
      rw [List.cons_append, isCalm_cons]
      refine ⟨fun w => isApart_iff.mpr ⟨fun hp => h w hp.isInfix, fun hp => ?_⟩, ih fun w hw => ?_⟩
      · exact hl w (hp.subset (by simp))
      · exact h w (hw.trans (List.suffix_cons a _).isInfix)

end Text

/-! ## Values -/

namespace Value

/-- Whether a value is a scalar that shows a calm text once it is escaped: nothing inside of bytes is
escaped. -/
def isCalm : Value → Bool
  | .bytes b => Marker.all.all fun w => !decide (w.text <:+: quoteBytes b)
  | v => v.isScalar

lemma isRigid_of_isCalm {v : Value} (h : v.isCalm = true) : v.isRigid = true := by
  cases v with
  | scalar s => rfl
  | _ => cases h

/-- Bytes end in a quote. -/
lemma isCalm_quoteBytes {b : List UInt8} (h : ∀ w : Marker, ¬ w.text <:+: quoteBytes b) :
    Text.isCalm (quoteBytes b) = true := by
  obtain ⟨front, t, hfront⟩ : ∃ (front : Text) (t : Text),
      quoteBytes b = front ++ [.char (Quoted.mark t)] := by
    simp only [quoteBytes, Quoted.encodeBytes, ofChars, ← List.cons_append, List.map_append]
    exact ⟨_, _, rfl⟩
  rw [hfront] at h ⊢
  exact isCalm_append_singleton (fun w => w.quote_not_mem_text t) h

lemma isCalm_display_escape {v : Value} (h : v.isCalm = true) :
    Text.isCalm v.escape.display = true := by
  match v, h with
  | .bytes b, h =>
      refine isCalm_quoteBytes fun w => ?_
      have hw := List.all_eq_true.mp h w w.mem_all
      simpa using hw
  | .null, _ | .bool _, _ | .int _, _ | .float _, _ | .text _, _ | .scalar (.date _), _
  | .scalar (.moment _), _ => exact isCalm_of_undelimited (undelimited_display_escape rfl)

end Value

/-! ## Markups and parts -/

namespace Markup

/-- Every text of the compiler in a markup is calm. -/
def IsCalm (m : Markup) : Prop := ∀ s : String, Piece.fixed s ∈ m → isCalm (ofString s) = true

/-- Whatever shows in a markup is calm. -/
def ShowsCalm (m : Markup) : Prop := ∀ v : Value, Piece.slot v ∈ m → isCalm v.display = true

/-- A markup brings so many markers of a kind, wherever it stands, if what shows in it is calm. -/
def Counts (w : Marker) (m : Markup) (n : Nat) : Prop :=
  ShowsCalm m → ∀ rest, occurrences w.text (Markup.text m ++ rest) = n + occurrences w.text rest

variable {w : Marker} {m k : Markup} {n j : Nat}

lemma IsCalm.nil : IsCalm [] := fun _ h => absurd h List.not_mem_nil

lemma IsCalm.append (hm : IsCalm m) (hk : IsCalm k) : IsCalm (m ++ k) := by
  intro s hs
  rcases List.mem_append.mp hs with hs | hs
  · exact hm s hs
  · exact hk s hs

lemma Counts.nil : Counts w [] 0 := fun _ _ => (Nat.zero_add _).symm

lemma Counts.append (hm : Counts w m n) (hk : Counts w k j) : Counts w (m ++ k) (n + j) := by
  intro hs rest
  have htext : Markup.text (m ++ k) = Markup.text m ++ Markup.text k := List.flatMap_append
  rw [htext, List.append_assoc, hm fun v hv => hs v (List.mem_append_left _ hv),
    hk fun v hv => hs v (List.mem_append_right _ hv), Nat.add_assoc]

/-- **A calm markup brings no markers.** -/
theorem IsCalm.counts (h : IsCalm m) : Counts w m 0 := by
  intro hs rest
  have hcalm : isCalm (Markup.text m) = true := by
    induction m with
    | nil => rfl
    | cons piece m ih =>
        refine isCalm_append ?_ (ih (fun s hmem => h s (List.mem_cons_of_mem _ hmem))
          fun v hv => hs v (List.mem_cons_of_mem _ hv))
        cases piece with
        | fixed s => exact h s List.mem_cons_self
        | slot v => exact hs v List.mem_cons_self
        | pixels i => exact isCalm_of_unmarked (Text.ofInt_unmarked i)
  rw [occurrences_append hcalm, Nat.zero_add]

/-- A literal that begins with a marker brings that one. -/
lemma counts_literal {v : Marker} {c : Char} {cs : List Char}
    (hv : (ofChars (c :: cs)).isOpenedBy v = true) (hcs : isCalm (ofChars cs) = true) :
    Counts w [.fixed (String.ofList (c :: cs))] (if w = v then 1 else 0) := by
  intro _ rest
  have htext : Markup.text [.fixed (String.ofList (c :: cs))] = .char c :: ofChars cs := by
    simp [Markup.text, Piece.text, ofString, ofChars]
  have hw := List.all_eq_true.mp hv w w.mem_all
  rw [htext]
  split at hw
  · next heq =>
      have hp : w.text <+: .char c :: ofChars cs := of_decide_eq_true hw
      rw [occurrences_cons_append hcs (.inl hp), if_pos hp, if_pos heq]
  · next hne =>
      have hno : ¬ w.text <+: .char c :: ofChars cs := (isApart_iff.mp hw).1
      rw [occurrences_cons_append hcs (.inr hw), if_neg hno, if_neg hne]

end Markup

namespace Part

/-- Whenever a part is made, all texts of the compiler in it are calm. -/
def IsCalm (p : Part) : Prop := ∀ m, p = .ok m → Markup.IsCalm m

/-- Whenever a part is made, it brings so many markers of a kind. -/
def Counts (w : Marker) (p : Part) (n : Nat) : Prop := ∀ m, p = .ok m → Markup.Counts w m n

variable {w : Marker} {p : Part} {ps : List Part} {m : Markup} {n : Nat}

@[simp] lemma isCalm_fixed {s : String} : IsCalm (fixed s) ↔ isCalm (ofString s) = true := by
  constructor
  · exact fun h => h _ rfl s List.mem_cons_self
  · rintro h m ⟨⟩ t ht
    cases List.mem_singleton.mp ht
    exact h

@[simp] lemma isCalm_ofValue (v : Value) : IsCalm (ofValue v) := by
  intro m hm s hs
  rw [ofValue_eq_ok hm] at hs
  cases List.mem_singleton.mp hs

@[simp] lemma isCalm_pixels (i : Int) : IsCalm (pixels i) := by
  rintro m ⟨⟩ s hs
  cases List.mem_singleton.mp hs

@[simp] lemma isCalm_tableAttributes : IsCalm tableAttributes :=
  isCalm_fixed.mpr (isCalm_literal rfl)

@[simp] lemma isCalm_ok : IsCalm (.ok m) ↔ Markup.IsCalm m := by
  constructor
  · exact fun h => h _ rfl
  · rintro h _ ⟨⟩
    exact h

/-- A part that is made from what a step gives. -/
lemma IsCalm.after {α : Type} {x : Except Fault α} {part : α → Part}
    (h : ∀ a, x = .ok a → IsCalm (part a)) : IsCalm (x >>= part) := by
  intro m hm
  obtain ⟨a, ha, hm⟩ := bind_eq_ok.mp hm
  exact h a ha m hm

@[simp] lemma isCalm_read (x : Except Fault Value) : IsCalm (x >>= ofValue) :=
  .after fun v _ => isCalm_ofValue v

/-- Parts that are joined are calm if they all are. -/
lemma isCalm_join (h : ∀ p ∈ ps, IsCalm p) : IsCalm (join ps) := by
  induction ps with
  | nil =>
      rintro m ⟨⟩
      exact .nil
  | cons p ps ih =>
      obtain ⟨hp, hps⟩ := List.forall_mem_cons.mp h
      intro m hm
      obtain ⟨front, back, hfront, hback, rfl⟩ := join_cons_eq_ok.mp hm
      exact (hp front hfront).append (ih hps back hback)

lemma IsCalm.counts (h : IsCalm p) : Counts w p 0 := fun m hm => (h m hm).counts

/-- A part that is made already. -/
lemma counts_ok (h : Markup.Counts w m n) : Counts w (.ok m) n := by
  rintro _ ⟨⟩
  exact h

lemma Counts.after {α : Type} {x : Except Fault α} {part : α → Part}
    (h : ∀ a, x = .ok a → Counts w (part a) n) : Counts w (x >>= part) n := by
  intro m hm
  obtain ⟨a, ha, hm⟩ := bind_eq_ok.mp hm
  exact h a ha m hm

/-- **A part among calm ones** that are joined brings all that they bring. -/
theorem Counts.join_around (front back : List Part) (hf : ∀ q ∈ front, IsCalm q) (hp : Counts w p n)
    (hb : ∀ q ∈ back, IsCalm q) : Counts w (join (front ++ p :: back)) n := by
  intro m hm
  obtain ⟨first, rest, hfirst, hrest, rfl⟩ := join_append_eq_ok.mp hm
  obtain ⟨middle, last, hmiddle, hlast, rfl⟩ := join_cons_eq_ok.mp hrest
  have hparts := (isCalm_join hf first hfirst).counts.append
    ((hp middle hmiddle).append (isCalm_join hb last hlast).counts)
  rwa [Nat.zero_add] at hparts

end Part

end Mailshot
