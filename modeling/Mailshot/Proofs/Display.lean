import Mailshot.Proofs.Entity
import Mailshot.Value.Display

/-!
# What single values show

A text field of a configuration is meant to hold a text, but it may hold any single value: a number,
a truth value, null, a date.  None of the others shows a character that markup gives a meaning.

* `Value.isSingle` — the single values.  Bytes are none of them: they show in quotes, with what they
  hold unescaped.
* **`Value.display_unmarked`** — a single value that is no text shows no marks.
* `Binary64.text_unmarked`, `Date.text_unmarked`, `Moment.text_unmarked` — the forms of numbers,
  dates and moments.
-/

namespace Mailshot

open Text Text.Entity

/-! ## Characters of written forms -/

/-- Characters that markup gives no meaning. -/
def Clean (cs : List Char) : Prop := ∀ c ∈ cs, isMark (.char c) = false

instance (cs : List Char) : Decidable (Clean cs) :=
  List.decidableBAll (fun c => isMark (.char c) = false) cs

/-- What holds of all parts and of what separates them. -/
lemma forall_mem_intercalate {α : Type} {P : α → Prop} {separator : List α}
    (h : ∀ a ∈ separator, P a) {parts : List (List α)} :
    (∀ a ∈ List.intercalate separator parts, P a) ↔ ∀ part ∈ parts, ∀ a ∈ part, P a := by
  induction parts with
  | nil => simp
  | cons part parts ih =>
      cases parts with
      | nil => simp
      | cons next parts =>
          rw [List.intercalate_cons_cons, List.forall_mem_append, List.forall_mem_append, ih,
            List.forall_mem_cons (l := next :: parts)]
          exact ⟨fun hall => ⟨hall.1.1, hall.2⟩, fun hall => ⟨⟨hall.1, h⟩, hall.2⟩⟩

namespace Clean

variable {cs ds : List Char}

@[simp] lemma nil : Clean [] := fun _ h => by simp at h

@[simp] lemma cons_iff {c : Char} : Clean (c :: cs) ↔ isMark (.char c) = false ∧ Clean cs := by
  simp [Clean]

@[simp] lemma append_iff : Clean (cs ++ ds) ↔ Clean cs ∧ Clean ds := by
  simp only [Clean, List.mem_append, or_imp, forall_and]

lemma of_subset (h : Clean ds) (hs : ∀ c ∈ cs, c ∈ ds) : Clean cs := fun c hc => h c (hs c hc)

lemma replicate (n : Nat) {c : Char} (h : isMark (.char c) = false) :
    Clean (List.replicate n c) := fun d hd => by
  rw [List.eq_of_mem_replicate hd]
  exact h

lemma digitChar {n : Nat} (h : n < 16) : isMark (.char n.digitChar) = false := by
  revert n
  decide

/-- Digits of a base up to sixteen. -/
lemma digits {b : Nat} (hb : 1 < b ∧ b ≤ 16) (n : Nat) : Clean (Nat.toDigits b n) := by
  induction n using Nat.strongRecOn with
  | ind n ih =>
      rw [Nat.toDigits_eq_if hb.1]
      split
      · exact cons_iff.mpr ⟨digitChar (by omega), nil⟩
      · next hn =>
          have hlast : n % b < b := Nat.mod_lt _ (by omega)
          exact append_iff.mpr ⟨ih _ (Nat.div_lt_self (by omega) hb.1),
            cons_iff.mpr ⟨digitChar (by omega), nil⟩⟩

lemma written {b : Nat} (hb : 1 < b ∧ b ≤ 16) (width n : Nat) :
    Clean (Digits.written b width n) := by
  unfold Digits.written
  exact append_iff.mpr ⟨replicate _ (by decide), digits hb n⟩

end Clean

lemma unmarked_ofChars {cs : List Char} : Unmarked (ofChars cs) ↔ Clean cs := by
  simp [Unmarked, Clean, ofChars]

lemma unmarked_ofString {s : String} : Unmarked (ofString s) ↔ Clean s.toList := unmarked_ofChars

/-! ## Numbers -/

lemma clean_natString (n : Nat) : Clean (toString n).toList := by
  rw [Nat.toString_eq_ofList_toDigits, String.toList_ofList]
  exact Clean.digits (by decide) n

lemma clean_intString (i : Int) : Clean (toString i).toList := by
  cases i with
  | ofNat n => exact clean_natString n
  | negSucc n =>
      show Clean ("-" ++ toString (n + 1)).toList
      rw [String.toList_append]
      exact Clean.append_iff.mpr ⟨by decide, clean_natString _⟩

namespace Decimal

lemma clean_exponentText (exponent : Int) : Clean (exponentText .shown exponent) := by
  unfold exponentText
  simp only [Clean.cons_iff]
  refine ⟨by decide, ?_, Clean.written (by decide) _ _⟩
  split <;> decide

variable {d : Decimal}

lemma clean_positional (h : Clean d.digits) : Clean (d.positional .shown) := by
  unfold positional
  split
  · simp only [Clean.cons_iff, Clean.append_iff]
    exact ⟨by decide, by decide, Clean.replicate _ (by decide), h⟩
  · split
    · simp only [Clean.append_iff]
      exact ⟨⟨h, Clean.replicate _ (by decide)⟩, by decide⟩
    · simp only [Clean.append_iff, Clean.cons_iff]
      exact ⟨h.of_subset fun _ => List.mem_of_mem_take, by decide,
        h.of_subset fun _ => List.mem_of_mem_drop⟩

lemma clean_scientific (h : Clean d.digits) : Clean (d.scientific .shown) := by
  unfold scientific
  split
  · exact Clean.nil
  · next first hd =>
      rw [hd, Clean.cons_iff] at h
      exact Clean.cons_iff.mpr ⟨h.1, clean_exponentText _⟩
  · next first rest _ hd =>
      rw [hd, Clean.cons_iff] at h
      simp only [Clean.cons_iff, Clean.append_iff]
      exact ⟨h.1, by decide, h.2, clean_exponentText _⟩

lemma clean_written (h : Clean d.digits) : Clean (d.written .shown) := by
  simp only [written]
  split
  · exact clean_positional h
  · exact clean_scientific h

end Decimal

namespace Binary64

lemma clean_shortest (mantissa : Nat) (exponent : Int) :
    Clean (shortest mantissa exponent).digits := by
  simp only [shortest]
  cases h : (List.range 17).findSome? _ with
  | none => exact (by decide : Clean ['0'])
  | some d =>
      obtain ⟨_, _, _, -, hd, -⟩ := List.findSome?_eq_some_iff.mp h
      obtain ⟨n, -, hn⟩ := Option.map_eq_some_iff.mp hd
      rw [Option.getD_some, ← hn]
      refine (Clean.digits (b := 10) (by decide) n).of_subset fun c hc => ?_
      exact List.mem_reverse.mp ((List.dropWhile_sublist _).subset (List.mem_reverse.mp hc))

lemma text_unmarked (x : Binary64) : Unmarked (ofString x.text) := by
  unfold text
  rw [unmarked_ofString, String.toList_ofList]
  have hsign (negative : Bool) : Clean (if negative then ['-'] else []) := by
    cases negative <;> decide
  cases x with
  | nan mark => exact (by decide : Clean ['n', 'a', 'n'])
  | infinite negative =>
      exact Clean.append_iff.mpr ⟨hsign _, (by decide : Clean ['i', 'n', 'f'])⟩
  | finite negative mantissa exponent h =>
      refine Clean.append_iff.mpr ⟨hsign _, Decimal.clean_written ?_⟩
      split
      · exact (by decide : Clean ['0'])
      · exact clean_shortest _ _

end Binary64

lemma Number.text_unmarked (x : Number) : Unmarked (ofString x.text) := by
  cases x with
  | int i => exact unmarked_ofString.mpr (clean_intString i)
  | float x => exact x.text_unmarked

lemma Text.ofInt_unmarked (i : Int) : Unmarked (Text.ofInt i) :=
  unmarked_ofString.mpr (clean_intString i)

/-! ## Dates and moments -/

lemma clean_paddedDigits (width n : Nat) : Clean (paddedDigits width n).toList := by
  unfold paddedDigits
  rw [String.toList_ofList]
  exact Clean.written (by decide) width n

lemma Date.clean_text (d : Date) : Clean d.text.toList := by
  unfold Date.text
  simp only [String.toList_append, Clean.append_iff]
  exact ⟨⟨⟨⟨clean_paddedDigits _ _, by decide⟩, clean_paddedDigits _ _⟩, by decide⟩,
    clean_paddedDigits _ _⟩

lemma Date.text_unmarked (d : Date) : Unmarked (ofString d.text) := unmarked_ofString.mpr d.clean_text

lemma Moment.clean_offsetText (minutes : Int) : Clean (offsetText minutes).toList := by
  unfold offsetText
  simp only [String.toList_append, Clean.append_iff]
  refine ⟨⟨⟨?_, clean_paddedDigits _ _⟩, by decide⟩, clean_paddedDigits _ _⟩
  split <;> decide

lemma Moment.text_unmarked (m : Moment) : Unmarked (ofString m.text) := by
  rw [unmarked_ofString]
  unfold Moment.text
  simp only [String.toList_append, Clean.append_iff]
  refine ⟨⟨⟨⟨m.date.clean_text, by decide⟩, ⟨⟨⟨clean_paddedDigits _ _, by decide⟩,
    clean_paddedDigits _ _⟩, by decide⟩, clean_paddedDigits _ _⟩, ?_⟩, ?_⟩
  · split
    · exact Clean.nil
    · rw [String.toList_append, Clean.append_iff]
      exact ⟨by decide, clean_paddedDigits _ _⟩
  · cases m.offset with
    | none => exact Clean.nil
    | some minutes => exact clean_offsetText minutes

lemma clean_listed (parts : List Nat) : Clean (listed parts).toList := by
  have hseparator : Clean ", ".toList := by decide
  unfold listed
  rw [String.toList_intercalate]
  refine (forall_mem_intercalate hseparator).mpr ?_
  simp only [List.map_map, List.forall_mem_map]
  exact fun n _ => clean_paddedDigits 1 n

lemma Date.construction_unmarked (d : Date) : Unmarked (ofString d.construction) := by
  rw [unmarked_ofString]
  unfold construction
  simp only [String.toList_append, Clean.append_iff]
  exact ⟨⟨by decide, clean_listed _⟩, by decide⟩

lemma Moment.clean_offsetConstruction (minutes : Int) :
    Clean (offsetConstruction minutes).toList := by
  unfold offsetConstruction
  split
  · decide
  · simp only [String.toList_append, Clean.append_iff]
    refine ⟨⟨⟨⟨by decide, ?_⟩, by decide⟩, clean_paddedDigits _ _⟩, by decide⟩
    split <;> decide

lemma Moment.construction_unmarked (m : Moment) : Unmarked (ofString m.construction) := by
  rw [unmarked_ofString]
  unfold construction
  simp only [String.toList_append, Clean.append_iff]
  refine ⟨⟨⟨by decide, clean_listed _⟩, ?_⟩, by decide⟩
  cases m.offset with
  | none => exact Clean.nil
  | some minutes =>
      rw [Option.map_some, Option.getD_some, String.toList_append, Clean.append_iff]
      exact ⟨by decide, clean_offsetConstruction minutes⟩

/-! ## Values -/

namespace Value

/-- Whether a value is a text, a number, a truth value, null, a date or a moment. -/
def isSingle : Value → Bool
  | .scalar (.bytes _) => false
  | .scalar _ => true
  | _ => false

/-- **A single value that is no text shows no marks.** -/
theorem display_unmarked {v : Value} (h : v.isSingle = true) (ht : v.text? = none) :
    Unmarked v.display := by
  match v with
  | .null => exact unmarked_ofString.mpr (by decide)
  | .bool true => exact unmarked_ofString.mpr (by decide)
  | .bool false => exact unmarked_ofString.mpr (by decide)
  | .int i => exact Number.text_unmarked _
  | .float x => exact Number.text_unmarked _
  | .scalar (.date d) => exact d.text_unmarked
  | .scalar (.moment m) => exact m.text_unmarked

section Numbers

variable {v : Value}

lemma isSingle_of_number (h : v.number?.isSome = true) : v.isSingle = true := by
  match v with
  | .bool _ | .int _ | .float _ => rfl

lemma text?_of_number (h : v.number?.isSome = true) : v.text? = none := by
  match v with
  | .bool _ | .int _ | .float _ => rfl

/-- A number shows no marks. -/
lemma display_unmarked_of_number (h : v.number?.isSome = true) : Unmarked v.display :=
  display_unmarked (isSingle_of_number h) (text?_of_number h)

end Numbers

end Value

end Mailshot
