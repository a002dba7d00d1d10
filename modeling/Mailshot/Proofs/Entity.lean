import Mathlib.Data.List.Basic
import Mathlib.Tactic.Common
import Mailshot.Text.Entity

/-!
# Entities

Four characters have a meaning in markup, and escaping writes each of them as an entity.

* `Entity.encode`, **`escape_eq_flatMap`** — the four passes of escaping are one pass that writes
  every letter by itself: no pass meets what an earlier one wrote.
* `Entity.decode`, **`decode_escape_append`** — one pass from the left that reads entities gives an
  escaped text back, whatever follows it.
* `Unmarked` — texts without any of the four; escaping leaves them alone and gives none that was not
  there (`escape_eq_iff_of_unmarked`).
* `Transparent` — fixed text that decoding leaves alone; it can be checked character by character
  (`transparent_ofList`).
* `hasEntity`, **`decode_append_of_not_hasEntity`**, **`length_decode_lt`** — texts that nobody escaped
  are read as they stand where no entity stands in them, and as shorter ones where one does.
-/

namespace Mailshot.Text

namespace Entity

/-! ## One pass -/

/-- Whether a letter has a meaning in markup. -/
def isMark : Letter → Bool
  | .char c => c = '&' || c = '<' || c = '>' || c = '"'
  | .half _ => false

lemma isMark_iff {l : Letter} :
    isMark l = true ↔ l = .char '&' ∨ l = .char '<' ∨ l = .char '>' ∨ l = .char '"' := by
  cases l with
  | char c => simp [isMark, or_assoc]
  | half n => simp [isMark]

/-- A letter as escaping writes it. -/
def encode : Letter → Text
  | .char '&' => ofChars ['&', 'a', 'm', 'p', ';']
  | .char '<' => ofChars ['&', 'l', 't', ';']
  | .char '>' => ofChars ['&', 'g', 't', ';']
  | .char '"' => ofChars ['&', 'q', 'u', 'o', 't', ';']
  | l => [l]

lemma encode_of_not_mark {l : Letter} (h : isMark l = false) : encode l = [l] := by
  unfold encode
  split <;> simp_all [isMark]

lemma replace_eq_flatMap (c : Char) (entity t : Text) :
    replace c entity t = t.flatMap fun l => if l = .char c then entity else [l] := by
  induction t with
  | nil => rfl
  | cons l t ih =>
      simp only [replace, List.flatMap_cons, ih]
      split <;> simp

/-- The text with every entity of the four characters read as its character, from the left. -/
def decode : Text → Text
  | .char '&' :: .char 'a' :: .char 'm' :: .char 'p' :: .char ';' :: rest => .char '&' :: decode rest
  | .char '&' :: .char 'l' :: .char 't' :: .char ';' :: rest => .char '<' :: decode rest
  | .char '&' :: .char 'g' :: .char 't' :: .char ';' :: rest => .char '>' :: decode rest
  | .char '&' :: .char 'q' :: .char 'u' :: .char 'o' :: .char 't' :: .char ';' :: rest =>
      .char '"' :: decode rest
  | l :: rest => l :: decode rest
  | [] => []

lemma decode_cons_of_ne {l : Letter} (h : l ≠ .char '&') (rest : Text) :
    decode (l :: rest) = l :: decode rest := by
  rw [decode] <;> simp_all

/-- An ampersand that no entity begins with stands for itself. -/
lemma decode_ampersand {l : Letter}
    (h : l ≠ .char 'a' ∧ l ≠ .char 'l' ∧ l ≠ .char 'g' ∧ l ≠ .char 'q') (rest : Text) :
    decode (.char '&' :: l :: rest) = .char '&' :: decode (l :: rest) := by
  rw [decode] <;> simp_all

lemma decode_encode_append (l : Letter) (rest : Text) :
    decode (encode l ++ rest) = l :: decode rest := by
  unfold encode
  split
  · simp [ofChars, decode]
  · simp [ofChars, decode]
  · simp [ofChars, decode]
  · simp [ofChars, decode]
  · next h _ _ _ => exact decode_cons_of_ne h rest

end Entity

open Entity

/-- **Escaping in one pass.** -/
theorem escape_eq_flatMap (t : Text) : escape t = t.flatMap encode := by
  induction t with
  | nil => rfl
  | cons l t ih =>
      simp only [escape, escapeBy, table, List.foldl_cons, List.foldl_nil, replace_eq_flatMap,
        List.flatMap_cons, List.flatMap_append] at ih ⊢
      rw [ih]
      congr 1
      by_cases h₁ : l = .char '&'
      · subst h₁; rfl
      by_cases h₂ : l = .char '<'
      · subst h₂; rfl
      by_cases h₃ : l = .char '>'
      · subst h₃; rfl
      by_cases h₄ : l = .char '"'
      · subst h₄; rfl
      have hl : encode l = [l] := by
        unfold encode
        split <;> simp_all
      simp [h₁, h₂, h₃, h₄, hl]

/-! ## Decoding -/

/-- **Decoding what escaping wrote** gives the text back, and goes on with what follows. -/
theorem decode_escape_append (t rest : Text) : decode (escape t ++ rest) = t ++ decode rest := by
  rw [escape_eq_flatMap]
  induction t with
  | nil => rfl
  | cons l t ih =>
      rw [List.flatMap_cons, List.append_assoc, decode_encode_append, ih]
      rfl

/-- Escaped texts are different where the texts are. -/
lemma escape_injective {s t : Text} (h : escape s = escape t) : s = t := by
  have hs := decode_escape_append s []
  rw [h, decode_escape_append] at hs
  simpa [decode] using hs.symm

@[simp] lemma escape_isEmpty (t : Text) : (escape t).isEmpty = t.isEmpty := by
  cases t with
  | nil => rfl
  | cons l t =>
      rw [escape_eq_flatMap, List.flatMap_cons]
      unfold encode
      split <;> rfl

/-! ## Texts without marks -/

/-- A text without any of the characters that markup gives a meaning. -/
def Unmarked (t : Text) : Prop := ∀ l ∈ t, isMark l = false

instance (t : Text) : Decidable (Unmarked t) :=
  List.decidableBAll (fun l => isMark l = false) t

lemma Unmarked.append {s t : Text} (hs : Unmarked s) (ht : Unmarked t) : Unmarked (s ++ t) :=
  fun l hl => (List.mem_append.mp hl).elim (hs l) (ht l)

lemma escape_of_unmarked {t : Text} (h : Unmarked t) : escape t = t := by
  rw [escape_eq_flatMap]
  induction t with
  | nil => rfl
  | cons l t ih =>
      rw [List.flatMap_cons, encode_of_not_mark (h l List.mem_cons_self),
        ih fun k hk => h k (List.mem_cons_of_mem _ hk)]
      rfl

/-- A name without marks is known again after escaping, and nothing else becomes it. -/
lemma escape_eq_iff_of_unmarked {s t : Text} (h : Unmarked s) : escape t = s ↔ t = s := by
  constructor
  · intro ht
    exact escape_injective (ht.trans (escape_of_unmarked h).symm)
  · rintro rfl
    exact escape_of_unmarked h

lemma decode_append_of_unmarked {t : Text} (h : Unmarked t) (rest : Text) :
    decode (t ++ rest) = t ++ decode rest := by
  have := decode_escape_append t rest
  rwa [escape_of_unmarked h] at this

/-- An entity begins with an ampersand, and has no other of the four characters. -/
lemma mem_encode {k l : Letter} (h : l ∈ encode k) (hm : isMark l = true) : l = .char '&' := by
  by_cases hk : isMark k = true
  · rcases isMark_iff.mp hk with rfl | rfl | rfl | rfl <;>
      simp only [encode, ofChars, List.map_cons, List.map_nil, List.mem_cons, List.not_mem_nil,
        or_false] at h
    · rcases h with rfl | rfl | rfl | rfl | rfl <;> simp [isMark] at hm ⊢
    · rcases h with rfl | rfl | rfl | rfl <;> simp [isMark] at hm ⊢
    · rcases h with rfl | rfl | rfl | rfl <;> simp [isMark] at hm ⊢
    · rcases h with rfl | rfl | rfl | rfl | rfl | rfl <;> simp [isMark] at hm ⊢
  · rw [encode_of_not_mark (Bool.eq_false_iff.mpr hk), List.mem_singleton] at h
    rw [h] at hm
    exact absurd hm hk

/-- What is left of the four characters in an escaped text is the ampersand. -/
lemma mem_escape {t : Text} {l : Letter} (h : l ∈ escape t) (hm : isMark l = true) :
    l = .char '&' := by
  rw [escape_eq_flatMap, List.mem_flatMap] at h
  obtain ⟨k, -, hk⟩ := h
  exact mem_encode hk hm

/-! ## Fixed text -/

/-- Text that decoding leaves alone, whatever follows it. -/
def Transparent (s : String) : Prop :=
  ∀ rest : Text, decode (ofString s ++ rest) = ofString s ++ decode rest

lemma Transparent.append {s t : String} (hs : Transparent s) (ht : Transparent t) :
    Transparent (s ++ t) := by
  intro rest
  have happend : ofString (s ++ t) = ofString s ++ ofString t := by
    simp [ofString, ofChars]
  rw [happend, List.append_assoc, hs, ht, List.append_assoc]

lemma transparent_of_unmarked {s : String} (h : Unmarked (ofString s)) : Transparent s :=
  decode_append_of_unmarked h

/-- Whether no ampersand could begin an entity. -/
def isTransparent : List Char → Bool
  | '&' :: d :: rest =>
      (d != 'a' && d != 'l' && d != 'g' && d != 'q') && isTransparent (d :: rest)
  | ['&'] => false
  | _ :: rest => isTransparent rest
  | [] => true

lemma decode_append_of_isTransparent {cs : List Char} (h : isTransparent cs = true)
    (rest : Text) : decode (ofChars cs ++ rest) = ofChars cs ++ decode rest := by
  fun_induction isTransparent cs with
  | case1 d cs ih =>
      simp only [Bool.and_eq_true, bne_iff_ne] at h
      have hd : decode (.char '&' :: .char d :: (ofChars cs ++ rest))
          = .char '&' :: decode (.char d :: (ofChars cs ++ rest)) :=
        decode_ampersand (by simp [h.1]) _
      have := ih h.2
      simp only [ofChars, List.map_cons, List.cons_append] at hd this ⊢
      rw [hd, this]
  | case2 => exact absurd h Bool.false_ne_true
  | case3 c cs h₁ h₂ ih =>
      have hc : (Letter.char c) ≠ .char '&' := by
        intro hc
        cases hc
        cases cs with
        | nil => exact h₂ rfl rfl
        | cons d cs => exact h₁ d cs rfl rfl
      have := ih h
      simp only [ofChars, List.map_cons, List.cons_append] at this ⊢
      rw [decode_cons_of_ne hc, this]
  | case4 => rfl

/-- Fixed text is checked on its characters. -/
lemma transparent_ofList {cs : List Char} (h : isTransparent cs = true) :
    Transparent (String.ofList cs) := by
  intro rest
  simp only [ofString, String.toList_ofList]
  exact decode_append_of_isTransparent h rest

/-! ## Texts without entities -/

/-- Whether the entity of one of the four characters stands in a text. -/
def hasEntity : Text → Bool
  | [] => false
  | l :: rest => table.any (fun pass => pass.2.isPrefixOf (l :: rest)) || hasEntity rest

lemma hasEntity_append_left {s : Text} (h : hasEntity s = true) (t : Text) :
    hasEntity (s ++ t) = true := by
  induction s with
  | nil => exact absurd h Bool.false_ne_true
  | cons l s ih =>
      simp only [hasEntity, List.cons_append, Bool.or_eq_true, List.any_eq_true,
        List.isPrefixOf_iff_prefix] at h ⊢
      rcases h with ⟨pass, hpass, hp⟩ | h
      · exact .inl ⟨pass, hpass, hp.trans (List.prefix_append (l :: s) t)⟩
      · exact .inr (ih h)

lemma hasEntity_append_right (s : Text) {t : Text} (h : hasEntity t = true) :
    hasEntity (s ++ t) = true := by
  induction s with
  | nil => exact h
  | cons l s ih => simp [hasEntity, ih]

/-- A letter that no entity begins with stands for itself. -/
lemma decode_cons_of_not_prefix {l : Letter} {rest : Text}
    (h : ∀ pass ∈ table, ¬ pass.2 <+: l :: rest) : decode (l :: rest) = l :: decode rest := by
  rw [decode]
  · rintro back rfl rfl
    exact h ('&', _) (by simp [table]; rfl) ⟨back, rfl⟩
  · rintro back rfl rfl
    exact h ('<', _) (by simp [table]; rfl) ⟨back, rfl⟩
  · rintro back rfl rfl
    exact h ('>', _) (by simp [table]; rfl) ⟨back, rfl⟩
  · rintro back rfl rfl
    exact h ('"', _) (by simp [table]; rfl) ⟨back, rfl⟩

/-- Where decoding reads a letter as itself, no entity begins. -/
lemma not_prefix_of_decode {l : Letter} {rest : Text}
    (hamp : ∀ back, l = .char '&' →
      rest = .char 'a' :: .char 'm' :: .char 'p' :: .char ';' :: back → False)
    (hlt : ∀ back, l = .char '&' → rest = .char 'l' :: .char 't' :: .char ';' :: back → False)
    (hgt : ∀ back, l = .char '&' → rest = .char 'g' :: .char 't' :: .char ';' :: back → False)
    (hquot : ∀ back, l = .char '&' →
      rest = .char 'q' :: .char 'u' :: .char 'o' :: .char 't' :: .char ';' :: back → False) :
    ∀ pass ∈ table, ¬ pass.2 <+: l :: rest := by
  simp only [table, ofChars, List.map_cons, List.map_nil, List.forall_mem_cons,
    List.cons_prefix_cons]
  refine ⟨?_, ?_, ?_, ?_, fun _ hp => absurd hp List.not_mem_nil⟩
  · rintro ⟨rfl, back, hback⟩
    exact hamp back rfl hback.symm
  · rintro ⟨rfl, back, hback⟩
    exact hlt back rfl hback.symm
  · rintro ⟨rfl, back, hback⟩
    exact hgt back rfl hback.symm
  · rintro ⟨rfl, back, hback⟩
    exact hquot back rfl hback.symm

/-- An entity that begins in a text without entities ends behind it, and so holds all that is left of
the text. -/
lemma not_prefix_append {t rest : Text} {pass : Char × Text} {l : Letter}
    (hpass : pass ∈ table) (ht : hasEntity t = false) (hmem : l ∈ t) (hl : l ∉ pass.2) :
    ¬ pass.2 <+: t ++ rest := by
  intro hp
  rcases List.prefix_or_prefix_of_prefix hp (List.prefix_append t rest) with hp | hp
  · cases t with
    | nil => exact absurd hmem List.not_mem_nil
    | cons k t =>
        simp only [hasEntity, Bool.or_eq_false_iff, List.any_eq_false,
          List.isPrefixOf_iff_prefix] at ht
        exact ht.1 pass hpass hp
  · exact hl (hp.subset hmem)

/-- **A text without entities is read as it stands**, whatever follows it, if it ends in a letter that
no entity has. -/
theorem decode_append_of_not_hasEntity {t : Text} {l : Letter} (hl : ∀ pass ∈ table, l ∉ pass.2)
    (h : hasEntity (t ++ [l]) = false) (rest : Text) :
    decode (t ++ [l] ++ rest) = t ++ [l] ++ decode rest := by
  induction t with
  | nil =>
      refine decode_cons_of_not_prefix ?_
      intro pass hpass
      exact not_prefix_append hpass h List.mem_cons_self (hl pass hpass)
  | cons k t ih =>
      have hk : decode (k :: (t ++ [l] ++ rest)) = k :: decode (t ++ [l] ++ rest) := by
        refine decode_cons_of_not_prefix ?_
        intro pass hpass
        exact not_prefix_append hpass h (by simp) (hl pass hpass)
      simp only [List.cons_append, hasEntity, Bool.or_eq_false_iff] at h ⊢
      rw [hk, ih h.2]

lemma length_decode_le (t : Text) : (decode t).length ≤ t.length := by
  fun_induction decode t with
  | case1 rest ih | case2 rest ih | case3 rest ih | case4 rest ih =>
      simp only [List.length_cons]
      omega
  | case5 l rest _ _ _ _ ih =>
      simp only [List.length_cons]
      omega
  | case6 => exact Nat.le_refl _

/-- **A text in which an entity stands is read as a shorter one.** -/
theorem length_decode_lt {t : Text} (h : hasEntity t = true) : (decode t).length < t.length := by
  fun_induction decode t with
  | case1 rest | case2 rest | case3 rest | case4 rest =>
      have hle := length_decode_le rest
      simp only [List.length_cons]
      omega
  | case5 l rest hamp hlt hgt hquot ih =>
      rw [hasEntity, Bool.or_eq_true] at h
      rcases h with h | h
      · -- the entity that begins here would be one of the four that were read
        simp only [List.any_eq_true, List.isPrefixOf_iff_prefix] at h
        obtain ⟨pass, hpass, hprefix⟩ := h
        exact absurd hprefix (not_prefix_of_decode hamp hlt hgt hquot pass hpass)
      · have hrest := ih h
        simp only [List.length_cons]
        omega
  | case6 => exact absurd h Bool.false_ne_true

end Mailshot.Text
