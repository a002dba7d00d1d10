import Mailshot.Proofs.Entity

/-!
# Escaping undone

Each pass of escaping has an opposite, which reads the entity of the pass as its character.  The
opposite passes undo the passes when they come in the opposite order, the ampersand last, and they
too are one pass.

* `Entity.substitute`, `Entity.replace_eq_substitute`, `escape_eq_foldl` — every occurrence of a
  word replaced, from the left; a pass of escaping replaces a word of one letter.
* `Text.unescape` — the opposite passes, the last one first.
* **`unescape_eq_decode`** — they read entities as `Entity.decode` does in one pass, on every text.
* `unescape_escape` — they undo escaping.
* **`entity_of_ampersand`** — every ampersand of an escaped text begins an entity.
-/

namespace Mailshot.Text

namespace Entity

/-! ## Words replaced -/

/-- A text with every occurrence of a word that is not empty replaced, from the left.  What is
written in its place is not read again. -/
def substitute (word new : Text) : Text → Text
  | [] => []
  | l :: rest =>
      if word.isPrefixOf (l :: rest) then new ++ substitute word new (rest.drop (word.length - 1))
      else l :: substitute word new rest
termination_by t => t.length

variable {word new t rest : Text} {l : Letter} {c : Char}

@[simp] lemma substitute_nil (word new : Text) : substitute word new [] = [] := by
  rw [substitute]

lemma substitute_append (h : word ≠ []) (new rest : Text) :
    substitute word new (word ++ rest) = new ++ substitute word new rest := by
  obtain ⟨l, more, rfl⟩ := List.exists_cons_of_ne_nil h
  rw [List.cons_append, substitute, if_pos]
  · simp
  · rw [List.isPrefixOf_iff_prefix]
    exact List.prefix_append (l :: more) rest

lemma substitute_cons_of_not_prefix (h : ¬ word <+: l :: rest) (new : Text) :
    substitute word new (l :: rest) = l :: substitute word new rest := by
  rw [substitute, if_neg]
  rwa [List.isPrefixOf_iff_prefix]

/-- A pass of escaping replaces a word of one letter. -/
theorem replace_eq_substitute (c : Char) (entity t : Text) :
    replace c entity t = substitute [.char c] entity t := by
  induction t with
  | nil => simp [replace]
  | cons l rest ih =>
      by_cases hl : l = .char c
      · have happend : substitute [.char c] entity (.char c :: rest) =
            entity ++ substitute [.char c] entity rest := substitute_append (by simp) entity rest
        simp only [replace, hl, if_true, ih, happend]
      · have hprefix : ¬ [.char c] <+: l :: rest := by
          simp [List.cons_prefix_cons, Ne.symm hl]
        simp only [replace, hl, if_false, ih, substitute_cons_of_not_prefix hprefix]

/-- A word that begins a text after a pass began it before, if it does not have the letter that the
pass writes. -/
lemma prefix_of_prefix_substitute {w : Text} (hw : .char c ∉ w)
    (h : w <+: substitute word [.char c] t) : w <+: t := by
  induction w generalizing t with
  | nil => exact List.nil_prefix
  | cons k w ih =>
      simp only [List.mem_cons, not_or] at hw
      cases t with
      | nil => simp at h
      | cons l rest =>
          by_cases hword : word.isPrefixOf (l :: rest) = true
          · rw [substitute, if_pos hword, List.singleton_append, List.cons_prefix_cons] at h
            exact absurd h.1.symm hw.1
          · rw [substitute, if_neg hword, List.cons_prefix_cons] at h
            exact List.cons_prefix_cons.mpr ⟨h.1, ih hw.2 h.2⟩

/-! ## The opposite passes -/

/-- The opposites of the passes of a table, the last one first. -/
def unescapeBy (passes : List (Char × Text)) (t : Text) : Text :=
  passes.foldr (fun pass text => substitute pass.2 [.char pass.1] text) t

lemma unescapeBy_cons_pass (pass : Char × Text) (earlier : List (Char × Text)) (t : Text) :
    unescapeBy (pass :: earlier) t = substitute pass.2 [.char pass.1] (unescapeBy earlier t) := rfl

lemma prefix_of_prefix_unescapeBy {passes : List (Char × Text)} {w : Text}
    (hw : ∀ pass ∈ passes, .char pass.1 ∉ w) (h : w <+: unescapeBy passes t) : w <+: t := by
  induction passes with
  | nil => exact h
  | cons pass earlier ih =>
      obtain ⟨hpass, hearlier⟩ := List.forall_mem_cons.mp hw
      exact ih hearlier (prefix_of_prefix_substitute hpass h)

/-- A letter that no entity begins with stays, and the passes go on behind it.  None of them lets an
entity begin here for the next one: what it writes is in no entity that is still to be read. -/
lemma unescapeBy_cons {passes : List (Char × Text)}
    (hwritten : passes.Pairwise fun pass earlier => .char earlier.1 ∉ pass.2)
    (h : ∀ pass ∈ passes, ¬ pass.2 <+: l :: rest) :
    unescapeBy passes (l :: rest) = l :: unescapeBy passes rest := by
  induction passes with
  | nil => rfl
  | cons pass earlier ih =>
      obtain ⟨hpass, hearlier⟩ := List.pairwise_cons.mp hwritten
      obtain ⟨hnot, hrest⟩ := List.forall_mem_cons.mp h
      have hkept : ¬ pass.2 <+: l :: unescapeBy earlier rest := by
        intro hprefix
        cases hword : pass.2 with
        | nil => exact hnot (hword ▸ List.nil_prefix)
        | cons k w =>
            rw [hword] at hprefix hnot
            obtain ⟨hk, hprefix⟩ := List.cons_prefix_cons.mp hprefix
            refine hnot (List.cons_prefix_cons.mpr ⟨hk, ?_⟩)
            refine prefix_of_prefix_unescapeBy (fun p hp hmem => ?_) hprefix
            exact hpass p hp (hword ▸ List.mem_cons_of_mem k hmem)
      rw [unescapeBy_cons_pass, unescapeBy_cons_pass, ih hearlier hrest,
        substitute_cons_of_not_prefix hkept]

end Entity

open Entity

/-- The passes of escaping as replacements of words. -/
theorem escape_eq_foldl (t : Text) :
    escape t = table.foldl (fun text pass => substitute [.char pass.1] pass.2 text) t := by
  simp only [escape, escapeBy, replace_eq_substitute]

/-- A text with the passes of escaping undone, the last one first. -/
def unescape (t : Text) : Text := unescapeBy table t

/-- **Unescaping in one pass.** -/
theorem unescape_eq_decode (t : Text) : unescape t = decode t := by
  unfold unescape
  fun_induction decode t with
  | case1 rest ih => simp [unescapeBy, table, ofChars, substitute, ← ih]
  | case2 rest ih => simp [unescapeBy, table, ofChars, substitute, ← ih]
  | case3 rest ih => simp [unescapeBy, table, ofChars, substitute, ← ih]
  | case4 rest ih => simp [unescapeBy, table, ofChars, substitute, ← ih]
  | case5 l rest hamp hlt hgt hquot ih =>
      have hwritten : table.Pairwise fun pass earlier => .char earlier.1 ∉ pass.2 := by decide
      rw [unescapeBy_cons hwritten (not_prefix_of_decode hamp hlt hgt hquot), ih]
  | case6 => simp [unescapeBy, table]

/-- **Unescaping undoes escaping.** -/
theorem unescape_escape (t : Text) : unescape (escape t) = t := by
  have hdecode := decode_escape_append t []
  rw [List.append_nil] at hdecode
  rw [unescape_eq_decode, hdecode]
  simp [decode]

/-! ## Ampersands -/

/-- A letter with a meaning in markup is written as an entity, with an ampersand in front and none
behind. -/
lemma encode_of_isMark {l : Letter} (h : isMark l = true) :
    ∃ pass ∈ table, ∃ more, encode l = .char '&' :: more ∧ pass.2 = .char '&' :: more ∧
      .char '&' ∉ more := by
  rcases isMark_iff.mp h with rfl | rfl | rfl | rfl <;> simp [table, encode, ofChars]

lemma suffix_of_suffix_append {l : Letter} {rest more t : Text} (hl : l ∉ more)
    (h : l :: rest <:+ more ++ t) : l :: rest <:+ t := by
  induction more with
  | nil => exact h
  | cons k more ih =>
      simp only [List.mem_cons, not_or] at hl
      rw [List.cons_append, List.suffix_cons_iff] at h
      rcases h with h | h
      · exact absurd (List.cons.inj h).1 hl.1
      · exact ih hl.2 h

/-- **Every ampersand of an escaped text** begins an entity. -/
theorem entity_of_ampersand {t rest : Text} (h : .char '&' :: rest <:+ escape t) :
    ∃ pass ∈ table, pass.2 <+: .char '&' :: rest := by
  rw [escape_eq_flatMap] at h
  induction t with
  | nil => simp at h
  | cons l t ih =>
      rw [List.flatMap_cons] at h
      by_cases hl : isMark l = true
      · obtain ⟨pass, hpass, more, hencode, hentity, hmore⟩ := encode_of_isMark hl
        rw [hencode, List.cons_append, List.suffix_cons_iff] at h
        rcases h with h | h
        · refine ⟨pass, hpass, ?_⟩
          rw [hentity, h]
          exact List.prefix_append (.char '&' :: more) _
        · exact ih (suffix_of_suffix_append hmore h)
      · rw [encode_of_not_mark (Bool.eq_false_iff.mpr hl)] at h
        refine ih (suffix_of_suffix_append ?_ h)
        rw [List.mem_singleton]
        rintro rfl
        exact hl rfl

end Mailshot.Text
