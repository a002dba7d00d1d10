import Mailshot.Proofs.Delimiters

/-!
# What escaping contains

Escaping reaches every text inside of a value.  A list or a mapping shows more than its texts: the
keys, which are not escaped, and quotes around every text, which are put there after escaping.  So a
collection in the place of a text may show delimiters all the same.

* `Text.undelimited_quote` — a quoted text shows no delimiters if it has none and no apostrophe: for
  an apostrophe it is put in double quotes.
* `Value.isData` — the values that are built of single values, lists and mappings.
* `Value.isSealed`, `Value.isContained` — those of them in which no text has an apostrophe and no key
  an apostrophe or a delimiter; a text by itself may hold anything.
* **`Value.undelimited_display_escape_iff`** — what such data shows once it is escaped.
* **`Document.contained`** — the delimiters of an escaped document whose texts are contained are those
  of the compiler's own text.
* `Document.not_contained` — a key and an apostrophe that are not contained.
-/

namespace Mailshot

open Text Text.Entity

/-! ## Quoted texts -/

namespace Text

instance (t : Text) : Decidable (Undelimited t) :=
  List.decidableBAll (fun l => isDelimiter l = false) t

@[simp] lemma undelimited_append {s t : Text} :
    Undelimited (s ++ t) ↔ Undelimited s ∧ Undelimited t := List.forall_mem_append

lemma undelimited_ofChars {cs : List Char} :
    Undelimited (ofChars cs) ↔ ∀ c ∈ cs, isDelimiter (.char c) = false := List.forall_mem_map

lemma undelimited_of_clean {cs : List Char} (h : Clean cs) :
    ∀ c ∈ cs, isDelimiter (.char c) = false :=
  undelimited_ofChars.mp (undelimited_of_unmarked (unmarked_ofChars.mpr h))

namespace Quoted

lemma clean_codeEscape (code : Nat) : Clean (codeEscape code) := by
  have hletter : Clean ['\\', 'x', 'u', 'U'] := by decide
  unfold codeEscape
  split
  · exact Clean.cons_iff.mpr ⟨by decide, Clean.cons_iff.mpr
      ⟨hletter _ (by decide), Clean.written (by decide) _ _⟩⟩
  · split
    · exact Clean.cons_iff.mpr ⟨by decide, Clean.cons_iff.mpr
        ⟨hletter _ (by decide), Clean.written (by decide) _ _⟩⟩
    · exact Clean.cons_iff.mpr ⟨by decide, Clean.cons_iff.mpr
        ⟨hletter _ (by decide), Clean.written (by decide) _ _⟩⟩

/-- A character brings delimiters into a quoted form exactly if it is one. -/
lemma encodeChar_undelimited {quote c : Char} :
    (∀ d ∈ encodeChar isPrintable quote c, isDelimiter (.char d) = false) ↔
      isDelimiter (.char c) = false := by
  by_cases hc : isDelimiter (.char c) = true
  · -- a delimiter is printable, and is shown as it is or behind a backslash
    have hself : c ∈ encodeChar isPrintable quote c := by
      simp only [isDelimiter, Bool.or_eq_true, decide_eq_true_eq] at hc
      rcases hc with (rfl | rfl) | rfl <;>
        · unfold encodeChar
          split
          · exact List.mem_cons_of_mem _ List.mem_cons_self
          · exact List.mem_cons_self
    exact ⟨fun h => h c hself, fun h => absurd (hc.symm.trans h) (by decide)⟩
  · have hc := (Bool.not_eq_true _).mp hc
    refine iff_of_true ?_ hc
    unfold encodeChar
    split_ifs
    · exact List.forall_mem_cons.mpr ⟨by decide, List.forall_mem_singleton.mpr hc⟩
    · exact undelimited_of_clean (by decide)
    · exact undelimited_of_clean (by decide)
    · exact undelimited_of_clean (by decide)
    · exact List.forall_mem_singleton.mpr hc
    · exact undelimited_of_clean (clean_codeEscape _)

lemma encodeLetter_undelimited {quote : Char} {l : Letter} :
    (∀ d ∈ encodeLetter quote l, isDelimiter (.char d) = false) ↔ isDelimiter l = false := by
  cases l with
  | char c => exact encodeChar_undelimited
  | half n => exact iff_of_true (undelimited_of_clean (clean_codeEscape _)) rfl

/-- The quotes are no delimiters unless the text has an apostrophe and no quote. -/
lemma mark_undelimited {t : Text} (h : Undelimited t) :
    isDelimiter (.char (mark t)) = false ↔ .char '\'' ∉ t := by
  have hquote : .char '"' ∉ t := fun hq => absurd (h _ hq) (by decide)
  unfold mark
  by_cases ha : .char '\'' ∈ t
  · simp [ha, hquote, isDelimiter]
  · simp [ha, isDelimiter]

end Quoted

/-- **A quoted text shows no delimiters** exactly if it has none and no apostrophe. -/
theorem undelimited_quote {t : Text} : Undelimited (quote t) ↔ Undelimited t ∧ .char '\'' ∉ t := by
  have hinner : (∀ c ∈ t.flatMap (Quoted.encodeLetter (Quoted.mark t)),
      isDelimiter (.char c) = false) ↔ Undelimited t := by
    rw [List.forall_mem_flatMap]
    exact forall₂_congr fun _ _ => Quoted.encodeLetter_undelimited
  rw [quote, undelimited_ofChars, Quoted.encode, List.forall_mem_cons, List.forall_mem_append,
    List.forall_mem_singleton, hinner]
  constructor
  · rintro ⟨hmark, h, -⟩
    exact ⟨h, (Quoted.mark_undelimited h).mp hmark⟩
  · rintro ⟨h, ha⟩
    have hmark := (Quoted.mark_undelimited h).mpr ha
    exact ⟨hmark, h, hmark⟩

/-- Escaping writes no apostrophe and leaves all of them. -/
lemma apostrophe_mem_escape {t : Text} : .char '\'' ∈ escape t ↔ .char '\'' ∈ t := by
  have hletter (l : Letter) : .char '\'' ∈ encode l ↔ l = .char '\'' := by
    by_cases hm : isMark l = true
    · rcases isMark_iff.mp hm with rfl | rfl | rfl | rfl <;> decide
    · rw [encode_of_not_mark ((Bool.not_eq_true _).mp hm), List.mem_singleton, eq_comm]
  simp [escape_eq_flatMap, hletter]

lemma undelimited_quote_escape {t : Text} : Undelimited (quote (escape t)) ↔ .char '\'' ∉ t := by
  rw [undelimited_quote, apostrophe_mem_escape]
  exact and_iff_right (undelimited_escape t)

end Text

/-! ## Data -/

/-- A single value that is no text shows no delimiters, by itself and inside a collection. -/
lemma Scalar.undelimited_of_text?_eq_none {s : Scalar} (h : (Value.scalar s).isSingle = true)
    (ht : (Value.scalar s).text? = none) : Undelimited s.display ∧ Undelimited s.inspect := by
  have hdisplay : Undelimited s.display := undelimited_of_unmarked (Value.display_unmarked h ht)
  refine ⟨hdisplay, ?_⟩
  cases s with
  | date d => exact undelimited_of_unmarked d.construction_unmarked
  | moment m => exact undelimited_of_unmarked m.construction_unmarked
  | text t => cases ht
  | bytes b => cases h
  | null | bool _ | int _ | float _ => exact hdisplay

namespace Value

mutual

/-- Whether a value is built of single values, lists and mappings. -/
def isData : Value → Bool
  | .scalar s => isSingle (.scalar s)
  | .list items => allData items
  | .map fields => allFieldsData fields
  | _ => false

/-- Whether all items of a list are so built. -/
def allData : List Value → Bool
  | [] => true
  | item :: rest => isData item && allData rest

/-- Whether all keys and values of a mapping are so built. -/
def allFieldsData : List (Scalar × Value) → Bool
  | [] => true
  | (key, value) :: rest => isSingle (.scalar key) && isData value && allFieldsData rest

end

/-- Whether a text, as a collection shows it, has single quotes; any other single value has none. -/
def isQuotable : Scalar → Bool
  | .text t => !t.contains (.char '\'')
  | s => isSingle (.scalar s)

/-- Whether a key shows no delimiters: it is not escaped. -/
def isQuotableKey (key : Scalar) : Bool := isQuotable key && decide (Undelimited key.display)

mutual

/-- Whether no text inside a value has an apostrophe, and no key an apostrophe or a delimiter. -/
def isSealed : Value → Bool
  | .scalar s => isQuotable s
  | .list items => allSealed items
  | .map fields => allFieldsSealed fields
  | _ => false

/-- The same of all items of a list. -/
def allSealed : List Value → Bool
  | [] => true
  | item :: rest => isSealed item && allSealed rest

/-- The same of all fields of a mapping. -/
def allFieldsSealed : List (Scalar × Value) → Bool
  | [] => true
  | (key, value) :: rest => isQuotableKey key && isSealed value && allFieldsSealed rest

end

/-- Whether a value is contained: a single value is, and any other data that is sealed. -/
def isContained : Value → Bool
  | .scalar s => isSingle (.scalar s)
  | v => v.isSealed

lemma isSingle_of_isQuotable {s : Scalar} (h : isQuotable s = true) : isSingle (.scalar s) = true := by
  cases s with
  | text t => rfl
  | null | bool _ | int _ | float _ | bytes _ | date _ | moment _ => exact h

mutual

lemma isData_of_isSealed : ∀ {v : Value}, v.isSealed = true → v.isData = true
  | .scalar _, h => isSingle_of_isQuotable h
  | .list _, h => allData_of_allSealed h
  | .map _, h => allFieldsData_of_allFieldsSealed h

lemma allData_of_allSealed : ∀ {items : List Value}, allSealed items = true → allData items = true
  | [], _ => rfl
  | _ :: _, h =>
      have hparts := Bool.and_eq_true_iff.mp h
      Bool.and_eq_true_iff.mpr ⟨isData_of_isSealed hparts.1, allData_of_allSealed hparts.2⟩

lemma allFieldsData_of_allFieldsSealed : ∀ {fields : List (Scalar × Value)},
    allFieldsSealed fields = true → allFieldsData fields = true
  | [], _ => rfl
  | (_, _) :: _, h =>
      have hparts := Bool.and_eq_true_iff.mp h
      have hfirst := Bool.and_eq_true_iff.mp hparts.1
      Bool.and_eq_true_iff.mpr ⟨Bool.and_eq_true_iff.mpr
        ⟨isSingle_of_isQuotable (Bool.and_eq_true_iff.mp hfirst.1).1, isData_of_isSealed hfirst.2⟩,
        allFieldsData_of_allFieldsSealed hparts.2⟩

end

lemma isData_of_isContained {v : Value} (h : v.isContained = true) : v.isData = true := by
  cases v with
  | scalar s => exact h
  | list _ | map _ | pair _ _ | set _ | again _ => exact isData_of_isSealed h

mutual

/-- Data has no sets. -/
lemma isRigid_of_isData : ∀ {v : Value}, v.isData = true → v.isRigid = true
  | .scalar _, _ => rfl
  | .list _, h => allRigid_of_allData h
  | .map _, h => allFieldsRigid_of_allFieldsData h

lemma allRigid_of_allData : ∀ {items : List Value}, allData items = true → allRigid items = true
  | [], _ => rfl
  | _ :: _, h =>
      have hparts := Bool.and_eq_true_iff.mp h
      Bool.and_eq_true_iff.mpr ⟨isRigid_of_isData hparts.1, allRigid_of_allData hparts.2⟩

lemma allFieldsRigid_of_allFieldsData : ∀ {fields : List (Scalar × Value)},
    allFieldsData fields = true → allFieldsRigid fields = true
  | [], _ => rfl
  | (_, _) :: _, h =>
      have hparts := Bool.and_eq_true_iff.mp h
      Bool.and_eq_true_iff.mpr ⟨isRigid_of_isData (Bool.and_eq_true_iff.mp hparts.1).2,
        allFieldsRigid_of_allFieldsData hparts.2⟩

end

/-! ## What data shows -/

/-- An escaped text or another single value inside a collection. -/
lemma undelimited_inspect_scalar {s : Scalar} (h : isSingle (.scalar s) = true) :
    Undelimited (Value.scalar s).escape.inspect ↔ isQuotable s = true := by
  cases s with
  | text t =>
      have hquotable : isQuotable (.text t) = true ↔ .char '\'' ∉ t := by simp [isQuotable]
      rw [hquotable]
      exact undelimited_quote_escape
  | bytes b => cases h
  | null | bool _ | int _ | float _ | date _ | moment _ =>
      exact iff_of_true (Scalar.undelimited_of_text?_eq_none h rfl).2 rfl

/-- A key. -/
lemma undelimited_inspect_key {key : Scalar} (h : isSingle (.scalar key) = true) :
    Undelimited key.inspect ↔ isQuotableKey key = true := by
  unfold isQuotableKey
  rw [Bool.and_eq_true_iff, decide_eq_true_eq]
  cases key with
  | text t =>
      have hquotable : isQuotable (.text t) = true ↔ .char '\'' ∉ t := by simp [isQuotable]
      rw [hquotable, and_comm]
      exact undelimited_quote
  | bytes b => cases h
  | null | bool _ | int _ | float _ | date _ | moment _ =>
      obtain ⟨hdisplay, hinspect⟩ := Scalar.undelimited_of_text?_eq_none h rfl
      exact iff_of_true hinspect ⟨rfl, hdisplay⟩

mutual

/-- **What data shows inside a collection**, once it is escaped. -/
theorem undelimited_inspect_escape_iff : ∀ {v : Value}, v.isData = true →
    (Undelimited v.escape.inspect ↔ v.isSealed = true)
  | .scalar _, h => undelimited_inspect_scalar h
  | .list items, h => by
      have hdata : allData items = true := h
      have hitems := undelimited_inspectItems_iff hdata
      have hbrackets : Undelimited "[" ∧ Undelimited "]" := by decide
      simp only [escape, inspect, isSealed, undelimited_append, hbrackets, true_and, and_true,
        ← hitems]
      exact forall_mem_intercalate (by decide)
  | .map fields, h => by
      have hdata : allFieldsData fields = true := h
      have hfields := undelimited_inspectFields_iff hdata
      have hbraces : Undelimited "\x7b" ∧ Undelimited "\x7d" := by decide
      simp only [escape, inspect, isSealed, undelimited_append, hbraces, true_and, and_true,
        ← hfields]
      exact forall_mem_intercalate (by decide)

theorem undelimited_inspectItems_iff : ∀ {items : List Value}, allData items = true →
    ((∀ t ∈ inspectItems (escapeItems items), Undelimited t) ↔ allSealed items = true)
  | [], _ => by simp [escapeItems, inspectItems, allSealed]
  | _ :: _, h => by
      obtain ⟨hfirst, hrest⟩ := Bool.and_eq_true_iff.mp h
      rw [escapeItems, inspectItems, List.forall_mem_cons, undelimited_inspect_escape_iff hfirst,
        undelimited_inspectItems_iff hrest, allSealed, Bool.and_eq_true_iff]

theorem undelimited_inspectFields_iff : ∀ {fields : List (Scalar × Value)},
    allFieldsData fields = true →
      ((∀ t ∈ inspectFields (escapeFields fields), Undelimited t) ↔ allFieldsSealed fields = true)
  | [], _ => by simp [escapeFields, inspectFields, allFieldsSealed]
  | (_, _) :: _, h => by
      obtain ⟨hfirst, hrest⟩ := Bool.and_eq_true_iff.mp h
      obtain ⟨hkey, hvalue⟩ := Bool.and_eq_true_iff.mp hfirst
      have hcolon : Undelimited ": " := by decide
      rw [escapeFields, inspectFields, List.forall_mem_cons, undelimited_append, undelimited_append,
        undelimited_inspect_key hkey, undelimited_inspect_escape_iff hvalue,
        undelimited_inspectFields_iff hrest, allFieldsSealed, Bool.and_eq_true_iff,
        Bool.and_eq_true_iff, and_iff_left hcolon]

end

/-- **What data shows** once it is escaped has no delimiters exactly if it is contained. -/
theorem undelimited_display_escape_iff {v : Value} (h : v.isData = true) :
    Undelimited v.escape.display ↔ v.isContained = true := by
  match v, h with
  | .scalar s, h => exact iff_of_true (undelimited_display_escape h) h
  | .list _, h => exact undelimited_inspect_escape_iff h
  | .map _, h => exact undelimited_inspect_escape_iff h

end Value

/-! ## Documents -/

/-- The compiler's own text in a piece. -/
def Piece.fixedText : Piece → Text
  | .fixed text => text
  | .slot _ => []
  | .pixels _ => []

/-- Whether a piece is a slot that shows a text. -/
def Piece.shows (t : Text) : Piece → Bool
  | .slot v => decide (v.display = t)
  | .fixed _ | .pixels _ => false

lemma Piece.text_of_shows {t : Text} {p : Piece} (h : p.shows t = true) : p.text = t := by
  cases p with
  | slot v => exact of_decide_eq_true h
  | fixed s => cases h
  | pixels n => cases h

/-- Where no slot shows delimiters, those of a markup are in its fixed text. -/
lemma Markup.delimiters_fixedText {m : Markup} (h : ∀ v, Piece.slot v ∈ m → Undelimited v.display) :
    delimiters (Markup.text m) = delimiters (m.flatMap Piece.fixedText) := by
  have hpiece : ∀ p ∈ m, delimiters p.text = delimiters p.fixedText := by
    intro p hp
    cases p with
    | fixed s => rfl
    | slot v => exact (h v hp).delimiters_eq_nil
    | pixels n => exact (undelimited_of_unmarked (Text.ofInt_unmarked n)).delimiters_eq_nil
  unfold Markup.text delimiters
  rw [List.filter_flatMap, List.filter_flatMap]
  exact List.flatMap_congr hpiece

namespace Document

/-- **What escaping contains.**  Data of any depth shows no delimiters, once it is escaped, exactly if
it is contained.  In an escaped document whose texts hold contained data no value shows a delimiter:
all of them are the compiler's own. -/
theorem contained {c : Value} {r : Fields} {ρ : SetOrder} {d : Text} (hr : Config.resolve c = .ok r)
    (hs : Config.Texts (fun v => v.isContained = true) r) (hd : (html c true ρ).outcome = .ok d) :
    (∀ v : Value, v.isData = true → (Undelimited v.escape.display ↔ v.isContained = true)) ∧
      ∃ m, (ofResolved r.escape).outcome = .ok m ∧ d = Markup.text m ∧
        (∀ v, Piece.slot v ∈ m → Undelimited v.display) ∧
        delimiters d = delimiters (m.flatMap Piece.fixedText) := by
  have hrigid : Config.Texts (fun v => v.isRigid = true) r :=
    hs.imp fun _ hv => Value.isRigid_of_isData (Value.isData_of_isContained hv)
  obtain ⟨-, m, hm, rfl⟩ := (html_of_rigid hr hrigid).mp hd
  rw [if_pos rfl] at hm
  have hshown : Config.Texts (fun v => Undelimited v.escape.display) r := hs.imp fun v hv =>
    (Value.undelimited_display_escape_iff (Value.isData_of_isContained hv)).mpr hv
  have hslots := fun v => slots_of_texts (v := v) undelimited_of_unmarked hr hshown hm
  exact ⟨fun _ => Value.undelimited_display_escape_iff, m, hm, rfl, hslots,
    Markup.delimiters_fixedText hslots⟩

/-- A configuration whose company has a value for a name. -/
def called (name : Value) : Value :=
  .map (Fields.named [("company", .map (Fields.named [("name", name)]))])

/-- A mapping with a tag inside of a text. -/
theorem contained_tag :
    let name : Value := .map (Fields.named [("a", .list [.text "<b>", .int 1])])
    ∃ d m, (html (called name) true).outcome = .ok d ∧ d = Markup.text m ∧
      Undelimited name.escape.display ∧ delimiters d = delimiters (m.flatMap Piece.fixedText) := by
  intro name
  have hr := eq_ok_of_isOk (x := Config.resolve (called name)) (by decide +kernel)
  have hd := eq_ok_of_isOk (x := (html (called name) true).outcome) (by decide +kernel)
  obtain ⟨hdata, m, -, htext, -, hdelimiters⟩ := contained hr (by decide +kernel) hd
  exact ⟨_, m, hd, htext, (hdata name (by decide)).mpr (by decide), hdelimiters⟩

/-- A document shows what one of its slots shows. -/
lemma infix_of_slot {c : Value} {m : Markup} {t : Text} (hm : (markup c true).outcome = .ok m)
    (ht : m.any (Piece.shows t) = true) : ∃ d, (html c true).outcome = .ok d ∧ t <:+: d := by
  obtain ⟨piece, hpiece, htext⟩ := List.any_eq_true.mp ht
  obtain ⟨front, back, rfl⟩ := List.append_of_mem hpiece
  refine ⟨Markup.text (front ++ piece :: back), ?_, Markup.text front, Markup.text back, ?_⟩
  · rw [outcome_html, hm]
    rfl
  · rw [← Piece.text_of_shows htext, List.append_assoc]
    simp [Markup.text]

/-- A key that is a tag, and a text with an apostrophe in a list: the one opens a tag, the other ends
an attribute. -/
theorem not_contained :
    let keyed : Value := .map (Fields.named [("<b>", .int 1)])
    let quoted : Value := .list [.text "it's"]
    keyed.isData = true ∧ quoted.isData = true ∧
      keyed.escape.display = ofString "\x7b'<b>': 1\x7d" ∧
      quoted.escape.display = ofString "[\"it's\"]" ∧
      (∃ d, (html (called keyed) true).outcome = .ok d ∧ keyed.escape.display <:+: d) ∧
      ∃ d, (html (called quoted) true).outcome = .ok d ∧ quoted.escape.display <:+: d := by
  intro keyed quoted
  have hkeyed := eq_ok_of_isOk (x := (markup (called keyed) true).outcome) (by decide +kernel)
  have hquoted := eq_ok_of_isOk (x := (markup (called quoted) true).outcome) (by decide +kernel)
  exact ⟨by decide, by decide, by decide, by decide, infix_of_slot hkeyed (by decide +kernel),
    infix_of_slot hquoted (by decide +kernel)⟩

end Document

end Mailshot
