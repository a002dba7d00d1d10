import Mathlib.Tactic.Common
import Mailshot.Proofs.Outcome
import Mailshot.World.FileTree

/-!
# What work does to a tree

Making folders changes nothing but places where nothing stood, and writing a file changes nothing but
its own place.  A path still leads to the file that was written at it.

* `FileTree.find?_put` — what stands where, after something was put at a place.
* `FileTree.Grown`, `FileTree.GrownBut` — two trees that differ in nothing but new folders, and in what
  stands at one place.
* `FileTree.follow_put` — a path leads to its file after the file was written.
* `FileWork.Wrote` — two trees that differ in nothing but new folders and the file that a path leads to.
* **`FileWork.grows_makeFolders`**, `FileWork.runOn_write` — making folders, also where one cannot be
  made, and writing a file.
-/

namespace Mailshot

namespace FileTree

variable {tree before middle after : FileTree} {place other : Place} {stored : Stored}

/-! ## Looking and putting -/

lemma names_ne_nil (h : tree.find? place ≠ some .folder) : place.names.isEmpty = false := by
  cases hnames : place.names.isEmpty with
  | false => rfl
  | true => exact absurd (by simp only [find?, hnames, if_true]) h

/-- What is looked for elsewhere is found among the other entries. -/
lemma lookup_filter_ne (h : other ≠ place) (entries : List (Place × Stored)) :
    (entries.filter fun entry => entry.1 ≠ place).lookup other = entries.lookup other := by
  induction entries with
  | nil => rfl
  | cons entry rest ih =>
      obtain ⟨spot, s⟩ := entry
      by_cases hspot : spot = place
      · subst hspot
        rw [List.filter_cons_of_neg (by simp), ih, List.lookup_cons, beq_eq_false_iff_ne.mpr h]
      · rw [List.filter_cons_of_pos (by simpa using hspot), List.lookup_cons, List.lookup_cons, ih]

/-- What was put at a place stands there, and all else where it stood. -/
lemma find?_put (h : tree.find? place ≠ some .folder) (other : Place) :
    (tree.put place stored).find? other = if other = place then some stored else tree.find? other := by
  by_cases heq : other = place
  · subst heq
    simp [find?, put, names_ne_nil h]
  · rw [if_neg heq]
    unfold find? put
    rw [List.lookup_cons, beq_eq_false_iff_ne.mpr heq, lookup_filter_ne heq]

/-! ## Trees that grow -/

/-- The second tree differs from the first in nothing but folders that were made where nothing
stood, and in what stands at one place. -/
def GrownBut (place : Place) (before after : FileTree) : Prop :=
  ∀ other ≠ place, after.find? other = before.find? other ∨
    before.find? other = none ∧ after.find? other = some .folder

/-- The second tree differs from the first in nothing but folders that were made where nothing
stood. -/
def Grown (before after : FileTree) : Prop :=
  ∀ other, after.find? other = before.find? other ∨
    before.find? other = none ∧ after.find? other = some .folder

lemma Grown.refl (tree : FileTree) : Grown tree tree := fun _ => .inl rfl

lemma Grown.trans (h : Grown before middle) (h' : Grown middle after) : Grown before after := by
  intro other
  rcases h other with heq | ⟨hnone, hfolder⟩
  · rw [← heq]
    exact h' other
  · rcases h' other with heq | ⟨hnone', -⟩
    · exact .inr ⟨hnone, heq.trans hfolder⟩
    · rw [hfolder] at hnone'
      cases hnone'

instance : IsPreorder FileTree Grown where
  refl := .refl
  trans _ _ _ := .trans

/-- A folder is made where nothing stands. -/
lemma grown_put_folder (h : tree.find? place = none) : Grown tree (tree.put place .folder) := by
  intro other
  rw [find?_put (by simp [h])]
  split
  · next heq => exact .inr ⟨heq ▸ h, rfl⟩
  · exact .inl rfl

/-- A file put at a place changes no other. -/
lemma Grown.put (h : Grown before middle) (hplace : middle.find? place ≠ some .folder) :
    GrownBut place before (middle.put place stored) := by
  intro other hne
  rw [find?_put hplace, if_neg hne]
  exact h other

/-! ## Paths after a write -/

/-- The way to a place does not lead through the place itself, where no folder stands. -/
lemma followSteps_put (hplace : tree.find? place ≠ some .folder) {spot found : Place}
    {steps : List Text} (h : tree.followSteps spot steps = .ok found) :
    (tree.put place stored).followSteps spot steps = .ok found := by
  induction steps generalizing spot with
  | nil => exact h
  | cons step rest ih =>
      unfold followSteps at h ⊢
      cases hspot : tree.find? spot with
      | none =>
          rw [hspot] at h
          cases h
      | some s =>
          cases s with
          | file content =>
              rw [hspot] at h
              cases h
          | folder =>
              have hne : spot ≠ place := by
                rintro rfl
                exact hplace hspot
              rw [hspot] at h
              rw [find?_put hplace, if_neg hne, hspot]
              dsimp only at h ⊢
              split
              · rw [if_pos ‹_›] at h
                exact ih h
              · rw [if_neg ‹_›] at h
                split
                · rw [if_pos ‹_›] at h
                  exact ih h
                · rw [if_neg ‹_›] at h
                  split
                  · rw [if_pos ‹_›] at h
                    cases h
                  · rw [if_neg ‹_›] at h
                    exact ih h

/-- **A path leads to its file** after that was written. -/
theorem follow_put {path : Path} (hplace : tree.find? place ≠ some .folder)
    (h : tree.follow path = .ok place) : (tree.put place stored).follow path = .ok place := by
  unfold follow at h ⊢
  cases hpath : path.checked with
  | error fault =>
      rw [hpath] at h
      cases h
  | ok checked =>
      rw [hpath] at h
      exact followSteps_put hplace h

end FileTree

/-! ## Work on a tree -/

namespace FileWork

open FileTree

variable {α β : Type} {tree : FileTree}

lemma runOn_bind (tree : FileTree) (x : FileWork α) (f : α → FileWork β) :
    runOn tree (x >>= f) = match runOn tree x with
      | (.ok a, after) => runOn after (f a)
      | (.error fault, after) => (.error fault, after) := by
  unfold runOn
  rw [run_bind]
  rcases (ExceptT.run x).run tree with ⟨_ | _, after⟩ <;> rfl

@[simp] lemma runOn_get (tree : FileTree) : runOn tree get = (.ok tree, tree) := rfl

@[simp] lemma runOn_lift (tree : FileTree) (x : Except Fault α) :
    runOn tree (liftM x : FileWork α) = (x, tree) := by
  cases x <;> rfl

/-- A folder is made where a path leads, if nothing stands there. -/
lemma runOn_makeFolder (tree : FileTree) (path : Path) : runOn tree (makeFolder path) =
    match tree.follow path with
    | .error fault => (.error fault, tree)
    | .ok place => match tree.find? place with
      | some _ => (.error .fileExists, tree)
      | none => (.ok (), tree.put place .folder) := by
  unfold makeFolder
  simp only [runOn_bind, runOn_get, runOn_lift]
  cases tree.follow path with
  | error fault => rfl
  | ok place =>
      dsimp only
      cases tree.find? place <;> rfl

/-- **A file is written** where a path leads, unless a folder stands there. -/
theorem runOn_write (tree : FileTree) (path : Path) (content : ByteArray) :
    runOn tree (write path content) =
      match tree.follow path with
      | .error fault => (.error fault, tree)
      | .ok place => match tree.find? place with
        | some .folder => (.error .isFolder, tree)
        | _ => (.ok (), tree.put place (.file content)) := by
  unfold write
  simp only [runOn_bind, runOn_get, runOn_lift]
  cases tree.follow path with
  | error fault => rfl
  | ok place =>
      dsimp only
      cases tree.find? place with
      | none => rfl
      | some stored => cases stored <;> rfl

/-- A path leads to a file with some content, and nothing else differs from the tree before but new
folders. -/
def Wrote (before : FileTree) (path : Path) (content : ByteArray) (after : FileTree) : Prop :=
  ∃ place, after.follow path = .ok place ∧ after.find? place = some (.file content) ∧
    GrownBut place before after

variable {before : FileTree} {path : Path}

/-- The file is what is read at the path. -/
lemma Wrote.read {content : ByteArray} {after : FileTree} (h : Wrote before path content after) :
    after.read path = .ok content := by
  obtain ⟨place, hfollow, hfind, -⟩ := h
  simp only [FileTree.read, hfollow, ok_bind, hfind]
  rfl

/-- A first write, after which only folders were made: the file is there, or nothing happened. -/
lemma runOn_write_of_grown {middle : FileTree} (h : Grown before middle) (path : Path)
    (content : ByteArray) :
    (∃ after, runOn middle (write path content) = (.ok (), after) ∧
      Wrote before path content after) ∨
    ∃ fault, runOn middle (write path content) = (.error fault, middle) := by
  rw [runOn_write]
  cases hfollow : middle.follow path with
  | error fault => exact .inr ⟨fault, rfl⟩
  | ok place =>
      dsimp only
      have hwrote (hplace : middle.find? place ≠ some .folder) :
          Wrote before path content (middle.put place (.file content)) :=
        ⟨place, follow_put hplace hfollow, by rw [find?_put hplace, if_pos rfl], h.put hplace⟩
      cases hfind : middle.find? place with
      | none => exact .inl ⟨_, rfl, hwrote (by simp [hfind])⟩
      | some stored =>
          cases stored with
          | folder => exact .inr ⟨.isFolder, rfl⟩
          | file old => exact .inl ⟨_, rfl, hwrote (by simp [hfind])⟩

/-- A second write, over what the first one left, does not fail. -/
lemma Wrote.runOn_write {content : ByteArray} {middle : FileTree}
    (h : Wrote before path content middle) (next : ByteArray) :
    ∃ after, runOn middle (write path next) = (.ok (), after) ∧ Wrote before path next after := by
  obtain ⟨place, hfollow, hfind, hgrown⟩ := h
  have hplace : middle.find? place ≠ some .folder := by simp [hfind]
  refine ⟨middle.put place (.file next), ?_, place, follow_put hplace hfollow, ?_, fun other hne => ?_⟩
  · rw [FileWork.runOn_write, hfollow]
    dsimp only
    rw [hfind]
  · rw [find?_put hplace, if_pos rfl]
  · rw [find?_put hplace, if_neg hne]
    exact hgrown other hne

/-! ## Work that makes folders -/

lemma grows_makeFolder (path : Path) : Leaves Grown (makeFolder path) := by
  intro tree
  show Grown tree (runOn tree (makeFolder path)).2
  rw [runOn_makeFolder]
  cases tree.follow path with
  | error fault => exact .refl tree
  | ok place =>
      dsimp only
      cases hplace : tree.find? place with
      | some stored => exact .refl tree
      | none => exact grown_put_folder hplace

lemma grows_ensureFolder (path : Path) : Leaves Grown (ensureFolder path) := by
  refine (grows_makeFolder path).tryCatch fun fault => Leaves.get.bind fun tree => ?_
  split
  · exact .pure _
  · exact .throw _

/-- **Folders that are made along a path** change nothing else, also where one cannot be made.  The
induction is on the path, whose folders around are made first. -/
theorem grows_makeFolders : ∀ path : Path, Leaves Grown (makeFolders path)
  | path => by
      rw [makeFolders]
      refine Leaves.get.bind fun tree => ?_
      split
      · split
        · next h =>
            refine ((grows_makeFolders path.folder).tryCatch fun fault => ?_).bind fun _ => ?_
            · split
              · exact .pure _
              · exact .throw _
            · split
              · exact .pure _
              · exact grows_ensureFolder _
        · exact grows_ensureFolder _
      · exact grows_ensureFolder _
termination_by path => path.length

end FileWork

end Mailshot
