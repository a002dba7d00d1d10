import Mailshot.Fault

/-!
# Files and folders

A file tree says what stands at each place below the working directory.

* `Path.folder`, `Path.steps` — the path of the folder around, and the steps of a path with its dots
  and its trailing slash.
* `FileTree.follow` — the place that a path leads to; every step on the way must be a folder.
* `FileTree.read` — the content of a file.
* `FileWork.makeFolders`, `FileWork.write` — folders made where they are missing, and a file
  written; what was made before a fault stays.
-/

namespace Mailshot

/-- What stands at a place. -/
inductive Stored
  | folder
  | file (content : ByteArray)

/-- Where the names of a place are counted from. -/
inductive Outset
  | root
  /-- The folder so many levels above the working directory. -/
  | above (levels : Nat)
deriving DecidableEq

/-- A place: a known folder, and the names that lead on from there. -/
structure Place where
  outset : Outset
  names : List Text
deriving DecidableEq

/-! ## Places -/

/-- What separates the names of a path. -/
def slash : Letter := .char '/'

/-- The step of a path that stays in its folder. -/
def stay : Text := "."

/-- The step of a path to the folder around. -/
def stepUp : Text := ".."

namespace Place

/-- The working directory. -/
def here : Place := ⟨.above 0, []⟩

/-- The root of all folders. -/
def root : Place := ⟨.root, []⟩

/-- Whether a place is below the working directory. -/
def isInside (place : Place) : Bool := place.outset = .above 0

/-- The folder around a place. -/
def above (place : Place) : Place :=
  match place.names, place.outset with
  | [], .root => root
  | [], .above levels => ⟨.above (levels + 1), []⟩
  | names, outset => ⟨outset, names.dropLast⟩

/-- A place as a path. -/
def text (place : Place) : Text :=
  match place.outset with
  | .root => slash :: List.intercalate [slash] place.names
  | .above levels => List.intercalate [slash] (List.replicate levels stepUp ++ place.names)

end Place

/-! ## Paths -/

/-- A path as it is written. -/
abbrev Path := Text

namespace Path

/-- The name behind the last slash. -/
def lastName (path : Path) : Text := (path.reverse.takeWhile (· ≠ slash)).reverse

/-- The path of the folder around: what stands before the last slash.  Slashes at its end do not
count, unless there is nothing else. -/
def folder (path : Path) : Path :=
  let front := path.reverse.dropWhile (· ≠ slash)
  if front.all (· = slash) then front else (front.dropWhile (· = slash)).reverse

/-- The names between the slashes of a path; two slashes in a row have the empty name between
them. -/
def names : Path → List Text
  | [] => [[]]
  | letter :: rest =>
      if letter = slash then [] :: names rest
      else match names rest with
        | [] => [[letter]]
        | name :: more => (letter :: name) :: more

/-- The steps of a path.  A trailing slash is a step that stays. -/
def steps (path : Path) : List Text :=
  let names := names path
  let found := names.filter fun name => !name.isEmpty
  if (names.getLastD []).isEmpty && !found.isEmpty then found ++ [stay] else found

/-- Where the steps of a path begin. -/
def outset (path : Path) : Place := if path.head? = some slash then .root else .here

/-- The character that ends a path for the system. -/
def terminator : Letter := .char '\x00'

/-- The greatest number of bytes in a path. -/
def limit : Nat := 4095

/-- A path that the system can be asked about; the empty one leads nowhere. -/
def checked (path : Path) : Except Fault Path :=
  match path.byteCount? with
  | none => .error .notEncodable
  | some bytes =>
      if path.contains terminator then .error .badPath
      else if limit < bytes then .error .nameTooLong
      else if path.isEmpty then .error .missingFile
      else .ok path

end Path

/-! ## Trees -/

/-- What stands at each place; the working directory and the folders around it are there without an
entry. -/
structure FileTree where
  entries : List (Place × Stored)

namespace FileTree

/-- A working directory with nothing in it. -/
def empty : FileTree := ⟨[]⟩

/-- What stands at a place, if anything does. -/
def find? (tree : FileTree) (place : Place) : Option Stored :=
  if place.names.isEmpty then some .folder else tree.entries.lookup place

/-- The tree with something put at a place. -/
def put (tree : FileTree) (place : Place) (stored : Stored) : FileTree :=
  ⟨(place, stored) :: tree.entries.filter fun entry => entry.1 ≠ place⟩

/-- The greatest number of bytes in the name of a file or folder. -/
def nameLimit : Nat := 255

/-- The place that steps lead to from a place.  Every place on the way must be a folder; the last
one need not be there. -/
def followSteps (tree : FileTree) : Place → List Text → Except Fault Place
  | spot, [] => .ok spot
  | spot, step :: rest =>
      match tree.find? spot with
      | none => .error .missingFile
      | some (.file _) => .error .notFolder
      | some .folder =>
          if step = stay then followSteps tree spot rest
          else if step = stepUp then followSteps tree spot.above rest
          else if nameLimit < step.byteCount?.getD 0 then .error .nameTooLong
          else followSteps tree ⟨spot.outset, spot.names ++ [step]⟩ rest

/-- The place that a path leads to. -/
def follow (tree : FileTree) (path : Path) : Except Fault Place := do
  let path ← path.checked
  tree.followSteps path.outset path.steps

/-- What a path leads to, if it leads to anything. -/
def look? (tree : FileTree) (path : Path) : Option Stored :=
  match tree.follow path with
  | .ok place => tree.find? place
  | .error _ => none

/-- Whether a path leads to a folder. -/
def isFolder (tree : FileTree) (path : Path) : Bool :=
  match tree.look? path with
  | some .folder => true
  | _ => false

/-- The content of the file that a path leads to. -/
def read (tree : FileTree) (path : Path) : Except Fault ByteArray := do
  match tree.find? (← tree.follow path) with
  | none => throw .missingFile
  | some .folder => throw .isFolder
  | some (.file content) => return content

/-- The tree with a folder at a place and at every place on the way to it. -/
def withFolders (tree : FileTree) (place : Place) : FileTree :=
  (List.range place.names.length).foldl
    (fun tree n => tree.put ⟨place.outset, place.names.take (n + 1)⟩ .folder) tree

/-- The tree with a file at a place, and folders on the way to it. -/
def withFile (tree : FileTree) (place : Place) (content : ByteArray) : FileTree :=
  (tree.withFolders place.above).put place (.file content)

/-! ## Views -/

/-- What stands below the working directory. -/
def inside (tree : FileTree) : FileTree := ⟨tree.entries.filter fun entry => entry.1.isInside⟩

/-- The folders of a tree, in rising order of their paths. -/
def folders (tree : FileTree) : List Path :=
  let paths := tree.entries.filterMap fun
    | (place, .folder) => some place.text
    | (_, .file _) => none
  paths.mergeSort Text.atMost

/-- The files that are new in a tree, or whose content is not what it was before. -/
def changes (before after : FileTree) : List (Place × ByteArray) :=
  after.entries.filterMap fun
    | (_, .folder) => none
    | (place, .file content) =>
        match before.find? place with
        | some (.file old) => if old == content then none else some (place, content)
        | _ => some (place, content)

end FileTree

/-! ## Work on a tree -/

/-- Work on a tree that may fail half-way, leaving the tree as it is then. -/
abbrev FileWork (α : Type) := ExceptT Fault (StateM FileTree) α

namespace FileWork

/-- The outcome of work on a tree, and the tree after it. -/
def runOn {α : Type} (tree : FileTree) (work : FileWork α) : Except Fault α × FileTree :=
  (ExceptT.run work).run tree

/-- A folder is made at a path; nothing may stand there yet. -/
def makeFolder (path : Path) : FileWork Unit := do
  let tree ← get
  let place ← tree.follow path
  match tree.find? place with
  | some _ => throw .fileExists
  | none => set (tree.put place .folder)

/-- A folder is made at a path unless one is there. -/
def ensureFolder (path : Path) : FileWork Unit :=
  tryCatch (makeFolder path) fun fault => do
    if (← get).isFolder path then pure () else throw fault

/-- Folders are made along a path wherever they are missing, those around it first.  A last step that
stays in its folder needs none once that folder was made. -/
def makeFolders (path : Path) : FileWork Unit := do
  let around := path.folder
  if !around.isEmpty && !path.lastName.isEmpty && ((← get).look? around).isNone then
    if _h : around.length < path.length then
      tryCatch (makeFolders around) fun
        | .fileExists => pure ()
        | fault => throw fault
      if path.lastName = stay then pure () else ensureFolder path
    else ensureFolder path
  else ensureFolder path
termination_by path.length

/-- A file is written at a path, in place of the one that is there. -/
def write (path : Path) (content : ByteArray) : FileWork Unit := do
  let tree ← get
  let place ← tree.follow path
  match tree.find? place with
  | some .folder => throw .isFolder
  | _ => set (tree.put place (.file content))

end FileWork

end Mailshot
