import Mailshot.Campaign.Run

/-!
# Command line

Runs a campaign in the world around the program: the variables of the environment, the configuration
file, and the file that the document goes to.  The journal is printed from the level of information
on.  There is no secure connection to a mail server here, so a test send ends as a failed delivery.
-/

namespace Mailshot.CommandLine

/-- How a mail server that cannot be reached breaks off. -/
def unreachable : Mail.Failure := ⟨.connect, "OSError", "the mail server cannot be reached"⟩

/-- A text as a string; halves of characters become replacement characters. -/
def stringOf (text : Text) : String := String.ofList text.chars

/-- The content of the file at a path, if there is one that can be read. -/
def content? (path : Path) : IO (Option ByteArray) := do
  try
    return some (← IO.FS.readBinFile (stringOf path))
  catch _ =>
    return none

/-- The environment of the program. -/
def environment : IO Environment := do
  let settings ← Environment.names.mapM fun name => do
    return (name, (← IO.getEnv name).map Text.ofString)
  return Environment.ofLookup fun name => (settings.lookup name).join

/-- The place of a path all of whose steps are folders. -/
def placeOf (path : Path) : Place :=
  path.steps.foldl (fun place step =>
    if step = stay then place
    else if step = stepUp then place.above
    else ⟨place.outset, place.names ++ [step]⟩) path.outset

/-- The world around the program, as far as a run reads it. -/
def world : IO World := do
  let environment ← environment
  let path := Campaign.configPath environment
  let files := match ← content? path with
    | some content => FileTree.empty.withFile (placeOf path) content
    | none => FileTree.empty
  return World.initial files environment (some unreachable)

/-- A changed file is written, folders made on the way. -/
def store (change : Place × ByteArray) : IO Unit := do
  let (place, content) := change
  let folder := place.above
  unless folder.names.isEmpty do
    IO.FS.createDirAll (stringOf folder.text)
  IO.FS.writeBinFile (stringOf place.text) content

/-- The journal is printed, without what only helps to find mistakes. -/
def print (journal : List Entry) : IO Unit := do
  for entry in journal do
    unless entry.level = .debug do
      IO.eprintln (entry.level.label ++ " " ++ stringOf entry.text)

/-- The whole program; the status is zero unless the run failed or ended in a fault. -/
def run : IO UInt32 := do
  let before ← world
  let (outcome, after) := Campaign.run.runIn before
  (FileTree.changes before.files after.files).forM store
  print after.journal
  match outcome with
  | .ok .done => return 0
  | .ok .failed => return 1
  | .error fault =>
      IO.eprintln (stringOf (Campaign.faultText fault))
      return 1

end Mailshot.CommandLine

/-- Runs a campaign. -/
def main : IO UInt32 := Mailshot.CommandLine.run
