import Compendium.CommandLine.Run
import Std.Time.DateTime.Timestamp

/-!
# The program

Reads the files that a command line needs, runs its command and writes what it prints.
-/

namespace Compendium.Main

open CommandLine

/-- The files and folders at a path. -/
partial def readTree (path : String) : IO FileTree := do
  let place ← IO.FS.realPath path
  if ← place.isDir then
    let entries ← (← place.readDir).toList.mapM fun entry => do
      return (entry.fileName, ← readTree entry.path.toString)
    return .folder (Dict.ofList entries)
  else
    return .file (← IO.FS.readBinFile path).toList

/-- What an action gives, if it does not fail. -/
def attempt {α : Type} (action : IO α) : IO (Option α) :=
  try return some (← action) catch _ => return none

/-- The octets of a file. -/
def readOctets (path : String) : IO (Option (List UInt8)) :=
  attempt do return (← IO.FS.readBinFile path).toList

/-- The text of a file. -/
def readText (path : String) : IO (Option String) :=
  attempt (IO.FS.readFile path)

/-- Writes a file, after the folders that lead to it. -/
def writeOctets (path : String) (octets : List UInt8) : IO Unit := do
  let parent := "/".intercalate (FileTree.parentParts ((path.toList.splitOn '/').map String.ofList))
  if !parent.isEmpty then IO.FS.createDirAll parent
  IO.FS.writeBinFile path ⟨octets.toArray⟩

/-- The milliseconds since the epoch. -/
def now : IO Nat := do
  return (← Std.Time.Timestamp.now).toMillisecondsSinceUnixEpoch.val.toNat

/-- Ends with a message for the user. -/
def fail (code : UInt32) (message : String) : IO UInt32 := do
  IO.eprintln message
  return code

/-- Runs a command with its options. -/
def runInvocation (i : Invocation) : IO UInt32 := do
  let text ← match i.options.config with
    | some path => readText path
    | none => pure none
  match i.options.settings? fun _ => text with
  | none => fail 1 "Error: the configuration cannot be used"
  | some settings =>
    let root := settings.content.root
    let content ← attempt (readTree (if root.isEmpty then "." else root))
    let path := snapshotPath? settings
    let snapshot ← match path with
      | some path => readOctets path
      | none => pure none
    match i.command.perform (← now) (siteOf settings (content.getD .empty) snapshot) with
    | (none, _) => fail 1 "Error: manifest unavailable"
    | (some output, site) =>
      IO.print output
      match path with
      | none => return 0
      | some path =>
        match ← attempt (writeOctets path (Snapshot.encode site.cache)) with
        | some _ => return 0
        | none => fail 1 "Error: failed to save cache snapshot"

end Compendium.Main

open Compendium CommandLine in
/-- Runs the program on its arguments. -/
def main (args : List String) : IO UInt32 := do
  match parse args with
  | .ok invocation => Main.runInvocation invocation
  | .error (.help topic) =>
    IO.print topic.text
    return 0
  | .error .usage => Main.fail 2 (Topic.text .program)
