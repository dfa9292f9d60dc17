import Compendium.Settings
import Compendium.Path

/-!
# Where content is looked for

The paths that may hold a file of a theory or a document, in the order in which they are tried.
-/

namespace Compendium

/-- The two files of a theory. -/
inductive TheoryFile where
  | definitions
  | theorems
  deriving DecidableEq, Repr

namespace TheoryFile

def names : TheoryFile → List String
  | definitions => ["definitions.json", "definition.json"]
  | theorems => ["theorems.json", "theorem.json"]

end TheoryFile

namespace ContentSettings

/-- How the directory of a theory may start. -/
def theoryMark : List Char := "theory_".toList

/-- The directory name with the mark if the id has none, and without it otherwise. -/
def otherDirectory (id : String) : String :=
  match theoryMark.isPrefixOf? id.toList with
  | some rest => String.ofList rest
  | none => String.ofList (theoryMark ++ id.toList)

/-- The directories of a theory, the one that its id names first. -/
def directories (id : String) : List String :=
  [id, otherDirectory id]

/-- A base path without trailing slashes. -/
def trimBase (base : String) : String :=
  String.ofList (Path.trimEndSlashes base.toList)

def pathBelow (base directory name : String) : String :=
  base ++ "/" ++ directory ++ "/" ++ name

/-- The paths of a theory's file: by base, then by directory, then by name. -/
def theoryCandidates (s : ContentSettings) (id : String) (file : TheoryFile) : List String :=
  s.theoryBases.flatMap fun base =>
    (directories id).flatMap fun directory =>
      file.names.map fun name => pathBelow (trimBase base) directory name

/-- The id of a document without outer slashes and `.json` endings. -/
def documentStem (id : String) : String :=
  String.ofList (Text.dropEndings Path.jsonEnding (Path.trimSlashes id.toList))

/-- The paths of a document. -/
def documentCandidates (s : ContentSettings) (id : String) : List String :=
  s.documentBases.flatMap fun base =>
    [trimBase base ++ "/" ++ documentStem id ++ ".json",
      trimBase base ++ "/" ++ documentStem id ++ "/document.json"]

/-- The path of a file that the manifest lists. A path from the root stays; one with a folder is
below the manifest's folder; a bare name is in the theory's folder below the first base. -/
def manifestFile (s : ContentSettings) (theoryId path : String) : String :=
  if path.toList.head? = some '/' then path
  else if path.toList.contains '/' then
    String.ofList ((Text.beforeLast? '/' s.manifestPath.toList).getD []) ++ "/" ++ path
  else
    pathBelow ((s.theoryBases.head?.map trimBase).getD "") theoryId path

end ContentSettings

end Compendium
