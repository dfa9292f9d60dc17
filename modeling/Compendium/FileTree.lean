import Compendium.Dict
import Compendium.Path

/-!
# Trees of files

A folder lists its entries in ascending order of their names. Files are looked up, written and
removed at lists of names.
-/

namespace Compendium

/-- A file with its octets, or a folder with its entries. -/
inductive FileTree where
  | file (octets : List UInt8)
  | folder (entries : List (String × FileTree))

namespace FileTree

/-- A folder without entries. -/
def empty : FileTree := folder []

def octets? : FileTree → Option (List UInt8)
  | file octets => some octets
  | folder _ => none

/-- The entries of a folder; a file has none. -/
def entries : FileTree → Dict FileTree
  | file _ => []
  | folder entries => entries

/-- What is at a list of names. -/
def find? : FileTree → List String → Option FileTree
  | t, [] => some t
  | t, name :: rest => (t.entries.get? name).bind fun inner => find? inner rest

def read? (t : FileTree) (names : List String) : Option (List UInt8) :=
  (t.find? names).bind octets?

/-- The tree with something put at a list of names; missing folders on the way are made. -/
def put : FileTree → List String → FileTree → FileTree
  | _, [], value => value
  | t, name :: rest, value =>
    folder (t.entries.insert name (put ((t.entries.get? name).getD empty) rest value))

/-- The tree with a folder at a list of names; what is there already stays. -/
def makeFolder (t : FileTree) (names : List String) : FileTree :=
  match t.find? names with
  | some (folder _) => t
  | _ => t.put names empty

/-- The tree without the entry at a list of names. -/
def erase : FileTree → List String → FileTree
  | t, [] => t
  | t, [name] => folder (t.entries.erase name)
  | t, name :: rest =>
    match t.entries.get? name with
    | none => t
    | some inner => folder (t.entries.insert name (erase inner rest))

def remove? (t : FileTree) (names : List String) : Option FileTree :=
  (t.read? names).map fun _ => t.erase names

mutual

/-- The names that lead to each file, folders in place among the files. -/
def filePaths : FileTree → List (List String)
  | file _ => [[]]
  | folder entries => entryPaths entries

/-- The names that lead to each file of some entries. -/
def entryPaths : List (String × FileTree) → List (List String)
  | [] => []
  | (name, t) :: rest => (filePaths t).map (name :: ·) ++ entryPaths rest

end

/-- The part of a file name after its last dot. A dot in front of the name does not count. -/
def extension? (name : String) : Option String :=
  match Text.beforeLast? '.' name.toList with
  | some (_ :: _) =>
    if name = ".." then none else some (String.ofList (Text.afterLast '.' name.toList))
  | _ => none

end FileTree

end Compendium
