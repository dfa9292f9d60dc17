import Compendium.FileTree
import Compendium.Text.Utf8

/-!
# Paths in a working folder

A path goes from the folder through the names between its slashes. It may climb up again, but only
out of folders that are there and never out of the working folder.
-/

namespace Compendium.FileTree

def hasFolder (t : FileTree) (names : List String) : Bool :=
  match t.find? names with
  | some (folder _) => true
  | _ => false

/-- The parts of a relative path. An empty path and one that starts with a slash have none. -/
def pathParts? (path : String) : Option (List String) :=
  match path.toList with
  | [] => none
  | '/' :: _ => none
  | cs => some ((cs.splitOn '/').map String.ofList)

/-- The names that parts lead to, from the names reached so far. -/
def walk (t : FileTree) : List String → List String → Option (List String)
  | names, [] => some names
  | names, part :: rest =>
    if !t.hasFolder names then none
    else if part = "" || part = "." then walk t names rest
    else if part = ".." then if names.isEmpty then none else walk t names.dropLast rest
    else walk t (names ++ [part]) rest

/-- The names that a path leads to. The last of them need not be there. -/
def locate? (t : FileTree) (path : String) : Option (List String) :=
  (pathParts? path).bind (t.walk [])

def atPath? (t : FileTree) (path : String) : Option FileTree :=
  (t.locate? path).bind t.find?

def readText? (t : FileTree) (path : String) : Option String :=
  ((t.atPath? path).bind octets?).bind fun octets => (Text.ofUtf8? octets).map String.ofList

/-- Whether a file or folder can have a name: it has at most 255 octets. -/
def isName (name : String) : Bool :=
  (Text.utf8 name.toList).length ≤ 255

/-- Goes through parts and makes the folders that are missing: the names reached, or `none` where a
part leads nowhere, and the tree with the folders made so far. -/
def makeFolders (t : FileTree) : List String → List String → Option (List String) × FileTree
  | names, [] => (some names, t)
  | names, part :: rest =>
    if part = "" || part = "." then makeFolders t names rest
    else if part = ".." then if names.isEmpty then (none, t) else makeFolders t names.dropLast rest
    else
      let inner := names ++ [part]
      match t.find? inner with
      | some (file _) => (none, t)
      | some (folder _) => makeFolders t inner rest
      | none => if isName part then makeFolders (t.makeFolder inner) inner rest else (none, t)

/-- The parts of a path without its last name. -/
def parentParts (parts : List String) : List String :=
  ((parts.reverse.dropWhile fun part => part = "" || part = ".").drop 1).reverse

/-- Whether a part holds the character that ends a path. -/
def isCutOff (part : String) : Bool :=
  part.toList.any fun c => c.toNat == 0

/-- Writes a file at a path, after the folders that lead to it. Folders stay also if the file cannot
be written. -/
def save (t : FileTree) (path : String) (octets : List UInt8) : Bool × FileTree :=
  match pathParts? path with
  | none => (false, t)
  | some parts =>
    if (parentParts parts).any isCutOff then (false, t)
    else
      match t.makeFolders [] (parentParts parts), parts.getLast? with
      | (some names, t), some name =>
        let refused := name = "" || name = "." || name = ".." || isCutOff name || !isName name
        if refused || t.hasFolder (names ++ [name]) then (false, t)
        else (true, t.put (names ++ [name]) (.file octets))
      | (_, t), _ => (false, t)

end Compendium.FileTree
