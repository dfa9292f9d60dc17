import Compendium.Manifest
import Compendium.Markup
import Compendium.Path

/-!
# The tree of content files

Folders nest as the segments of the paths do, with siblings in order of their names. A folder that
no path names has no path itself.
-/

namespace Compendium

/-- A folder or file and what is inside. -/
inductive Folder where
  | mk (name : String) (path : Option String) (children : List Folder)

namespace Folder

def name : Folder → String
  | mk name _ _ => name

def path : Folder → Option String
  | mk _ path _ => path

def children : Folder → List Folder
  | mk _ _ children => children

/-- Whether no file stands behind the folder. -/
def isVirtual (f : Folder) : Bool :=
  f.path.isNone

/-- A folder without a path. -/
def empty (name : String) : Folder :=
  mk name none []

/-- Changes the sibling with a name; if there is none, a new one in its place. -/
def update (name : String) (change : Folder → Folder) : List Folder → List Folder
  | [] => [change (empty name)]
  | f :: rest =>
    if f.name < name then f :: update name change rest
    else if f.name = name then change f :: rest
    else change (empty name) :: f :: rest

/-- Siblings with a path put at its segments. -/
def insert (path : String) : List String → List Folder → List Folder
  | [], siblings => siblings
  | [segment], siblings => update segment (fun f => mk f.name (some path) f.children) siblings
  | segment :: rest, siblings =>
    update segment (fun f => mk f.name f.path (insert path rest f.children)) siblings

mutual

def paths : Folder → List String
  | mk _ path children => path.toList ++ pathsList children

/-- The paths of folders, depth first. -/
def pathsList : List Folder → List String
  | [] => []
  | f :: rest => paths f ++ pathsList rest

end

def lineEnd (path : Option String) (children : List Folder) : String :=
  if path.isNone && !children.isEmpty then "/\n" else "\n"

mutual

/-- The lines of a folder. -/
def outline (level : Nat) : Folder → String
  | mk name path children =>
    "".pushn ' ' (2 * level) ++ name ++ lineEnd path children ++ outlineList (level + 1) children

/-- The lines of folders. -/
def outlineList (level : Nat) : List Folder → String
  | [] => ""
  | f :: rest => outline level f ++ outlineList level rest

end

def findAt? : List Folder → List String → Option Folder
  | _, [] => none
  | siblings, [segment] => siblings.find? fun f => f.name == segment
  | siblings, segment :: rest =>
    match siblings.find? fun f => f.name == segment with
    | none => none
    | some f => findAt? f.children rest

/-- The name of a folder; its path is shown as a title. -/
def label (name : String) : Option String → Markup
  | none => .leaf "span" [] name
  | some path => .leaf "span" [("title", path)] name

mutual

def item : Folder → Markup
  | mk name path children =>
    .classed "li" (if path.isNone then "folder" else "file") (label name path :: sublist children)

def itemList : List Folder → List Markup
  | [] => []
  | f :: rest => item f :: itemList rest

/-- A list of folders, unless it is empty. -/
def sublist : List Folder → List Markup
  | [] => []
  | f :: rest => [.classed "ul" "tree" (item f :: itemList rest)]

end

mutual

def encode : Folder → Json
  | mk name path children =>
    .obj [("children", .arr (encodeList children)), ("name", .str name),
      ("path", Json.ofOption .str path)]

def encodeList : List Folder → List Json
  | [] => []
  | f :: rest => encode f :: encodeList rest

end

end Folder

/-- The folders at the top. -/
structure ContentTree where
  roots : List Folder

namespace ContentTree

/-- The tree of paths. Of paths with the same segments the last one stays. -/
def ofPaths (paths : List String) : ContentTree :=
  ⟨paths.foldl (fun siblings path => Folder.insert path (Path.segments path) siblings) []⟩

/-- The last segment of a path. -/
def fileName (path : String) : String :=
  String.ofList (Text.afterLast '/' path.toList)

/-- A folder for each theory of a manifest, with its files. -/
def ofManifest (m : Manifest) : ContentTree :=
  ⟨m.theories.map fun e =>
    .mk e.name none (e.files.map fun f => .mk (fileName f.path) (some f.path) [])⟩

def find? (t : ContentTree) (path : String) : Option Folder :=
  Folder.findAt? t.roots (Path.segments path)

/-- All paths, depth first. -/
def flatten (t : ContentTree) : List String :=
  Folder.pathsList t.roots

/-- One line for each folder, indented by its level. -/
def outline (t : ContentTree) : String :=
  Folder.outlineList 0 t.roots

/-- Nested lists of the folders. -/
def markup (t : ContentTree) : Markup :=
  .classed "ul" "tree" (Folder.itemList t.roots)

def encode (t : ContentTree) : Json :=
  .obj [("roots", .arr (Folder.encodeList t.roots))]

end ContentTree

end Compendium
