import Compendium.FileTree
import Compendium.Text.Case
import Compendium.Text.Utf8

/-!
# Content sources

A source answers requests for paths and lists its files. Files kept in memory and trees of files are
sources.
-/

namespace Compendium

/-- The answer to a request. -/
structure Response where
  status : Nat
  contentType : String
  body : String
  deriving DecidableEq, Repr

namespace Response

def jsonType : String := "application/json"

/-- The content type of plain text. -/
def textType : String := "text/plain"

/-- An answer without a body. -/
def failed (status : Nat) : Response :=
  ⟨status, textType, ""⟩

/-- Whether the request was granted. -/
def isOk (r : Response) : Bool :=
  200 ≤ r.status && r.status < 300

/-- Whether the content type says that the body is JSON; parameters and case do not matter. -/
def isJson (r : Response) : Bool :=
  let mime := Text.trim (r.contentType.toList.takeWhile (· != ';'))
  Text.lowerAscii mime == jsonType.toList

/-- Whether the body can be used: the request was granted and the body is JSON. -/
def isUsable (r : Response) : Bool :=
  r.isOk && r.isJson

end Response

/-- A source of content: the answer to a request, and the files below a path with an extension. -/
structure Source where
  fetch : String → Response
  list : String → String → List String

/-- Answers by normalized path. -/
abbrev MemoryFiles := Dict Response

namespace MemoryFiles

/-- The files with an answer set at a path. -/
def put (path : String) (response : Response) (files : MemoryFiles) : MemoryFiles :=
  files.insert (Path.normalize path) response

/-- The answer to a request. -/
def fetch (files : MemoryFiles) (path : String) : Response :=
  (files.get? (Path.normalize path)).getD (.failed 404)

/-- The paths that start with a normalized path and end with an extension. -/
def list (files : MemoryFiles) (under extension : String) : List String :=
  files.keys.filter fun path =>
    (Path.normalize under).toList.isPrefixOf path.toList &&
      ('.' :: extension.toList).isSuffixOf path.toList

def source (files : MemoryFiles) : Source :=
  ⟨fetch files, list files⟩

end MemoryFiles

namespace FileTree

/-- The names that a request path leads through; slashes in front do not matter. A path that climbs
up leads nowhere. -/
def requestNames? (path : String) : Option (List String) :=
  Path.Step.names? (Path.steps (path.toList.dropWhile (· == '/')))

def contentType (name : String) : String :=
  if extension? name = some "json" then Response.jsonType else Response.textType

def answer (name : String) (octets : List UInt8) : Response :=
  match Text.ofUtf8? octets with
  | none => .failed 500
  | some body => ⟨200, contentType name, String.ofList body⟩

/-- The answer to a request below a root with some name. -/
def fetch (root : String) (t : FileTree) (path : String) : Response :=
  match requestNames? path with
  | none => .failed 403
  | some names =>
    match t.read? names with
    | none => .failed 404
    | some octets => answer (names.getLastD root) octets

def requestPath (names : List String) : String :=
  "/" ++ "/".intercalate names

/-- The files with an extension below a request path. -/
def list (t : FileTree) (under extension : String) : List String :=
  match requestNames? under with
  | none => []
  | some names =>
    match t.find? names with
    | none => []
    | some inner =>
      let paths := (inner.filePaths.map (names ++ ·)).filter fun path =>
        (path.getLast?.bind extension?) == some extension
      paths.map requestPath

/-- A tree of files with some name as a source. -/
def source (root : String) (t : FileTree) : Source :=
  ⟨fetch root t, list t⟩

end FileTree

end Compendium
