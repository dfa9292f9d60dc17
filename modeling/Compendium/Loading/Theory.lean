import Compendium.Json.Reader
import Compendium.LoadError
import Compendium.Loading.Basic
import Compendium.Loading.Candidates
import Compendium.Loading.Provenance
import Compendium.Manifest
import Compendium.Record

/-!
# Loading theories

A theory is read from the files that the manifest lists for it; if they cannot be used, from the
first candidate path of each file; and if there is none, a placeholder says so.
-/

namespace Compendium

namespace Loading

def parseBody (path body : String) : Except LoadError Json :=
  match Json.parse? body with
  | some j => .ok j
  | none => .error (.malformed path)

/-- The body of an answer as JSON, kept if the settings ask for it. -/
def received (s : Settings) (path : String) (r : Response) : Loading (Except LoadError Json) :=
  if !r.isOk then done (.error (.status path r.status))
  else if !r.isJson then done (.error (.notJson path r.contentType))
  else
    match parseBody path r.body with
    | .error e => done (.error e)
    | .ok j => if s.cache.enabled then keep path r.body (done (.ok j)) else done (.ok j)

/-- The JSON at a path, from the cache or else from the source. -/
def json (s : Settings) (path : String) : Loading (Except LoadError Json) :=
  if s.cache.enabled then
    lookup path fun
      | some body => done (parseBody path body)
      | none => fetch path (received s path)
  else fetch path (received s path)

def manifest (s : Settings) : Loading (Except LoadError Manifest) := do
  let path := s.content.manifestPath
  match ← json s path with
  | .error e => return .error e
  | .ok j =>
    match Manifest.decode.read j with
    | some m => return .ok m
    | none => return .error (.malformed path)

/-- The content type of a listed file: the declared one, or one that the file name shows. -/
def listedType (declared path : String) : String :=
  if declared ≠ "" then declared
  else
    let name := Text.afterLast '/' path.toList
    if "definition".toList.isPrefixOf name then "definitions"
    else if "theorem".toList.isPrefixOf name then "theorems"
    else ""

/-- The records of a payload that is no bundle. -/
def flatRecords (contentType : String) (j : Json) : Records :=
  if "theorem".toList.isPrefixOf contentType.toList then ⟨[], Records.theoremsOf j⟩
  else ⟨Records.definitionsOf j, []⟩

def listedRecords (path contentType : String) (j : Json) : Except LoadError Records :=
  if (j.field? "content").isSome then
    match Bundle.decode.read j with
    | some bundle => .ok (bundle.records contentType)
    | none => .error (.malformed path)
  else .ok (flatRecords contentType j)

/-- The records of listed files with their paths. The first file that fails ends it. -/
def listedFiles (s : Settings) (id : String) :
    List ManifestFile → Loading (Except LoadError (Records × List String))
  | [] => done (.ok (.empty, []))
  | file :: rest => do
    let path := s.content.manifestFile id file.path
    match ← json s path with
    | .error e => return .error e
    | .ok j =>
      match listedRecords path (listedType file.contentType path) j with
      | .error e => return .error e
      | .ok records =>
        match ← listedFiles s id rest with
        | .error e => return .error e
        | .ok (others, paths) => return .ok (records.append others, path :: paths)

def listedTheory (s : Settings) (entry : ManifestEntry) :
    Loading (Except LoadError (Theory × List String)) := do
  match ← listedFiles s entry.id entry.files with
  | .error e => return .error e
  | .ok (records, paths) =>
    if records.isEmpty then return .error (.emptyTheory entry.id)
    else return .ok (Theory.ofRecords entry.name records, paths)

/-- The first candidate that can be read, and the ones tried before it. -/
def probe (s : Settings) : List String → Loading (Option (String × Json) × List String)
  | [] => done (none, [])
  | path :: rest => do
    match ← json s path with
    | .ok j => return (some (path, j), [])
    | .error _ =>
      let (found, tried) ← probe s rest
      return (found, path :: tried)

/-- The placeholder for a theory that was not found. -/
def missingTheory (name : String) (tried : List String) : Outcome Theory :=
  let title := name ++ " (Not Found)"
  let docs := "Content for **" ++ name ++ "** could not be located. " ++
    LoadError.number tried.length ++ " candidate paths were tried."
  ⟨⟨title, [⟨title, docs, "Placeholder", []⟩], []⟩, .notFound tried⟩

/-- What probing has found. -/
def probedTheory (name : String) (definitions theorems : Option (String × Json) × List String) :
    Outcome Theory :=
  match definitions.1, theorems.1 with
  | none, none => missingTheory name (definitions.2 ++ theorems.2)
  | d, t =>
    ⟨⟨name, (d.map fun found => Records.definitionsOf found.2).getD [],
        (t.map fun found => Records.theoremsOf found.2).getD []⟩,
      .loaded (d.toList.map (·.1) ++ t.toList.map (·.1))⟩

/-- A theory by probing. -/
def probeTheory (s : Settings) (id name : String) : Loading (Outcome Theory) := do
  let definitions ← probe s (s.content.theoryCandidates id .definitions)
  let theorems ← probe s (s.content.theoryCandidates id .theorems)
  return probedTheory name definitions theorems

def theory (s : Settings) (reference : String) : Loading (Outcome Theory) := do
  let id := Path.theoryId reference
  let entry := match ← manifest s with
    | .ok m => m.find? id
    | .error _ => none
  match entry with
  | none => probeTheory s id (String.ofList (Text.title id.toList))
  | some entry =>
    match ← listedTheory s entry with
    | .ok (theory, paths) => return ⟨theory, .loaded paths⟩
    | .error _ => probeTheory s id entry.name

/-- The ids of the theories that the manifest lists. -/
def categories (s : Settings) : Loading (List String) := do
  match ← manifest s with
  | .ok m => return m.theories.map (·.id)
  | .error _ => return []

/-- Fetches a path and keeps its body if it can be used; says whether it was kept. -/
def warmPath (path : String) : Loading Bool :=
  fetch path fun r => if r.isUsable then keep path r.body (done true) else done false

/-- Fetches paths and keeps their bodies; says how many were kept. -/
def warmPaths : List String → Loading Nat
  | [] => done 0
  | path :: rest => do
    let kept ← warmPath path
    let others ← warmPaths rest
    return (if kept then 1 else 0) + others

def manifestFiles (s : Settings) (m : Manifest) : List String :=
  m.theories.flatMap fun entry =>
    entry.files.map fun file => s.content.manifestFile entry.id file.path

/-- Fetches the manifest and all files it lists; says how many bodies were kept. -/
def warm (s : Settings) : Loading Nat := do
  let files := match ← manifest s with
    | .ok m => manifestFiles s m
    | .error _ => []
  warmPaths (s.content.manifestPath :: files)

end Loading

end Compendium
