import Compendium.CommandLine.Help
import Compendium.Json.Printer
import Compendium.Settings.Yaml
import Compendium.Site.HitSummary
import Compendium.Site.Page
import Compendium.Snapshot
import Compendium.WorkingFolder

/-!
# Running a command

A command reads the site and prints. The cache comes from a snapshot, if the settings name one, and
goes back to it after the command.
-/

namespace Compendium

namespace HitSummary

def kindName : RecordKind → String
  | .definition => "Definition"
  | .theorem_ => "Theorem"

def line (h : HitSummary) : String :=
  "\t".intercalate [kindName h.kind, h.theory, h.name, h.href] ++ "\n"

/-- A hit with its fields in the order of a report. -/
def report (h : HitSummary) : Json :=
  .obj [("kind", .str (kindWord h.kind)), ("theory", .str h.theory), ("name", .str h.name),
    ("href", .str h.href), ("excerpt", .str h.excerpt)]

end HitSummary

namespace CommandLine

def hitsText (query : String) (hits : List HitSummary) : String :=
  if hits.isEmpty then "No matches for '" ++ query ++ "'\n"
  else String.join (hits.map HitSummary.line)

def hitsReport (query : String) (hits : List HitSummary) : String :=
  (Json.obj [("query", .str query), ("hits", .arr (hits.map HitSummary.report))]).pretty ++ "\n"

/-- Performs a command at a time: what it prints, unless it fails, and the site after it. -/
def Command.perform (now : Nat) (site : Site) : Command → Option String × Site
  | render route =>
    let (page, site) := site.page now (Route.parse route)
    (some (page.html ++ "\n"), site)
  | tree true =>
    let (manifest, site) := site.load now (Loading.manifest site.settings)
    match manifest with
    | some (.ok m) => (some (ContentTree.ofManifest m).outline, site)
    | _ => (none, site)
  | tree false =>
    ((site.backend.discover? site.settings.content Site.allJson).map fun files =>
      (ContentTree.ofPaths files).outline, site)
  | search query json =>
    let (hits, site) := site.search now query
    let hits := hits.map HitSummary.ofHit
    (some (if json then hitsReport query hits else hitsText query hits), site)

/-- The settings for options, given the text of the settings file if there is one to read. -/
def Options.settings? (o : Options) (read : String → Option String) : Option Settings := do
  let s ← match o.config with
    | none => some {}
    | some path => (read path).bind Settings.parse?
  return match o.root with
    | none => s
    | some root => { s with content := { s.content with root } }

def snapshotPath? (s : Settings) : Option String :=
  if s.cache.enabled then s.cache.snapshotPath else none

/-- The cache to start with, given the snapshot. One that cannot be read is ignored. -/
def startCache (snapshot : Option (List UInt8)) : Cache :=
  match snapshot with
  | some octets => (Snapshot.load octets .empty).2
  | none => .empty

/-- The content below a root as a source. An empty root can be read from but not listed. -/
def rootSource (root : String) (content : FileTree) : Source :=
  let source := content.source (String.ofList (Text.afterLast '/' root.toList))
  if root.isEmpty then
    { source with
      list := fun under extension =>
        if FileTree.requestNames? under = some [] then [] else content.list under extension }
  else source

/-- A site of settings, over the content below its root. -/
def siteOf (s : Settings) (content : FileTree) (snapshot : Option (List UInt8)) : Site :=
  { settings := s, backend := { source := rootSource s.content.root content },
    cache := startCache snapshot }

/-- What a run leaves: its exit code, what it prints and the files. -/
structure Ended where
  code : Nat
  output : String
  files : FileTree

/-- The content below a root in a working folder. -/
def contentAt (files : FileTree) (root : String) : FileTree :=
  if root.isEmpty then files else (files.atPath? root).getD .empty

/-- Runs a command with its options in a working folder. -/
def Invocation.run (now : Nat) (files : FileTree) (i : Invocation) : Ended :=
  match i.options.settings? files.readText? with
  | none => ⟨1, "", files⟩
  | some settings =>
    let snapshot := snapshotPath? settings
    let site := siteOf settings (contentAt files settings.content.root)
      (snapshot.bind fun path => (files.atPath? path).bind FileTree.octets?)
    match i.command.perform now site, snapshot with
    | (none, _), _ => ⟨1, "", files⟩
    | (some output, _), none => ⟨0, output, files⟩
    | (some output, site), some path =>
      let (saved, files) := files.save path (Snapshot.encode site.cache)
      ⟨if saved then 0 else 1, output, files⟩

def run (now : Nat) (args : List String) (files : FileTree) : Ended :=
  match parse args with
  | .ok invocation => invocation.run now files
  | .error (.help topic) => ⟨0, topic.text, files⟩
  | .error .usage => ⟨2, "", files⟩

end CommandLine

end Compendium
