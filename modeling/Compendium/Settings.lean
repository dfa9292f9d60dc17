import Compendium.Document.Presentation

/-!
# Settings

Where content lives, how it is rendered, cached and logged. Every setting has a default.
-/

namespace Compendium

open Json

/-- Where content lives and where it is looked for. -/
structure ContentSettings where
  root : String := "public"
  manifestPath : String := "/manifest.json"
  theoryBases : List String :=
    ["/subjects/math/theories", "/theories", "/content/theories", "/data/theories"]
  documentBases : List String := ["/documents", "/subjects/math/documents", "/content/documents"]
  ignorePatterns : List String := ["**/.git/**", "**/node_modules/**"]
  deriving DecidableEq, Repr

namespace ContentSettings

def decode : Decoder ContentSettings := fun m j => do
  let missing : ContentSettings := {}
  let f ← fields? 5 m j
  let root ← f.defaulted 0 "root" Decode.string missing.root
  let manifestPath ← f.defaulted 1 "manifest_path" Decode.string missing.manifestPath
  let theoryBases ← f.defaulted 2 "theory_bases" (Decode.list Decode.string) missing.theoryBases
  let documentBases ←
    f.defaulted 3 "document_bases" (Decode.list Decode.string) missing.documentBases
  let ignorePatterns ←
    f.defaulted 4 "ignore_patterns" (Decode.list Decode.string) missing.ignorePatterns
  return ⟨root, manifestPath, theoryBases, documentBases, ignorePatterns⟩

def encode (s : ContentSettings) : Json :=
  .obj (field "document_bases" (strs s.documentBases) ++
    field "ignore_patterns" (strs s.ignorePatterns) ++
    field "manifest_path" (.str s.manifestPath) ++ field "root" (.str s.root) ++
    field "theory_bases" (strs s.theoryBases))

end ContentSettings

/-- The limits and defaults of rendering. -/
structure RenderSettings where
  maxDepth : Nat := 32
  showUnknownMarkers : Bool := true
  defaultLayout : LayoutStyle := .singleColumn
  deriving DecidableEq, Repr

namespace RenderSettings

def decode : Decoder RenderSettings := fun m j => do
  let missing : RenderSettings := {}
  let f ← fields? 3 m j
  let maxDepth ← f.defaulted 0 "max_depth" Decode.word64 missing.maxDepth
  let showUnknownMarkers ←
    f.defaulted 1 "show_unknown_markers" Decode.boolean missing.showUnknownMarkers
  let defaultLayout ←
    f.defaulted 2 "default_layout" LayoutStyle.vocabulary.decode missing.defaultLayout
  return ⟨maxDepth, showUnknownMarkers, defaultLayout⟩

def encode (s : RenderSettings) : Json :=
  .obj (field "default_layout" (LayoutStyle.vocabulary.encode s.defaultLayout) ++
    field "max_depth" (nat s.maxDepth) ++
    field "show_unknown_markers" (.bool s.showUnknownMarkers))

end RenderSettings

/-- Whether fetched bodies are kept, and where the snapshot of them is. -/
structure CacheSettings where
  enabled : Bool := true
  snapshotPath : Option String := none
  deriving DecidableEq, Repr

namespace CacheSettings

def decode : Decoder CacheSettings := fun m j => do
  let missing : CacheSettings := {}
  let f ← fields? 2 m j
  let enabled ← f.defaulted 0 "enabled" Decode.boolean missing.enabled
  let snapshotPath ← f.optional 1 "snapshot_path" Decode.string
  return ⟨enabled, snapshotPath⟩

def encode (s : CacheSettings) : Json :=
  .obj (field "enabled" (.bool s.enabled) ++
    field "snapshot_path" (Json.ofOption .str s.snapshotPath))

end CacheSettings

/-- How much is logged. -/
inductive LogLevel where
  | trace
  | debug
  | info
  | warn
  | error
  deriving DecidableEq, Repr

namespace LogLevel

def name : LogLevel → String
  | trace => "trace"
  | debug => "debug"
  | info => "info"
  | warn => "warn"
  | error => "error"

def vocabulary : Vocabulary LogLevel :=
  ⟨[trace, debug, info, warn, error], name, none⟩

end LogLevel

structure LoggingSettings where
  level : LogLevel := .info
  showLoadStats : Bool := true
  deriving DecidableEq, Repr

namespace LoggingSettings

def decode : Decoder LoggingSettings := fun m j => do
  let missing : LoggingSettings := {}
  let f ← fields? 2 m j
  let level ← f.defaulted 0 "level" LogLevel.vocabulary.decode missing.level
  let showLoadStats ← f.defaulted 1 "show_load_stats" Decode.boolean missing.showLoadStats
  return ⟨level, showLoadStats⟩

def encode (s : LoggingSettings) : Json :=
  .obj (field "level" (LogLevel.vocabulary.encode s.level) ++
    field "show_load_stats" (.bool s.showLoadStats))

end LoggingSettings

structure Settings where
  content : ContentSettings := {}
  render : RenderSettings := {}
  cache : CacheSettings := {}
  logging : LoggingSettings := {}
  deriving DecidableEq, Repr

namespace Settings

def decode : Decoder Settings := fun m j => do
  let f ← fields? 4 m j
  let content ← f.defaulted 0 "content" ContentSettings.decode {}
  let render ← f.defaulted 1 "render" RenderSettings.decode {}
  let cache ← f.defaulted 2 "cache" CacheSettings.decode {}
  let logging ← f.defaulted 3 "logging" LoggingSettings.decode {}
  return ⟨content, render, cache, logging⟩

def encode (s : Settings) : Json :=
  .obj (field "cache" s.cache.encode ++ field "content" s.content.encode ++
    field "logging" s.logging.encode ++ field "render" s.render.encode)

end Settings

end Compendium
