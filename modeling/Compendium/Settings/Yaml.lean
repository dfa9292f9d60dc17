import Compendium.Settings
import Compendium.Yaml.Decoder

/-!
# Settings written as YAML

What is not written keeps its default, and unknown fields are passed over.
-/

namespace Compendium

open Yaml

/-- Where content lives, as a YAML value. -/
def ContentSettings.ofYaml : Decoder ContentSettings := fun document node => do
  let missing : ContentSettings := {}
  let f ← fields? ["root", "manifest_path", "theory_bases", "document_bases", "ignore_patterns"]
    document node
  let texts := Decode.list Decode.string
  let root ← f.defaulted document "root" Decode.string missing.root
  let manifestPath ← f.defaulted document "manifest_path" Decode.string missing.manifestPath
  let theoryBases ← f.defaulted document "theory_bases" texts missing.theoryBases
  let documentBases ← f.defaulted document "document_bases" texts missing.documentBases
  let ignorePatterns ← f.defaulted document "ignore_patterns" texts missing.ignorePatterns
  return ⟨root, manifestPath, theoryBases, documentBases, ignorePatterns⟩

/-- The limits of rendering, as a YAML value. -/
def RenderSettings.ofYaml : Decoder RenderSettings := fun document node => do
  let missing : RenderSettings := {}
  let f ← fields? ["max_depth", "show_unknown_markers", "default_layout"] document node
  let maxDepth ← f.defaulted document "max_depth" Decode.word64 missing.maxDepth
  let showUnknownMarkers ←
    f.defaulted document "show_unknown_markers" Decode.boolean missing.showUnknownMarkers
  let defaultLayout ←
    f.defaulted document "default_layout" (Decode.word LayoutStyle.vocabulary) missing.defaultLayout
  return ⟨maxDepth, showUnknownMarkers, defaultLayout⟩

/-- What is kept, as a YAML value. -/
def CacheSettings.ofYaml : Decoder CacheSettings := fun document node => do
  let missing : CacheSettings := {}
  let f ← fields? ["enabled", "snapshot_path"] document node
  let enabled ← f.defaulted document "enabled" Decode.boolean missing.enabled
  let snapshotPath ←
    f.defaulted document "snapshot_path" (Decode.optional Decode.string) missing.snapshotPath
  return ⟨enabled, snapshotPath⟩

def LoggingSettings.ofYaml : Decoder LoggingSettings := fun document node => do
  let missing : LoggingSettings := {}
  let f ← fields? ["level", "show_load_stats"] document node
  let level ← f.defaulted document "level" (Decode.word LogLevel.vocabulary) missing.level
  let showLoadStats ← f.defaulted document "show_load_stats" Decode.boolean missing.showLoadStats
  return ⟨level, showLoadStats⟩

namespace Settings

def ofYaml : Decoder Settings := fun document node => do
  let f ← fields? ["content", "render", "cache", "logging"] document node
  let content ← f.defaulted document "content" ContentSettings.ofYaml {}
  let render ← f.defaulted document "render" RenderSettings.ofYaml {}
  let cache ← f.defaulted document "cache" CacheSettings.ofYaml {}
  let logging ← f.defaulted document "logging" LoggingSettings.ofYaml {}
  return ⟨content, render, cache, logging⟩

/-- The settings of a YAML text. A text without a document leaves all defaults. -/
def parse? (text : String) : Option Settings := do
  match ← Node.ofText? text with
  | some document => ofYaml document document
  | none => return {}

end Settings

end Compendium
