import Compendium.Json.Decoder
import Compendium.Text.Slug

/-!
# Manifests

A manifest lists theories and the files that hold their records.
-/

namespace Compendium

open Json

/-- A file of a theory. -/
structure ManifestFile where
  path : String
  contentType : String
  deriving DecidableEq, Repr

namespace ManifestFile

def decode : Decoder ManifestFile := fun m j => do
  let f ← fields? 2 m j
  let path ← f.required 0 "file_path" Decode.string
  let contentType ← f.defaulted 1 "content_type" Decode.string ""
  return ⟨path, contentType⟩

def encode (m : ManifestFile) : Json :=
  .obj (field "content_type" (.str m.contentType) ++ field "file_path" (.str m.path))

end ManifestFile

/-- A theory and its files. -/
structure ManifestEntry where
  id : String
  name : String
  itemCount : Nat
  files : List ManifestFile
  deriving DecidableEq, Repr

namespace ManifestEntry

def decode : Decoder ManifestEntry := fun m j => do
  let f ← fields? 4 m j
  let id ← f.required 0 "theory_id" Decode.string
  let name ← f.required 1 "theory_name" Decode.string
  let itemCount ← f.defaulted 2 "item_count" Decode.word32 0
  let files ← f.defaulted 3 "files" (Decode.list ManifestFile.decode) []
  return ⟨id, name, itemCount, files⟩

def encode (e : ManifestEntry) : Json :=
  .obj (field "files" (.arr (e.files.map ManifestFile.encode)) ++
    field "item_count" (nat e.itemCount) ++ field "theory_id" (.str e.id) ++
    field "theory_name" (.str e.name))

/-- The identifier that the name of the theory gives. -/
def slug (e : ManifestEntry) : String :=
  slugOf e.name

end ManifestEntry

/-- A list of theories. -/
structure Manifest where
  theories : List ManifestEntry
  deriving DecidableEq, Repr

namespace Manifest

def decode : Decoder Manifest := fun m j => do
  let f ← fields? 1 m j
  let theories ← f.defaulted 0 "theories" (Decode.list ManifestEntry.decode) []
  return ⟨theories⟩

def encode (m : Manifest) : Json :=
  .obj (field "theories" (.arr (m.theories.map ManifestEntry.encode)))

/-- The first theory with an id, or else the first whose name gives that identifier. -/
def find? (m : Manifest) (id : String) : Option ManifestEntry :=
  (m.theories.find? fun e => e.id == id).or (m.theories.find? fun e => e.slug == id)

end Manifest

end Compendium
