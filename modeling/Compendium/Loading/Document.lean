import Compendium.Document.Decode
import Compendium.Loading.Theory
import Compendium.Text.Glob

/-!
# Loading documents

A document is read from the first candidate path that holds one. If there is none, the placeholder
says whether something was there that could not be read.
-/

namespace Compendium

namespace Document

/-- A document that says why there is no other one. -/
def placeholder (id label message : String) : Document :=
  .ofBody id (id ++ " (" ++ label ++ ")") .documentation
    [{ Section.empty "placeholder" with
        content := [.alert ⟨.warning, some [.text label], [.ofText message]⟩] }]

end Document

namespace Loading

/-- What a search among candidates has met so far: paths with nothing to read and paths with
something that is no document, the latest first. -/
structure Misses where
  tried : List String
  malformed : List String

/-- The placeholder after all candidates have failed. -/
def missingDocument (id : String) (m : Misses) : Outcome Document :=
  if m.malformed.isEmpty then
    ⟨.placeholder id "Not Found" "This document could not be located.", .notFound m.tried.reverse⟩
  else
    ⟨.placeholder id "Unavailable" "This document exists but could not be read.",
      .placeholder ("malformed document at " ++ ", ".intercalate m.malformed.reverse)⟩

/-- The first document among candidates. -/
def documentFrom (s : Settings) (id : String) : Misses → List String → Loading (Outcome Document)
  | m, [] => done (missingDocument id m)
  | m, path :: rest => do
    match ← json s path with
    | .error (.malformed _) => documentFrom s id { m with malformed := path :: m.malformed } rest
    | .error _ => documentFrom s id { m with tried := path :: m.tried } rest
    | .ok j =>
      match Document.decode.read j with
      | some d => return ⟨d, .loaded [path]⟩
      | none => documentFrom s id { m with malformed := path :: m.malformed } rest

def document (s : Settings) (id : String) : Loading (Outcome Document) :=
  documentFrom s id ⟨[], []⟩ (s.content.documentCandidates id)

end Loading

/-- The JSON files that a pattern accepts and no ignored pattern accepts. -/
def ContentSettings.discover (s : ContentSettings) (source : Source) (pattern : String) :
    List String :=
  (source.list "/" "json").filter fun path =>
    Text.Glob.accepts pattern path && !s.ignorePatterns.any fun ignored =>
      Text.Glob.accepts ignored path

end Compendium
