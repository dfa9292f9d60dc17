import Compendium.Json.Decoder

/-!
# Bibliography and table of contents
-/

namespace Compendium

open Json

/-- A work in the bibliography. -/
structure BibEntry where
  key : String
  authors : List String
  title : String
  year : Option Nat
  venue : Option String
  url : Option String
  deriving DecidableEq, Repr

namespace BibEntry

def decode : Decoder BibEntry := fun m j => do
  let f ← fields? 6 m j
  let key ← f.required 0 "key" Decode.string
  let authors ← f.defaulted 1 "authors" (Decode.list Decode.string) []
  let title ← f.required 2 "title" Decode.string
  let year ← f.optional 3 "year" Decode.word32
  let venue ← f.optional 4 "venue" Decode.string
  let url ← f.optional 5 "url" Decode.string
  return ⟨key, authors, title, year, venue, url⟩

def encode (e : BibEntry) : Json :=
  .obj (field "authors" (strs e.authors) ++ field "key" (.str e.key) ++
    field "title" (.str e.title) ++ fieldIf "url" (e.url.map .str) ++
    fieldIf "venue" (e.venue.map .str) ++ fieldIf "year" (e.year.map nat))

end BibEntry

/-- An entry of a table of contents, with the entries below it. -/
inductive TocEntry where
  | mk (sectionId title : String) (children : List TocEntry)

namespace TocEntry

def sectionId : TocEntry → String
  | mk id _ _ => id

def title : TocEntry → String
  | mk _ title _ => title

def children : TocEntry → List TocEntry
  | mk _ _ children => children

/-- Reads an entry nested at most as deep as the level says. -/
def decodeWithin : Nat → Decoder TocEntry
  | 0 => fun _ _ => none
  | level + 1 => fun m j => do
    let f ← fields? 3 m j
    let sectionId ← f.required 0 "section_id" Decode.string
    let title ← f.required 1 "title" Decode.string
    let children ← f.defaulted 2 "children" (Decode.list (decodeWithin level)) []
    return mk sectionId title children

def decode : Decoder TocEntry := fun m j => decodeWithin (j.depth + 1) m j

mutual

def encode : TocEntry → Json
  | mk sectionId title children =>
    .obj (field "children" (.arr (encodeList children)) ++ field "section_id" (.str sectionId) ++
      field "title" (.str title))

def encodeList : List TocEntry → List Json
  | [] => []
  | e :: rest => encode e :: encodeList rest

end

end TocEntry

/-- A table of contents: given entries, or the wish to have them made from the sections. -/
structure TableOfContents where
  entries : List TocEntry
  autoGenerate : Bool

namespace TableOfContents

def decode : Decoder TableOfContents := fun m j => do
  let f ← fields? 2 m j
  let entries ← f.defaulted 0 "entries" (Decode.list TocEntry.decode) []
  let autoGenerate ← f.defaulted 1 "auto_generate" Decode.boolean false
  return ⟨entries, autoGenerate⟩

def encode (t : TableOfContents) : Json :=
  .obj (field "auto_generate" (.bool t.autoGenerate) ++
    field "entries" (.arr (TocEntry.encodeList t.entries)))

end TableOfContents

end Compendium
