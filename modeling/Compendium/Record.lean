import Compendium.Json.Decoder
import Compendium.Json.Printer
import Compendium.Text.Case
import Compendium.Text.Split

/-!
# Definitions and theorems

Records are read leniently: a missing or mistyped field takes a default, and only a value that is no
object is not a record.
-/

namespace Compendium

open Json

/-- What a record is called when it does not say. -/
def unknownName : String := "Unknown"

/-- The texts of a list. An object stands for its name, and any other value for its own text. -/
def listTexts : Option Json → List String
  | some (.arr items) => items.map fun
    | .str s => s
    | item => (item.strField? "name").getD item.compact
  | _ => []

structure Definition where
  name : String
  docs : String
  kind : String
  members : List String
  deriving DecidableEq, Repr

namespace Definition

def ofRecord? (j : Json) : Option Definition :=
  if j.isObj then
    some {
      name := (j.strField? "name").getD unknownName
      docs := (((j.field? "docs").or (j.field? "documentation")).bind str?).getD ""
      kind := (j.strField? "kind").getD unknownName
      members := listTexts (j.field? "members") }
  else none

/-- Reads a definition that has all its fields. -/
def decode : Decoder Definition := fun m j => do
  let f ← fields? 4 m j
  let name ← f.required 0 "name" Decode.string
  let docs ← f.required 1 "docs" Decode.string
  let kind ← f.required 2 "kind" Decode.string
  let members ← f.required 3 "members" (Decode.list Decode.string)
  return ⟨name, docs, kind, members⟩

def encode (d : Definition) : Json :=
  .obj (field "docs" (.str d.docs) ++ field "kind" (.str d.kind) ++
    field "members" (strs d.members) ++ field "name" (.str d.name))

end Definition

structure Theorem where
  name : String
  statement : String
  description : String
  proofSteps : List String
  tags : List String
  deriving DecidableEq, Repr

namespace Theorem

def ofRecord? (j : Json) : Option Theorem :=
  if j.isObj then
    some {
      name := (j.strField? "name").getD unknownName
      statement := (j.strField? "statement").getD ""
      description := (j.strField? "description").getD ""
      proofSteps := listTexts (j.field? "proof_steps")
      tags := listTexts (j.field? "tags") }
  else none

/-- Reads a theorem that has all its fields. -/
def decode : Decoder Theorem := fun m j => do
  let f ← fields? 5 m j
  let name ← f.required 0 "name" Decode.string
  let statement ← f.required 1 "statement" Decode.string
  let description ← f.required 2 "description" Decode.string
  let proofSteps ← f.required 3 "proof_steps" (Decode.list Decode.string)
  let tags ← f.required 4 "tags" (Decode.list Decode.string)
  return ⟨name, statement, description, proofSteps, tags⟩

def encode (t : Theorem) : Json :=
  .obj (field "description" (.str t.description) ++ field "name" (.str t.name) ++
    field "proof_steps" (strs t.proofSteps) ++ field "statement" (.str t.statement) ++
    field "tags" (strs t.tags))

end Theorem

/-- Definitions and theorems. -/
structure Records where
  definitions : List Definition
  theorems : List Theorem
  deriving DecidableEq, Repr

namespace Records

def empty : Records := ⟨[], []⟩

def isEmpty (r : Records) : Bool :=
  r.definitions.isEmpty && r.theorems.isEmpty

/-- The records of two collections, in order. -/
def append (a b : Records) : Records :=
  ⟨a.definitions ++ b.definitions, a.theorems ++ b.theorems⟩

/-- The items of a payload: a list, or an object that holds one under its key or under `content`. -/
def items (key : String) (j : Json) : List Json :=
  match j with
  | .arr items => items
  | _ => (((j.field? key).or (j.field? "content")).bind arr?).getD []

/-- The definitions of a payload. -/
def definitionsOf (j : Json) : List Definition :=
  (items "definitions" j).filterMap Definition.ofRecord?

/-- The theorems of a payload. -/
def theoremsOf (j : Json) : List Theorem :=
  (items "theorems" j).filterMap Theorem.ofRecord?

end Records

/-- Whether a record is a definition or a theorem. -/
inductive RecordKind where
  | definition
  | theorem_
  deriving DecidableEq, Repr

namespace RecordKind

/-- The beginnings of labels for theorems. -/
def theoremWords : List String :=
  ["theorem", "lemma", "proposition", "corollary"]

/-- The kind that a label names by its beginning, in any case. -/
def ofLabel? (label : String) : Option RecordKind :=
  let word := Text.lowerAscii label.toList
  if "definition".toList.isPrefixOf word then some definition
  else if theoremWords.any (fun w => w.toList.isPrefixOf word) then some theorem_
  else none

/-- The kind that an item's fields show: a label first, then the fields it has. -/
def ofItem? (item : Json) : Option RecordKind :=
  match (["content_type", "type", "kind"].filterMap item.strField?).findSome? ofLabel? with
  | some kind => some kind
  | none =>
    if (item.field? "statement").isSome then some theorem_
    else if (item.field? "docs").isSome || (item.field? "documentation").isSome then some definition
    else none

end RecordKind

/-- Items of both kinds in one list. -/
structure Bundle where
  content : List Json
  version : String

namespace Bundle

def decode : Decoder Bundle := fun m j => do
  let f ← fields? 2 m j
  let content ← f.defaulted 0 "content" (Decode.list Decode.any) []
  let version ← f.defaulted 1 "version" Decode.string ""
  return ⟨content, version⟩

def encode (b : Bundle) : Json :=
  .obj (field "content" (.arr b.content) ++ field "version" (.str b.version))

def itemRecords (declared : Option RecordKind) (item : Json) : Records :=
  match declared.or (RecordKind.ofItem? item) with
  | some .definition => ⟨(Definition.ofRecord? item).toList, []⟩
  | some .theorem_ => ⟨[], (Theorem.ofRecord? item).toList⟩
  | none => .empty

/-- The records of a bundle. A content type that names a kind decides for every item. -/
def records (b : Bundle) (contentType : String) : Records :=
  b.content.foldr
    (fun item rest => (itemRecords (RecordKind.ofLabel? contentType) item).append rest)
    .empty

end Bundle

/-- What is known about a theory. -/
structure Theory where
  name : String
  definitions : List Definition
  theorems : List Theorem
  deriving DecidableEq, Repr

namespace Theory

def ofRecords (name : String) (r : Records) : Theory :=
  ⟨name, r.definitions, r.theorems⟩

/-- Whether nothing is known. -/
def isEmpty (t : Theory) : Bool :=
  t.definitions.isEmpty && t.theorems.isEmpty

def decode : Decoder Theory := fun m j => do
  let f ← fields? 3 m j
  let name ← f.required 0 "theory" Decode.string
  let definitions ← f.required 1 "definitions" (Decode.list Definition.decode)
  let theorems ← f.required 2 "theorems" (Decode.list Theorem.decode)
  return ⟨name, definitions, theorems⟩

def encode (t : Theory) : Json :=
  .obj (field "definitions" (.arr (t.definitions.map Definition.encode)) ++
    field "theorems" (.arr (t.theorems.map Theorem.encode)) ++ field "theory" (.str t.name))

end Theory

end Compendium
