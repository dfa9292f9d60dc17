import Compendium.Json.Decoder
import Compendium.Yaml.Node

/-!
# Typed reading of YAML values

A reader takes a value of a document, in which other values may be meant again, and gives a value of
some type or refuses. Only plain scalars are truth values and numbers; any scalar is a string.
-/

namespace Compendium.Yaml

/-- Reads a value of a document, or refuses. -/
abbrev Decoder (α : Type) := Node → Node → Option α

namespace Decode

variable {α : Type}

def coreTag (name : String) : String :=
  "tag:yaml.org,2002:" ++ name

/-- The text of a scalar. -/
def string : Decoder String := fun document node =>
  match document.resolve node with
  | some (.scalar _ s) => some s.text
  | _ => none

/-- The text of a scalar that is plain, or a literal block with a given core tag. -/
def bareText (tag : String) (document node : Node) : Option String :=
  match document.resolve node with
  | some (.scalar _ s) =>
    match s.style with
    | .plain => some s.text
    | .literal => if s.tag == some (coreTag tag) then some s.text else none
    | .other => none
  | _ => none

def truth? (word : String) : Option Bool :=
  if ["true", "True", "TRUE"].contains word then some true
  else if ["false", "False", "FALSE"].contains word then some false
  else none

/-- A truth value. -/
def boolean : Decoder Bool := fun document node =>
  (bareText "bool" document node).bind truth?

/-- The value of digits in a base, of which there is at least one. -/
def digits? (base : Nat) (cs : List Char) : Option Nat :=
  if cs.isEmpty then none
  else cs.foldlM
    (fun n c => (Text.hexDigit? c).bind fun d => if d < base then some (base * n + d) else none) 0

/-- The number without sign of a word: decimal without leading zeros, or with the mark of a base. A
plus may stand before it. -/
def unsigned? (word : String) : Option Nat :=
  let cs := match word.toList with
    | '+' :: rest => rest
    | cs => cs
  match cs with
  | '0' :: 'x' :: rest => digits? 16 rest
  | '0' :: 'o' :: rest => digits? 8 rest
  | '0' :: 'b' :: rest => digits? 2 rest
  | '0' :: _ :: _ => none
  | cs => digits? 10 cs

/-- An integer of 64 bits without sign. -/
def word64 : Decoder Nat := fun document node => do
  let n ← (bareText "int" document node).bind unsigned?
  if n ≤ 0xFFFFFFFFFFFFFFFF then some n else none

/-- Whether a word stands for no value. -/
def isNull (word : String) : Bool :=
  ["null", "Null", "NULL", "~"].contains word

/-- Whether a value is there: `none` for a value whose tag says that it is not and which is. -/
def present? (s : Scalar) : Option Bool :=
  match s.style, s.tag with
  | .plain, none => some !(s.text.isEmpty || isNull s.text)
  | .plain, some tag =>
    if tag == coreTag "null" then if isNull s.text then some false else none else some true
  | _, _ => some true

/-- A value that may be absent. -/
def optional (decode : Decoder α) : Decoder (Option α) := fun document node => do
  let node ← document.resolve node
  let present ← match node with
    | .scalar _ s => present? s
    | _ => some true
  if present then (decode document node).map some else some none

/-- Whether a value is written as nothing. -/
def isVoid (s : Scalar) : Bool :=
  s.style == .plain && s.text.isEmpty

/-- A list of values. Nothing is the empty list. -/
def list (decode : Decoder α) : Decoder (List α) := fun document node =>
  match document.resolve node with
  | some (.sequence _ items) => items.mapM (decode document)
  | some (.scalar _ s) => if isVoid s then some [] else none
  | _ => none

/-- The name that a tag of the document's own gives. -/
def tagName? (tag : String) : Option String :=
  match tag.toList with
  | ['!'] => some "!"
  | '!' :: rest => some (String.ofList rest)
  | _ => none

/-- A value of a vocabulary: the text of a scalar names it, or its tag does and nothing follows. -/
def word (v : Json.Vocabulary α) : Decoder α := fun document node =>
  match document.resolve node with
  | some (.scalar _ s) =>
    match s.tag.bind tagName? with
    | some name =>
      if s.style == .plain && (s.text.isEmpty || isNull s.text) then v.find? name else none
    | none => v.find? s.text
  | _ => none

end Decode

/-- The fields of a record, by name. -/
abbrev Fields := List (String × Node)

/-- The fields of a record value, whose names are given: a mapping with no known name twice, or
nothing. -/
def fields? (names : List String) (document node : Node) : Option Fields :=
  match document.resolve node with
  | some (.mapping _ entries) => do
    let fields ← entries.mapM fun (key, value) =>
      (Decode.string document key).map fun name => (name, value)
    if names.all fun name => fields.countP (fun f => f.1 == name) ≤ 1 then some fields else none
  | some (.scalar _ s) => if Decode.isVoid s then some [] else none
  | _ => none

/-- A field of a value of a document, with a value for when it is missing. -/
def Fields.defaulted {α : Type} (f : Fields) (document : Node) (name : String) (decode : Decoder α)
    (missing : α) : Option α :=
  match f.find? fun field => field.1 == name with
  | none => some missing
  | some (_, node) => decode document node

end Compendium.Yaml
