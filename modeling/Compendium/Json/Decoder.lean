import Compendium.Json.Basic

/-!
# Typed reading of JSON values

A decoder reads a value of some type or refuses. Records are read from an object by the names of
their fields, or from an array by their order; variants of a union carry a tag and a content. How
much is let pass depends on where a value stands.
-/

namespace Compendium.Json

/-- How much is let pass in a value. -/
inductive Manner where
  /-- Names are strings, or fields that hold null. -/
  | strict
  /-- In an array, a variant may also be named by its position. -/
  | indexed
  /-- Besides, the field of a name may hold an empty object. -/
  | lenient
  deriving DecidableEq, Repr

/-- Reads a value of a type in a manner, or refuses. -/
abbrev Decoder (α : Type) := Manner → Json → Option α

/-- Reads a value that stands alone. -/
def Decoder.read {α : Type} (decode : Decoder α) (j : Json) : Option α :=
  decode .strict j

namespace Decode

variable {α : Type}

/-- Any value, as it is. -/
def any : Decoder Json := fun _ j => some j

def string : Decoder String := fun _ j => j.str?

/-- A truth value. -/
def boolean : Decoder Bool
  | _, .bool b => some b
  | _, _ => none

/-- An integer from zero up to a bound. -/
def natUpTo (bound : Nat) : Decoder Nat
  | _, .int n => if 0 ≤ n && n ≤ (bound : Int) then some n.toNat else none
  | _, _ => none

/-- An integer of 32 bits without sign. -/
def word32 : Decoder Nat := natUpTo 0xFFFFFFFF

/-- An integer of 64 bits without sign. -/
def word64 : Decoder Nat := natUpTo 0xFFFFFFFFFFFFFFFF

/-- The nearest float to a 64-bit integer. -/
def floatOfInt (n : Int) : Float :=
  let magnitude := n.natAbs.toUInt64.toFloat
  if n < 0 then -magnitude else magnitude

def number : Decoder Float
  | _, .int n => some (floatOfInt n)
  | _, .float x => some x
  | _, _ => none

def items (decode : Json → Option α) : List Json → Option (List α)
  | [] => some []
  | j :: rest =>
    match decode j with
    | none => none
    | some a => (items decode rest).map (a :: ·)

/-- An array. -/
def list (decode : Decoder α) : Decoder (List α)
  | m, .arr js => items (decode m) js
  | _, _ => none

/-- A value or null. -/
def optional (decode : Decoder α) : Decoder (Option α)
  | _, .null => some none
  | m, j => (decode m j).map some

/-- An array of exactly two strings. -/
def stringPair : Decoder (String × String)
  | _, .arr [.str a, .str b] => some (a, b)
  | _, _ => none

end Decode

/-- The fields of a record, by name or in order, and the manner to read them in. -/
inductive Fields where
  | named (manner : Manner) (fields : List (String × Json))
  | listed (manner : Manner) (items : List Json)

/-- The fields of a record value with a number of fields: too many items are refused. -/
def fields? (arity : Nat) (m : Manner) : Json → Option Fields
  | .obj fields => some (.named m fields)
  | .arr items => if items.length ≤ arity then some (.listed m items) else none
  | _ => none

/-- The fields of an object. -/
def namedFields? (m : Manner) : Json → Option Fields
  | .obj fields => some (.named m fields)
  | _ => none

namespace Fields

variable {α : Type}

def manner : Fields → Manner
  | named m _ => m
  | listed m _ => m

/-- The value of a field, by its position and its name. -/
def get? : Fields → Nat → String → Option Json
  | named _ fields, _, name => Dict.get? fields name
  | listed _ items, position, _ => items[position]?

/-- A field that must be there. -/
def required (f : Fields) (position : Nat) (name : String) (decode : Decoder α) : Option α :=
  (f.get? position name).bind (decode f.manner)

/-- A field with a value for when it is missing. -/
def defaulted (f : Fields) (position : Nat) (name : String) (decode : Decoder α) (missing : α) :
    Option α :=
  match f.get? position name with
  | none => some missing
  | some j => decode f.manner j

/-- A field that may be missing or null. -/
def optional (f : Fields) (position : Nat) (name : String) (decode : Decoder α) :
    Option (Option α) :=
  f.defaulted position name (Decode.optional decode) none

end Fields

/-- A name written as a string, or as an object with that one field and nothing in it. -/
def name? (m : Manner) : Json → Option String
  | .str s => some s
  | .obj [(s, .null)] => some s
  | .obj [(s, .obj [])] => if m = .lenient then some s else none
  | _ => none

/-- A closed list of named values, and the value that any other name stands for, if names are
open. -/
structure Vocabulary (α : Type) where
  all : List α
  name : α → String
  other : Option α

namespace Vocabulary

variable {α : Type}

/-- The value with a name. -/
def find? (v : Vocabulary α) (name : String) : Option α :=
  (v.all.find? fun a => v.name a == name).or v.other

/-- Reads a value by its name. -/
def decode (v : Vocabulary α) : Decoder α :=
  fun m j => (name? m j).bind v.find?

/-- Writes a value as its name. -/
def encode (v : Vocabulary α) (a : α) : Json :=
  .str (v.name a)

end Vocabulary

/-- A variant of a union: its tag, its content if it has one, and the manner to read that in. -/
structure Tagged where
  tag : String
  content : Option Json
  manner : Manner

/-- The tag at the start of an array, among the tags of a union: its name, or its position where
positions are let pass. -/
def tagAt? (tags : List String) (m : Manner) : Json → Option String
  | .str s => some s
  | .int n => if m = .strict || n < 0 then none else tags[n.toNat]?
  | _ => none

/-- The variant of a union value, given the tags of the union: an object with the fields `type` and
`content`, or an array of the two. The content of an object is read leniently. -/
def tagged? (tags : List String) (m : Manner) : Json → Option Tagged
  | .obj fields =>
    ((Dict.get? fields "type").bind (name? m)).map fun tag =>
      ⟨tag, Dict.get? fields "content", .lenient⟩
  | .arr [tag, content] => (tagAt? tags m tag).map fun tag => ⟨tag, some content, m⟩
  | _ => none

namespace Tagged

variable {α : Type}

/-- A variant without content: its content is missing or null. -/
def bare (t : Tagged) (a : α) : Option α :=
  match t.content with
  | none => some a
  | some .null => some a
  | some _ => none

/-- A variant with content. -/
def payload (t : Tagged) (decode : Decoder α) : Option α :=
  t.content.bind (decode t.manner)

end Tagged

/-- A union value with its tag and, where it has one, its content. -/
def variant (tag : String) : Option Json → Json
  | none => .obj [("type", .str tag)]
  | some content => .obj [("content", content), ("type", .str tag)]

/-- One field of an object. -/
def field (name : String) (j : Json) : List (String × Json) :=
  [(name, j)]

/-- One field of an object, or none. -/
def fieldIf (name : String) : Option Json → List (String × Json)
  | none => []
  | some j => [(name, j)]

end Compendium.Json
