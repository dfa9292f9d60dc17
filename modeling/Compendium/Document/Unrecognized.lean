import Compendium.Json.Decoder

/-!
# Unrecognized variants

A union value whose tag or content is not understood is kept as it was written, so that one such
value does not spoil the whole around it.
-/

namespace Compendium

/-- A union value that was not understood. -/
structure Unrecognized where
  tag : String
  content : Option Json

namespace Unrecognized

/-- The tag as it is shown. -/
def displayName (u : Unrecognized) : String :=
  if u.tag.isEmpty then "(untyped)" else u.tag

/-- Reads an object whose tag, if present, is a string, or an array of at most tag and content. -/
def decode : Json.Decoder Unrecognized := fun m j => do
  let f ← Json.fields? 2 m j
  let tag ← f.defaulted 0 "type" Json.Decode.string ""
  let content ← f.optional 1 "content" Json.Decode.any
  return ⟨tag, content⟩

/-- Reads a union, given its tags and the reader of its known variants. What does not fit any of
them is kept. -/
def keep {α : Type} (tags : List String) (known : Json.Tagged → Option α)
    (other : Unrecognized → α) :
    Json.Decoder α := fun _ j =>
  ((Json.tagged? tags .indexed j).bind known).or ((decode .indexed j).map other)

/-- Writes the value back as it was. -/
def encode (u : Unrecognized) : Json :=
  Json.variant u.tag u.content

end Unrecognized

end Compendium
