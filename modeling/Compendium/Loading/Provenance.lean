/-!
# Where a loaded value comes from
-/

namespace Compendium

/-- How a value came to be: read from paths, or made up because what was found could not be used, or
because nothing was found. -/
inductive Provenance where
  | loaded (paths : List String)
  | placeholder (reason : String)
  | notFound (tried : List String)
  deriving DecidableEq, Repr

namespace Provenance

/-- Whether the value was read. -/
def isLoaded : Provenance → Bool
  | loaded _ => true
  | _ => false

/-- The word for a provenance. -/
def label : Provenance → String
  | loaded _ => "loaded"
  | placeholder _ => "placeholder"
  | notFound _ => "not-found"

end Provenance

/-- A value with its provenance. -/
structure Outcome (α : Type) where
  value : α
  provenance : Provenance

end Compendium
