import Compendium.Loading.Theory

/-!
# Searching theories

A query is found in any case: in the name and text of a definition, in the name and statement of a
theorem, or as one of its tags.
-/

namespace Compendium

/-- A record that a search has found, with the name of its theory. -/
inductive Hit where
  | definition (theory : String) (d : Definition)
  | theorem_ (theory : String) (t : Theorem)
  deriving DecidableEq, Repr

namespace Hit

/-- The name of the record. -/
def name : Hit → String
  | definition _ d => d.name
  | theorem_ _ t => t.name

/-- The name of the theory. -/
def theory : Hit → String
  | definition theory _ => theory
  | theorem_ theory _ => theory

end Hit

namespace Search

/-- A text for comparison. -/
def folded (s : String) : List Char :=
  Text.lower s.toList

/-- Whether a text holds a folded query. -/
def holds (query : List Char) (s : String) : Bool :=
  Text.occursIn query (folded s)

def matchesDefinition (query : List Char) (d : Definition) : Bool :=
  holds query d.name || holds query d.docs

def matchesTheorem (query : List Char) (t : Theorem) : Bool :=
  holds query t.name || holds query t.statement || t.tags.any fun tag => folded tag == query

/-- The records of a loaded theory that match a query. Placeholders never match. -/
def hits (query : String) (outcome : Outcome Theory) : List Hit :=
  if outcome.provenance.isLoaded then
    let needle := folded query
    let theory := outcome.value
    (theory.definitions.filter (matchesDefinition needle)).map (.definition theory.name) ++
      (theory.theorems.filter (matchesTheorem needle)).map (.theorem_ theory.name)
  else []

/-- The hits in theories, one theory after the other. -/
def inTheories (s : Settings) (query : String) : List String → Loading (List Hit)
  | [] => .done []
  | category :: rest => do
    let outcome ← Loading.theory s category
    let others ← inTheories s query rest
    return hits query outcome ++ others

end Search

end Compendium
