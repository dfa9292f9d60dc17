/-!
# Dictionaries in key order

A dictionary is a list of entries in ascending order of their keys, each key once. `insert` and
`erase` keep it so, and the entries are listed in that order.
-/

namespace Compendium

/-- Entries in ascending order of their keys. -/
abbrev Dict (α : Type) := List (String × α)

namespace Dict

variable {α : Type}

/-- The value at a key. -/
def get? : Dict α → String → Option α
  | [], _ => none
  | (k, a) :: rest, key => if k = key then some a else get? rest key

/-- The dictionary with a value set at a key. -/
def insert (key : String) (value : α) : Dict α → Dict α
  | [] => [(key, value)]
  | (k, a) :: rest =>
    if k < key then (k, a) :: insert key value rest
    else if k = key then (key, value) :: rest
    else (key, value) :: (k, a) :: rest

/-- The dictionary without a key. -/
def erase (key : String) : Dict α → Dict α
  | [] => []
  | (k, a) :: rest => if k = key then rest else (k, a) :: erase key rest

/-- The keys, in ascending order. -/
def keys (d : Dict α) : List String :=
  d.map (·.1)

/-- Whether a key is present. -/
def contains (d : Dict α) (key : String) : Bool :=
  (d.get? key).isSome

/-- The dictionary of entries given in any order; the last value of a key stays. -/
def ofList (entries : List (String × α)) : Dict α :=
  entries.foldl (fun d entry => insert entry.1 entry.2 d) []

end Dict

end Compendium
