import Compendium.Dict

/-!
# JSON values

A number is an integer or a float; an object lists its fields in ascending order of their names.
-/

namespace Compendium

inductive Json where
  | null
  | bool (b : Bool)
  | int (n : Int)
  | float (x : Float)
  | str (s : String)
  | arr (items : List Json)
  | obj (fields : List (String × Json))
  deriving Inhabited

namespace Json

/-- The value of an object's field; nothing for a missing field or any other value. -/
def field? : Json → String → Option Json
  | obj fields, name => Dict.get? fields name
  | _, _ => none

/-- The text of a string value. -/
def str? : Json → Option String
  | str s => some s
  | _ => none

/-- The items of an array. -/
def arr? : Json → Option (List Json)
  | arr items => some items
  | _ => none

/-- The text in a field that holds a string. -/
def strField? (j : Json) (name : String) : Option String :=
  (j.field? name).bind str?

/-- Whether the value is an object. -/
def isObj : Json → Bool
  | obj _ => true
  | _ => false

/-- An object of fields given in any order. -/
def mk (fields : List (String × Json)) : Json :=
  obj (Dict.ofList fields)

def strs (texts : List String) : Json :=
  arr (texts.map str)

/-- A natural number. -/
def nat (n : Nat) : Json :=
  int n

/-- A value or null. -/
def ofOption {α : Type} (encode : α → Json) : Option α → Json
  | none => null
  | some a => encode a

mutual

/-- How deep arrays and objects are nested in a value. -/
def depth : Json → Nat
  | arr items => depthList items + 1
  | obj fields => depthFields fields + 1
  | _ => 0

/-- The greatest depth among items. -/
def depthList : List Json → Nat
  | [] => 0
  | j :: rest => max (depth j) (depthList rest)

/-- The greatest depth among fields. -/
def depthFields : List (String × Json) → Nat
  | [] => 0
  | (_, j) :: rest => max (depth j) (depthFields rest)

end

end Json

end Compendium
