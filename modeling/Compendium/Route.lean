import Compendium.Path

/-!
# Routes of the site

Query strings, fragments and extra slashes do not matter.
-/

namespace Compendium

/-- A page of the site. -/
inductive Route where
  | home
  | math
  | theory (id : String)
  | document (id : String)
  | roadmap
  | developer
  | foundations
  | logic
  | notFound (path : String)
  deriving DecidableEq, Repr

namespace Route

/-- Whether a character ends the path of an address. -/
def endsPath (c : Char) : Bool :=
  c == '?' || c == '#'

/-- The part of an address before its query and its fragment. -/
def pathOf (address : String) : String :=
  String.ofList (address.toList.takeWhile fun c => !endsPath c)

def ofSegments? : List String → Option Route
  | [] => some home
  | ["math"] => some math
  | ["math", id] => some (theory id)
  | ["docs", id] => some (document id)
  | ["roadmap"] => some roadmap
  | ["developer"] => some developer
  | ["foundations"] => some foundations
  | ["logic"] => some logic
  | _ => none

/-- The route of an address; one that is not found keeps the path. -/
def parse (address : String) : Route :=
  (ofSegments? (Path.segments (pathOf address))).getD (notFound (pathOf address))

def path : Route → String
  | home => "/"
  | math => "/math"
  | theory id => "/math/" ++ id
  | document id => "/docs/" ++ id
  | roadmap => "/roadmap"
  | developer => "/developer"
  | foundations => "/foundations"
  | logic => "/logic"
  | notFound path => path

end Route

end Compendium
