import Compendium.Text.Blank
import Compendium.Text.Split

/-!
# Request paths and theory references

All spellings of a request path that have the same nonempty segments name the same file; `normalize`
gives their common spelling. A file path is a list of steps. `theoryId` takes the decoration off a
reference to a theory.
-/

namespace Compendium.Path

def segments (path : String) : List String :=
  (Text.segments path.toList).map String.ofList

/-- The path with the given segments: it starts with a slash and ends without one, unless it is the
root. -/
def ofSegments (segments : List (List Char)) : String :=
  String.ofList ('/' :: ['/'].intercalate segments)

/-- The common spelling of a request path. -/
def normalize (path : String) : String :=
  ofSegments (Text.segments path.toList)

inductive Step where
  | top
  | stay
  | climb
  | enter (name : String)
  deriving DecidableEq, Repr

namespace Step

/-- The step that a segment stands for; a dot stands for none. -/
def ofSegment? (name : String) : Option Step :=
  if name = "." then none else if name = ".." then some climb else some (enter name)

/-- The names that steps enter one after the other, if none goes to the top or climbs. -/
def names? : List Step → Option (List String)
  | [] => some []
  | enter name :: rest => (names? rest).map (name :: ·)
  | stay :: rest => names? rest
  | _ :: _ => none

end Step

/-- The steps of a file path. A slash in front goes to the top. A dot in front is a step, which
stays. -/
def steps (path : List Char) : List Step :=
  let inner := (Text.segments path).filterMap fun segment => Step.ofSegment? (String.ofList segment)
  match path with
  | '/' :: _ => .top :: inner
  | ['.'] => .stay :: inner
  | '.' :: '/' :: _ => .stay :: inner
  | _ => inner

/-- The text without outer slashes. -/
def trimSlashes (s : List Char) : List Char :=
  Text.trimWhile (· == '/') s

/-- The text without trailing slashes. -/
def trimEndSlashes (s : List Char) : List Char :=
  Text.dropEndWhile (· == '/') s

/-- The extension of JSON files, with its dot. -/
def jsonEnding : List Char := ".json".toList

/-- A character, with a slash for a backslash. -/
def slashed (c : Char) : Char :=
  if c == '\\' then '/' else c

/-- The identifier of a theory in a reference to it: outer blanks and slashes, one leading
`theories/` and any number of `.json` endings are dropped, and backslashes count as slashes. -/
def theoryId (reference : String) : String :=
  let bare := trimSlashes ((Text.trim reference.toList).map slashed)
  let inner := ("theories/".toList.isPrefixOf? bare).getD bare
  String.ofList (trimSlashes (Text.dropEndings jsonEnding inner))

end Compendium.Path
