import Compendium.Json.Number
import Compendium.Json.Token

/-!
# Reading JSON

The tokens of a text drive a stack of unfinished arrays and objects. Of fields with the same name
the last one counts. Nesting deeper than `maxDepth` is refused.
-/

namespace Compendium.Json

/-- The deepest nesting of arrays and objects that is read. -/
def maxDepth : Nat := 127

/-- An unfinished array, its items in reverse order, or an unfinished object with the name of the
field whose value comes next. -/
inductive Frame where
  | arr (items : List Json)
  | obj (fields : List (String × Json)) (name : String)

/-- What the reader expects next. -/
inductive Phase where
  | value
  | itemOrClose
  | name (fields : List (String × Json)) (orClose : Bool)
  | colon (fields : List (String × Json)) (name : String)
  | next
  | done (j : Json)

/-- The enclosing unfinished values, innermost first, and what is expected next. -/
structure Reader where
  stack : List Frame
  phase : Phase

/-- The value of a word: a literal or a number. -/
def wordValue? (s : List Char) : Option Json :=
  if s = ['t', 'r', 'u', 'e'] then some (.bool true)
  else if s = ['f', 'a', 'l', 's', 'e'] then some (.bool false)
  else if s = ['n', 'u', 'l', 'l'] then some .null
  else number? s

/-- The reader after a complete value. -/
def Reader.complete (stack : List Frame) (j : Json) : Reader :=
  match stack with
  | [] => ⟨[], .done j⟩
  | .arr items :: rest => ⟨.arr (j :: items) :: rest, .next⟩
  | .obj fields name :: rest => ⟨.obj (Dict.insert name j fields) name :: rest, .next⟩

/-- Reads a token that starts a value. -/
def Reader.begin (stack : List Frame) : Token → Option Reader
  | .text s => some (Reader.complete stack (.str (String.ofList s)))
  | .word s => (wordValue? s).map (Reader.complete stack)
  | .openArr => if stack.length < maxDepth then some ⟨.arr [] :: stack, .itemOrClose⟩ else none
  | .openObj => if stack.length < maxDepth then some ⟨stack, .name [] true⟩ else none
  | _ => none

def Reader.feed (r : Reader) (t : Token) : Option Reader :=
  match r.phase with
  | .value => Reader.begin r.stack t
  | .itemOrClose =>
    match r.stack, t with
    | .arr [] :: rest, .closeArr => some (Reader.complete rest (.arr []))
    | stack, t => Reader.begin stack t
  | .name fields orClose =>
    match t with
    | .text s => some ⟨r.stack, .colon fields (String.ofList s)⟩
    | .closeObj => if orClose then some (Reader.complete r.stack (.obj fields)) else none
    | _ => none
  | .colon fields name =>
    match t with
    | .colon => some ⟨.obj fields name :: r.stack, .value⟩
    | _ => none
  | .next =>
    match r.stack, t with
    | .arr items :: rest, .comma => some ⟨.arr items :: rest, .value⟩
    | .arr items :: rest, .closeArr => some (Reader.complete rest (.arr items.reverse))
    | .obj fields _ :: rest, .comma => some ⟨rest, .name fields false⟩
    | .obj fields _ :: rest, .closeObj => some (Reader.complete rest (.obj fields))
    | _, _ => none
  | .done _ => none

def Reader.run : Reader → List Token → Option Reader
  | r, [] => some r
  | r, t :: rest =>
    match r.feed t with
    | some r => Reader.run r rest
    | none => none

def ofTokens? (tokens : List Token) : Option Json :=
  match Reader.run ⟨[], .value⟩ tokens with
  | some ⟨_, .done j⟩ => some j
  | _ => none

/-- The value of a JSON text. -/
def parseChars? (s : List Char) : Option Json :=
  (Token.scan s).bind ofTokens?

/-- The value of a JSON text. -/
def parse? (s : String) : Option Json :=
  parseChars? s.toList

end Compendium.Json
