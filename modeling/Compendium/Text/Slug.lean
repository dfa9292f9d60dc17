import Compendium.Text.Alphabetic
import Compendium.Text.Blank
import Compendium.Text.Case
import Compendium.Text.Numeric
import Compendium.Text.Split

/-!
# Names for display and for addresses

A display name is made from an identifier by `title`; `identifier`, `heading` and `className` go the
other way, to the words of a route, the anchor of a heading and the class of a style sheet.
-/

namespace Compendium.Text

/-- Whether a character is a letter or a numeral. -/
def isAlphanumeric (c : Char) : Bool :=
  isAlphabetic c || isNumeric c

/-- A word with its first character in uppercase. -/
def capitalize : List Char → List Char
  | [] => []
  | c :: rest => upperChar c ++ rest

/-- The display name of an identifier: its words, capitalized, with spaces between. -/
def title (id : List Char) : List Char :=
  [' '].intercalate (((id.splitOnP fun c => c == '_' || c == '-' || c == ' ').filter
    (fun word => !word.isEmpty)).map capitalize)

/-- The identifier of a display name: its lowercase words, joined by underscores. -/
def identifier (name : List Char) : List Char :=
  ['_'].intercalate (((lower name).splitOnP fun c => !isAlphanumeric c).filter
    (fun word => !word.isEmpty))

/-- The anchor of a heading: letters, numerals, hyphens and underscores are kept, white space
becomes a hyphen and everything else is dropped. -/
def heading (text : List Char) : List Char :=
  let kept := (lower text).filterMap fun c =>
    if isAlphabetic c || isNumeric c || c == '-' || c == '_' then some c
    else if isBlank c then some '-'
    else none
  trimWhile (· == '-') kept

/-- The class of one character: an uppercase letter starts a new word, unless it is the first. -/
def classChar (first : Bool) (c : Char) : List Char :=
  if isUppercase c then (if first then [] else ['-']) ++ lowerChar c
  else if isAlphanumeric c then [c]
  else ['-']

/-- The class name of a variant's name: `RomanLower` gives `roman-lower`. -/
def className : List Char → List Char
  | [] => []
  | c :: rest => classChar true c ++ rest.flatMap (classChar false)

end Compendium.Text

/-- The identifier of a name. -/
def Compendium.slugOf (name : String) : String :=
  String.ofList (Text.identifier name.toList)
