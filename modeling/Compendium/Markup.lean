import Compendium.Text.Blank
import Compendium.Text.Split

/-!
# Markup trees

Pages are built as trees; `Markup.chars` is the one place where a tree becomes text. Text and
attribute values are escaped there, so no value can add or break a tag. The constructors `raw` and
`script` hold text that is written as it is.
-/

namespace Compendium

/-- A name and a value. -/
abbrev Attr := String × String

/-- A piece of markup. Flags are attributes without a value. -/
inductive Markup where
  | text (s : String)
  | element (tag : String) (attrs : List Attr) (flags : List String) (children : List Markup)
  | void (tag : String) (attrs : List Attr) (flags : List String)
  | script (json : List Char)
  | raw (html : String)

namespace Markup

/-- A character in text or in an attribute value. -/
def escapeChar (c : Char) : List Char :=
  match c.toNat with
  | 0x26 => "&amp;".toList
  | 0x3C => "&lt;".toList
  | 0x3E => "&gt;".toList
  | 0x22 => "&quot;".toList
  | 0x27 => "&#39;".toList
  | _ => [c]

/-- Text with the characters of markup escaped. -/
def escape (s : List Char) : List Char :=
  s.flatMap escapeChar

/-- An attribute with a space in front. -/
def attrChars (a : Attr) : List Char :=
  ' ' :: (a.1.toList ++ '=' :: '"' :: (escape a.2.toList ++ ['"']))

def startTag (tag : String) (attrs : List Attr) (flags : List String) : List Char :=
  '<' ::
    (tag.toList ++ attrs.flatMap attrChars ++ flags.flatMap (fun f => ' ' :: f.toList) ++ ['>'])

def endTag (tag : String) : List Char :=
  '<' :: '/' :: (tag.toList ++ ['>'])

mutual

/-- The text of a piece of markup. -/
def chars : Markup → List Char
  | text s => escape s.toList
  | element tag attrs flags children =>
    startTag tag attrs flags ++ charsList children ++ endTag tag
  | void tag attrs flags => startTag tag attrs flags
  | script json => startTag "script" [("type", "application/json")] [] ++ json ++ endTag "script"
  | raw html => html.toList

/-- The text of pieces one after the other. -/
def charsList : List Markup → List Char
  | [] => []
  | m :: rest => chars m ++ charsList rest

end

/-- The text of pieces one after the other. -/
def render (content : List Markup) : String :=
  String.ofList (charsList content)

/-- An element without flags. -/
def node (tag : String) (attrs : List Attr) (children : List Markup) : Markup :=
  element tag attrs [] children

/-- An element that holds one text. -/
def leaf (tag : String) (attrs : List Attr) (s : String) : Markup :=
  element tag attrs [] [text s]

/-- An element with a class. -/
def classed (tag cssClass : String) (children : List Markup) : Markup :=
  element tag [("class", cssClass)] [] children

end Markup

namespace Css

/-- Whether a character could end a declaration or the attribute that holds it. -/
def breaksOut (c : Char) : Bool :=
  [0x3B, 0x7B, 0x7D, 0x3C, 0x3E, 0x22, 0x5C].contains c.toNat

/-- A value without the characters that could end its declaration. -/
def value (s : String) : String :=
  String.ofList (Text.trim (s.toList.filter fun c => !breaksOut c))

def declaration (property : String) (s : String) : String :=
  property ++ ": " ++ value s

def style (declarations : List String) : String :=
  "; ".intercalate declarations

end Css

end Compendium
