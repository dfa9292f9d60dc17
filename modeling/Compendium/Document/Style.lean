import Compendium.Json.Decoder

/-!
# Styles of text, lists and boxes

The closed vocabularies that blocks choose from. Most of them read any unknown name as `unknown`.
-/

namespace Compendium

open Json

/-- How a paragraph or cell is aligned. -/
inductive TextAlignment where
  | left
  | center
  | right
  | justify
  | unknown
  deriving DecidableEq, Repr

namespace TextAlignment

def name : TextAlignment → String
  | left => "Left"
  | center => "Center"
  | right => "Right"
  | justify => "Justify"
  | unknown => "Unknown"

/-- The value of the style property, for the known alignments. -/
def css? : TextAlignment → Option String
  | left => some "left"
  | center => some "center"
  | right => some "right"
  | justify => some "justify"
  | unknown => none

def vocabulary : Vocabulary TextAlignment :=
  ⟨[left, center, right, justify, unknown], name, some unknown⟩

end TextAlignment

/-- What a structured piece of mathematics states. -/
inductive StatementKind where
  | definition
  | theorem_
  | lemma_
  | proposition
  | corollary
  | postulate
  | example_
  | proof
  | remark
  | unknown
  deriving DecidableEq, Repr

namespace StatementKind

def name : StatementKind → String
  | definition => "Definition"
  | theorem_ => "Theorem"
  | lemma_ => "Lemma"
  | proposition => "Proposition"
  | corollary => "Corollary"
  | postulate => "Axiom"
  | example_ => "Example"
  | proof => "Proof"
  | remark => "Remark"
  | unknown => "Unknown"

/-- The word in front of the statement. -/
def label : StatementKind → String
  | unknown => "Statement"
  | kind => kind.name

def vocabulary : Vocabulary StatementKind :=
  ⟨[definition, theorem_, lemma_, proposition, corollary, postulate, example_, proof, remark,
    unknown], name, some unknown⟩

end StatementKind

/-- How the items of an ordered list are numbered. -/
inductive OrderedStyle where
  | decimal
  | alphaLower
  | alphaUpper
  | romanLower
  | romanUpper
  | unknown
  deriving DecidableEq, Repr

namespace OrderedStyle

def name : OrderedStyle → String
  | decimal => "Decimal"
  | alphaLower => "AlphaLower"
  | alphaUpper => "AlphaUpper"
  | romanLower => "RomanLower"
  | romanUpper => "RomanUpper"
  | unknown => "Unknown"

def vocabulary : Vocabulary OrderedStyle :=
  ⟨[decimal, alphaLower, alphaUpper, romanLower, romanUpper, unknown], name, some unknown⟩

end OrderedStyle

/-- The bullet of an unordered list. -/
inductive BulletStyle where
  | disc
  | circle
  | square
  | none
  | unknown
  deriving DecidableEq, Repr

namespace BulletStyle

def name : BulletStyle → String
  | disc => "Disc"
  | circle => "Circle"
  | square => "Square"
  | none => "None"
  | unknown => "Unknown"

def vocabulary : Vocabulary BulletStyle :=
  ⟨[disc, circle, square, none, unknown], name, some unknown⟩

end BulletStyle

/-- Whether a list is numbered, and how it marks its items. -/
inductive ListStyle where
  | ordered (style : OrderedStyle)
  | unordered (style : BulletStyle)
  deriving DecidableEq, Repr

namespace ListStyle

/-- The style of a list that names none. -/
def standard : ListStyle := unordered .disc

def decode : Decoder ListStyle := fun m j => do
  let t ← tagged? ["Ordered", "Unordered"] m j
  if t.tag = "Ordered" then (t.payload OrderedStyle.vocabulary.decode).map ordered
  else if t.tag = "Unordered" then (t.payload BulletStyle.vocabulary.decode).map unordered
  else none

def encode : ListStyle → Json
  | ordered style => variant "Ordered" (some (OrderedStyle.vocabulary.encode style))
  | unordered style => variant "Unordered" (some (BulletStyle.vocabulary.encode style))

end ListStyle

/-- What an alert box warns of. -/
inductive AlertKind where
  | info
  | note
  | tip
  | success
  | warning
  | error
  | unknown
  deriving DecidableEq, Repr

namespace AlertKind

def name : AlertKind → String
  | info => "Info"
  | note => "Note"
  | tip => "Tip"
  | success => "Success"
  | warning => "Warning"
  | error => "Error"
  | unknown => "Unknown"

/-- The class of the box, for the known kinds. -/
def cssClass? : AlertKind → Option String
  | info => some "alert-info"
  | note => some "alert-note"
  | tip => some "alert-tip"
  | success => some "alert-success"
  | warning => some "alert-warning"
  | error => some "alert-error"
  | unknown => none

def vocabulary : Vocabulary AlertKind :=
  ⟨[info, note, tip, success, warning, error, unknown], name, some unknown⟩

end AlertKind

inductive AnnotationKind where
  | note
  | highlight
  | explanation
  | warning
  | definition
  | example_
  | reference
  | unknown
  deriving DecidableEq, Repr

namespace AnnotationKind

def name : AnnotationKind → String
  | note => "Note"
  | highlight => "Highlight"
  | explanation => "Explanation"
  | warning => "Warning"
  | definition => "Definition"
  | example_ => "Example"
  | reference => "Reference"
  | unknown => "Unknown"

def cssClass? : AnnotationKind → Option String
  | note => some "annotation-note"
  | highlight => some "annotation-highlight"
  | explanation => some "annotation-explanation"
  | warning => some "annotation-warning"
  | definition => some "annotation-definition"
  | example_ => some "annotation-example"
  | reference => some "annotation-reference"
  | unknown => none

def vocabulary : Vocabulary AnnotationKind :=
  ⟨[note, highlight, explanation, warning, definition, example_, reference, unknown], name,
    some unknown⟩

end AnnotationKind

inductive TextStyle where
  | bold
  | italic
  | underline
  | strikethrough
  | superscript
  | subscript
  | color (value : String)
  | backgroundColor (value : String)
  | fontSize (value : String)
  | fontFamily (value : String)
  deriving DecidableEq, Repr

namespace TextStyle

/-- The tags of the styles. -/
def tags : List String :=
  ["Bold", "Italic", "Underline", "Strikethrough", "Superscript", "Subscript", "Color",
    "BackgroundColor", "FontSize", "FontFamily"]

def decode : Decoder TextStyle := fun m j => do
  let t ← tagged? tags m j
  match t.tag with
  | "Bold" => t.bare bold
  | "Italic" => t.bare italic
  | "Underline" => t.bare underline
  | "Strikethrough" => t.bare strikethrough
  | "Superscript" => t.bare superscript
  | "Subscript" => t.bare subscript
  | "Color" => (t.payload Decode.string).map color
  | "BackgroundColor" => (t.payload Decode.string).map backgroundColor
  | "FontSize" => (t.payload Decode.string).map fontSize
  | "FontFamily" => (t.payload Decode.string).map fontFamily
  | _ => none

def encode : TextStyle → Json
  | bold => variant "Bold" none
  | italic => variant "Italic" none
  | underline => variant "Underline" none
  | strikethrough => variant "Strikethrough" none
  | superscript => variant "Superscript" none
  | subscript => variant "Subscript" none
  | color value => variant "Color" (some (.str value))
  | backgroundColor value => variant "BackgroundColor" (some (.str value))
  | fontSize value => variant "FontSize" (some (.str value))
  | fontFamily value => variant "FontFamily" (some (.str value))

end TextStyle

/-- A formula, shown in the line or as a block of its own. -/
structure Formula where
  content : String
  displayStyle : Option Bool
  deriving DecidableEq, Repr

namespace Formula

/-- A formula in the line. -/
def inline (content : String) : Formula := ⟨content, none⟩

def block (content : String) : Formula := ⟨content, some true⟩

def isBlock (f : Formula) : Bool := f.displayStyle.getD false

def decode : Decoder Formula := fun m j => do
  let f ← fields? 2 m j
  let content ← f.required 0 "content" Decode.string
  let displayStyle ← f.optional 1 "display_style" Decode.boolean
  return ⟨content, displayStyle⟩

def encode (f : Formula) : Json :=
  .obj (field "content" (.str f.content) ++ fieldIf "display_style" (f.displayStyle.map .bool))

end Formula

end Compendium
