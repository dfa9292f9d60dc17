import Compendium.Text.Blank
import Compendium.Text.Utf8

/-!
# Formatted text

A text in Markdown is a list of nodes, and the text of a node is a list of spans.
-/

namespace Compendium.Markdown

/-- A piece of running text. -/
inductive Span where
  | text (s : List Char)
  | code (s : List Char)
  | softBreak
  | hardBreak
  | emphasis (content : List Span)
  | strong (content : List Span)
  | strike (content : List Span)
  | link (target title : List Char) (content : List Span)
  | image (target title : List Char) (content : List Span)

/-- A character of running text, or the end of a line inside it: how the line ends, what the
containers take of the next line, and the blanks in front of the text of that line. -/
inductive Glyph where
  | char (c : Char)
  | turn (ending margin blanks : List Char)
  deriving DecidableEq, Repr

namespace Glyph

/-- The character that stands for a glyph; a line end stands for itself. -/
def flat : Glyph → Char
  | char c => c
  | turn _ _ _ => '\n'

/-- The text of a glyph with the blanks at the start of a line. -/
def spread : Glyph → List Char
  | char c => [c]
  | turn _ _ blanks => '\n' :: blanks

/-- The text of a glyph as it was written. -/
def written : Glyph → List Char
  | char c => [c]
  | turn ending margin blanks => ending ++ margin ++ blanks

/-- The text of a glyph without what containers take. -/
def inner : Glyph → List Char
  | char c => [c]
  | turn ending _ blanks => ending ++ blanks

end Glyph

/-- How the cells of a column are aligned. -/
inductive Alignment where
  | none
  | left
  | center
  | right
  deriving DecidableEq, Repr

/-- A block. Running text is kept as it was written until all link definitions are known. The text
of a heading may have blanks behind it. -/
inductive Node where
  | paragraph (text : List Glyph)
  | heading (level : Nat) (text : List Glyph) (behind : List Char)
  | code (info text : List Char)
  | literal (text : List Char)
  | rule
  | quote (content : List Node)
  | list (start : Option Nat) (tight : Bool) (items : List (List Node))
  | table (columns : List Alignment) (header : List (List Char)) (rows : List (List (List Char)))

def isLineEnd (c : Char) : Bool :=
  c == '\n' || c == '\r'

def isTabOrSpace (c : Char) : Bool :=
  c == ' ' || c == '\t'

/-- A blank that does not end a line. -/
def isLineBlank (c : Char) : Bool :=
  c == ' ' || c == '\t' || c.toNat == 0x0B || c.toNat == 0x0C

/-- A blank, also one that ends a line. -/
def isAnyBlank (c : Char) : Bool :=
  isLineBlank c || c == '\n' || c == '\r'

def isLetter (c : Char) : Bool :=
  ('a' ≤ c && c ≤ 'z') || ('A' ≤ c && c ≤ 'Z')

def isDigit (c : Char) : Bool :=
  '0' ≤ c && c ≤ '9'

def isLetterOrDigit (c : Char) : Bool :=
  isLetter c || isDigit c

def backslash : Char := Char.ofNat 0x5C

def grave : Char := Char.ofNat 0x60

/-- The number of times that a text starts with a character. -/
def runLength (c : Char) (s : List Char) : Nat :=
  (s.takeWhile (· == c)).length

end Compendium.Markdown
