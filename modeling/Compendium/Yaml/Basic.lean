/-!
# YAML values and positions

A value is a scalar, a sequence or a mapping. A cursor is a place in a text with its line and
column.
-/

namespace Compendium.Yaml

/-- How a scalar is written: without quotes, as a literal block, or in any other way. -/
inductive Style where
  | plain
  | literal
  | other
  deriving DecidableEq, Repr

/-- A scalar: its style, its tag and its text. -/
structure Scalar where
  style : Style
  tag : Option String
  text : String
  deriving DecidableEq, Repr

/-- A value. One that is marked with a number can be meant again elsewhere by that number. -/
inductive Node where
  | scalar (mark : Option Nat) (s : Scalar)
  | sequence (mark : Option Nat) (items : List Node)
  | mapping (mark : Option Nat) (entries : List (Node × Node))
  | again (mark : Nat)

namespace Node

/-- The value of a place where nothing is written. -/
def empty : Node := .scalar none ⟨.plain, none, ""⟩

mutual

/-- The last value with a mark, in the order in which values start. -/
def marked? (n : Nat) : Node → Option Node
  | scalar mark s => if mark == some n then some (scalar mark s) else none
  | sequence mark items =>
    (markedInItems? n items).or (if mark == some n then some (sequence mark items) else none)
  | mapping mark entries =>
    (markedInEntries? n entries).or (if mark == some n then some (mapping mark entries) else none)
  | again _ => none

/-- The last value with a mark among items. -/
def markedInItems? (n : Nat) : List Node → Option Node
  | [] => none
  | item :: rest => (markedInItems? n rest).or (marked? n item)

/-- The last value with a mark among the keys and values of entries. -/
def markedInEntries? (n : Nat) : List (Node × Node) → Option Node
  | [] => none
  | (key, value) :: rest => (markedInEntries? n rest).or ((marked? n value).or (marked? n key))

end

/-- A value of a document, where one that is meant again stands for the value with its mark. -/
def resolve (document : Node) : Node → Option Node
  | again n => document.marked? n
  | node => some node

end Node

/-- A space or tab. -/
def isBlank (c : Char) : Bool :=
  c == ' ' || c == '\t'

/-- A character that ends a line. -/
def isBreak (c : Char) : Bool :=
  [0x0A, 0x0D, 0x85, 0x2028, 0x2029].contains c.toNat

/-- A character that a text may hold. -/
def isAllowed (c : Char) : Bool :=
  let n := c.toNat
  n == 0x09 || n == 0x0A || n == 0x0D || (0x20 ≤ n && n ≤ 0x7E) || n == 0x85 ||
    (0xA0 ≤ n && n ≤ 0xD7FF) || (0xE000 ≤ n && n ≤ 0xFFFD) || 0x10000 ≤ n

/-- A place in a text. -/
structure Cursor where
  rest : List Char
  index : Nat := 0
  line : Nat := 0
  column : Nat := 0

namespace Cursor

/-- The character so many places ahead. -/
def peek (c : Cursor) (n : Nat) : Option Char :=
  c.rest[n]?

/-- Whether the next character is a given one. -/
def isAt (c : Cursor) (ch : Char) : Bool :=
  c.rest.head? == some ch

/-- Whether the next character has a property. -/
def sees (c : Cursor) (p : Char → Bool) : Bool :=
  match c.rest with
  | ch :: _ => p ch
  | [] => false

/-- Whether there is a blank, a line end or the end of the text so many places ahead. -/
def endsWordAt (c : Cursor) (n : Nat) : Bool :=
  match c.peek n with
  | some ch => isBlank ch || isBreak ch
  | none => true

/-- The place after the next character. -/
def skip (c : Cursor) : Cursor :=
  { c with rest := c.rest.drop 1, index := c.index + 1, column := c.column + 1 }

/-- The place after so many characters of the line. -/
def skipMany (n : Nat) (c : Cursor) : Cursor :=
  { c with rest := c.rest.drop n, index := c.index + n, column := c.column + n }

/-- The text of the line end here, and the start of the next line. -/
def takeBreak (c : Cursor) : List Char × Cursor :=
  match c.rest with
  | '\r' :: '\n' :: rest => (['\n'], ⟨rest, c.index + 2, c.line + 1, 0⟩)
  | ch :: rest =>
    let text := if ch.toNat == 0x2028 || ch.toNat == 0x2029 then [ch] else ['\n']
    (text, ⟨rest, c.index + 1, c.line + 1, 0⟩)
  | [] => ([], c)

/-- Whether a mark of a document's start or end stands at the start of the line. -/
def atDocumentMark (c : Cursor) : Bool :=
  c.column == 0 && c.endsWordAt 3 &&
    (c.rest.take 3 == ['-', '-', '-'] || c.rest.take 3 == ['.', '.', '.'])

end Cursor

end Compendium.Yaml
