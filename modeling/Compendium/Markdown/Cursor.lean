import Compendium.Markdown.Basic

/-!
# Places in a line

A tab reaches to the next column that is a multiple of four. Where only some of its columns are
taken, the others are left over as spare columns.
-/

namespace Compendium.Markdown

def lineText (s : List Char) : List Char :=
  s.takeWhile fun c => !isLineEnd c

def lineEnding : List Char → List Char
  | '\r' :: '\n' :: _ => ['\r', '\n']
  | c :: _ => [c]
  | [] => []

/-- The text after the first line. -/
def afterLine (s : List Char) : List Char :=
  let rest := s.dropWhile fun c => !isLineEnd c
  rest.drop (lineEnding rest).length

/-- The text after the first line, if that holds only blanks. -/
def afterBlankLine? (s : List Char) : Option (List Char) :=
  if (lineText s).all isLineBlank then some (afterLine s) else none

/-- The text in front of a later place. -/
def upTo (s later : List Char) : List Char :=
  s.take (s.length - later.length)

/-- A place in a line: the text from there on, the number of characters since the start of the line
or the last tab, and the columns of that tab that are not taken. -/
structure Cursor where
  rest : List Char
  offset : Nat
  spare : Nat

namespace Cursor

/-- The start of a line. -/
def start (s : List Char) : Cursor := ⟨s, 0, 0⟩

/-- Takes columns of spaces and tabs after an offset. The number of columns that are not there comes
first. -/
def skipFrom : Nat → Nat → List Char → Nat × Cursor
  | 0, offset, s => (0, ⟨s, offset, 0⟩)
  | n + 1, offset, ' ' :: rest => skipFrom n (offset + 1) rest
  | n + 1, offset, '\t' :: rest =>
    let width := 4 - offset % 4
    if width ≤ n + 1 then skipFrom (n + 1 - width) 0 rest else (0, ⟨rest, 0, width - (n + 1)⟩)
  | n + 1, offset, s => (n + 1, ⟨s, offset, 0⟩)
termination_by _ _ s => s.length

/-- Takes so many columns of blanks. The number of columns that are not there comes first. -/
def skip (n : Nat) (c : Cursor) : Nat × Cursor :=
  if n ≤ c.spare then (0, { c with spare := c.spare - n }) else skipFrom
    (n - c.spare) c.offset c.rest

/-- Takes at most so many columns of blanks. Their number comes first. -/
def skipUpTo (n : Nat) (c : Cursor) : Nat × Cursor :=
  let (missing, c) := c.skip n
  (n - missing, c)

def atLineEnd (c : Cursor) : Bool :=
  match c.rest with
  | [] => true
  | d :: _ => isLineEnd d

/-- The place after so many characters that are not blanks. -/
def advance (n : Nat) (c : Cursor) : Cursor :=
  { c with rest := c.rest.drop n, offset := c.offset + n }

/-- The place after the mark of a quotation and one column of blanks. -/
def quoteMark? (c : Cursor) : Option Cursor :=
  match c.rest with
  | '>' :: _ => some ((c.advance 1).skip 1).2
  | _ => none

/-- The spaces that stand for the columns of a tab that are not taken. -/
def spareText (c : Cursor) : List Char :=
  List.replicate c.spare ' '

end Cursor

end Compendium.Markdown
