import Compendium.Markdown.Link
import Compendium.Markdown.Marker
import Compendium.Markdown.Table

/-!
# Blocks

A text is read block by block, each from the start of a line on. Quotations and list items that the
line continues stay open; the rest of the line opens further ones and starts the block, which takes
as many lines as belong to it.
-/

namespace Compendium.Markdown

/-- A container that is open, with its finished content, latest first. -/
inductive Frame where
  | root (content : List Node)
  | quote (content : List Node)
  | list (mark : Char) (start : Option Nat) (tight : Bool) (items : List (List Node))
  | item (indent : Nat) (content : List Node)

namespace Frame

/-- A finished node in a container. -/
def add (node : Node) : Frame → Frame
  | root content => root (node :: content)
  | quote content => quote (node :: content)
  | list mark start tight items => list mark start tight items
  | item indent content => item indent (node :: content)

/-- A container as a node of the container around it. -/
def close (frame outer : Frame) : Frame :=
  match frame with
  | root _ => outer
  | quote content => outer.add (.quote content.reverse)
  | list _ start tight items => outer.add (.list start tight items.reverse)
  | item _ content =>
    match outer with
    | list mark start tight items => list mark start tight (content.reverse :: items)
    | other => other

/-- The place after what a container takes of a line, if the line continues it. -/
def continue? (c : Cursor) : Frame → Option Cursor
  | quote _ => (c.skip 3).2.quoteMark?
  | item indent _ =>
    let (missing, inner) := c.skip indent
    if missing = 0 || inner.atLineEnd then some inner else none
  | _ => some c

/-- How many containers, outermost first, a line continues, and the place after what they take. -/
def continued : List Frame → Cursor → Nat × Cursor
  | [], c => (0, c)
  | frame :: inner, c =>
    match frame.continue? c with
    | none => (0, c)
    | some next =>
      let (n, last) := continued inner next
      (n + 1, last)

/-- Whether the line at the start of a text continues all containers, innermost first, and the place
after what they take. -/
def inside (frames : List Frame) (s : List Char) : Bool × Cursor :=
  let (n, c) := continued frames.reverse (Cursor.start s)
  (n == frames.length, c)

end Frame

/-- Whether a line, without its indentation, ends running text. `inside` says that the line
continues all containers of the text, `inTable` that rows are being read. -/
def interrupts (inside inTable : Bool) (s : List Char) : Bool :=
  (lineText s).isEmpty || isRule s || (headingLevel? s).isSome || (fence? 0 s).isSome ||
    s.head? == some '>' ||
    (match listMark? s with
      | some m => !inside || inTable || mayInterrupt m s
      | none => false) ||
    (literalEnd? s).isSome || startsBlockTag s

/-- The columns of the table whose first row starts at a text, and the text after the row under it.
No tab stands before that row. -/
def tableAt? (frames : List Frame) (s : List Char) : Option (List Alignment × List Char) :=
  match headColumns? (lineText s) with
  | none => none
  | some count =>
    let (inside, c) := Frame.inside frames (afterLine s)
    let (missing, inner) := (Cursor.start c.rest).skip 4
    if inside && 0 < missing then
      match delimiters? (lineText inner.rest) with
      | some columns =>
        if 0 < count && count = columns.length then some (columns, afterLine inner.rest) else none
      | none => none
    else none

/-- Whether a table starts at a text in such a way that it ends running text: with a bar. -/
def startsTable (frames : List Frame) (s : List Char) : Bool :=
  s.head? == some '|' && (tableAt? frames s).isSome

/-- How running text goes on after a line. -/
inductive Following where
  | nothing
  | underline (level : Nat) (rest : List Char)
  | line (margin blanks rest : List Char)

/-- How running text goes on with the line at the start of a text. -/
def following (frames : List Frame) (s : List Char) : Following :=
  let (inside, c) := Frame.inside frames s
  let (missing, inner) := c.skip 4
  let marked := 0 < missing
  let text := inner.rest.dropWhile isTabOrSpace
  match if marked && inside then underline? inner.rest else none with
  | some (level, rest) => .underline level rest
  | none =>
    let ended := marked && (interrupts inside false inner.rest || startsTable frames inner.rest)
    if ended || (lineText text).isEmpty then .nothing
    else .line (upTo s c.rest) (upTo c.rest text) text

/-- Running text: its glyphs, the level that an underline gives it, and the text after it. -/
structure Passage where
  text : List Glyph
  level : Option Nat
  rest : List Char

/-- The running text at the start of a text. The number bounds its lines. -/
def passageWithin (frames : List Frame) : Nat → List Char → Passage
  | 0, s => ⟨[], none, s⟩
  | n + 1, s =>
    let line := lineText s
    let glyphs := line.map Glyph.char
    let ending := lineEnding (s.drop line.length)
    let next := s.drop (line.length + ending.length)
    match following frames next with
    | .nothing => ⟨glyphs, none, next⟩
    | .underline level rest => ⟨glyphs, some level, rest⟩
    | .line margin blanks text =>
      let more := passageWithin frames n text
      { more with text := glyphs ++ .turn ending margin blanks :: more.text }

/-- The running text at the start of a text. -/
def passage (frames : List Frame) (s : List Char) : Passage :=
  passageWithin frames s.length s

/-- The text after so many lines. -/
def afterLines : Nat → List Char → List Char
  | 0, s => s
  | n + 1, s => afterLines n (afterLine s)

/-- The definition at the start of a text, and the text after its lines. -/
def definitionAt? (frames : List Frame) (s : List Char) : Option (Definition × List Char) :=
  if s.head? == some '[' then
    let text := (passage frames s).text.flatMap Glyph.spread
    (definition? text).map fun (d, rest) =>
      (d, afterLines (((upTo text rest).filter (· == '\n')).length + 1) s)
  else none

/-- The rows of a table, and the text after them. The number bounds the rows. -/
def rowsWithin (frames : List Frame) (columns : Nat) :
    Nat → List Char → List (List (List Char)) × List Char
  | 0, s => ([], s)
  | n + 1, s =>
    let (inside, c) := Frame.inside frames s
    let text := c.rest.dropWhile isTabOrSpace
    if inside && !interrupts true true text then
      match rowCells (lineText text) with
      | [] => ([], s)
      | cells =>
        let (rows, rest) := rowsWithin frames columns n (afterLine text)
        (fitRow columns cells :: rows, rest)
    else ([], s)

/-- A line of indented code, whether it is blank, and the text after it. -/
structure CodeLine where
  text : List Char
  isBlank : Bool
  rest : List Char

/-- The lines of indented code from a place on. The number bounds them. -/
def indentedLines (frames : List Frame) : Nat → Cursor → List CodeLine
  | 0, _ => []
  | n + 1, c =>
    let (line, rest) := literalLine c.rest
    let first : CodeLine := ⟨c.spareText ++ shownLine line, (afterBlankLine? c.rest).isSome, rest⟩
    let (inside, next) := Frame.inside frames rest
    let (missing, inner) := next.skip 4
    if inside && (missing = 0 || inner.atLineEnd) && !inner.rest.isEmpty then
      first :: indentedLines frames n inner
    else [first]

/-- The lines of code up to the end of its fence, and the text after that. The number bounds the
lines. -/
def fencedLines (frames : List Frame) (f : Fence) : Nat → List Char → List (List Char) × List Char
  | 0, s => ([], s)
  | n + 1, s =>
    let (inside, c) := Frame.inside frames s
    let (_, start) := c.skip f.indent
    let (missing, inner) := start.skip (4 - f.indent)
    if inside then
      match if 0 < missing then afterFence? f inner.rest else none with
      | some rest => ([], rest)
      | none =>
        let (line, rest) := literalLine start.rest
        let (lines, last) := fencedLines frames f n rest
        ((start.spareText ++ shownLine line) :: lines, last)
    else ([], s)

/-- The lines of a block of tags, the first with some blanks in front, and the text after them. The
number bounds the lines. -/
def literalLines (frames : List Frame) (ending : LiteralEnd) :
    Nat → List Char → List Char → List (List Char) × List Char
  | 0, _, s => ([], s)
  | n + 1, blanks, s =>
    let (line, rest) := literalLine s
    let first := blanks ++ shownLine line
    let (inside, c) := Frame.inside frames rest
    let ended := match ending with
      | .text mark => Text.occursIn mark line
      | .blank => (afterBlankLine? c.rest).isSome
    if !inside || ended || c.rest.isEmpty then ([first], rest)
    else
      let (lines, last) := literalLines frames ending n c.spareText c.rest
      (first :: lines, last)

/-- The open containers, innermost first, and what was noted on the way: whether a blank line came
last, whether the innermost item has had nothing but a blank line, and the definitions. -/
structure Reading where
  frames : List Frame
  afterBlank : Bool
  emptyItem : Bool
  definitions : List Definition

namespace Reading

def start : Reading := ⟨[.root []], false, false, []⟩

/-- A finished node in the innermost container. -/
def add (r : Reading) (node : Node) : Reading :=
  match r.frames with
  | frame :: outer => { r with frames := frame.add node :: outer }
  | [] => r

/-- Finishes the innermost container. -/
def close (r : Reading) : Reading :=
  match r.frames with
  | frame :: outer :: rest =>
    let emptyItem := match frame with
      | .list _ _ true _ => false
      | _ => r.emptyItem
    { r with frames := frame.close outer :: rest, emptyItem }
  | _ => r

/-- Finishes so many innermost containers. -/
def closeMany : Nat → Reading → Reading
  | 0, r => r
  | n + 1, r => closeMany n r.close

/-- Whether the innermost container is a list between its items. -/
def inList (r : Reading) : Bool :=
  match r.frames with
  | .list _ _ _ _ :: _ => true
  | _ => false

/-- Whether the innermost container is a list item. -/
def inItem (r : Reading) : Bool :=
  match r.frames with
  | .item _ _ :: _ => true
  | _ => false

/-- An item that starts with two blank lines is empty. -/
def closeEmptyItem (r : Reading) : Reading :=
  let closed := if r.emptyItem && r.afterBlank && r.inItem then r.close else r
  { closed with emptyItem := false }

/-- The list around the innermost item is loose. -/
def loosen : List Frame → List Frame
  | .item indent content :: .list mark start _ items :: rest =>
    .item indent content :: .list mark start false items :: rest
  | frames => frames

/-- Makes room for a block: a list between its items ends, and a block after a blank line makes the
list around it loose. -/
def beforeBlock (r : Reading) : Reading :=
  let r := r.closeEmptyItem
  let r := if r.inList then r.close else r
  if r.afterBlank then { r with frames := loosen r.frames, afterBlank := false } else r

def openItem (m : ListMark) (indent : Nat) (r : Reading) : Reading :=
  let r := r.closeEmptyItem
  let fresh (r : Reading) : Reading :=
    { r with
      frames := .item indent [] :: .list m.mark m.start true [] :: r.frames
      afterBlank := false }
  match r.frames with
  | .list mark start tight items :: rest =>
    if mark == m.mark then
      { r with
        frames := .item indent [] :: .list mark start (tight && !r.afterBlank) items :: rest
        afterBlank := false }
    else fresh r.beforeBlock
  | _ => fresh r.beforeBlock

/-- A blank line. The item of an empty list item takes no indentation after it. -/
def blankLine (r : Reading) : Reading :=
  match r.frames with
  | .quote _ :: _ => r
  | .item indent content :: outer =>
    { r with
      frames := .item (if r.emptyItem then 0 else indent) content :: outer, afterBlank := true }
  | _ => { r with afterBlank := true }

/-- Reads a table, a paragraph or a heading with an underline. -/
def readText (r : Reading) (s : List Char) : Reading × List Char :=
  match if endsEscaped (lineText s) then none else tableAt? r.frames s with
  | some (columns, rest) =>
    let (rows, last) := rowsWithin r.frames columns.length rest.length rest
    (r.add (.table columns (fitRow columns.length (rowCells (lineText s))) rows), last)
  | none =>
    let p := passage r.frames s
    match p.level with
    | some level => (r.add (.heading level p.text []), p.rest)
    | none => (r.add (.paragraph p.text), p.rest)

/-- Reads indented code. Blank lines at its end do not belong to it. -/
def readIndented (r : Reading) (c : Cursor) : Reading × List Char :=
  let lines := (indentedLines r.frames (c.rest.length + 1) c).reverse.dropWhile (·.isBlank)
  let rest := match lines with
    | last :: _ => last.rest
    | [] => afterLine c.rest
  (r.add (.code [] (lines.reverse.flatMap (·.text))), rest)

/-- Reads a heading after its marks. -/
def readHeading (r : Reading) (level : Nat) (s : List Char) : Reading × List Char :=
  let line := headingText s
  let text := Text.dropEndWhile isLineBlank line
  (r.add (.heading level (text.map Glyph.char) (line.drop text.length)), afterLine s)

/-- Reads the block at a place in a line that is not blank. -/
def readLeaf (r : Reading) (c : Cursor) : Reading × List Char :=
  let r := r.beforeBlock
  let (indent, inner) := c.skipUpTo 4
  let s := inner.rest
  if indent = 4 then r.readIndented inner
  else
    match tagBlock? s with
    | some ending =>
      let (lines, rest) := literalLines r.frames ending (s.length + 1) (List.replicate indent ' ') s
      (r.add (.literal lines.flatten), rest)
    | none =>
      if isRule s then (r.add .rule, afterLine s)
      else
        match headingLevel? s, fence? indent s with
        | some level, _ => r.readHeading level (s.drop level)
        | none, some (fence, info, rest) =>
          let (lines, last) := fencedLines r.frames fence (rest.length + 1) rest
          (r.add (.code info lines.flatten), last)
        | none, none =>
          match definitionAt? r.frames s with
          | some (d, rest) => ({ r with definitions := r.definitions ++ [d] }, rest)
          | none => r.readText s

/-- Reads a blank line or a block. -/
def readRest (r : Reading) (c : Cursor) : Reading × List Char :=
  match afterBlankLine? c.rest with
  | some rest => (r.blankLine, rest)
  | none => r.readLeaf c

/-- Opens the containers that start at a place, and reads what follows their marks. The number
bounds the containers. -/
def openWithin : Nat → Cursor → Reading → Reading × List Char
  | 0, c, r => r.readRest c
  | n + 1, c, r =>
    let (indent, inner) := c.skipUpTo 4
    if indent = 4 then r.readRest c
    else
      match if isRule inner.rest then none else listMark? inner.rest with
      | some m =>
        let (width, content) := afterMark m inner
        let r := r.openItem m (indent + width)
        match afterBlankLine? content.rest with
        | some rest => ({ r with emptyItem := true }, rest)
        | none => openWithin n content r
      | none =>
        match inner.quoteMark? with
        | some content =>
          let r := r.beforeBlock
          openWithin n content { r with frames := .quote [] :: r.frames }
        | none => r.readRest c

/-- Reads one block from the start of a line on. -/
def readBlock (r : Reading) (s : List Char) : Reading × List Char :=
  let (n, c) := Frame.continued r.frames.reverse (Cursor.start s)
  openWithin c.rest.length c (closeMany (r.frames.length - n) r)

/-- Reads blocks. The number bounds them. -/
def readWithin : Nat → List Char → Reading → Reading
  | 0, _, r => r
  | n + 1, s, r =>
    if s.isEmpty then r
    else
      let (next, rest) := r.readBlock s
      readWithin n rest next

/-- The nodes and the link definitions of what was read. -/
def finish (r : Reading) : List Node × List Definition :=
  let closed := closeMany r.frames.length r
  match closed.frames with
  | [.root content] => (content.reverse, closed.definitions)
  | _ => ([], closed.definitions)

end Reading

/-- The nodes and the link definitions of a text. -/
def parse (s : List Char) : List Node × List Definition :=
  (Reading.readWithin s.length s Reading.start).finish

end Compendium.Markdown
