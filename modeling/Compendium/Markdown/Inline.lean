import Compendium.Markdown.Link
import Compendium.Markdown.Tag
import Compendium.Markdown.Token

/-!
# Running text

Tokens are read from left to right. Code, tags and automatic links come first, then links, then
emphasis inside and around them. A closing bracket makes a link of what follows its opening bracket.
-/

namespace Compendium.Markdown

/-- A piece, or a bracket that may open a link. A bracket keeps its text and the text after it. -/
inductive Item where
  | piece (p : Piece)
  | bracket (isImage active : Bool) (shown : List Char) (rest : List Glyph)

namespace Item

def span (s : Span) : Item :=
  piece (.span s)

def text (s : List Char) : Item :=
  span (.text s)

/-- An item as a piece; a bracket is text. -/
def toPiece : Item → Piece
  | piece p => p
  | bracket _ _ shown _ => .span (.text shown)

def isRun : Item → Bool
  | piece (.run _) => true
  | _ => false

/-- Links do not hold links: the brackets before a link open none. -/
def deactivate : Item → Item
  | bracket false _ shown rest => bracket false false shown rest
  | item => item

end Item

/-- A bracket among items: the items after it, what it is, and the items before it. Items are latest
first. -/
structure Bracketed where
  inner : List Item
  isImage : Bool
  active : Bool
  shown : List Char
  rest : List Glyph
  outer : List Item

/-- The latest bracket among items, after some items that come later, earliest first. -/
def bracketed? : List Item → List Item → Option Bracketed
  | _, [] => none
  | inner, .bracket isImage active shown rest :: outer =>
    some ⟨inner.reverse, isImage, active, shown, rest, outer⟩
  | inner, item :: outer => bracketed? (item :: inner) outer

def flatUpTo (s later : List Glyph) : List Char :=
  (s.take (s.length - later.length)).map Glyph.flat

/-- The tokens from a place on that has so much text after it. A token in which the place lies keeps
its end. -/
def cutTo (left : Nat) (tokens : List Token) : List Token :=
  match tokens.dropWhile fun t => left ≤ t.rest.length with
  | [] => []
  | t :: rest =>
    let cut := t.start.length - left
    if cut = 0 then t :: rest else ⟨.text, t.start.drop cut, t.size - cut⟩ :: rest

/-- The tokens after the one that ends at or behind a place, which has so much text after it. -/
def cutThrough (left : Nat) (tokens : List Token) : List Token :=
  (tokens.dropWhile fun t => left < t.rest.length).drop 1

/-- What is known where running text is read: the definitions, and whether the text is a cell. -/
structure Setting where
  definitions : List Definition
  inTable : Bool

/-- The target and title of a label, with some tokens. -/
def Setting.find? (g : Setting) (label : List Char) (tokens : List Token) :
    Option ((List Char × List Char) × List Token) :=
  (findDefinition? g.definitions label).map fun d => (d, tokens)

/-- The target and title of a link after its closing bracket, and the tokens after the link. `inner`
is the text of the link with the bracket. -/
def Setting.linkAfter? (g : Setting) (inner : List Char) (closing : Token) (tokens : List Token) :
    Option ((List Char × List Char) × List Token) :=
  let shortcut (after : List Token) :=
    match label? g.inTable inner with
    | some (label, []) => g.find? label after
    | _ => none
  let inPlace := match closing.rest.map Glyph.flat with
    | '(' :: s => inlineTarget? g.inTable s
    | _ => none
  match inPlace with
  | some (target, rest) => some (target, cutTo rest.length tokens)
  | none =>
    match tokens with
    | [] => shortcut []
    | next :: _ =>
      match next.start.map Glyph.flat with
      | '[' :: ']' :: _ => shortcut (tokens.drop 2)
      | '[' :: s =>
        match label? g.inTable s with
        | some (label, rest) => g.find? label (cutThrough rest.length tokens)
        | none => shortcut tokens
      | _ => shortcut tokens

/-- The pieces of items, latest first. A backslash at the end of the last line is text if there are
marks that may be more than text. -/
def piecesOf (marked : Bool) (items : List Item) : List Piece :=
  match items.map Item.toPiece with
  | .escapedBreak :: rest =>
    ((if marked then .span (.text [backslash]) else .escapedBreak) :: rest).reverse
  | pieces => pieces.reverse

def linkSpan (isImage : Bool) (target : List Char × List Char) (inner : List Item) : Span :=
  let content := resolve (piecesOf (inner.any Item.isRun) inner)
  if isImage then .image target.1 target.2 content else .link target.1 target.2 content

/-- What a closing bracket makes of the items so far, and the tokens after that. -/
def Setting.closeBracket (g : Setting) (items : List Item) (closing : Token) (tokens : List Token) :
    List Item × List Token :=
  match bracketed? [] items with
  | none => (Item.text closing.chars :: items, tokens)
  | some b =>
    let inner := flatUpTo b.rest closing.rest
    match if b.active then g.linkAfter? inner closing tokens else none with
    | none => (Item.text closing.chars :: (b.inner ++ Item.text b.shown :: b.outer), tokens)
    | some (target, rest) =>
      (.span (linkSpan b.isImage target b.inner) ::
        (if b.isImage then b.outer else b.outer.map Item.deactivate), rest)

/-- The characters of a code span: line ends are spaces, and in a table a backslash before a bar is
dropped. -/
def codeChars (inTable : Bool) : List Glyph → List Char
  | [] => []
  | .turn ending _ blanks :: rest => ending.map (fun _ => ' ') ++ blanks ++ codeChars inTable rest
  | .char c :: rest =>
    if inTable && c == backslash && firstChar? rest == some '|' then codeChars inTable rest
    else c :: codeChars inTable rest

/-- The content of a code span: one space on each side is dropped. -/
def codeContent (inTable : Bool) (s : List Glyph) : List Char :=
  let flat := codeChars inTable s
  if flat.head? == some ' ' && flat.getLast? == some ' ' && flat.any (· != ' ') then
    (flat.drop 1).dropLast
  else flat

/-- Whether a token is a run of exactly so many graves. -/
def Token.isGraves (count : Nat) (t : Token) : Bool :=
  match t.kind with
  | .graves n _ => n == count
  | _ => false

/-- A code span after some items, or the graves as text, and the tokens after it. The first of
escaped graves is text. -/
def Setting.codeSpan (g : Setting) (items : List Item) (count : Nat) (escaped : Bool) (t : Token)
    (tokens : List Token) : List Item × List Token :=
  let wanted := if escaped then count - 1 else count
  match if wanted = 0 then [] else tokens.dropWhile fun u => !u.isGraves wanted with
  | [] => (Item.text t.chars :: items, tokens)
  | closing :: rest =>
    let content := t.rest.take (t.rest.length - closing.start.length)
    let code := Item.span (.code (codeContent g.inTable content))
    (code :: (if escaped then Item.text [grave] :: items else items), rest)

/-- What an opening angle bracket starts: an automatic link, a tag as text, or nothing special. -/
def angle (t : Token) (tokens : List Token) : Item × List Token :=
  let s := (t.start.drop 1).map Glyph.flat
  let written (show_ : Glyph → List Char) (rest : List Char) :=
    (Item.text ((t.start.take (t.start.length - rest.length)).flatMap show_),
      cutTo rest.length tokens)
  match address? s, mailAddress? s, tag? s, remark? s with
  | some (address, rest), _, _, _ =>
    (.span (.link address [] [.text address]), cutTo rest.length tokens)
  | none, some (address, rest), _, _ =>
    (.span (.link ("mailto:".toList ++ address) [] [.text address]), cutTo rest.length tokens)
  | none, none, some rest, _ => written Glyph.inner rest
  | none, none, none, some rest => written Glyph.written rest
  | none, none, none, none => (Item.text t.chars, tokens)

/-- The items with what a token starts, and the tokens after that. -/
def Setting.step (g : Setting) (items : List Item) (t : Token) (tokens : List Token) :
    List Item × List Token :=
  match t.kind with
  | .text => (Item.text t.chars :: items, tokens)
  | .shown s => (Item.text s :: items, tokens)
  | .run r => (.piece (.run r) :: items, tokens)
  | .graves count escaped => g.codeSpan items count escaped t tokens
  | .angle =>
    let (item, rest) := angle t tokens
    (item :: items, rest)
  | .opening isImage => (.bracket isImage true t.chars t.rest :: items, tokens)
  | .closing => g.closeBracket items t tokens
  | .softBreak => (.span .softBreak :: items, tokens)
  | .hardBreak false => (.span .hardBreak :: items, tokens)
  | .hardBreak true => (.piece .escapedBreak :: items, tokens)

/-- The items of tokens, latest first, after some items. The first argument bounds the tokens. -/
def Setting.itemsWithin (g : Setting) : Nat → List Item → List Token → List Item
  | 0, items, _ => items
  | _ + 1, items, [] => items
  | n + 1, items, t :: tokens =>
    let (next, rest) := g.step items t tokens
    g.itemsWithin n next rest

mutual

/-- A span with the texts inside it joined. -/
def joinSpan : Span → Span
  | .emphasis content => .emphasis (joinTexts content)
  | .strong content => .strong (joinTexts content)
  | .strike content => .strike (joinTexts content)
  | .link target title content => .link target title (joinTexts content)
  | .image target title content => .image target title (joinTexts content)
  | .text s => .text s
  | .code s => .code s
  | .softBreak => .softBreak
  | .hardBreak => .hardBreak

def joinTexts : List Span → List Span
  | [] => []
  | s :: rest =>
    match joinSpan s, joinTexts rest with
    | .text a, .text b :: others => .text (a ++ b) :: others
    | first, others => first :: others

end

def Setting.spans (g : Setting) (text : List Glyph) (behind : List Char) : List Span :=
  let all := tokens g.inTable behind text
  joinTexts (resolve (piecesOf (all.any Token.isMark) (g.itemsWithin all.length [] all)))

end Compendium.Markdown
