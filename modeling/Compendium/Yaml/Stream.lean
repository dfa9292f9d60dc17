import Compendium.Yaml.Token

/-!
# The tokens of a text

Indentation opens and closes blocks. A value on one line may turn out to be a key when a colon
follows it; the place where its tokens start is remembered until then.
-/

namespace Compendium.Yaml

/-- A value that may turn out to be a key: the number of tokens before it and its place. A required
one must be a key. -/
structure PossibleKey where
  required : Bool
  number : Nat
  start : Cursor

/-- A text that is read so far. Tokens are kept latest first, and the possible keys of the open
brackets innermost first. -/
structure Stream where
  cursor : Cursor
  tokens : List Token := []
  indent : Int := -1
  outer : List Int := []
  keyAllowed : Bool := true
  key : Option PossibleKey := none
  outerKeys : List (Option PossibleKey) := []

namespace Stream

/-- Whether a bracket is open. -/
def inFlow (s : Stream) : Bool :=
  !s.outerKeys.isEmpty

def emit (s : Stream) (t : Token) : Stream :=
  { s with tokens := t :: s.tokens }

/-- Puts a token after so many. -/
def insertAt (s : Stream) (number : Nat) (t : Token) : Stream :=
  let later := s.tokens.length - number
  { s with tokens := s.tokens.take later ++ t :: s.tokens.drop later }

def openBlock (s : Stream) (column : Nat) (number : Nat) (t : Token) : Stream :=
  if !s.inFlow && s.indent < column then
    { s.insertAt number t with indent := column, outer := s.indent :: s.outer }
  else s

/-- Closes blocks of the given outer indentations that are deeper than a column. -/
def closeFrom (column : Int) : List Int → Stream → Stream
  | [], s => s
  | outer :: rest, s =>
    if column < s.indent then
      closeFrom column rest { s.emit .blockEnd with indent := outer, outer := rest }
    else s

/-- Closes the blocks that are deeper than a column. -/
def closeBlocks (s : Stream) (column : Int) : Stream :=
  if s.inFlow then s else closeFrom column s.outer s

/-- Forgets the possible key. A required one may not be forgotten. -/
def dropKey (s : Stream) : Option Stream :=
  match s.key with
  | some k => if k.required then none else some { s with key := none }
  | none => some s

/-- Remembers that a key may start here. -/
def noteKey (s : Stream) : Option Stream :=
  if s.keyAllowed then
    s.dropKey.map fun s =>
      { s with key := some ⟨!s.inFlow && s.indent == s.cursor.column, s.tokens.length, s.cursor⟩ }
  else some s

/-- The place of the next token: blanks, comments and line ends are passed. The first argument
bounds their number. -/
def toNext : Nat → Stream → Stream
  | 0, s => s
  | n + 1, s =>
    let c := s.cursor
    if c.index == 0 && c.sees (fun ch => ch.toNat == 0xFEFF) then toNext n
      { s with cursor := c.skip }
    else if c.isAt ' ' || ((s.inFlow || !s.keyAllowed) && c.isAt '\t') then
      toNext n { s with cursor := c.skip }
    else if c.isAt '#' then
      let c := c.skipMany (lineText c).length
      if c.sees isBreak then
        toNext n { s with cursor := (c.takeBreak).2, keyAllowed := s.keyAllowed || !s.inFlow }
      else { s with cursor := c }
    else if c.sees isBreak then
      toNext n { s with cursor := (c.takeBreak).2, keyAllowed := s.keyAllowed || !s.inFlow }
    else s

/-- A mark at the start of a line that closes all blocks. -/
def atLineStart (s : Stream) : Option Stream :=
  ((s.closeBlocks (-1)).dropKey).map fun s => { s with keyAllowed := false }

/-- An opening bracket. -/
def openFlow (s : Stream) (t : Token) : Option Stream :=
  s.noteKey.map fun s =>
    { s.emit t with cursor := s.cursor.skip, keyAllowed := true, key := none, outerKeys :=
      s.key :: s.outerKeys }

/-- A closing bracket. -/
def closeFlow (s : Stream) (t : Token) : Option Stream :=
  s.dropKey.map fun s =>
    let s := { s.emit t with cursor := s.cursor.skip, keyAllowed := false }
    match s.outerKeys with
    | key :: rest => { s with key, outerKeys := rest }
    | [] => s

/-- A mark that opens a block of its kind, unless a bracket is open. -/
def blockMark (s : Stream) (start mark : Token) (keyAllowed : Bool) : Option Stream :=
  if s.inFlow || s.keyAllowed then
    ((s.openBlock s.cursor.column s.tokens.length start).dropKey).map fun s =>
      { s.emit mark with cursor := s.cursor.skip, keyAllowed }
  else none

/-- Whether a possible key can still be one: it is on this line and not too far back. -/
def PossibleKey.fits (k : PossibleKey) (c : Cursor) : Bool :=
  k.start.line == c.line && c.index ≤ k.start.index + 1024

/-- The colon before a value. What it follows becomes a key if it can. -/
def valueMark (s : Stream) : Option Stream :=
  let bare (s : Stream) : Option Stream :=
    if s.inFlow || s.keyAllowed then
      let s := s.openBlock s.cursor.column s.tokens.length .blockMappingStart
      some { s.emit .value with cursor := s.cursor.skip, keyAllowed := !s.inFlow }
    else none
  match s.key with
  | some k =>
    if PossibleKey.fits k s.cursor then
      let s := (s.insertAt k.number .key).openBlock k.start.column k.number .blockMappingStart
      some { s.emit .value with cursor := s.cursor.skip, keyAllowed := false, key := none }
    else if k.required then none
    else bare { s with key := none }
  | none => bare s

/-- A token that may start a key, read at a place. -/
def leaf (s : Stream) (read : Cursor → Option (Token × Cursor)) : Option Stream := do
  let s ← s.noteKey
  let (t, next) ← read s.cursor
  return { s.emit t with cursor := next, keyAllowed := false }

def blockText (s : Stream) (literal : Bool) : Option Stream := do
  let s ← s.dropKey
  let (text, next) ← blockScalar literal s.indent s.cursor.skip
  let t := Token.scalar (if literal then .literal else .other) (String.ofList text)
  return { s.emit t with cursor := next, keyAllowed := true }

/-- A scalar in quotes. -/
def quotedText (s : Stream) (quote : Char) : Option Stream :=
  s.leaf fun c => (quotedFrom quote (c.rest.length + 1) [] c.skip).map fun (text, next) =>
    (.scalar .other (String.ofList text.reverse), next)

def plainText (s : Stream) : Option Stream := do
  let s ← s.noteKey
  let c := s.cursor
  let (text, broken, next) ← plainFrom s.inFlow (s.indent + 1).toNat (c.rest.length + 1) [] {} c
  let t := Token.scalar .plain (String.ofList text.reverse)
  return { s.emit t with cursor := next, keyAllowed := broken }

/-- Whether a plain scalar may start here. -/
def startsPlain (s : Stream) : Bool :=
  let c := s.cursor
  let marked := c.sees fun ch =>
    ['-', '?', ':', ',', '[', ']', '#', '&', '*', '!', '|', '>', '%', '@'].contains ch ||
      [0x7B, 0x7D, 0x27, 0x22, 0x60].contains ch.toNat
  let blankNext := match c.peek 1 with
    | some ch => isBlank ch
    | none => false
  !(c.endsWordAt 0 || marked) || (c.isAt '-' && !blankNext) ||
    (!s.inFlow && (c.isAt '?' || c.isAt ':') && !c.endsWordAt 1)

/-- Reads the next token where one stands. -/
def token (s : Stream) : Option Stream :=
  let c := s.cursor
  let skipping (s : Stream) (t : Token) (n : Nat) : Stream :=
    { s.emit t with cursor := s.cursor.skipMany n }
  match c.rest with
  | [] => none
  | ch :: _ =>
    if c.column == 0 && ch == '%' then
      s.atLineStart.bind fun s => (directive? s.cursor.skip).map fun (t, next) =>
        { s.emit t with cursor := next }
    else if c.atDocumentMark then
      s.atLineStart.map fun s => skipping s (if ch == '-' then .documentStart else .documentEnd) 3
    else if ch == '[' then s.openFlow .flowSequenceStart
    else if ch.toNat == 0x7B then s.openFlow .flowMappingStart
    else if ch == ']' then s.closeFlow .flowSequenceEnd
    else if ch.toNat == 0x7D then s.closeFlow .flowMappingEnd
    else if ch == ',' then
      s.dropKey.map fun s => { skipping s .flowEntry 1 with keyAllowed := true }
    else if ch == '-' && c.endsWordAt 1 then s.blockMark .blockSequenceStart .blockEntry true
    else if ch == '?' && (s.inFlow || c.endsWordAt 1) then
      s.blockMark .blockMappingStart .key (!s.inFlow)
    else if ch == ':' && (s.inFlow || c.endsWordAt 1) then s.valueMark
    else if ch == '*' then
      s.leaf fun c => (anchorName? c.skip).map fun (name, next) => (.alias name, next)
    else if ch == '&' then
      s.leaf fun c => (anchorName? c.skip).map fun (name, next) => (.anchor name, next)
    else if ch == '!' then s.leaf (tag? s.inFlow)
    else if ch == '|' && !s.inFlow then s.blockText true
    else if ch == '>' && !s.inFlow then s.blockText false
    else if ch == singleQuote || ch == doubleQuote then s.quotedText ch
    else if s.startsPlain then s.plainText
    else none

/-- The tokens from here on. The first argument bounds their number. -/
def tokens? : Nat → Stream → Option (List Token)
  | 0, _ => none
  | n + 1, s =>
    let s := toNext (s.cursor.rest.length + 1) s
    let s := s.closeBlocks s.cursor.column
    if s.cursor.rest.isEmpty then s.atLineStart.map fun s => s.tokens.reverse
    else s.token.bind (tokens? n)

end Stream

def Token.ofText? (text : String) : Option (List Token) :=
  let cs := text.toList
  if cs.all isAllowed then Stream.tokens? (cs.length + 1) { cursor := ⟨cs, 0, 0, 0⟩ } else none

end Compendium.Yaml
