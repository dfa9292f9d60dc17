import Compendium.Markdown.Emphasis
import Compendium.Markdown.Entity

/-!
# Tokens of running text

Running text is cut into characters that are text, characters that may be more, and breaks. A token
keeps the text from its first character on, so that what follows can be read as it was written. A
backslash in front of punctuation belongs to no token.
-/

namespace Compendium.Markdown

/-- What a token may be. -/
inductive TokenKind where
  | text
  | shown (s : List Char)
  | run (r : Run)
  | graves (count : Nat) (escaped : Bool)
  | angle
  | opening (isImage : Bool)
  | closing
  | softBreak
  | hardBreak (escaped : Bool)

/-- A token: what it may be, the text from its first character on, and its number of characters. -/
structure Token where
  kind : TokenKind
  start : List Glyph
  size : Nat

namespace Token

/-- The text after a token. -/
def rest (t : Token) : List Glyph :=
  t.start.drop t.size

/-- The characters of a token. -/
def chars (t : Token) : List Char :=
  (t.start.take t.size).map Glyph.flat

def isBlank (t : Token) : Bool :=
  match t.kind, t.start with
  | .text, .char c :: _ => t.size == 1 && isLineBlank c
  | _, _ => false

/-- Whether a token may be more than text. -/
def isMark (t : Token) : Bool :=
  match t.kind with
  | .run _ | .graves _ _ | .angle | .opening _ | .closing => true
  | _ => false

/-- A token of a text that has some more text behind it. -/
def before (behind : List Char) (t : Token) : Token :=
  { t with start := t.start ++ behind.map Glyph.char }

/-- A token that takes the text behind it. -/
def extend (behind : List Char) (t : Token) : Token :=
  let kind := match t.kind with
    | .run r => .run { r with behind }
    | other => other
  { t.before behind with kind, size := t.size + behind.length }

end Token

/-- The number of blanks just before the text of a line, if that is where the tokens end. -/
def blanksBefore : List Token → Nat
  | [] => 0
  | t :: _ =>
    match t.kind, (t.start.take t.size).getLast? with
    | .softBreak, some (.turn _ margin blanks) | .hardBreak _, some (.turn _ margin blanks) =>
      ((margin ++ blanks).reverse.takeWhile isLineBlank).length
    | _, _ => 0

/-- The tokens, latest first, with the break that ends a line. Blanks before it are dropped, and two
of them make it hard. -/
def addBreak (start : List Glyph) (tokens : List Token) : List Token :=
  let kept := tokens.dropWhile Token.isBlank
  let blanks := tokens.length - kept.length + blanksBefore kept
  ⟨if 2 ≤ blanks then .hardBreak false else .softBreak, start, 1⟩ :: kept

/-- The number of times that a text starts with a character. -/
def glyphRun (c : Char) (s : List Glyph) : Nat :=
  (s.takeWhile (· == .char c)).length

/-- Whether a run of a mark can be emphasis: tildes come alone or in pairs. -/
def isRunLength (mark : Char) (length : Nat) : Bool :=
  mark != '~' || length ≤ 2

/-- The character at the start of a text, unless a line ends there. -/
def firstChar? : List Glyph → Option Char
  | .char c :: _ => some c
  | _ => none

def runToken (mark : Char) (before : Option Char) (s : List Glyph) : Token :=
  let length := glyphRun mark s
  let r := Run.ofNeighbours mark length before (firstChar? (s.drop length))
  ⟨if isRunLength mark length && (r.opens || r.closes) then .run r else .text, s, length⟩

def escapedToken (c : Char) (s : List Glyph) : Token :=
  if c == grave then ⟨.graves (glyphRun c s) true, s, glyphRun c s⟩ else ⟨.text, s, 1⟩

/-- The token of a character that no backslash escapes. -/
def plainToken (before : Option Char) (c : Char) (s : List Glyph) : Token :=
  if c == grave then ⟨.graves (glyphRun c s) false, s, glyphRun c s⟩
  else if c == '<' then
    ⟨if firstChar? (s.drop 1) == some backslash then .text else .angle, s, 1⟩
  else if c == '&' then
    let rest := (s.drop 1).map Glyph.flat
    match reference? rest with
    | some (cs, tail) => ⟨.shown cs, s, 1 + (rest.length - tail.length)⟩
    | none => ⟨.text, s, 1⟩
  else if c == '!' && firstChar? (s.drop 1) == some '[' then ⟨.opening true, s, 2⟩
  else if c == '[' then ⟨.opening false, s, 1⟩
  else if c == ']' then ⟨.closing, s, 1⟩
  else if c == '*' || c == '_' || c == '~' then runToken c before s
  else ⟨.text, s, 1⟩

/-- The token at the start of a text, if it is not a line end. -/
def nextToken? (inTable : Bool) (before : Option Char) (s : List Glyph) : Option Token :=
  match s with
  | [] => none
  | .turn _ _ _ :: _ => none
  | .char c :: rest =>
    if c == backslash then
      if inTable && startsTableEscape (s.take 3 |>.map Glyph.flat) then some ⟨.text, s.drop 2, 1⟩
      else
        match rest with
        | .char d :: _ =>
          some (if Text.isAsciiPunctuation d then escapedToken d rest else ⟨.text, s, 1⟩)
        | .turn _ _ _ :: _ => some ⟨.hardBreak true, s, 2⟩
        | [] => some ⟨.text, s, 1⟩
    else some (plainToken before c s)

/-- The tokens of a text, latest first, after some tokens and a character. The first argument bounds
the length of the text. -/
def tokensWithin (inTable : Bool) : Nat → Option Char → List Token → List Glyph → List Token
  | 0, _, tokens, _ => tokens
  | n + 1, before, tokens, s =>
    match nextToken? inTable before s with
    | some t =>
      tokensWithin inTable n (firstChar? (t.start.drop (t.size - 1))) (t :: tokens) t.rest
    | none =>
      match s with
      | [] => tokens
      | _ :: rest => tokensWithin inTable n none (addBreak s tokens) rest

/-- The tokens, latest first, with some text behind them, which the last one takes. -/
def extendLast (behind : List Char) : List Token → List Token
  | [] => []
  | t :: rest => t.extend behind :: rest.map (Token.before behind)

/-- The tokens of a text. Blanks at its end are dropped; some text behind it belongs to the last
token. -/
def tokens (inTable : Bool) (behind : List Char) (s : List Glyph) : List Token :=
  let latest := (tokensWithin inTable s.length none [] s).dropWhile Token.isBlank
  (if behind.isEmpty then latest else extendLast behind latest).reverse

end Compendium.Markdown
