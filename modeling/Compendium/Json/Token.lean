import Compendium.Json.Basic
import Compendium.Text.Numeric

/-!
# Tokens of JSON text

`Token.scan` reads a text one character at a time: every character moves a `Lexer` from one mode to
the next, and a character that fits nowhere stops it.
-/

namespace Compendium.Json

export Text (hexDigit?)

/-- A token of JSON text. A word is a run of the characters of literals and numbers. -/
inductive Token where
  | openArr
  | closeArr
  | openObj
  | closeObj
  | comma
  | colon
  | text (s : List Char)
  | word (s : List Char)
  deriving Repr, DecidableEq

/-- Where the lexer stands. Collected characters are in reverse order. -/
inductive Mode where
  | between
  | word (acc : List Char)
  | text (acc : List Char)
  | escape (acc : List Char)
  | unit (acc : List Char) (high : Option Nat) (left code : Nat)
  | pairSlash (acc : List Char) (high : Nat)
  | pairMark (acc : List Char) (high : Nat)
  deriving Repr, DecidableEq

/-- The mode of a lexer and the tokens it has read, latest first. -/
structure Lexer where
  mode : Mode
  tokens : List Token
  deriving Repr, DecidableEq

/-- Whether a character separates tokens without being one. -/
def isSpace (c : Char) : Bool :=
  c == ' ' || c == '\n' || c == '\t' || c == '\r'

/-- Whether a character may stand in a literal or a number. -/
def isWordChar (c : Char) : Bool :=
  ('a' ≤ c && c ≤ 'z') || ('0' ≤ c && c ≤ '9') || c == 'E' || c == '-' || c == '+' || c == '.'

def punctuation? (c : Char) : Option Token :=
  match c.toNat with
  | 0x5B => some .openArr
  | 0x5D => some .closeArr
  | 0x7B => some .openObj
  | 0x7D => some .closeObj
  | 0x2C => some .comma
  | 0x3A => some .colon
  | _ => none

/-- The character that a one-letter escape stands for. -/
def escaped? (c : Char) : Option Char :=
  match c with
  | '"' => some '"'
  | '\\' => some '\\'
  | '/' => some '/'
  | 'b' => some '\x08'
  | 'f' => some '\x0c'
  | 'n' => some '\n'
  | 'r' => some '\r'
  | 't' => some '\t'
  | _ => none

/-- Whether a 16-bit unit is the first of a surrogate pair. -/
def isHigh (code : Nat) : Bool :=
  0xD800 ≤ code && code ≤ 0xDBFF

/-- Whether a 16-bit unit is the second of a surrogate pair. -/
def isLow (code : Nat) : Bool :=
  0xDC00 ≤ code && code ≤ 0xDFFF

/-- The mode after a complete 16-bit unit: a first unit waits for its second, and a second stands
only after a first. -/
def afterUnit (acc : List Char) (high : Option Nat) (code : Nat) : Option Mode :=
  match high with
  | some h =>
    if isLow code then
      some (.text (Char.ofNat (0x10000 + (h - 0xD800) * 1024 + (code - 0xDC00)) :: acc))
    else none
  | none =>
    if isHigh code then some (.pairSlash acc code)
    else if isLow code then none
    else some (.text (Char.ofNat code :: acc))

/-- Reads a character that stands between tokens. -/
def Lexer.start (tokens : List Token) (c : Char) : Option Lexer :=
  if isSpace c then some ⟨.between, tokens⟩
  else if c == '"' then some ⟨.text [], tokens⟩
  else if isWordChar c then some ⟨.word [c], tokens⟩
  else (punctuation? c).map fun t => ⟨.between, t :: tokens⟩

/-- Reads one character. -/
def Lexer.feed (lx : Lexer) (c : Char) : Option Lexer :=
  match lx.mode with
  | .between => Lexer.start lx.tokens c
  | .word acc =>
    if isWordChar c then some ⟨.word (c :: acc), lx.tokens⟩
    else Lexer.start (.word acc.reverse :: lx.tokens) c
  | .text acc =>
    if c == '"' then some ⟨.between, .text acc.reverse :: lx.tokens⟩
    else if c == '\\' then some ⟨.escape acc, lx.tokens⟩
    else if c.toNat < 0x20 then none
    else some ⟨.text (c :: acc), lx.tokens⟩
  | .escape acc =>
    if c == 'u' then some ⟨.unit acc none 4 0, lx.tokens⟩
    else (escaped? c).map fun d => ⟨.text (d :: acc), lx.tokens⟩
  | .unit acc high left code =>
    match hexDigit? c with
    | none => none
    | some d =>
      if left ≤ 1 then (afterUnit acc high (code * 16 + d)).map fun m => ⟨m, lx.tokens⟩
      else some ⟨.unit acc high (left - 1) (code * 16 + d), lx.tokens⟩
  | .pairSlash acc high => if c == '\\' then some ⟨.pairMark acc high, lx.tokens⟩ else none
  | .pairMark acc high => if c == 'u' then some ⟨.unit acc (some high) 4 0, lx.tokens⟩ else none

/-- Reads all characters of a text. -/
def Lexer.run : Lexer → List Char → Option Lexer
  | lx, [] => some lx
  | lx, c :: rest =>
    match lx.feed c with
    | some lx => Lexer.run lx rest
    | none => none

def Lexer.finish (lx : Lexer) : Option (List Token) :=
  match lx.mode with
  | .between => some lx.tokens.reverse
  | .word acc => some (.word acc.reverse :: lx.tokens).reverse
  | _ => none

/-- The tokens of a text. -/
def Token.scan (s : List Char) : Option (List Token) :=
  (Lexer.run ⟨.between, []⟩ s).bind Lexer.finish

end Compendium.Json
