import Compendium.Decimal.Layout
import Compendium.Json.Basic

/-!
# Writing JSON

`compact` writes a value without spaces, `pretty` with a line for each item and two spaces for each
level. Only quotes, backslashes and control characters are escaped.
-/

namespace Compendium.Json

/-- A hexadecimal digit. -/
def hexChar (n : Nat) : Char :=
  if n < 10 then Char.ofNat (48 + n) else Char.ofNat (87 + n)

/-- A character inside a string. -/
def escapeChar (c : Char) : List Char :=
  match c.toNat with
  | 0x22 => ['\\', '"']
  | 0x5C => ['\\', '\\']
  | 0x08 => ['\\', 'b']
  | 0x0C => ['\\', 'f']
  | 0x0A => ['\\', 'n']
  | 0x0D => ['\\', 'r']
  | 0x09 => ['\\', 't']
  | n => if n < 0x20 then ['\\', 'u', '0', '0', hexChar (n / 16), hexChar (n % 16)] else [c]

/-- A text in quotes. -/
def quote (s : List Char) : List Char :=
  '"' :: (s.flatMap escapeChar ++ ['"'])

def openBrace : Char := '\x7b'

/-- The closing brace of an object. -/
def closeBrace : Char := '\x7d'

mutual

/-- The text of a value without spaces. -/
def chars : Json → List Char
  | null => ['n', 'u', 'l', 'l']
  | bool true => ['t', 'r', 'u', 'e']
  | bool false => ['f', 'a', 'l', 's', 'e']
  | int n => Decimal.intText n
  | float x => Decimal.dataText x
  | str s => quote s.toList
  | arr items => '[' :: (itemChars items ++ [']'])
  | obj fields => openBrace :: (fieldChars fields ++ [closeBrace])

/-- The items of an array with commas between. -/
def itemChars : List Json → List Char
  | [] => []
  | [j] => chars j
  | j :: next :: rest => chars j ++ ',' :: itemChars (next :: rest)

/-- The fields of an object with commas between. -/
def fieldChars : List (String × Json) → List Char
  | [] => []
  | [(name, j)] => quote name.toList ++ ':' :: chars j
  | (name, j) :: next :: rest =>
    quote name.toList ++ ':' :: (chars j ++ ',' :: fieldChars (next :: rest))

end

/-- The text of a value without spaces. -/
def compact (j : Json) : String :=
  String.ofList j.chars

/-- A new line at a level of indentation. -/
def newline (level : Nat) : List Char :=
  '\n' :: List.replicate (2 * level) ' '

mutual

/-- The text of a value at a level of indentation. -/
def prettyChars (level : Nat) : Json → List Char
  | arr [] => ['[', ']']
  | arr (j :: items) =>
    '[' :: (prettyItems (level + 1) (j :: items) ++ newline level ++ [']'])
  | obj [] => [openBrace, closeBrace]
  | obj (f :: fields) =>
    openBrace :: (prettyFields (level + 1) (f :: fields) ++ newline level ++ [closeBrace])
  | null => ['n', 'u', 'l', 'l']
  | bool true => ['t', 'r', 'u', 'e']
  | bool false => ['f', 'a', 'l', 's', 'e']
  | int n => Decimal.intText n
  | float x => Decimal.dataText x
  | str s => quote s.toList

/-- Items, each on a line of its own. -/
def prettyItems (level : Nat) : List Json → List Char
  | [] => []
  | [j] => newline level ++ prettyChars level j
  | j :: next :: rest =>
    newline level ++ prettyChars level j ++ ',' :: prettyItems level (next :: rest)

/-- Fields, each on a line of its own. -/
def prettyFields (level : Nat) : List (String × Json) → List Char
  | [] => []
  | [(name, j)] => newline level ++ quote name.toList ++ ':' :: ' ' :: prettyChars level j
  | (name, j) :: next :: rest =>
    newline level ++ quote name.toList ++
      ':' :: ' ' :: (prettyChars level j ++ ',' :: prettyFields level (next :: rest))

end

/-- The text of a value with a line for each item. Fields stay in the order given. -/
def pretty (j : Json) : String :=
  String.ofList (j.prettyChars 0)

end Compendium.Json
