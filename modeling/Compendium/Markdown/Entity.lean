import Compendium.Markdown.Basic
import Compendium.Markdown.NamedCharacters
import Compendium.Text.Numeric
import Compendium.Text.Punctuation
import Compendium.Text.Split

/-!
# Escapes and character references

A backslash makes ASCII punctuation literal, and a character may be written by its name or number.
-/

namespace Compendium.Markdown

def digitsNumber (base : Nat) (s : List Char) : Nat :=
  s.foldl (fun n c => base * n + (Text.hexDigit? c).getD 0) 0

/-- The characters that a name stands for. Only those of one name are letters themselves. -/
def namedCharacters? (name : List Char) : Option (List Char) :=
  if name == "fjlig".toList then some ['f', 'j']
  else namedCharacterLines.findSome? fun line =>
    match line.toList.splitOn ' ' with
    | start :: words =>
      if start.isPrefixOf name then
        let ending := name.drop start.length
        (words.find? fun word => word.takeWhile isLetterOrDigit == ending).map
          (List.dropWhile isLetterOrDigit)
      else none
    | [] => none

/-- The character of a code point. The replacement character stands for zero and for numbers that no
character has. -/
def numberedCharacter (n : Nat) : Char :=
  if n = 0 || !n.isValidChar then Char.ofNat 0xFFFD else Char.ofNat n

/-- A number of at most so many digits with a semicolon, and the rest. -/
def numberReference? (base limit : Nat) (isNumeral : Char → Bool) (s : List Char) :
    Option (List Char × List Char) :=
  let digits := s.takeWhile isNumeral
  match s.dropWhile isNumeral with
  | ';' :: rest =>
    if digits.isEmpty || limit < digits.length then none
    else some ([numberedCharacter (digitsNumber base digits)], rest)
  | _ => none

/-- The characters of the reference that follows an ampersand, and the rest. -/
def reference? : List Char → Option (List Char × List Char)
  | '#' :: 'x' :: rest | '#' :: 'X' :: rest =>
    numberReference? 16 6 (fun c => (Text.hexDigit? c).isSome) rest
  | '#' :: rest => numberReference? 10 7 isDigit rest
  | s =>
    match s.dropWhile isLetterOrDigit with
    | ';' :: rest => (namedCharacters? (s.takeWhile isLetterOrDigit)).map fun cs => (cs, rest)
    | _ => none

/-- Whether a text starts with a backslash that a table takes from the backslash before a bar. -/
def startsTableEscape : List Char → Bool
  | c :: d :: e :: _ => c == backslash && d == backslash && e == '|'
  | _ => false

/-- A text with its escapes and references resolved; the second argument bounds its length. In a
table, two backslashes before a bar stand for one. -/
def unescapeWithin (inTable : Bool) : Nat → List Char → List Char
  | 0, s => s
  | _ + 1, [] => []
  | n + 1, c :: rest =>
    if inTable && startsTableEscape (c :: rest) then '|' :: unescapeWithin inTable n (rest.drop 2)
    else if c == backslash then
      match rest with
      | d :: rest' =>
        if Text.isAsciiPunctuation d then d :: unescapeWithin inTable n rest'
        else c :: unescapeWithin inTable n rest
      | [] => [c]
    else if c == '&' then
      match reference? rest with
      | some (cs, rest') => cs ++ unescapeWithin inTable n rest'
      | none => c :: unescapeWithin inTable n rest
    else if c == '\r' then unescapeWithin inTable n rest
    else c :: unescapeWithin inTable n rest

/-- A text with its escapes and references resolved. Carriage returns are dropped. -/
def unescape (inTable : Bool) (s : List Char) : List Char :=
  unescapeWithin inTable s.length s

end Compendium.Markdown
