/-!
# Cutting text into pieces

Segments, lines, endings, and tests for parts of a text. Everything works on lists of characters.
-/

namespace Compendium.Text

/-- The nonempty pieces between slashes: the segments of a path. -/
def segments (path : List Char) : List (List Char) :=
  (path.splitOn '/').filter (fun piece => !piece.isEmpty)

def occursIn (part : List Char) : List Char → Bool
  | [] => part.isEmpty
  | c :: rest => part.isPrefixOf (c :: rest) || occursIn part rest

/-- Removes an ending from a reversed text as often as it is there. The count bounds the rounds. -/
def dropReversed (tail : List Char) : Nat → List Char → List Char
  | 0, s => s
  | rounds + 1, s =>
    match tail.isPrefixOf? s with
    | some rest => dropReversed tail rounds rest
    | none => s

/-- The text without any repetition of a nonempty ending. -/
def dropEndings (tail s : List Char) : List Char :=
  if tail.isEmpty then s else (dropReversed tail.reverse s.length s.reverse).reverse

/-- The part of a text after its last occurrence of a character, or all of it. -/
def afterLast (sep : Char) (s : List Char) : List Char :=
  (s.reverse.takeWhile (· != sep)).reverse

/-- The part of a text before its last occurrence of a character, if there is one. -/
def beforeLast? (sep : Char) (s : List Char) : Option (List Char) :=
  match s.reverse.dropWhile (· != sep) with
  | [] => none
  | _ :: front => some front.reverse

/-- A line without the carriage return that may end it. -/
def dropReturn (line : List Char) : List Char :=
  match line.reverse with
  | '\r' :: rest => rest.reverse
  | _ => line

/-- The lines of a text, without their ends; a final line end starts no further line. -/
def lines (s : List Char) : List (List Char) :=
  let pieces := s.splitOn '\n'
  let ended := pieces.dropLast.map dropReturn
  match pieces.getLast? with
  | none => ended
  | some [] => ended
  | some last => ended ++ [last]

end Compendium.Text
