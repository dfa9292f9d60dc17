import Compendium.Decimal.Layout
import Compendium.Document.Style
import Compendium.Text.Case

/-!
# Markers of list items

Ordered lists count in decimals, letters or roman numerals; unordered lists use a bullet.
-/

namespace Compendium.ListMarker

/-- The letters of a number in base 26 without a zero, last letter first: 1 is `a`, 26 is `z` and 27
is `aa`. -/
def lettersReversed (n : Nat) : List Char :=
  if h : n = 0 then []
  else
    have : (n - 1) / 26 < n := by omega
    Char.ofNat (97 + (n - 1) % 26) :: lettersReversed ((n - 1) / 26)
termination_by n

/-- A number in letters; zero has none and stays a digit. -/
def alpha (n : Nat) : List Char :=
  if n = 0 then ['0'] else (lettersReversed n).reverse

/-- The roman numerals that are written as they are, largest first. -/
def numerals : List (Nat × List Char) :=
  [(1000, ['m']), (900, ['c', 'm']), (500, ['d']), (400, ['c', 'd']), (100, ['c']),
    (90, ['x', 'c']), (50, ['l']), (40, ['x', 'l']), (10, ['x']), (9, ['i', 'x']), (5, ['v']),
    (4, ['i', 'v']), (1, ['i'])]

/-- Writes each numeral as often as it fits into what is left. -/
def romanWith : List (Nat × List Char) → Nat → List Char
  | [], _ => []
  | (value, numeral) :: rest, n =>
    (List.replicate (n / value) numeral).flatten ++ romanWith rest (n % value)

/-- A number in roman numerals, or in decimals outside 1 to 3999. -/
def roman (n : Nat) : List Char :=
  if 1 ≤ n && n ≤ 3999 then romanWith numerals n else Decimal.natText n

def label (style : OrderedStyle) (n : Nat) : List Char :=
  match style with
  | .decimal => Decimal.natText n
  | .unknown => Decimal.natText n
  | .alphaLower => alpha n
  | .alphaUpper => Text.upperAscii (alpha n)
  | .romanLower => roman n
  | .romanUpper => Text.upperAscii (roman n)

def bullet : BulletStyle → String
  | .disc => "•"
  | .circle => "◦"
  | .square => "▪"
  | .none => ""
  | .unknown => "•"

/-- The marker of the item at a position counted from zero. A start index shifts ordered lists
only. -/
def marker (style : ListStyle) (startIndex : Option Nat) (position : Nat) : String :=
  match style with
  | .ordered ordered => String.ofList (label ordered (startIndex.getD 1 + position) ++ ['.'])
  | .unordered bulletStyle => bullet bulletStyle

end Compendium.ListMarker
