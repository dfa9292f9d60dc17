import Compendium.Text.Blank
import Compendium.Text.Split
import Compendium.Text.Utf8

/-!
# Glob patterns

A pattern is matched segment by segment: a segment `**` stands for any number of segments, and
inside a segment `*` stands for any bytes and `?` for one byte of the UTF-8 text.
-/

namespace Compendium.Text.Glob

/-- The byte of the star, which stands for any bytes. -/
def star : UInt8 := 0x2A

/-- The byte of the question mark, which stands for one byte. -/
def question : UInt8 := 0x3F

/-- Whether some rest of a list passes a test. -/
def anyTail {α : Type} (p : List α → Bool) : List α → Bool
  | [] => p []
  | a :: rest => p (a :: rest) || anyTail p rest

/-- Whether the bytes of one segment match the bytes of a pattern segment. -/
def matchBytes : List UInt8 → List UInt8 → Bool
  | [], name => name.isEmpty
  | c :: pattern, name =>
    if c == star then anyTail (matchBytes pattern) name
    else
      match name with
      | [] => false
      | b :: name => (c == question || c == b) && matchBytes pattern name

def matchSegment (pattern name : List Char) : Bool :=
  matchBytes (utf8 pattern) (utf8 name)

/-- Whether the segments of a path match the segments of a pattern. -/
def matchSegments : List (List Char) → List (List Char) → Bool
  | [], path => path.isEmpty
  | segment :: pattern, path =>
    if segment == ['*', '*'] then anyTail (matchSegments pattern) path
    else
      match path with
      | [] => false
      | name :: path => matchSegment segment name && matchSegments pattern path

/-- The pieces of a text between slashes, without outer slashes. -/
def pieces (s : List Char) : List (List Char) :=
  (trimWhile (· == '/') s).splitOn '/'

def accepts (pattern path : String) : Bool :=
  matchSegments (pieces pattern.toList) (pieces path.toList)

end Compendium.Text.Glob
