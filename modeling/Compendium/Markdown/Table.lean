import Compendium.Markdown.Cursor
import Compendium.Text.Split

/-!
# Tables

Bars divide a row into cells, unless a backslash stands before them. A row of hyphens and colons
under the first row makes it the head of a table and says how the columns are aligned.
-/

namespace Compendium.Markdown

/-- The texts between the bars of a line. A bar after a backslash is text. The first argument is the
text since the last bar, latest character first. -/
def barSplit (acc : List Char) : List Char → List (List Char)
  | [] => [acc.reverse]
  | c :: rest =>
    if c == '|' && acc.head? != some backslash then acc.reverse :: barSplit [] rest
    else barSplit (c :: acc) rest

/-- Text without blanks at either end. -/
def trimLine (s : List Char) : List Char :=
  Text.trimWhile isLineBlank s

/-- The cells of a row: nothing outside of the outer bars is a cell. -/
def rowCells (row : List Char) : List (List Char) :=
  let pieces := barSplit [] row
  let pieces := if row.head? == some '|' then pieces.drop 1 else pieces
  let pieces := if (pieces.getLast?.map fun p => p.all isLineBlank) == some true
    then pieces.dropLast
    else pieces
  pieces.map trimLine

/-- The number of columns that the first row of a table has; none without a bar. -/
def headColumns? (row : List Char) : Option Nat :=
  if (barSplit [] row).length ≤ 1 then none else some (rowCells (row.dropWhile isLineBlank)).length

/-- Whether a line ends with a backslash that another one does not escape. -/
def endsEscaped (line : List Char) : Bool :=
  (line.reverse.takeWhile (· == backslash)).length % 2 == 1

def fitRow (columns : Nat) (cells : List (List Char)) : List (List Char) :=
  cells.take columns ++ List.replicate (columns - cells.length) []

/-- What has been read of the row under the head. -/
structure Delimiters where
  columns : List Alignment
  current : Alignment
  fresh : Bool
  hasHyphen : Bool

/-- One further character of the row under the head. -/
def Delimiters.feed (d : Delimiters) (c : Char) : Option Delimiters :=
  if c == ' ' then some d
  else if c == ':' then
    let aligned := match d.fresh, d.current with
      | true, .none => .left
      | false, .left => .center
      | false, .none => .right
      | _, other => other
    some { d with current := aligned, fresh := false }
  else if c == '-' then some { d with fresh := false, hasHyphen := true }
  else if c == '|' then if d.hasHyphen then some
    ⟨d.columns ++ [d.current], .none, true, false⟩ else none
  else none

/-- The alignments of a row that can stand under the head of a table. -/
def delimiters? (s : List Char) : Option (List Alignment) :=
  let inner := match s with
    | '|' :: rest => rest
    | _ => s
  match inner.foldlM Delimiters.feed ⟨[], .none, true, false⟩ with
  | none => none
  | some d =>
    let columns := if d.fresh then d.columns else d.columns ++ [d.current]
    if s.contains '|' && s.contains '-' then some columns else none

end Compendium.Markdown
