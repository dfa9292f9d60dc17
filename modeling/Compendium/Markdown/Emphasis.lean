import Compendium.Markdown.Basic
import Compendium.Text.Punctuation

/-!
# Emphasis

A run of stars, underscores or tildes may open emphasis, close it, or both, depending on its
neighbours. A closing run takes the nearest opening run that fits; runs in between stay text. Tildes
that close nothing hide the runs before them from all later tildes.
-/

namespace Compendium.Markdown

/-- A run of equal characters: how many are left of how many, what it may do, and the blanks that
are shown behind its last character. -/
structure Run where
  mark : Char
  left : Nat
  length : Nat
  opens : Bool
  closes : Bool
  behind : List Char

/-- A span, a hard break that a backslash makes, or a run whose role is not decided yet. -/
inductive Piece where
  | span (s : Span)
  | escapedBreak
  | run (r : Run)

/-- Whether a neighbour counts as blank; beyond the text everything does. -/
def isBlankNeighbour : Option Char → Bool
  | none => true
  | some c => Text.isBlank c

def isPunctuationNeighbour : Option Char → Bool
  | none => false
  | some c => Text.isPunctuation c

/-- Whether a run may stand inside a word: stars and double tildes. -/
def mayBeInside (mark : Char) (length : Nat) : Bool :=
  mark == '*' || (mark == '~' && 1 < length)

def canOpen (mark : Char) (length : Nat) (before next : Option Char) : Bool :=
  if isBlankNeighbour next then false
  else if isBlankNeighbour before || isPunctuationNeighbour before then true
  else if mark == '*' then !isPunctuationNeighbour next
  else mayBeInside mark length

def canClose (mark : Char) (length : Nat) (before next : Option Char) : Bool :=
  if isBlankNeighbour before then false
  else if isBlankNeighbour next || isPunctuationNeighbour next then true
  else (mayBeInside mark length && !isPunctuationNeighbour before) ||
    (mark == '~' && before == some '~')

def Run.ofNeighbours (mark : Char) (length : Nat) (before next : Option Char) : Run :=
  ⟨mark, length, length, canOpen mark length before next, canClose mark length before next, []⟩

/-- An opening run and the spans after it, latest first. -/
structure Opened where
  run : Run
  content : List Span

def Run.text (r : Run) : List Span :=
  if r.left = 0 then [] else [.text (List.replicate r.left r.mark ++ r.behind)]

def fits (closing opening : Run) : Bool :=
  let both (r : Run) := r.opens && r.closes
  closing.mark == opening.mark &&
  (closing.mark != '~' || closing.length == opening.length) &&
  ((!both closing && !both opening) || (closing.length + opening.length) % 3 != 0 ||
    closing.length % 3 == 0)

/-- The nearest open run that fits, with the runs inside it given up as text, and the runs around
it. So many of the outermost runs are hidden. -/
def takeFitting (closing : Run) (hidden : Nat) :
    List Span → List Opened → Option (Opened × List Opened)
  | _, [] => none
  | inner, o :: outer =>
    if outer.length < hidden then none
    else if fits closing o.run then some ({ o with content := inner ++ o.content }, outer)
    else takeFitting closing hidden (inner ++ o.content ++ o.run.text) outer

/-- Spans inside so many marks, from the inside out; two marks at a time where there are two. -/
def wrap (mark : Char) : Nat → List Span → List Span
  | 0, content => content
  | 1, content => [if mark == '~' then .strike content else .emphasis content]
  | n + 2, content => wrap mark n [if mark == '~' then .strike content else .strong content]

/-- The open runs, innermost first, the spans before them, and how many of the outermost runs are
hidden from tildes. -/
structure Openings where
  runs : List Opened
  outside : List Span
  hidden : Nat

def Openings.hiddenFrom (o : Openings) (r : Run) : Nat :=
  if r.mark == '~' then o.hidden else 0

/-- Adds spans, latest first, to the innermost open run. -/
def Openings.add (o : Openings) (spans : List Span) : Openings :=
  match o.runs with
  | [] => { o with outside := spans ++ o.outside }
  | inner :: rest => { o with runs := { inner with content := spans ++ inner.content } :: rest }

/-- Lets a closing run close as many open runs as it can; the first argument bounds their number.
What is left of it comes back. -/
def Openings.close : Nat → Run → Openings → Run × Openings
  | 0, closing, o => (closing, o)
  | n + 1, closing, o =>
    if closing.left = 0 then (closing, o)
    else
      match takeFitting closing (o.hiddenFrom closing) [] o.runs with
      | none => (closing, if closing.mark == '~' then { o with hidden := o.runs.length } else o)
      | some (opened, outer) =>
        let count := min closing.left opened.run.left
        let spans := wrap closing.mark count opened.content.reverse
        let rest : Openings := { o with runs := outer, hidden := min o.hidden outer.length }
        let leftOpen : Run := { opened.run with left := opened.run.left - count }
        let o' :=
          if leftOpen.left = 0 then rest.add spans
          else { rest with runs := ⟨leftOpen, spans⟩ :: outer }
        Openings.close n { closing with left := closing.left - count } o'

def Openings.feed (o : Openings) : Piece → Openings
  | .span s => o.add [s]
  | .escapedBreak => o.add [.hardBreak]
  | .run r =>
    let (left, o) := if r.closes then Openings.close r.left r o else (r, o)
    if left.left = 0 then o
    else if left.opens then { o with runs := ⟨left, []⟩ :: o.runs }
    else o.add left.text

/-- Gives up the runs that are still open. -/
def giveUp (inner : List Span) : List Opened → List Span
  | [] => inner
  | o :: outer => giveUp (inner ++ o.content ++ o.run.text) outer

def resolve (pieces : List Piece) : List Span :=
  let o := pieces.foldl Openings.feed ⟨[], [], 0⟩
  (giveUp [] o.runs ++ o.outside).reverse

end Compendium.Markdown
