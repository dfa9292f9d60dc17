import Compendium.Text.Numeric
import Compendium.Yaml.Basic

/-!
# The texts of scalars

A line end inside a scalar counts as a space, and further ones stay. A block scalar keeps its lines
or folds them.
-/

namespace Compendium.Yaml

/-- What stands between two words: blanks, latest first, or a first line end and the ones after
it. -/
structure Gap where
  blanks : List Char := []
  broken : Bool := false
  first : List Char := []
  others : List Char := []

def Gap.text (g : Gap) : List Char :=
  if g.broken then
    if g.first.head? == some '\n' then if g.others.isEmpty then [' '] else g.others
    else g.first ++ g.others
  else g.blanks.reverse

/-- The gap here, and the place after it. The first argument bounds its length; a tab may not stand
where less than the given indentation is reached. -/
def takeGap (indent : Nat) (tabsMatter : Bool) : Nat → Gap → Cursor → Option (Gap × Cursor)
  | 0, g, c => some (g, c)
  | n + 1, g, c =>
    if c.sees isBlank then
      if tabsMatter && g.broken && c.column < indent && c.isAt '\t' then none
      else if g.broken then takeGap indent tabsMatter n g c.skip
      else takeGap indent tabsMatter n { g with blanks := c.rest.take 1 ++ g.blanks } c.skip
    else if c.sees isBreak then
      let (text, next) := c.takeBreak
      if g.broken then takeGap indent tabsMatter n { g with others := g.others ++ text } next
      else takeGap indent tabsMatter n { g with blanks := [], broken := true, first := text } next
    else some (g, c)

/-- Whether a character ends a plain word inside brackets. -/
def isFlowMark (c : Char) : Bool :=
  c == ',' || c == '[' || c == ']' || c.toNat == 0x7B || c.toNat == 0x7D

/-- The word of a plain scalar here, latest character first, and the place after it. The first
argument bounds its length. -/
def plainWord (inFlow : Bool) : Nat → List Char → Cursor → Option (List Char × Cursor)
  | 0, acc, c => some (acc, c)
  | n + 1, acc, c =>
    match c.rest with
    | [] => some (acc, c)
    | ch :: _ =>
      if isBlank ch || isBreak ch then some (acc, c)
      else
        let clash := match c.peek 1 with
          | some next => isFlowMark next || next == '?'
          | none => false
        if inFlow && ch == ':' && clash then none
        else if (ch == ':' && c.endsWordAt 1) || (inFlow && isFlowMark ch) then some (acc, c)
        else plainWord inFlow n (ch :: acc) c.skip

/-- A plain scalar here: its text, latest character first, whether a line end follows it, and the
place after it and its gap. The first argument bounds the number of words. -/
def plainFrom (inFlow : Bool) (indent : Nat) :
    Nat → List Char → Gap → Cursor → Option (List Char × Bool × Cursor)
  | 0, acc, g, c => some (acc, g.broken, c)
  | n + 1, acc, g, c =>
    if c.atDocumentMark || c.isAt '#' then some (acc, g.broken, c)
    else
      match plainWord inFlow c.rest.length [] c with
      | none => none
      | some ([], next) => some (acc, g.broken, next)
      | some (word, next) =>
        let text := word ++ g.text.reverse ++ acc
        if next.sees isBlank || next.sees isBreak then
          match takeGap indent true next.rest.length {} next with
          | none => none
          | some (gap, after) =>
            if !inFlow && after.column < indent then some (text, gap.broken, after)
            else plainFrom inFlow indent n text gap after
        else some (text, false, next)

/-- The number of so many hexadecimal digits at the start of a text. -/
def hexNumber? : Nat → Nat → List Char → Option Nat
  | 0, n, _ => some n
  | _ + 1, _, [] => none
  | width + 1, n, c :: rest => (Text.hexDigit? c).bind fun d => hexNumber? width (16 * n + d) rest

/-- The character of an escape of one letter. -/
def simpleEscape? (c : Char) : Option Char :=
  match c with
  | '0' => some (Char.ofNat 0)
  | 'a' => some (Char.ofNat 7)
  | 'b' => some (Char.ofNat 8)
  | 't' => some '\t'
  | '\t' => some '\t'
  | 'n' => some '\n'
  | 'v' => some (Char.ofNat 0x0B)
  | 'f' => some (Char.ofNat 0x0C)
  | 'r' => some '\r'
  | 'e' => some (Char.ofNat 0x1B)
  | ' ' => some ' '
  | '/' => some '/'
  | 'N' => some (Char.ofNat 0x85)
  | '_' => some (Char.ofNat 0xA0)
  | 'L' => some (Char.ofNat 0x2028)
  | 'P' => some (Char.ofNat 0x2029)
  | c => if c.toNat == 0x22 || c.toNat == 0x5C then some c else none

/-- The number of digits of an escape by code point. -/
def escapeWidth? (c : Char) : Option Nat :=
  match c with
  | 'x' => some 2
  | 'u' => some 4
  | 'U' => some 8
  | _ => none

/-- The character of the escape after a backslash here, and the place after it. -/
def escape? (c : Cursor) : Option (Char × Cursor) :=
  match c.skip.rest with
  | [] => none
  | letter :: rest =>
    match simpleEscape? letter, escapeWidth? letter with
    | some ch, _ => some (ch, c.skipMany 2)
    | none, some width =>
      match hexNumber? width 0 rest with
      | some n => if n.isValidChar then some (Char.ofNat n, c.skipMany (2 + width)) else none
      | none => none
    | none, none => none

def singleQuote : Char := Char.ofNat 0x27

def doubleQuote : Char := Char.ofNat 0x22

def backslash : Char := Char.ofNat 0x5C

/-- The word of a quoted scalar here, latest character first, whether an escaped line end follows
it, and the place after it. The first argument bounds its length. -/
def quotedWord (quote : Char) : Nat → List Char → Cursor → Option (List Char × Bool × Cursor)
  | 0, acc, c => some (acc, false, c)
  | n + 1, acc, c =>
    match c.rest with
    | [] => some (acc, false, c)
    | ch :: _ =>
      if isBlank ch || isBreak ch then some (acc, false, c)
      else if ch == quote then
        if quote == singleQuote && c.peek 1 == some quote then
          quotedWord quote n (ch :: acc) (c.skipMany 2)
        else some (acc, false, c)
      else if quote == doubleQuote && ch == backslash then
        if c.skip.sees isBreak then some (acc, true, (c.skip.takeBreak).2)
        else
          match escape? c with
          | some (decoded, next) => quotedWord quote n (decoded :: acc) next
          | none => none
      else quotedWord quote n (ch :: acc) c.skip

/-- A quoted scalar after its opening quote: its text, latest character first, and the place after
it. The first argument bounds the number of words. -/
def quotedFrom (quote : Char) : Nat → List Char → Cursor → Option (List Char × Cursor)
  | 0, _, _ => none
  | n + 1, acc, c =>
    if c.atDocumentMark || c.rest.isEmpty then none
    else
      match quotedWord quote c.rest.length [] c with
      | none => none
      | some (word, joined, next) =>
        let text := word ++ acc
        if next.isAt quote then some (text, next.skip)
        else
          match takeGap 0 false next.rest.length { broken := joined } next with
          | none => none
          | some (gap, after) => quotedFrom quote n (gap.text.reverse ++ text) after

/-- What a block scalar does with the line ends after it. -/
inductive Chomp where
  | strip
  | clip
  | keep
  deriving DecidableEq, Repr

/-- The empty lines here and the place of the next line's content, with the deepest indentation met.
No indentation is known as `none`. The first argument bounds their length. -/
def emptyLines (indent : Option Nat) :
    Nat → Nat → List Char → Cursor → Option (List Char × Nat × Cursor)
  | 0, deepest, acc, c => some (acc, deepest, c)
  | n + 1, deepest, acc, c =>
    let short := match indent with
      | some width => c.column < width
      | none => true
    if short && c.isAt ' ' then emptyLines indent n (max deepest (c.column + 1)) acc c.skip
    else if short && c.isAt '\t' then none
    else if c.sees isBreak then
      let (text, next) := c.takeBreak
      emptyLines indent n deepest (acc ++ text) next
    else some (acc, deepest, c)

/-- The rest of a line. -/
def lineText (c : Cursor) : List Char :=
  c.rest.takeWhile fun ch => !isBreak ch

/-- The lines of a block scalar: the text so far, the line ends after it, and the place after them.
The first argument bounds their number. -/
def blockLines (literal : Bool) (indent : Nat) :
    Nat → List Char → List Char → List Char → Bool → Cursor →
      Option (List Char × List Char × List Char × Cursor)
  | 0, acc, first, others, _, c => some (acc, first, others, c)
  | n + 1, acc, first, others, wasBlank, c =>
    if c.column != indent || c.rest.isEmpty then some (acc, first, others, c)
    else
      let isBlankLine := c.sees isBlank
      let lead :=
        if !literal && first.head? == some '\n' && !wasBlank && !isBlankLine then
          if others.isEmpty then [' '] else []
        else first
      let text := lineText c
      let (ending, next) := (c.skipMany text.length).takeBreak
      match emptyLines (some indent) next.rest.length 0 [] next with
      | none => none
      | some (empties, _, after) =>
        blockLines literal indent n (acc ++ lead ++ others ++ text) ending empties isBlankLine after

/-- The header of a block scalar after its mark: how it chomps, how far its lines are indented, and
the place after it. -/
def blockHeader (c : Cursor) : Option (Chomp × Option Nat × Cursor) :=
  let chomp (c : Cursor) : Chomp × Cursor :=
    if c.isAt '+' then (.keep, c.skip) else if c.isAt '-' then (.strip, c.skip) else (.clip, c)
  let width (c : Cursor) : Option (Option Nat × Cursor) :=
    match c.rest with
    | ch :: _ =>
      if ch == '0' then none
      else if '1' ≤ ch && ch ≤ '9' then some (some (ch.toNat - 48), c.skip)
      else some (none, c)
    | [] => some (none, c)
  if c.isAt '+' || c.isAt '-' then
    let (mode, c) := chomp c
    (width c).map fun (w, c) => (mode, w, c)
  else
    (width c).map fun (w, c) =>
      let (mode, c) := if w.isSome then chomp c else (.clip, c)
      (mode, w, c)

/-- The place at the end of a line of which only blanks and a comment are left. -/
def skipToBreak (c : Cursor) : Option Cursor :=
  let blanks := (c.rest.takeWhile isBlank).length
  let c := c.skipMany blanks
  let c := if c.isAt '#' then c.skipMany (lineText c).length else c
  if c.rest.isEmpty || c.sees isBreak then some c else none

/-- A block scalar after its mark, inside a block with an indentation: its text and the place after
it. -/
def blockScalar (literal : Bool) (parent : Int) (c : Cursor) : Option (List Char × Cursor) := do
  let (chomp, width, c) ← blockHeader c
  let c ← skipToBreak c
  let c := (c.takeBreak).2
  let fixed := width.map fun w => if 0 ≤ parent then parent.toNat + w else w
  let (empties, deepest, c) ← emptyLines fixed c.rest.length 0 [] c
  let indent := fixed.getD (max deepest (max (parent + 1).toNat 1))
  let (text, first, others, c) ← blockLines literal indent (c.rest.length + 1) [] [] empties false c
  let tail := match chomp with
    | .strip => []
    | .clip => first
    | .keep => first ++ others
  return (text ++ tail, c)

end Compendium.Yaml
