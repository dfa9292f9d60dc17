import Compendium.Markdown.Entity
import Compendium.Text.Case

/-!
# Targets, titles and labels of links

A link names its target and title in place, or by a label that a definition gives them to. The texts
are those of paragraphs, with a line feed for each line end.
-/

namespace Compendium.Markdown

/-- A title as written up to its closing character, and the rest. -/
def titleUntil? (closing : Char) : List Char → List Char → Option (List Char × List Char)
  | _, [] => none
  | acc, c :: rest =>
    if c == closing then some (acc.reverse, rest)
    else if c == backslash then
      match rest with
      | d :: rest' => titleUntil? closing (d :: c :: acc) rest'
      | [] => none
    else if c == '(' && closing == ')' then none
    else titleUntil? closing (c :: acc) rest

/-- A title, and the rest. -/
def title? (inTable : Bool) : List Char → Option (List Char × List Char)
  | c :: rest =>
    let found :=
      if c.toNat == 0x22 || c.toNat == 0x27 then titleUntil? c [] rest
      else if c == '(' then titleUntil? ')' [] rest
      else none
    found.map fun (title, tail) => (unescape inTable title, tail)
  | [] => none

/-- A target in angle brackets as written, and the rest. -/
def bracketedTarget? : List Char → List Char → Option (List Char × List Char)
  | _, [] => none
  | acc, c :: rest =>
    if c == '>' then some (acc.reverse, rest)
    else if c == '<' || c == '\n' then none
    else if c == backslash then
      match rest with
      | d :: rest' => if d == '\n' then none else bracketedTarget? (d :: c :: acc) rest'
      | [] => none
    else bracketedTarget? (c :: acc) rest

/-- How deep parentheses may nest in a target. -/
def maxParentheses : Nat := 33

/-- A target without angle brackets as written, and the rest. Its parentheses are balanced; one
after a backslash does not count. -/
def bareTarget? : Nat → Bool → List Char → List Char → Option (List Char × List Char)
  | nested, _, acc, [] => if nested = 0 then some (acc.reverse, []) else none
  | nested, escaped, acc, c :: rest =>
    if escaped && Text.isAsciiPunctuation c then bareTarget? nested false (c :: acc) rest
    else if c.toNat ≤ 0x20 then if nested = 0 then some (acc.reverse, c :: rest) else none
    else if c == '(' then
      if maxParentheses ≤ nested then none else bareTarget? (nested + 1) false (c :: acc) rest
    else if c == ')' then
      if nested = 0 then some (acc.reverse, c :: rest)
      else bareTarget? (nested - 1) false (c :: acc) rest
    else bareTarget? nested (c == backslash) (c :: acc) rest

/-- A target, and the rest. -/
def target? (inTable : Bool) (s : List Char) : Option (List Char × List Char) :=
  let found := match s with
    | '<' :: rest => bracketedTarget? [] rest
    | _ => bareTarget? 0 false [] s
  found.map fun (target, rest) => (unescape inTable target, rest)

/-- The text after blanks of which at most one ends a line. -/
def skipBlanks (s : List Char) : List Char :=
  match s.dropWhile isLineBlank with
  | '\n' :: rest => rest.dropWhile isLineBlank
  | rest => rest

/-- The target and title that follow an opening parenthesis, and the rest after the closing one. -/
def inlineTarget? (inTable : Bool) (s : List Char) :
    Option ((List Char × List Char) × List Char) := do
  let (target, s) ← target? inTable (skipBlanks s)
  let inner := skipBlanks s
  let (title, s) := match title? inTable inner with
    | some (title, tail) => (title, skipBlanks tail)
    | none => ([], inner)
  match s with
  | ')' :: rest => return ((target, title), rest)
  | _ => none

/-- How much a character adds to the size of a label: one for each octet, but nothing for ASCII. -/
def labelWeight (c : Char) : Nat :=
  if c.toNat < 128 then 0 else c.utf8Size

/-- How large a label may be. -/
def maxLabel : Nat := 999

/-- The label up to its closing bracket, and the rest. Blanks between words count as one space. A
label holds no other bracket, at most one line end in a row, and more than blanks and escapes. The
arguments are a bound of its length, its size so far, whether it holds more, and its characters,
latest first. -/
def labelFrom (inTable : Bool) :
    Nat → Nat → Bool → List Char → List Char → Option (List Char × List Char)
  | 0, _, _, _, _ => none
  | _ + 1, _, _, _, [] => none
  | n + 1, size, full, acc, c :: rest =>
    if maxLabel < size then none
    else if c == ']' then if full then some (acc.reverse, rest) else none
    else if c == '[' then none
    else if inTable && startsTableEscape (c :: rest) then
      labelFrom inTable n (size + 2) full ('|' :: acc) (rest.drop 2)
    else if c == backslash then
      match rest with
      | d :: rest' =>
        if inTable && d == '|' then labelFrom inTable n (size + 1) full (d :: acc) rest'
        else
          labelFrom inTable n (size + 2 + (labelWeight d - 1)) (full || 128 ≤ d.toNat)
            (d :: c :: acc) rest'
      | [] => none
    else if isAnyBlank c then
      let blanks := c :: rest.takeWhile isAnyBlank
      if 1 < (blanks.filter (· == '\n')).length then none
      else labelFrom inTable n (size + blanks.length) full (' ' :: acc) (rest.dropWhile isAnyBlank)
    else labelFrom inTable n (size + labelWeight c) true (c :: acc) rest

/-- The label after an opening bracket, as it is compared with others, and the rest. -/
def label? (inTable : Bool) (s : List Char) : Option (List Char × List Char) :=
  (labelFrom inTable s.length 0 false [] s).map fun (label, rest) => (Text.fold label, rest)

/-- A label with its target and title. -/
structure Definition where
  label : List Char
  target : List Char
  title : List Char

/-- The target and title of a label; the first definition counts. -/
def findDefinition? (definitions : List Definition) (label : List Char) :
    Option (List Char × List Char) :=
  (definitions.find? fun d => d.label == label).map fun d => (d.target, d.title)

/-- The text after blanks before a part of a definition, and whether one of them ends a line. The
paragraph must go on after them. -/
def skipToPart? (s : List Char) : Option (List Char × Bool) :=
  match s.dropWhile isLineBlank with
  | [] => none
  | '\n' :: rest =>
    match rest.dropWhile isLineBlank with
    | [] => none
    | '\n' :: _ => none
    | part => some (part, true)
  | part => some (part, false)

/-- Whether only blanks are left of a line. -/
def atLineEnd (s : List Char) : Bool :=
  match s.dropWhile isLineBlank with
  | [] => true
  | c :: _ => c == '\n'

/-- The title and the rest of a definition after its target. A title on a line of its own that does
not end that line belongs to what follows. -/
def definedTitle? (s : List Char) : Option (List Char × List Char) :=
  match skipToPart? s with
  | none => some ([], s)
  | some (part, onNextLine) =>
    if part.length == s.length then none
    else
      match title? false part with
      | some (title, rest) =>
        if atLineEnd rest then some (title, rest) else if onNextLine then some ([], s) else none
      | none => if onNextLine then some ([], s) else none

/-- The definition at the start of a text, and the rest of its last line and of the text. -/
def definition? : List Char → Option (Definition × List Char)
  | '[' :: s => do
    let (label, s) ← label? false s
    match s with
    | ':' :: s =>
      let (part, _) ← skipToPart? s
      let (target, s) ← target? false part
      if part.length == s.length then none
      else
        let (title, s) ← definedTitle? s
        return (⟨label, target, title⟩, s)
    | _ => none
  | _ => none

end Compendium.Markdown
