import Compendium.Text.CaseMap
import Compendium.Text.Cased

/-!
# Changing case

Full Unicode lowercasing and uppercasing. A capital sigma that ends a word becomes the final form.
-/

namespace Compendium.Text

/-- Applies the first run that moves the code point. -/
def shiftBy (runs : List CaseRun) (c : Char) : Char :=
  match runs.find? (·.moves c.toNat) with
  | some run => Char.ofNat (Int.toNat (c.toNat + run.shift))
  | none => c

/-- The lowercase form of one character on its own. -/
def lowerChar (c : Char) : List Char :=
  if c.toNat < 128 then
    [if 'A' ≤ c && c ≤ 'Z' then Char.ofNat (c.toNat + 32) else c]
  else
    match lowercaseExpansions.lookup c.toNat with
    | some image => image.map Char.ofNat
    | none => [shiftBy lowercaseRuns c]

/-- The uppercase form of one character. -/
def upperChar (c : Char) : List Char :=
  if c.toNat < 128 then
    [if 'a' ≤ c && c ≤ 'z' then Char.ofNat (c.toNat - 32) else c]
  else
    match uppercaseExpansions.lookup c.toNat with
    | some image => image.map Char.ofNat
    | none => [shiftBy uppercaseRuns c]

/-- Whether the nearest character that case rules do not look through is cased. -/
def nextIsCased (s : List Char) : Bool :=
  match s.dropWhile isCaseIgnorable with
  | [] => false
  | c :: _ => isCased c

/-- Lowercases a text whose preceding characters, nearest first, are given. -/
def lowerAfter (before : List Char) : List Char → List Char
  | [] => []
  | c :: rest =>
    let image :=
      if c == 'Σ' then
        [if nextIsCased before && !nextIsCased rest then 'ς' else 'σ']
      else lowerChar c
    image ++ lowerAfter (c :: before) rest

/-- The lowercase form of a text. -/
def lower (s : List Char) : List Char :=
  lowerAfter [] s

/-- The lowercase form of ASCII letters; every other character stays. -/
def lowerAscii (s : List Char) : List Char :=
  s.map fun c => if 'A' ≤ c && c ≤ 'Z' then Char.ofNat (c.toNat + 32) else c

/-- The uppercase form of ASCII letters; every other character stays. -/
def upperAscii (s : List Char) : List Char :=
  s.map fun c => if 'a' ≤ c && c ≤ 'z' then Char.ofNat (c.toNat - 32) else c

/-- What a character has in common with the characters that differ from it only in case. The dotless
i stands alone. -/
def foldChar (c : Char) : List Char :=
  if c.toNat == 0x131 then [c] else ((lowerChar c).flatMap upperChar).flatMap lowerChar

/-- What a text has in common with the texts that differ from it only in case. -/
def fold (s : List Char) : List Char :=
  s.flatMap foldChar

end Compendium.Text
