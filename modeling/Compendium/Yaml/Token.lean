import Compendium.Yaml.Scalar

/-!
# Tokens of a YAML text

A token is a mark of structure, a scalar, or a property of the value that follows it. Names, tags
and directives are read here; a tag is a handle and a suffix.
-/

namespace Compendium.Yaml

inductive Token where
  | version (major minor : Nat)
  | tagRule (handle start : String)
  | documentStart
  | documentEnd
  | blockSequenceStart
  | blockMappingStart
  | blockEnd
  | flowSequenceStart
  | flowSequenceEnd
  | flowMappingStart
  | flowMappingEnd
  | flowEntry
  | blockEntry
  | key
  | value
  | alias (name : String)
  | anchor (name : String)
  | tag (handle suffix : String)
  | scalar (style : Style) (text : String)
  deriving DecidableEq, Repr

/-- A character of a name: a letter or digit of ASCII, a low line or a hyphen. -/
def isNameChar (c : Char) : Bool :=
  c.isAlphanum || c == '_' || c == '-'

/-- The name here, and the place after it. -/
def takeName (c : Cursor) : String × Cursor :=
  let name := c.rest.takeWhile isNameChar
  (String.ofList name, c.skipMany name.length)

/-- The place after blanks. -/
def skipBlanks (c : Cursor) : Cursor :=
  c.skipMany (c.rest.takeWhile isBlank).length

/-- The name of an anchor or alias after its mark. -/
def anchorName? (c : Cursor) : Option (String × Cursor) :=
  let (name, c) := takeName c
  let closed := c.endsWordAt 0 || c.sees fun ch =>
    ['?', ':', ',', ']', '%', '@'].contains ch || ch.toNat == 0x7D || ch.toNat == 0x60
  if name.isEmpty || !closed then none else some (name, c)

/-- A character of a tag. Commas and square brackets belong only to a full one. -/
def isTagChar (full : Bool) (c : Char) : Bool :=
  isNameChar c ||
    [';', '/', '?', ':', '@', '&', '=', '+', '$', '.', '%', '!', '~', '*', '(', ')'].contains c ||
    c == singleQuote || (full && (c == ',' || c == '[' || c == ']'))

/-- The octet of a percent sign and two hexadecimal digits. -/
def tagOctet? : List Char → Option (Nat × List Char)
  | '%' :: a :: b :: rest => do
    let high ← Text.hexDigit? a
    let low ← Text.hexDigit? b
    return (16 * high + low, rest)
  | _ => none

/-- So many octets that go on a character, added to the bits before them. -/
def tagOctets? : Nat → Nat → List Char → Option (Nat × List Char)
  | 0, n, cs => some (n, cs)
  | width + 1, n, cs => do
    let (octet, rest) ← tagOctet? cs
    if octet / 64 == 2 then tagOctets? width (64 * n + octet % 64) rest else none

/-- The character written as octets here, and the text after it. -/
def tagEscape? (cs : List Char) : Option (Char × List Char) := do
  let (first, rest) ← tagOctet? cs
  let (n, rest) ←
    if first < 0x80 then some (first, rest)
    else if first / 32 == 6 then tagOctets? 1 (first % 32) rest
    else if first / 16 == 14 then tagOctets? 2 (first % 16) rest
    else if first / 8 == 30 then tagOctets? 3 (first % 8) rest
    else none
  return (if n.isValidChar then Char.ofNat n else Char.ofNat 0xFFFD, rest)

/-- The text of a tag, latest character first, and the text after it. The first argument bounds its
length. -/
def tagText? (full : Bool) : Nat → List Char → List Char → Option (List Char × List Char)
  | 0, acc, cs => some (acc, cs)
  | n + 1, acc, cs =>
    match cs with
    | [] => some (acc, [])
    | ch :: rest =>
      if ch == '%' then
        match tagEscape? cs with
        | some (decoded, after) => tagText? full n (decoded :: acc) after
        | none => none
      else if isTagChar full ch then tagText? full n (ch :: acc) rest
      else some (acc, cs)

/-- The text of a tag after a start that is known, and the place after it. -/
def takeTag? (full : Bool) (start : List Char) (c : Cursor) : Option (String × Cursor) := do
  let (text, rest) ← tagText? full c.rest.length [] c.rest
  return (String.ofList (start ++ text.reverse), c.skipMany (c.rest.length - rest.length))

/-- The handle of a tag: an exclamation mark, and perhaps a name and another one. -/
def tagHandle? (c : Cursor) : Option (List Char × Cursor) :=
  if c.isAt '!' then
    let (name, next) := takeName c.skip
    if next.isAt '!' then some ('!' :: name.toList ++ ['!'], next.skip) else some
      ('!' :: name.toList, next)
  else none

/-- A tag here: its handle, its suffix and the place after it. -/
def tag? (inFlow : Bool) (c : Cursor) : Option (Token × Cursor) := do
  let (token, next) ←
    if c.peek 1 == some '<' then do
      let (suffix, next) ← takeTag? true [] (c.skipMany 2)
      if suffix.isEmpty || !next.isAt '>' then none else some (Token.tag "" suffix, next.skip)
    else do
      let (handle, next) ← tagHandle? c
      if 1 < handle.length && handle.getLast? == some '!' then do
        let (suffix, next) ← takeTag? false [] next
        if suffix.isEmpty then none else some (Token.tag (String.ofList handle) suffix, next)
      else do
        let (suffix, next) ← takeTag? false (handle.drop 1) next
        some (if suffix.isEmpty then Token.tag "" "!" else Token.tag "!" suffix, next)
  if next.endsWordAt 0 || (inFlow && next.isAt ',') then some (token, next) else none

/-- A number of a version: one to nine digits. -/
def versionNumber? (c : Cursor) : Option (Nat × Cursor) :=
  let digits := c.rest.takeWhile Char.isDigit
  if digits.isEmpty || 9 < digits.length then none
  else some (digits.foldl (fun n d => 10 * n + (d.toNat - 48)) 0, c.skipMany digits.length)

/-- A directive after its mark: a version or a rule for tags. -/
def directive? (c : Cursor) : Option (Token × Cursor) := do
  let (name, c) := takeName c
  if !c.endsWordAt 0 then none
  else
    let c := skipBlanks c
    let (token, c) ← match name with
      | "YAML" => do
        let (major, c) ← versionNumber? c
        if !c.isAt '.' then none
        else
          let (minor, c) ← versionNumber? c.skip
          some (Token.version major minor, c)
      | "TAG" => do
        let (handle, c) ← tagHandle? c
        let proper := handle == ['!'] || (1 < handle.length && handle.getLast? == some '!')
        if !proper || !c.sees isBlank then none
        else
          let (start, c) ← takeTag? true [] (skipBlanks c)
          if start.isEmpty || !c.endsWordAt 0 then none
          else some (Token.tagRule (String.ofList handle) start, c)
      | _ => none
    let c ← skipToBreak c
    return (token, (c.takeBreak).2)

end Compendium.Yaml
