import Compendium.Markdown.Basic
import Compendium.Text.Case
import Compendium.Text.Split

/-!
# Tags inside text

Recognizes what looks like a tag, a comment, a declaration or an automatic link. Each function takes
the text after the opening angle bracket and returns what follows the closing one.
-/

namespace Compendium.Markdown

/-- The rest after the first occurrence of a text. -/
def after? (mark : List Char) : List Char → Option (List Char)
  | [] => if mark.isEmpty then some [] else none
  | c :: rest =>
    match mark.isPrefixOf? (c :: rest) with
    | some tail => some tail
    | none => after? mark rest

/-- The rest after the name of a tag. -/
def tagName? : List Char → Option (List Char)
  | c :: rest =>
    if isLetter c then some (rest.dropWhile fun d => isLetterOrDigit d || d == '-') else none
  | [] => none

/-- Whether a character can start the name of an attribute. -/
def startsAttribute (c : Char) : Bool :=
  isLetter c || c == '_' || c == ':'

/-- Whether a character can continue the name of an attribute. -/
def continuesAttribute (c : Char) : Bool :=
  startsAttribute c || isDigit c || c == '.' || c == '-'

/-- Whether a character can stand in a value without quotes. -/
def isUnquoted (c : Char) : Bool :=
  !isLineEnd c && !([0x20, 0x22, 0x27, 0x3D, 0x3C, 0x3E, 0x60].contains c.toNat)

/-- The rest after a value. -/
def attributeValue? : List Char → Option (List Char)
  | [] => none
  | c :: rest =>
    if c.toNat == 0x22 || c.toNat == 0x27 then
      match rest.dropWhile (· != c) with
      | _ :: tail => some tail
      | [] => none
    else if isUnquoted c then some (rest.dropWhile isUnquoted)
    else none

/-- The rest after the value that may follow the name of an attribute. -/
def attributeTail? (s : List Char) : Option (List Char) :=
  match s.dropWhile isAnyBlank with
  | '=' :: rest => attributeValue? (rest.dropWhile isAnyBlank)
  | _ => some s

/-- The rest after the attributes and the end of a start tag. The first argument bounds their
number. -/
def attributes? : Nat → List Char → Option (List Char)
  | 0, _ => none
  | n + 1, s =>
    match s.dropWhile isAnyBlank with
    | '>' :: rest => some rest
    | '/' :: '>' :: rest => some rest
    | c :: rest =>
      if s.length == (c :: rest).length then none
      else if startsAttribute c then
        match attributeTail? (rest.dropWhile continuesAttribute) with
        | some tail => attributes? n tail
        | none => none
      else none
    | [] => none

/-- The rest after a start tag. -/
def startTag? (s : List Char) : Option (List Char) :=
  (tagName? s).bind fun rest => attributes? (rest.length + 1) rest

/-- The rest after an end tag. It stands on one line. -/
def endTag? : List Char → Option (List Char)
  | '/' :: s =>
    match (tagName? s).map (·.dropWhile isLineBlank) with
    | some ('>' :: rest) => some rest
    | _ => none
  | _ => none

/-- The rest after a comment. -/
def comment? (s : List Char) : Option (List Char) :=
  match "!--".toList.isPrefixOf? s with
  | some ('>' :: rest) => some rest
  | some ('-' :: '>' :: rest) => some rest
  | some rest => after? "-->".toList rest
  | none => none

/-- The rest after marked text, which ends at its first closing brackets. -/
def markedText? (s : List Char) : Option (List Char) :=
  match s.dropWhile (· != ']') with
  | ']' :: rest =>
    match rest.dropWhile (· == ']') with
    | '>' :: tail => some tail
    | _ => none
  | _ => none

/-- The rest after an instruction, a declaration or marked text. -/
def declaration? (s : List Char) : Option (List Char) :=
  match s with
  | '?' :: rest => after? "?>".toList rest
  | '!' :: rest =>
    match "[CDATA[".toList.isPrefixOf? rest, rest with
    | some inner, _ => markedText? inner
    | none, c :: _ => if isLetter c then after? ">".toList rest else none
    | none, [] => none
  | _ => none

/-- The rest after a tag, which starts or ends an element. -/
def tag? (s : List Char) : Option (List Char) :=
  (startTag? s).or (endTag? s)

/-- The rest after a comment or what else is no tag but written like one. -/
def remark? (s : List Char) : Option (List Char) :=
  (comment? s).or (declaration? s)

/-- Whether a character can stand in the scheme of an address. -/
def isSchemeChar (c : Char) : Bool :=
  isLetterOrDigit c || c == '+' || c == '.' || c == '-'

/-- The address of an automatic link, and the rest. -/
def address? (s : List Char) : Option (List Char × List Char) :=
  match s with
  | c :: _ =>
    let scheme := s.takeWhile isSchemeChar
    match s.dropWhile isSchemeChar with
    | ':' :: tail =>
      if isLetter c && 2 ≤ scheme.length && scheme.length ≤ 32 then
        let plain (d : Char) := 0x20 < d.toNat && d != '<' && d != '>'
        match tail.dropWhile plain with
        | '>' :: rest => some (scheme ++ ':' :: tail.takeWhile plain, rest)
        | _ => none
      else none
    | _ => none
  | [] => none

/-- Whether a character can stand before the at sign of a mail address. -/
def isMailChar (c : Char) : Bool :=
  isLetterOrDigit c ||
    [0x2E, 0x21, 0x23, 0x24, 0x25, 0x26, 0x27, 0x2A, 0x2B, 0x2F, 0x3D, 0x3F, 0x5E, 0x5F, 0x60, 0x7B,
      0x7C, 0x7D, 0x7E, 0x2D].contains c.toNat

/-- Whether a text is a label of a domain: letters, digits and inner hyphens, at most 63. -/
def isDomainLabel (s : List Char) : Bool :=
  !s.isEmpty && s.length ≤ 63 && s.all (fun c => isLetterOrDigit c || c == '-') &&
    s.head? != some '-' && s.getLast? != some '-'

/-- The mail address of an automatic link, and the rest. -/
def mailAddress? (s : List Char) : Option (List Char × List Char) :=
  let mailbox := s.takeWhile isMailChar
  match s.dropWhile isMailChar with
  | '@' :: tail =>
    let inDomain (c : Char) := isLetterOrDigit c || c == '-' || c == '.'
    let domain := tail.takeWhile inDomain
    match tail.dropWhile inDomain with
    | '>' :: rest =>
      if !mailbox.isEmpty && (domain.splitOn '.').all isDomainLabel then
        some (mailbox ++ '@' :: domain, rest)
      else none
    | _ => none
  | _ => none

end Compendium.Markdown
