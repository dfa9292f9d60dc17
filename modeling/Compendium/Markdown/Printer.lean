import Compendium.Markdown.Inline
import Compendium.Markdown.Parser
import Compendium.Text.Utf8

/-!
# Formatted text as markup

Blocks start on lines of their own. Tags in the text are shown as text. The functions take whether
the output so far ends a line.
-/

namespace Compendium.Markdown

/-- A character of running text. -/
def textChar (c : Char) : List Char :=
  match c.toNat with
  | 0x26 => "&amp;".toList
  | 0x3C => "&lt;".toList
  | 0x3E => "&gt;".toList
  | _ => [c]

def textChars (s : List Char) : List Char :=
  s.flatMap textChar

/-- A character of an attribute. -/
def attrChar (c : Char) : List Char :=
  match c.toNat with
  | 0x22 => "&quot;".toList
  | 0x27 => "&#39;".toList
  | _ => textChar c

/-- The text of an attribute. -/
def attrText (s : List Char) : List Char :=
  s.flatMap attrChar

/-- Whether an octet stands for itself in an address. -/
def isAddressOctet (b : UInt8) : Bool :=
  let n := b.toNat
  (0x30 ≤ n && n ≤ 0x39) || (0x40 ≤ n && n ≤ 0x5A) || (0x61 ≤ n && n ≤ 0x7A) ||
    [0x21, 0x23, 0x24, 0x25, 0x28, 0x29, 0x2A, 0x2B, 0x2C, 0x2D, 0x2E, 0x2F, 0x3A, 0x3B, 0x3D, 0x3F,
      0x5E, 0x5F, 0x7E].contains n

/-- A hexadecimal digit in upper case. -/
def upperHex (n : Nat) : Char :=
  if n < 10 then Char.ofNat (48 + n) else Char.ofNat (55 + n)

def addressOctet (b : UInt8) : List Char :=
  if isAddressOctet b then [Char.ofNat b.toNat]
  else if b == 0x26 then "&amp;".toList
  else if b == 0x27 then "&#x27;".toList
  else ['%', upperHex (b.toNat / 16), upperHex (b.toNat % 16)]

/-- An address in an attribute. -/
def addressText (s : List Char) : List Char :=
  (Text.utf8 s).flatMap addressOctet

mutual

def altText : Span → List Char
  | .text s => attrText s
  | .code s => attrText s
  | .softBreak => [' ']
  | .hardBreak => [' ']
  | .emphasis content | .strong content | .strike content | .link _ _ content
  | .image _ _ content => altTexts content

def altTexts : List Span → List Char
  | [] => []
  | s :: rest => altText s ++ altTexts rest

end

/-- A title as an attribute, unless it is empty. -/
def titleAttr (title : List Char) : List Char :=
  if title.isEmpty then [] else " title=\"".toList ++ attrText title ++ "\"".toList

/-- A content between two texts. -/
def enclosed (front back : String) (content : List Char) : List Char :=
  front.toList ++ content ++ back.toList

mutual

def spanChars : Span → List Char
  | .text s => textChars s
  | .code s => enclosed "<code>" "</code>" (textChars s)
  | .softBreak => ['\n']
  | .hardBreak => "<br />\n".toList
  | .emphasis content => enclosed "<em>" "</em>" (spansChars content)
  | .strong content => enclosed "<strong>" "</strong>" (spansChars content)
  | .strike content => enclosed "<del>" "</del>" (spansChars content)
  | .link target title content =>
    "<a href=\"".toList ++ addressText target ++ "\"".toList ++ titleAttr title ++
      enclosed ">" "</a>" (spansChars content)
  | .image target title content =>
    "<img src=\"".toList ++ addressText target ++ "\" alt=\"".toList ++ altTexts content ++
      "\"".toList ++ titleAttr title ++ " />".toList

def spansChars : List Span → List Char
  | [] => []
  | s :: rest => spanChars s ++ spansChars rest

end

/-- Running text with some blanks behind it as markup. -/
def inlineChars (definitions : List Definition) (text : List Glyph)
    (behind : List Char) : List Char :=
  spansChars (Setting.spans ⟨definitions, false⟩ text behind)

/-- The text of a cell as markup. -/
def cellChars (definitions : List Definition) (s : List Char) : List Char :=
  spansChars (Setting.spans ⟨definitions, true⟩ (s.map Glyph.char) [])

/-- Whether the output ends a line after some more of it. -/
def endsLine (before : Bool) (out : List Char) : Bool :=
  match out.getLast? with
  | some c => c == '\n'
  | none => before

def onNewLine (atStart : Bool) (s : List Char) : List Char :=
  if atStart then s else '\n' :: s

/-- The style of a cell. -/
def alignmentStyle : Alignment → String
  | .none => ""
  | .left => " style=\"text-align: left\""
  | .center => " style=\"text-align: center\""
  | .right => " style=\"text-align: right\""

def cellsChars (definitions : List Definition) (tag : String) :
    List Alignment → List (List Char) → List Char
  | [], _ => []
  | _, [] => []
  | a :: columns, cell :: rest =>
    ("<" ++ tag ++ alignmentStyle a ++ ">").toList ++ cellChars definitions cell ++
      ("</" ++ tag ++ ">").toList ++ cellsChars definitions tag columns rest

def tableChars (definitions : List Definition) (columns : List Alignment)
    (header : List (List Char)) (rows : List (List (List Char))) : List Char :=
  "<table><thead><tr>".toList ++ cellsChars definitions "th" columns header ++
    "</tr></thead><tbody>\n".toList ++
    rows.flatMap (fun row =>
      "<tr>".toList ++ cellsChars definitions "td" columns row ++ "</tr>\n".toList) ++
    "</tbody></table>\n".toList

/-- The start of a code block; the first word after the fence is its language. -/
def codeStart (info : List Char) : List Char :=
  match info.takeWhile (· != ' ') with
  | [] => "<pre><code>".toList
  | language => "<pre><code class=\"language-".toList ++ attrText language ++ "\">".toList

def listTags : Option Nat → String × String
  | none => ("<ul>\n", "</ul>\n")
  | some 1 => ("<ol>\n", "</ol>\n")
  | some n => ("<ol start=\"" ++ String.ofList (Nat.toDigits 10 n) ++ "\">\n", "</ol>\n")

def headingTag (level : Nat) : String :=
  "h" ++ String.ofList (Nat.toDigits 10 level)

mutual

/-- A node as markup. In a tight list the text of a paragraph stands alone. -/
def nodeChars (definitions : List Definition) (tight atStart : Bool) : Node → List Char
  | .paragraph text =>
    if tight then inlineChars definitions text []
    else onNewLine atStart (enclosed "<p>" "</p>\n" (inlineChars definitions text []))
  | .heading level text behind =>
    onNewLine atStart
      (enclosed ("<" ++ headingTag level ++ ">") ("</" ++ headingTag level ++ ">\n")
        (inlineChars definitions text behind))
  | .code info text =>
    onNewLine atStart (codeStart info ++ textChars text ++ "</code></pre>\n".toList)
  | .literal text => textChars text
  | .rule => onNewLine atStart "<hr />\n".toList
  | .quote content =>
    onNewLine atStart
      (enclosed "<blockquote>\n" "</blockquote>\n" (nodesChars definitions false true content))
  | .list start tight items =>
    let (opening, closing) := listTags start
    onNewLine atStart (enclosed opening closing (itemsChars definitions tight items))
  | .table columns header rows => tableChars definitions columns header rows

def nodesChars (definitions : List Definition) (tight atStart : Bool) : List Node → List Char
  | [] => []
  | n :: rest =>
    let first := nodeChars definitions tight atStart n
    first ++ nodesChars definitions tight (endsLine atStart first) rest

def itemsChars (definitions : List Definition) (tight : Bool) : List (List Node) → List Char
  | [] => []
  | item :: rest =>
    enclosed "<li>" "</li>\n" (nodesChars definitions tight false item) ++
      itemsChars definitions tight rest

end

/-- A text in Markdown as markup. -/
def html (s : String) : String :=
  let (nodes, definitions) := parse s.toList
  String.ofList (nodesChars definitions false true nodes)

end Compendium.Markdown
