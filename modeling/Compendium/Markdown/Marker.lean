import Compendium.Markdown.Cursor
import Compendium.Markdown.Entity
import Compendium.Markdown.Tag

/-!
# What starts a block

Each function looks at a text from the place on where a line has its first character that is not
blank.
-/

namespace Compendium.Markdown

/-- Whether a line is a rule: three or more stars, hyphens or underscores with blanks between. -/
def isRule (s : List Char) : Bool :=
  let line := lineText s
  match line with
  | c :: _ =>
    (c == '*' || c == '-' || c == '_') && line.all (fun d => d == c || isTabOrSpace d) &&
      3 ≤ (line.filter (· == c)).length
  | [] => false

def headingLevel? (s : List Char) : Option Nat :=
  let level := runLength '#' s
  let ended := match s.drop level with
    | [] => true
    | c :: _ => isAnyBlank c
  if 1 ≤ level && level ≤ 6 && ended then some level else none

/-- The text of a heading after its marks, without its closing marks. Only spaces count at its
end. -/
def headingText (s : List Char) : List Char :=
  let text := Text.dropEndWhile (· == ' ') ((lineText s).dropWhile isLineBlank)
  let opened := Text.dropEndWhile (· == '#') text
  if opened.isEmpty then []
  else if opened.getLast? == some ' ' then Text.dropEndWhile (· == ' ') opened
  else text

/-- The level that an underline gives to the text above it, and the text after it. -/
def underline? (s : List Char) : Option (Nat × List Char) :=
  match s with
  | c :: _ =>
    if c == '=' || c == '-' then
      (afterBlankLine? (s.dropWhile (· == c))).map fun rest => (if c == '=' then 1 else 2, rest)
    else none
  | [] => none

/-- The first line of literal text with its end, and the text after it. Only a line feed ends it. -/
def literalLine (s : List Char) : List Char × List Char :=
  let line := s.takeWhile (· != '\n')
  match s.drop line.length with
  | c :: rest => (line ++ [c], rest)
  | [] => (line, [])

/-- A line of literal text as it is shown: without a carriage return before its last octet. -/
def shownLine (line : List Char) : List Char :=
  match line.reverse with
  | c :: '\r' :: front => if c.toNat < 128 then front.reverse ++ [c] else line
  | _ => line

/-- A fence: its mark, length and indentation. -/
structure Fence where
  mark : Char
  length : Nat
  indent : Nat

/-- The fence that starts a code block, the text behind it, and the text after the line. -/
def fence? (indent : Nat) (s : List Char) : Option (Fence × List Char × List Char) :=
  match s with
  | c :: _ =>
    let length := runLength c s
    let (line, rest) := literalLine (s.drop length)
    if (c == grave || c == '~') && 3 ≤ length && (c == '~' || !line.contains grave) then
      let info := Text.dropEndWhile isAnyBlank (line.dropWhile isLineBlank)
      some (⟨c, length, indent⟩, unescape false info, rest)
    else none
  | [] => none

/-- The text after the line that closes a fence. The end of the text closes it too. -/
def afterFence? (f : Fence) (s : List Char) : Option (List Char) :=
  if s.isEmpty then some []
  else
    let rest := (s.drop (runLength f.mark s)).dropWhile (· == ' ')
    let ended := match rest with
      | [] => true
      | c :: _ => isLineEnd c
    if f.length ≤ runLength f.mark s && ended then some (afterLine rest) else none

/-- The mark of a list item: a bullet, or what follows the number. -/
structure ListMark where
  mark : Char
  start : Option Nat
  width : Nat

/-- The number that digits write. -/
def decimal (s : List Char) : Nat :=
  s.foldl (fun n c => 10 * n + (c.toNat - 48)) 0

/-- The mark that starts a list item. A blank or a line end follows it. -/
def listMark? (s : List Char) : Option ListMark :=
  let followed (rest : List Char) := match rest with
    | [] => true
    | c :: _ => isTabOrSpace c || isLineEnd c
  match s with
  | c :: rest =>
    if c == '*' || c == '-' || c == '+' then if followed rest then some ⟨c, none, 1⟩ else none
    else
      let digits := s.takeWhile isDigit
      match s.dropWhile isDigit with
      | d :: tail =>
        if (d == '.' || d == ')') && !digits.isEmpty && digits.length ≤ 9 && followed tail then
          some ⟨d, some (decimal digits), digits.length + 1⟩
        else none
      | [] => none
  | [] => none

/-- The width of a list mark with the blanks behind it, and the place where the item has its
content. -/
def afterMark (m : ListMark) (c : Cursor) : Nat × Cursor :=
  let (_, inner) := (c.advance m.width).skip 1
  if (afterBlankLine? inner.rest).isSome then (m.width + 1, inner)
  else
    let (indent, content) := inner.skipUpTo 4
    if indent < 4 then (m.width + 1 + indent, content) else (m.width + 1, inner)

/-- Whether an item with a mark may interrupt a paragraph: a bullet or the number one, and not alone
on its line. -/
def mayInterrupt (m : ListMark) (s : List Char) : Bool :=
  (m.start == none || m.start == some 1) && (afterBlankLine? (s.drop m.width)).isNone

/-- How a block of tags ends: at a line with some text, or before a blank line. -/
inductive LiteralEnd where
  | text (mark : List Char)
  | blank

/-- The names of tags whose content is literal. -/
def literalTags : List String := ["pre", "style", "script", "textarea"]

/-- The names of tags that start a block. -/
def blockTags : List String :=
  ["address", "article", "aside", "base", "basefont", "blockquote", "body", "caption", "center",
    "col", "colgroup", "dd", "details", "dialog", "dir", "div", "dl", "dt", "fieldset",
    "figcaption", "figure", "footer", "form", "frame", "frameset", "h1", "h2", "h3", "h4", "h5",
    "h6", "head", "header", "hr", "html", "iframe", "legend", "li", "link", "main", "menu",
    "menuitem", "nav", "noframes", "ol", "optgroup", "option", "p", "param", "search", "section",
    "summary", "table", "tbody", "td", "tfoot", "th", "thead", "title", "tr", "track", "ul"]

/-- The name at the start of a text, in lower case. -/
def nameAt (s : List Char) : String :=
  String.ofList (Text.lowerAscii (s.takeWhile isLetterOrDigit))

/-- The rest after the name at the start of a text. -/
def afterName (s : List Char) : List Char :=
  s.dropWhile isLetterOrDigit

/-- The end of a block that a tag with literal content starts: its own closing tag in lower case. -/
def contentEnd? (s : List Char) : Option LiteralEnd :=
  let ended := match afterName s with
    | [] => true
    | c :: _ => isAnyBlank c || c == '>'
  if literalTags.contains (nameAt s) && ended then some
    (.text ("</" ++ nameAt s ++ ">").toList) else none

/-- The end of a block that a special tag starts. -/
def literalEnd? (s : List Char) : Option LiteralEnd :=
  match s with
  | '<' :: rest =>
    match contentEnd? rest with
    | some ending => some ending
    | none =>
      if "!--".toList.isPrefixOf rest then some (.text "-->".toList)
      else if rest.head? == some '?' then some (.text "?>".toList)
      else if "![CDATA[".toList.isPrefixOf rest then some (.text "]]>".toList)
      else
        match rest with
        | '!' :: c :: _ => if isLetter c then some (.text ['>']) else none
        | _ => none
  | _ => none

def startsBlockTag (s : List Char) : Bool :=
  match s with
  | '<' :: rest =>
    let name := match rest with
      | '/' :: tail => tail
      | _ => rest
    let ended := match afterName name with
      | [] => true
      | '/' :: '>' :: _ => true
      | c :: _ => isTabOrSpace c || isLineEnd c || c == '>'
    blockTags.contains (nameAt name) && ended
  | _ => false

def isTagAlone (s : List Char) : Bool :=
  match lineText s with
  | '<' :: rest =>
    match tag? rest with
    | some tail => tail.all isLineBlank
    | none => false
  | _ => false

/-- The end of the block of tags that starts at a text, if one does. -/
def tagBlock? (s : List Char) : Option LiteralEnd :=
  match literalEnd? s with
  | some ending => some ending
  | none => if startsBlockTag s || isTagAlone s then some .blank else none

end Compendium.Markdown
