import Compendium.Document.Basic

/-!
# Text and structure of a document

The plain text of inline content, the look-up of a section by its id, and the table of contents that
the titled sections make.
-/

namespace Compendium

mutual

/-- The text of one piece of inline content; references to footnotes and unrecognized pieces have
none. -/
def Inline.plainText : Inline → String
  | .text s => s
  | .styled s _ => s
  | .math f => f.content
  | .link content _ _ => Inline.plainTextList content
  | .footnote _ => ""
  | .code s => s
  | .unknown _ => ""

def Inline.plainTextList : List Inline → String
  | [] => ""
  | i :: rest => i.plainText ++ Inline.plainTextList rest

end

def Section.titleText? (s : Section) : Option String :=
  s.title.map Inline.plainTextList

mutual

/-- The first section with an id: the section itself, or one of its subsections. -/
def Section.find? (id : String) : Section → Option Section
  | ⟨sectionId, title, content, metadata, display⟩ =>
    if sectionId = id then some ⟨sectionId, title, content, metadata, display⟩
    else Section.findInBlocks? id content

/-- The first section with an id among the subsections of a list of blocks. -/
def Section.findInBlocks? (id : String) : List Block → Option Section
  | [] => none
  | .subsection s :: rest => (Section.find? id s).or (Section.findInBlocks? id rest)
  | _ :: rest => Section.findInBlocks? id rest

end

def Section.findInList? (id : String) : List Section → Option Section
  | [] => none
  | s :: rest => (s.find? id).or (Section.findInList? id rest)

/-- The first section of the document's body with an id. -/
def Document.findSection? (d : Document) (id : String) : Option Section :=
  Section.findInList? id d.body

mutual

/-- The entry of a section and its subsections, if the section has a title. -/
def Section.tocEntries : Section → List TocEntry
  | ⟨id, title, content, _, _⟩ =>
    match title with
    | none => []
    | some title => [.mk id (Inline.plainTextList title) (Section.tocOfBlocks content)]

/-- The entries of the subsections in a list of blocks. -/
def Section.tocOfBlocks : List Block → List TocEntry
  | [] => []
  | .subsection s :: rest => Section.tocEntries s ++ Section.tocOfBlocks rest
  | _ :: rest => Section.tocOfBlocks rest

end

/-- The table of contents made from the titled sections of the body. -/
def Document.generatedToc (d : Document) : List TocEntry :=
  d.body.flatMap Section.tocEntries

/-- What two links must share to count as the same link. -/
def LinkTarget.key : LinkTarget → String
  | .url address => "url:" ++ address
  | .page id => "page:" ++ id
  | .definition term theory => "definition:" ++ theory.getD "" ++ ":" ++ term
  | .aspect term name theory => "aspect:" ++ theory.getD "" ++ ":" ++ term ++ ":" ++ name
  | .theorem_ id => "theorem:" ++ id
  | .template id _ _ => "template:" ++ id
  | .glossary term => "glossary:" ++ term
  | .bibliography key => "bib:" ++ key
  | .element id => "element:" ++ id
  | .tooltip document => "tooltip:" ++ document.id
  | .animation id trigger => "animation:" ++ id ++ ":" ++ trigger
  | .unknown u => "unknown:" ++ u.tag

end Compendium
