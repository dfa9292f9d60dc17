import Compendium.Document.Basic

/-!
# The parts of a document

`parts` lists every piece of inline text, block, section and document inside a value, the value
itself first, at any depth and through embedded and tooltip documents.
-/

namespace Compendium

inductive Part where
  | text (i : Inline)
  | block (b : Block)
  | division (s : Section)
  | document (d : Document)

mutual

/-- The parts of a piece of inline text. -/
def Inline.parts : Inline → List Part
  | .link content target tooltip =>
    .text (.link content target tooltip) :: (Inline.partsList content ++ LinkTarget.parts target)
  | .text s => [.text (.text s)]
  | .styled s styles => [.text (.styled s styles)]
  | .math f => [.text (.math f)]
  | .footnote id => [.text (.footnote id)]
  | .code s => [.text (.code s)]
  | .unknown u => [.text (.unknown u)]

def Inline.partsList : List Inline → List Part
  | [] => []
  | i :: rest => Inline.parts i ++ Inline.partsList rest

/-- The parts of inline text that may be missing. -/
def Inline.partsOption : Option (List Inline) → List Part
  | none => []
  | some content => Inline.partsList content

def LinkTarget.parts : LinkTarget → List Part
  | .tooltip document => Document.parts document
  | _ => []

def Block.parts : Block → List Part
  | .paragraph p => .block (.paragraph p) :: Paragraph.parts p
  | .equation e => .block (.equation e) :: Equation.parts e
  | .statement s => .block (.statement s) :: Statement.parts s
  | .list l => .block (.list l) :: Listing.parts l
  | .table t => .block (.table t) :: Table.parts t
  | .code c => .block (.code c) :: CodeBlock.parts c
  | .image i => .block (.image i) :: Image.parts i
  | .diagram d => .block (.diagram d) :: Diagram.parts d
  | .collapsible c => .block (.collapsible c) :: Collapsible.parts c
  | .grid g => .block (.grid g) :: Grid.parts g
  | .columns c => .block (.columns c) :: Columns.parts c
  | .thematicBreak => [.block .thematicBreak]
  | .quote q => .block (.quote q) :: Quote.parts q
  | .alert a => .block (.alert a) :: Alert.parts a
  | .component c => .block (.component c) :: Component.parts c
  | .sectionRef r => [.block (.sectionRef r)]
  | .subsection s => .block (.subsection s) :: Section.parts s
  | .sideBySide s => .block (.sideBySide s) :: SideBySide.parts s
  | .panels p => .block (.panels p) :: PanelLayout.parts p
  | .overlay o => .block (.overlay o) :: Overlay.parts o
  | .controls g => [.block (.controls g)]
  | .document d => .block (.document d) :: Document.parts d
  | .unknown u => [.block (.unknown u)]

def Block.partsList : List Block → List Part
  | [] => []
  | b :: rest => Block.parts b ++ Block.partsList rest

/-- The parts of blocks that may be missing. -/
def Block.partsOption : Option (List Block) → List Part
  | none => []
  | some content => Block.partsList content

def Paragraph.parts : Paragraph → List Part
  | ⟨segments, _⟩ => Inline.partsList segments

def Equation.parts : Equation → List Part
  | ⟨_, _, caption⟩ => Inline.partsOption caption

def Statement.parts : Statement → List Part
  | ⟨_, _, title, body, proof⟩ =>
    Inline.partsOption title ++ Block.partsList body ++ Block.partsOption proof

def ListItem.parts : ListItem → List Part
  | ⟨content⟩ => Block.partsList content

def ListItem.partsList : List ListItem → List Part
  | [] => []
  | item :: rest => ListItem.parts item ++ ListItem.partsList rest

def Listing.parts : Listing → List Part
  | ⟨items, _, _⟩ => ListItem.partsList items

def TableCell.parts : TableCell → List Part
  | ⟨content, _, _, _, _⟩ => Block.partsList content

def TableCell.partsList : List TableCell → List Part
  | [] => []
  | cell :: rest => TableCell.parts cell ++ TableCell.partsList rest

def TableRow.parts : TableRow → List Part
  | ⟨cells⟩ => TableCell.partsList cells

def TableRow.partsList : List TableRow → List Part
  | [] => []
  | row :: rest => TableRow.parts row ++ TableRow.partsList rest

/-- The parts inside table rows that may be missing. -/
def TableRow.partsOption : Option (List TableRow) → List Part
  | none => []
  | some rows => TableRow.partsList rows

def Table.parts : Table → List Part
  | ⟨caption, headerRows, bodyRows, footerRows⟩ =>
    Inline.partsOption caption ++ TableRow.partsOption headerRows ++ TableRow.partsList bodyRows ++
      TableRow.partsOption footerRows

def CodeBlock.parts : CodeBlock → List Part
  | ⟨_, _, _, caption⟩ => Inline.partsOption caption

def Image.parts : Image → List Part
  | ⟨_, _, caption, _, _⟩ => Inline.partsOption caption

def Diagram.parts : Diagram → List Part
  | ⟨_, _, _, caption⟩ => Inline.partsOption caption

/-- The parts inside a block that can be folded. -/
def Collapsible.parts : Collapsible → List Part
  | ⟨_, summary, content, _⟩ => Inline.partsList summary ++ Block.partsList content

def GridItem.parts : GridItem → List Part
  | ⟨content, _, _⟩ => Block.partsList content

def GridItem.partsList : List GridItem → List Part
  | [] => []
  | item :: rest => GridItem.parts item ++ GridItem.partsList rest

def Grid.parts : Grid → List Part
  | ⟨items, _, _, _⟩ => GridItem.partsList items

def Column.parts : Column → List Part
  | ⟨content, _⟩ => Block.partsList content

def Column.partsList : List Column → List Part
  | [] => []
  | column :: rest => Column.parts column ++ Column.partsList rest

def Columns.parts : Columns → List Part
  | ⟨columns, _⟩ => Column.partsList columns

/-- The parts inside a quotation. -/
def Quote.parts : Quote → List Part
  | ⟨content, attribution⟩ => Block.partsList content ++ Inline.partsOption attribution

def Alert.parts : Alert → List Part
  | ⟨_, title, content⟩ => Inline.partsOption title ++ Block.partsList content

def Component.parts : Component → List Part
  | ⟨_, _, fallback⟩ => Block.partsOption fallback

def Panel.parts : Panel → List Part
  | ⟨_, title, content, _⟩ => Inline.partsOption title ++ Block.partsList content

def Panel.partsList : List Panel → List Part
  | [] => []
  | panel :: rest => Panel.parts panel ++ Panel.partsList rest

/-- The parts inside two panels side by side. -/
def SideBySide.parts : SideBySide → List Part
  | ⟨left, right, _⟩ => Panel.parts left ++ Panel.parts right

def PanelLayout.parts : PanelLayout → List Part
  | ⟨_, panels, _⟩ => Panel.partsList panels

def OverlayNote.parts : OverlayNote → List Part
  | ⟨_, _, content, _, _⟩ => Inline.partsList content

/-- The parts inside annotations. -/
def OverlayNote.partsList : List OverlayNote → List Part
  | [] => []
  | note :: rest => OverlayNote.parts note ++ OverlayNote.partsList rest

def Overlay.parts : Overlay → List Part
  | ⟨_, base, annotations⟩ => Block.partsList base ++ OverlayNote.partsList annotations

def Section.parts : Section → List Part
  | ⟨id, title, content, metadata, display⟩ =>
    .division ⟨id, title, content, metadata, display⟩ ::
      (Inline.partsOption title ++ Block.partsList content)

def Section.partsList : List Section → List Part
  | [] => []
  | s :: rest => Section.parts s ++ Section.partsList rest

def Footnote.parts : Footnote → List Part
  | ⟨_, content⟩ => Inline.partsList content

/-- The parts inside footnotes. -/
def Footnote.partsList : List Footnote → List Part
  | [] => []
  | note :: rest => Footnote.parts note ++ Footnote.partsList rest

def GlossaryEntry.parts : GlossaryEntry → List Part
  | ⟨_, definition⟩ => Inline.partsList definition

def GlossaryEntry.partsList : List GlossaryEntry → List Part
  | [] => []
  | entry :: rest => GlossaryEntry.parts entry ++ GlossaryEntry.partsList rest

def Document.parts : Document → List Part
  | ⟨id, title, kind, presentation, body, bibliography, summary, contents, footnotes, glossary,
      authors, createdAt, updatedAt⟩ =>
    .document ⟨id, title, kind, presentation, body, bibliography, summary, contents, footnotes,
        glossary, authors, createdAt, updatedAt⟩ ::
      (Inline.partsOption summary ++ Section.partsList body ++ Footnote.partsList footnotes ++
        GlossaryEntry.partsList glossary)

end

namespace Part

/-- The document that a link shows as a tooltip. -/
def tooltip? : Part → Option Document
  | text (.link _ (.tooltip shown) _) => some shown
  | _ => none

/-- The documents that links among the parts show as tooltips. -/
def tooltips (parts : List Part) : List Document :=
  parts.filterMap tooltip?

end Part

end Compendium
