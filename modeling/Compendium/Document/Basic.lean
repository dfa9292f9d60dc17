import Compendium.Document.Apparatus
import Compendium.Document.Control
import Compendium.Document.Presentation
import Compendium.Document.Style

/-!
# Documents

A document is a tree: sections hold blocks, blocks hold further blocks and runs of inline text, and
both may hold whole documents again, embedded or as the tooltip of a link.
-/

namespace Compendium

/-- How the panels of a layout are arranged. -/
inductive PanelArrangement where
  | tabs
  | accordion
  | grid (columns : Nat)
  | sidebar (mainPanel : String)
  | floating
  | unknown (u : Unrecognized)

mutual

/-- A run of text inside a line. -/
inductive Inline where
  | text (s : String)
  | styled (s : String) (styles : List TextStyle)
  | math (f : Formula)
  | link (content : List Inline) (target : LinkTarget) (tooltip : Option String)
  | footnote (id : String)
  | code (s : String)
  | unknown (u : Unrecognized)

/-- Where a link leads. -/
inductive LinkTarget where
  | url (url : String)
  | page (id : String)
  | definition (term : String) (theory : Option String)
  | aspect (term aspect : String) (theory : Option String)
  | theorem_ (id : String)
  | template (id : String) (parameters : Option Json) (abstractionLevel : Option Nat)
  | glossary (term : String)
  | bibliography (key : String)
  | element (id : String)
  | tooltip (document : Document)
  | animation (id trigger : String)
  | unknown (u : Unrecognized)

/-- A paragraph of text. -/
structure Paragraph where
  segments : List Inline
  alignment : Option TextAlignment

/-- A displayed equation. -/
structure Equation where
  formula : Formula
  label : Option String
  caption : Option (List Inline)

/-- A definition, theorem or the like, with its proof. -/
structure Statement where
  kind : StatementKind
  number : Option String
  title : Option (List Inline)
  body : List Block
  proof : Option (List Block)

structure ListItem where
  content : List Block

structure Listing where
  items : List ListItem
  style : ListStyle
  startIndex : Option Nat

structure TableCell where
  content : List Block
  colSpan : Option Nat
  rowSpan : Option Nat
  alignment : Option TextAlignment
  isHeader : Bool

structure TableRow where
  cells : List TableCell

/-- A table with its groups of rows. -/
structure Table where
  caption : Option (List Inline)
  headerRows : Option (List TableRow)
  bodyRows : List TableRow
  footerRows : Option (List TableRow)

/-- A block of program text. -/
structure CodeBlock where
  code : String
  language : Option String
  showLineNumbers : Bool
  caption : Option (List Inline)

structure Image where
  src : String
  alt : String
  caption : Option (List Inline)
  width : Option String
  height : Option String

/-- A diagram that a script draws from its data. -/
structure Diagram where
  id : String
  kind : String
  data : Json
  caption : Option (List Inline)

/-- A block whose content can be folded away. -/
structure Collapsible where
  id : String
  summary : List Inline
  content : List Block
  initiallyCollapsed : Bool

structure GridItem where
  content : List Block
  column : Option String
  row : Option String

structure Grid where
  items : List GridItem
  columns : Option String
  rows : Option String
  gap : Option String

/-- A column of blocks. -/
structure Column where
  content : List Block
  width : Option String

structure Columns where
  columns : List Column
  gap : Option String

/-- A quotation. -/
structure Quote where
  content : List Block
  attribution : Option (List Inline)

/-- A box that draws attention. -/
structure Alert where
  kind : AlertKind
  title : Option (List Inline)
  content : List Block

/-- A component that is drawn by a registered function, with content for when there is none. -/
structure Component where
  name : String
  props : Json
  fallback : Option (List Block)

/-- A panel of a layout. -/
structure Panel where
  id : String
  title : Option (List Inline)
  content : List Block
  initiallyVisible : Bool

/-- Two panels side by side. -/
structure SideBySide where
  left : Panel
  right : Panel
  widths : Option SideWidths

/-- Panels and their arrangement. -/
structure PanelLayout where
  id : String
  panels : List Panel
  arrangement : PanelArrangement

/-- A note on a part of an overlay's base. -/
structure OverlayNote where
  id : String
  kind : AnnotationKind
  content : List Inline
  position : Option AnnotationPosition
  target : Option String

/-- Blocks with annotations on top. -/
structure Overlay where
  id : String
  base : List Block
  annotations : List OverlayNote

/-- A block of a section. -/
inductive Block where
  | paragraph (p : Paragraph)
  | equation (e : Equation)
  | statement (s : Statement)
  | list (l : Listing)
  | table (t : Table)
  | code (c : CodeBlock)
  | image (i : Image)
  | diagram (d : Diagram)
  | collapsible (c : Collapsible)
  | grid (g : Grid)
  | columns (c : Columns)
  | thematicBreak
  | quote (q : Quote)
  | alert (a : Alert)
  | component (c : Component)
  | sectionRef (r : SectionRef)
  | subsection (s : Section)
  | sideBySide (s : SideBySide)
  | panels (p : PanelLayout)
  | overlay (o : Overlay)
  | controls (g : ControlGroup)
  | document (d : Document)
  | unknown (u : Unrecognized)

structure Section where
  id : String
  title : Option (List Inline)
  content : List Block
  metadata : Option (List (String × String))
  display : Option DisplayOptions

structure Footnote where
  id : String
  content : List Inline

/-- A term of the glossary. -/
structure GlossaryEntry where
  term : String
  definition : List Inline

structure Document where
  id : String
  title : String
  kind : DocumentKind
  presentation : Option Presentation
  body : List Section
  bibliography : List BibEntry
  abstract : Option (List Inline)
  contents : Option TableOfContents
  footnotes : List Footnote
  glossary : List GlossaryEntry
  authors : List String
  createdAt : Option String
  updatedAt : Option String

end

namespace Block

/-- The name of the block's variant. -/
def typeName : Block → String
  | paragraph _ => "Paragraph"
  | equation _ => "MathBlock"
  | statement _ => "StructuredMath"
  | list _ => "List"
  | table _ => "Table"
  | code _ => "CodeBlock"
  | image _ => "Image"
  | diagram _ => "InteractiveDiagram"
  | collapsible _ => "CollapsibleBlock"
  | grid _ => "Grid"
  | columns _ => "Columns"
  | thematicBreak => "ThematicBreak"
  | quote _ => "QuoteBlock"
  | alert _ => "AlertBox"
  | component _ => "CustomComponent"
  | sectionRef _ => "EmbeddedSectionRef"
  | subsection _ => "SubSection"
  | sideBySide _ => "SideBySideLayout"
  | panels _ => "PanelLayout"
  | overlay _ => "AnnotationOverlay"
  | controls _ => "InteractiveControls"
  | document _ => "EmbeddedDocument"
  | unknown u => u.displayName

/-- A paragraph of the given segments. -/
def ofSegments (segments : List Inline) : Block :=
  paragraph ⟨segments, none⟩

/-- A paragraph of plain text. -/
def ofText (s : String) : Block :=
  ofSegments [.text s]

end Block

/-- A section without title and content. -/
def Section.empty (id : String) : Section :=
  ⟨id, none, [], none, none⟩

/-- A document with a body and nothing else. -/
def Document.ofBody (id title : String) (kind : DocumentKind) (body : List Section) : Document :=
  ⟨id, title, kind, none, body, [], none, none, [], [], [], none, none⟩

end Compendium
