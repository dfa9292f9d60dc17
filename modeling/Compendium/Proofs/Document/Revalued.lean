import Compendium.Document.Outline
import Compendium.Document.Parts
import Compendium.Proofs.ItemByItem

/-!
# Documents with other style values

Widths, heights, gaps, templates, colours, fonts and positions are free texts that authors write
into a document. `revalued f` puts other texts in their places, everywhere in a value and in the
documents inside it, and leaves everything else as it is: which values are given, the kinds of
styles, ids, and the order of what stands in the document.
-/

namespace Compendium

def TextStyle.revalued (f : String → String) : TextStyle → TextStyle
  | color value => color (f value)
  | backgroundColor value => backgroundColor (f value)
  | fontSize value => fontSize (f value)
  | fontFamily value => fontFamily (f value)
  | style => style

def SideWidths.revalued (f : String → String) (w : SideWidths) : SideWidths :=
  ⟨f w.left, f w.right, w.gap.map f⟩

def AnnotationPosition.revalued (f : String → String) (p : AnnotationPosition) :
    AnnotationPosition :=
  ⟨f p.x, f p.y⟩

section Values

variable (f : String → String)

mutual

def Inline.revalued : Inline → Inline
  | .styled s styles => .styled s (styles.map (·.revalued f))
  | .link content target tooltip =>
    .link (Inline.revaluedList content) (LinkTarget.revalued target) tooltip
  | .text s => .text s
  | .math formula => .math formula
  | .footnote id => .footnote id
  | .code s => .code s
  | .unknown u => .unknown u

def Inline.revaluedList : List Inline → List Inline
  | [] => []
  | i :: rest => Inline.revalued i :: Inline.revaluedList rest

def Inline.revaluedOption : Option (List Inline) → Option (List Inline)
  | none => none
  | some content => some (Inline.revaluedList content)

def LinkTarget.revalued : LinkTarget → LinkTarget
  | .tooltip document => .tooltip (Document.revalued document)
  | target => target

/-- The block with other texts for its values and for those of the blocks inside it. -/
def Block.revalued : Block → Block
  | .paragraph p => .paragraph (Paragraph.revalued p)
  | .equation e => .equation (Equation.revalued e)
  | .statement s => .statement (Statement.revalued s)
  | .list l => .list (Listing.revalued l)
  | .table t => .table (Table.revalued t)
  | .code c => .code (CodeBlock.revalued c)
  | .image i => .image (Image.revalued i)
  | .diagram d => .diagram (Diagram.revalued d)
  | .collapsible c => .collapsible (Collapsible.revalued c)
  | .grid g => .grid (Grid.revalued g)
  | .columns c => .columns (Columns.revalued c)
  | .thematicBreak => .thematicBreak
  | .quote q => .quote (Quote.revalued q)
  | .alert a => .alert (Alert.revalued a)
  | .component c => .component (Component.revalued c)
  | .sectionRef r => .sectionRef r
  | .subsection s => .subsection (Section.revalued s)
  | .sideBySide s => .sideBySide (SideBySide.revalued s)
  | .panels p => .panels (PanelLayout.revalued p)
  | .overlay o => .overlay (Overlay.revalued o)
  | .controls g => .controls g
  | .document d => .document (Document.revalued d)
  | .unknown u => .unknown u

def Block.revaluedList : List Block → List Block
  | [] => []
  | b :: rest => Block.revalued b :: Block.revaluedList rest

def Block.revaluedOption : Option (List Block) → Option (List Block)
  | none => none
  | some content => some (Block.revaluedList content)

def Paragraph.revalued : Paragraph → Paragraph
  | ⟨segments, alignment⟩ => ⟨Inline.revaluedList segments, alignment⟩

def Equation.revalued : Equation → Equation
  | ⟨formula, label, caption⟩ => ⟨formula, label, Inline.revaluedOption caption⟩

def Statement.revalued : Statement → Statement
  | ⟨kind, number, title, body, proof⟩ =>
    ⟨kind, number, Inline.revaluedOption title, Block.revaluedList body, Block.revaluedOption proof⟩

def ListItem.revalued : ListItem → ListItem
  | ⟨content⟩ => ⟨Block.revaluedList content⟩

def ListItem.revaluedList : List ListItem → List ListItem
  | [] => []
  | item :: rest => ListItem.revalued item :: ListItem.revaluedList rest

def Listing.revalued : Listing → Listing
  | ⟨items, style, startIndex⟩ => ⟨ListItem.revaluedList items, style, startIndex⟩

def TableCell.revalued : TableCell → TableCell
  | ⟨content, colSpan, rowSpan, alignment, isHeader⟩ =>
    ⟨Block.revaluedList content, colSpan, rowSpan, alignment, isHeader⟩

def TableCell.revaluedList : List TableCell → List TableCell
  | [] => []
  | cell :: rest => TableCell.revalued cell :: TableCell.revaluedList rest

def TableRow.revalued : TableRow → TableRow
  | ⟨cells⟩ => ⟨TableCell.revaluedList cells⟩

def TableRow.revaluedList : List TableRow → List TableRow
  | [] => []
  | row :: rest => TableRow.revalued row :: TableRow.revaluedList rest

def TableRow.revaluedOption : Option (List TableRow) → Option (List TableRow)
  | none => none
  | some rows => some (TableRow.revaluedList rows)

def Table.revalued : Table → Table
  | ⟨caption, headerRows, bodyRows, footerRows⟩ =>
    ⟨Inline.revaluedOption caption, TableRow.revaluedOption headerRows,
      TableRow.revaluedList bodyRows, TableRow.revaluedOption footerRows⟩

def CodeBlock.revalued : CodeBlock → CodeBlock
  | ⟨code, language, showLineNumbers, caption⟩ =>
    ⟨code, language, showLineNumbers, Inline.revaluedOption caption⟩

def Image.revalued : Image → Image
  | ⟨src, alt, caption, width, height⟩ =>
    ⟨src, alt, Inline.revaluedOption caption, width.map f, height.map f⟩

def Diagram.revalued : Diagram → Diagram
  | ⟨id, kind, data, caption⟩ => ⟨id, kind, data, Inline.revaluedOption caption⟩

def Collapsible.revalued : Collapsible → Collapsible
  | ⟨id, summary, content, initiallyCollapsed⟩ =>
    ⟨id, Inline.revaluedList summary, Block.revaluedList content, initiallyCollapsed⟩

def GridItem.revalued : GridItem → GridItem
  | ⟨content, column, row⟩ => ⟨Block.revaluedList content, column.map f, row.map f⟩

def GridItem.revaluedList : List GridItem → List GridItem
  | [] => []
  | item :: rest => GridItem.revalued item :: GridItem.revaluedList rest

def Grid.revalued : Grid → Grid
  | ⟨items, columns, rows, gap⟩ =>
    ⟨GridItem.revaluedList items, columns.map f, rows.map f, gap.map f⟩

def Column.revalued : Column → Column
  | ⟨content, width⟩ => ⟨Block.revaluedList content, width.map f⟩

def Column.revaluedList : List Column → List Column
  | [] => []
  | column :: rest => Column.revalued column :: Column.revaluedList rest

def Columns.revalued : Columns → Columns
  | ⟨columns, gap⟩ => ⟨Column.revaluedList columns, gap.map f⟩

def Quote.revalued : Quote → Quote
  | ⟨content, attribution⟩ => ⟨Block.revaluedList content, Inline.revaluedOption attribution⟩

def Alert.revalued : Alert → Alert
  | ⟨kind, title, content⟩ => ⟨kind, Inline.revaluedOption title, Block.revaluedList content⟩

def Component.revalued : Component → Component
  | ⟨name, props, fallback⟩ => ⟨name, props, Block.revaluedOption fallback⟩

def Panel.revalued : Panel → Panel
  | ⟨id, title, content, initiallyVisible⟩ =>
    ⟨id, Inline.revaluedOption title, Block.revaluedList content, initiallyVisible⟩

def Panel.revaluedList : List Panel → List Panel
  | [] => []
  | p :: rest => Panel.revalued p :: Panel.revaluedList rest

def SideBySide.revalued : SideBySide → SideBySide
  | ⟨left, right, widths⟩ => ⟨Panel.revalued left, Panel.revalued right, widths.map (·.revalued f)⟩

def PanelLayout.revalued : PanelLayout → PanelLayout
  | ⟨id, panels, arrangement⟩ => ⟨id, Panel.revaluedList panels, arrangement⟩

def OverlayNote.revalued : OverlayNote → OverlayNote
  | ⟨id, kind, content, position, target⟩ =>
    ⟨id, kind, Inline.revaluedList content, position.map (·.revalued f), target⟩

def OverlayNote.revaluedList : List OverlayNote → List OverlayNote
  | [] => []
  | note :: rest => OverlayNote.revalued note :: OverlayNote.revaluedList rest

def Overlay.revalued : Overlay → Overlay
  | ⟨id, base, annotations⟩ => ⟨id, Block.revaluedList base, OverlayNote.revaluedList annotations⟩

def Section.revalued : Section → Section
  | ⟨id, title, content, metadata, display⟩ =>
    ⟨id, Inline.revaluedOption title, Block.revaluedList content, metadata, display⟩

def Section.revaluedList : List Section → List Section
  | [] => []
  | s :: rest => Section.revalued s :: Section.revaluedList rest

def Footnote.revalued : Footnote → Footnote
  | ⟨id, content⟩ => ⟨id, Inline.revaluedList content⟩

def Footnote.revaluedList : List Footnote → List Footnote
  | [] => []
  | note :: rest => Footnote.revalued note :: Footnote.revaluedList rest

def GlossaryEntry.revalued : GlossaryEntry → GlossaryEntry
  | ⟨term, definition⟩ => ⟨term, Inline.revaluedList definition⟩

def GlossaryEntry.revaluedList : List GlossaryEntry → List GlossaryEntry
  | [] => []
  | entry :: rest => GlossaryEntry.revalued entry :: GlossaryEntry.revaluedList rest

/-- The document with other texts for all style values in it. -/
def Document.revalued : Document → Document
  | ⟨id, title, kind, presentation, body, bibliography, summary, contents, footnotes, glossary,
      authors, createdAt, updatedAt⟩ =>
    ⟨id, title, kind, presentation, Section.revaluedList body, bibliography,
      Inline.revaluedOption summary, contents, Footnote.revaluedList footnotes,
      GlossaryEntry.revaluedList glossary, authors, createdAt, updatedAt⟩

end

/-! ## Lists of values -/

@[simp] theorem Inline.revaluedOption_eq_map (o : Option (List Inline)) :
    Inline.revaluedOption f o = o.map (Inline.revaluedList f) := by
  cases o <;> rfl

@[simp] theorem Block.revaluedList_eq_map :
    Block.revaluedList f = List.map (Block.revalued f) :=
  eq_map_of_cons rfl fun _ _ => by rw [Block.revaluedList]

@[simp] theorem Block.revaluedOption_eq_map (o : Option (List Block)) :
    Block.revaluedOption f o = o.map (List.map (Block.revalued f)) := by
  cases o <;> simp [Block.revaluedOption]

@[simp] theorem ListItem.revaluedList_eq_map :
    ListItem.revaluedList f = List.map (ListItem.revalued f) :=
  eq_map_of_cons rfl fun _ _ => by rw [ListItem.revaluedList]

@[simp] theorem TableCell.revaluedList_eq_map :
    TableCell.revaluedList f = List.map (TableCell.revalued f) :=
  eq_map_of_cons rfl fun _ _ => by rw [TableCell.revaluedList]

@[simp] theorem TableRow.revaluedList_eq_map :
    TableRow.revaluedList f = List.map (TableRow.revalued f) :=
  eq_map_of_cons rfl fun _ _ => by rw [TableRow.revaluedList]

@[simp] theorem TableRow.revaluedOption_eq_map (o : Option (List TableRow)) :
    TableRow.revaluedOption f o = o.map (List.map (TableRow.revalued f)) := by
  cases o <;> simp [TableRow.revaluedOption]

@[simp] theorem GridItem.revaluedList_eq_map :
    GridItem.revaluedList f = List.map (GridItem.revalued f) :=
  eq_map_of_cons rfl fun _ _ => by rw [GridItem.revaluedList]

@[simp] theorem Column.revaluedList_eq_map :
    Column.revaluedList f = List.map (Column.revalued f) :=
  eq_map_of_cons rfl fun _ _ => by rw [Column.revaluedList]

@[simp] theorem Panel.revaluedList_eq_map :
    Panel.revaluedList f = List.map (Panel.revalued f) :=
  eq_map_of_cons rfl fun _ _ => by rw [Panel.revaluedList]

@[simp] theorem OverlayNote.revaluedList_eq_map :
    OverlayNote.revaluedList f = List.map (OverlayNote.revalued f) :=
  eq_map_of_cons rfl fun _ _ => by rw [OverlayNote.revaluedList]

@[simp] theorem Section.revaluedList_eq_map :
    Section.revaluedList f = List.map (Section.revalued f) :=
  eq_map_of_cons rfl fun _ _ => by rw [Section.revaluedList]

@[simp] theorem Footnote.revaluedList_eq_map :
    Footnote.revaluedList f = List.map (Footnote.revalued f) :=
  eq_map_of_cons rfl fun _ _ => by rw [Footnote.revaluedList]

@[simp] theorem GlossaryEntry.revaluedList_eq_map :
    GlossaryEntry.revaluedList f = List.map (GlossaryEntry.revalued f) :=
  eq_map_of_cons rfl fun _ _ => by rw [GlossaryEntry.revaluedList]

theorem ListItem.revalued_eq (item : ListItem) :
    item.revalued f = ⟨item.content.map (Block.revalued f)⟩ := by
  cases item
  simp [ListItem.revalued]

theorem TableCell.revalued_eq (cell : TableCell) :
    cell.revalued f = { cell with content := cell.content.map (Block.revalued f) } := by
  cases cell
  simp [TableCell.revalued]

theorem TableRow.revalued_eq (row : TableRow) :
    row.revalued f = ⟨row.cells.map (TableCell.revalued f)⟩ := by
  cases row
  simp [TableRow.revalued]

theorem GridItem.revalued_eq (item : GridItem) :
    item.revalued f = ⟨item.content.map (Block.revalued f), item.column.map f, item.row.map f⟩ := by
  cases item
  simp [GridItem.revalued]

theorem Column.revalued_eq (column : Column) :
    column.revalued f = ⟨column.content.map (Block.revalued f), column.width.map f⟩ := by
  cases column
  simp [Column.revalued]

theorem OverlayNote.revalued_eq (note : OverlayNote) :
    note.revalued f = { note with
      content := Inline.revaluedList f note.content
      position := note.position.map (·.revalued f) } := by
  cases note
  simp [OverlayNote.revalued]

theorem Footnote.revalued_eq (note : Footnote) :
    note.revalued f = { note with content := Inline.revaluedList f note.content } := by
  cases note
  simp [Footnote.revalued]

theorem GlossaryEntry.revalued_eq (entry : GlossaryEntry) :
    entry.revalued f = { entry with definition := Inline.revaluedList f entry.definition } := by
  cases entry
  simp [GlossaryEntry.revalued]

theorem Panel.revalued_eq (p : Panel) :
    p.revalued f = { p with
      title := p.title.map (Inline.revaluedList f)
      content := p.content.map (Block.revalued f) } := by
  cases p
  simp [Panel.revalued]

theorem Section.revalued_eq (s : Section) :
    s.revalued f = { s with
      title := s.title.map (Inline.revaluedList f)
      content := s.content.map (Block.revalued f) } := by
  cases s
  simp [Section.revalued]

theorem Document.revalued_eq (d : Document) :
    d.revalued f = { d with
      body := d.body.map (Section.revalued f)
      abstract := d.abstract.map (Inline.revaluedList f)
      footnotes := d.footnotes.map (Footnote.revalued f)
      glossary := d.glossary.map (GlossaryEntry.revalued f) } := by
  cases d
  simp [Document.revalued]

@[simp] theorem Section.id_revalued (s : Section) : (s.revalued f).id = s.id := by
  rw [Section.revalued_eq]

@[simp] theorem Document.id_revalued (d : Document) : (d.revalued f).id = d.id := by
  rw [Document.revalued_eq]

end Values

/-! ## Looking up sections -/

mutual

theorem Section.find?_revalued (f : String → String) (id : String) : ∀ s : Section,
    (s.revalued f).find? id = (s.find? id).map (Section.revalued f)
  | ⟨sectionId, title, content, metadata, display⟩ => by
    rw [Section.revalued, Section.find?, Section.find?, Section.findInBlocks?_revalued f id content]
    split <;> simp [Section.revalued]

theorem Section.findInBlocks?_revalued (f : String → String) (id : String) : ∀ content : List Block,
    Section.findInBlocks? id (Block.revaluedList f content) =
      (Section.findInBlocks? id content).map (Section.revalued f)
  | [] => rfl
  | b :: rest => by
    have hrest := Section.findInBlocks?_revalued f id rest
    rw [Block.revaluedList]
    cases b with
    | subsection s =>
      rw [Block.revalued, Section.findInBlocks?, Section.findInBlocks?, hrest,
        Section.find?_revalued f id s, Option.map_or]
    | _ => exact hrest

end

theorem Document.findSection?_revalued (f : String → String) (d : Document) (id : String) :
    (d.revalued f).findSection? id = (d.findSection? id).map (Section.revalued f) := by
  have hlist : ∀ body : List Section, Section.findInList? id (body.map (Section.revalued f)) =
      (Section.findInList? id body).map (Section.revalued f) := by
    intro body
    induction body with
    | nil => rfl
    | cons s rest ih =>
      rw [List.map_cons, Section.findInList?, Section.findInList?, ih, Section.find?_revalued,
        Option.map_or]
  rw [Document.revalued_eq]
  exact hlist d.body

end Compendium
