import Compendium.Document.Basic

/-!
# Writing documents

Every part is written with all its fields, except optional fields without a value. An unrecognized
value is written as it was read.
-/

namespace Compendium

open Json

def PanelArrangement.encode : PanelArrangement → Json
  | tabs => variant "Tabs" none
  | accordion => variant "Accordion" none
  | grid columns => variant "Grid" (some (.obj (field "columns" (nat columns))))
  | sidebar mainPanel => variant "Sidebar" (some (.obj (field "main_panel_id" (.str mainPanel))))
  | floating => variant "FloatingPanels" none
  | unknown u => u.encode

/-- A pair of texts as an array. -/
def encodePair (p : String × String) : Json :=
  .arr [.str p.1, .str p.2]

mutual

def Inline.encode : Inline → Json
  | .text s => variant "Text" (some (.str s))
  | .styled s styles =>
    variant "StyledText" (some (.obj
      (field "styles" (.arr (styles.map TextStyle.encode)) ++ field "text" (.str s))))
  | .math f => variant "Math" (some f.encode)
  | .link content target tooltip =>
    variant "Link" (some (.obj
      (field "content" (.arr (Inline.encodeList content)) ++ field "target" target.encode ++
        fieldIf "tooltip" (tooltip.map .str))))
  | .footnote id => variant "FootnoteReference" (some (.str id))
  | .code s => variant "CodeInline" (some (.str s))
  | .unknown u => u.encode

def Inline.encodeList : List Inline → List Json
  | [] => []
  | i :: rest => i.encode :: Inline.encodeList rest

def Inline.encodeOption (name : String) : Option (List Inline) → List (String × Json)
  | none => []
  | some content => field name (.arr (Inline.encodeList content))

def LinkTarget.encode : LinkTarget → Json
  | .url url => variant "Url" (some (.str url))
  | .page id => variant "InternalPageId" (some (.str id))
  | .definition term theory =>
    variant "DefinitionId" (some (.obj
      (field "term_id" (.str term) ++ fieldIf "theory_context" (theory.map .str))))
  | .aspect term aspect theory =>
    variant "DefinitionAspect" (some (.obj
      (field "aspect_id" (.str aspect) ++ field "term_id" (.str term) ++
        fieldIf "theory_context" (theory.map .str))))
  | .theorem_ id => variant "TheoremId" (some (.str id))
  | .template id parameters level =>
    variant "ObjectConstructorTemplate" (some (.obj
      (fieldIf "parameters" parameters ++
        fieldIf "target_abstraction_level" (level.map nat) ++ field "template_id" (.str id))))
  | .glossary term => variant "GlossaryTerm" (some (.str term))
  | .bibliography key => variant "BibliographyKey" (some (.str key))
  | .element id => variant "InteractiveElementId" (some (.str id))
  | .tooltip document => variant "TooltipDocument" (some document.encode)
  | .animation id trigger =>
    variant "AnimationTrigger" (some (.obj
      (field "animation_id" (.str id) ++ field "trigger_type" (.str trigger))))
  | .unknown u => u.encode

def Paragraph.encode : Paragraph → Json
  | ⟨segments, alignment⟩ =>
    .obj (fieldIf "alignment" (alignment.map TextAlignment.vocabulary.encode) ++
      field "segments" (.arr (Inline.encodeList segments)))

def Equation.encode : Equation → Json
  | ⟨formula, label, caption⟩ =>
    .obj (Inline.encodeOption "caption" caption ++ fieldIf "label" (label.map .str) ++
      field "math" formula.encode)

def Statement.encode : Statement → Json
  | ⟨kind, number, title, body, proof⟩ =>
    .obj (field "body" (.arr (Block.encodeList body)) ++
      field "kind" (StatementKind.vocabulary.encode kind) ++ fieldIf "number" (number.map .str) ++
      Block.encodeOption "proof" proof ++ Inline.encodeOption "title" title)

def ListItem.encode : ListItem → Json
  | ⟨content⟩ => .obj (field "content" (.arr (Block.encodeList content)))

def ListItem.encodeList : List ListItem → List Json
  | [] => []
  | item :: rest => item.encode :: ListItem.encodeList rest

def Listing.encode : Listing → Json
  | ⟨items, style, startIndex⟩ =>
    .obj (field "items" (.arr (ListItem.encodeList items)) ++
      fieldIf "start_index" (startIndex.map nat) ++ field "style" style.encode)

def TableCell.encode : TableCell → Json
  | ⟨content, colSpan, rowSpan, alignment, isHeader⟩ =>
    .obj (fieldIf "alignment" (alignment.map TextAlignment.vocabulary.encode) ++
      fieldIf "col_span" (colSpan.map nat) ++ field "content" (.arr (Block.encodeList content)) ++
      field "is_header" (.bool isHeader) ++ fieldIf "row_span" (rowSpan.map nat))

def TableCell.encodeList : List TableCell → List Json
  | [] => []
  | cell :: rest => cell.encode :: TableCell.encodeList rest

def TableRow.encode : TableRow → Json
  | ⟨cells⟩ => .obj (field "cells" (.arr (TableCell.encodeList cells)))

def TableRow.encodeList : List TableRow → List Json
  | [] => []
  | row :: rest => row.encode :: TableRow.encodeList rest

def TableRow.encodeOption (name : String) : Option (List TableRow) → List (String × Json)
  | none => []
  | some rows => field name (.arr (TableRow.encodeList rows))

def Table.encode : Table → Json
  | ⟨caption, headerRows, bodyRows, footerRows⟩ =>
    .obj (field "body_rows" (.arr (TableRow.encodeList bodyRows)) ++
      Inline.encodeOption "caption" caption ++ TableRow.encodeOption "footer_rows" footerRows ++
      TableRow.encodeOption "header_rows" headerRows)

def CodeBlock.encode : CodeBlock → Json
  | ⟨code, language, showLineNumbers, caption⟩ =>
    .obj (Inline.encodeOption "caption" caption ++ field "code" (.str code) ++
      fieldIf "language" (language.map .str) ++ field "show_line_numbers" (.bool showLineNumbers))

def Image.encode : Image → Json
  | ⟨src, alt, caption, width, height⟩ =>
    .obj (field "alt" (.str alt) ++ Inline.encodeOption "caption" caption ++
      fieldIf "height" (height.map .str) ++ field "src" (.str src) ++
      fieldIf "width" (width.map .str))

def Diagram.encode : Diagram → Json
  | ⟨id, kind, data, caption⟩ =>
    .obj (Inline.encodeOption "caption" caption ++ field "data" data ++
      field "diagram_id" (.str id) ++ field "diagram_type" (.str kind))

def Collapsible.encode : Collapsible → Json
  | ⟨id, summary, content, initiallyCollapsed⟩ =>
    .obj (field "content" (.arr (Block.encodeList content)) ++ field "id" (.str id) ++
      field "initially_collapsed" (.bool initiallyCollapsed) ++
      field "summary" (.arr (Inline.encodeList summary)))

def GridItem.encode : GridItem → Json
  | ⟨content, column, row⟩ =>
    .obj (fieldIf "column" (column.map .str) ++ field "content" (.arr (Block.encodeList content)) ++
      fieldIf "row" (row.map .str))

def GridItem.encodeList : List GridItem → List Json
  | [] => []
  | item :: rest => item.encode :: GridItem.encodeList rest

def Grid.encode : Grid → Json
  | ⟨items, columns, rows, gap⟩ =>
    .obj (fieldIf "columns_template" (columns.map .str) ++ fieldIf "gap" (gap.map .str) ++
      field "items" (.arr (GridItem.encodeList items)) ++ fieldIf "rows_template" (rows.map .str))

def Column.encode : Column → Json
  | ⟨content, width⟩ =>
    .obj (field "content" (.arr (Block.encodeList content)) ++ fieldIf "width" (width.map .str))

def Column.encodeList : List Column → List Json
  | [] => []
  | column :: rest => column.encode :: Column.encodeList rest

def Columns.encode : Columns → Json
  | ⟨columns, gap⟩ =>
    .obj (field "columns" (.arr (Column.encodeList columns)) ++ fieldIf "gap" (gap.map .str))

def Quote.encode : Quote → Json
  | ⟨content, attribution⟩ =>
    .obj (Inline.encodeOption "attribution" attribution ++
      field "content" (.arr (Block.encodeList content)))

def Alert.encode : Alert → Json
  | ⟨kind, title, content⟩ =>
    .obj (field "alert_type" (AlertKind.vocabulary.encode kind) ++
      field "content" (.arr (Block.encodeList content)) ++ Inline.encodeOption "title" title)

def Component.encode : Component → Json
  | ⟨name, props, fallback⟩ =>
    .obj (field "component_name" (.str name) ++ Block.encodeOption "fallback_content" fallback ++
      field "props" props)

def Panel.encode : Panel → Json
  | ⟨id, title, content, initiallyVisible⟩ =>
    .obj (field "content" (.arr (Block.encodeList content)) ++ field "id" (.str id) ++
      field "initially_visible" (.bool initiallyVisible) ++ Inline.encodeOption "title" title)

def Panel.encodeList : List Panel → List Json
  | [] => []
  | panel :: rest => panel.encode :: Panel.encodeList rest

def SideBySide.encode : SideBySide → Json
  | ⟨left, right, widths⟩ =>
    .obj (fieldIf "layout_config" (widths.map SideWidths.encode) ++ field "left" left.encode ++
      field "right" right.encode)

def PanelLayout.encode : PanelLayout → Json
  | ⟨id, panels, arrangement⟩ =>
    .obj (field "id" (.str id) ++ field "layout_type" arrangement.encode ++
      field "panels" (.arr (Panel.encodeList panels)))

def OverlayNote.encode : OverlayNote → Json
  | ⟨id, kind, content, position, target⟩ =>
    .obj (field "annotation_type" (AnnotationKind.vocabulary.encode kind) ++
      field "content" (.arr (Inline.encodeList content)) ++ field "id" (.str id) ++
      fieldIf "position" (position.map AnnotationPosition.encode) ++
      fieldIf "target_id" (target.map .str))

def OverlayNote.encodeList : List OverlayNote → List Json
  | [] => []
  | note :: rest => note.encode :: OverlayNote.encodeList rest

def Overlay.encode : Overlay → Json
  | ⟨id, base, annotations⟩ =>
    .obj (field "annotations" (.arr (OverlayNote.encodeList annotations)) ++
      field "base_content" (.arr (Block.encodeList base)) ++ field "id" (.str id))

def Block.encode : Block → Json
  | .paragraph p => variant "Paragraph" (some p.encode)
  | .equation e => variant "MathBlock" (some e.encode)
  | .statement s => variant "StructuredMath" (some s.encode)
  | .list l => variant "List" (some l.encode)
  | .table t => variant "Table" (some t.encode)
  | .code c => variant "CodeBlock" (some c.encode)
  | .image i => variant "Image" (some i.encode)
  | .diagram d => variant "InteractiveDiagram" (some d.encode)
  | .collapsible c => variant "CollapsibleBlock" (some c.encode)
  | .grid g => variant "Grid" (some g.encode)
  | .columns c => variant "Columns" (some c.encode)
  | .thematicBreak => variant "ThematicBreak" none
  | .quote q => variant "QuoteBlock" (some q.encode)
  | .alert a => variant "AlertBox" (some a.encode)
  | .component c => variant "CustomComponent" (some c.encode)
  | .sectionRef r => variant "EmbeddedSectionRef" (some r.encode)
  | .subsection s => variant "SubSection" (some s.encode)
  | .sideBySide s => variant "SideBySideLayout" (some s.encode)
  | .panels p => variant "PanelLayout" (some p.encode)
  | .overlay o => variant "AnnotationOverlay" (some o.encode)
  | .controls g => variant "InteractiveControls" (some g.encode)
  | .document d => variant "EmbeddedDocument" (some d.encode)
  | .unknown u => u.encode

def Block.encodeList : List Block → List Json
  | [] => []
  | block :: rest => block.encode :: Block.encodeList rest

def Block.encodeOption (name : String) : Option (List Block) → List (String × Json)
  | none => []
  | some content => field name (.arr (Block.encodeList content))

def Section.encode : Section → Json
  | ⟨id, title, content, metadata, display⟩ =>
    .obj (field "content" (.arr (Block.encodeList content)) ++
      fieldIf "display_options" (display.map DisplayOptions.encode) ++ field "id" (.str id) ++
      fieldIf "metadata" (metadata.map fun pairs => .arr (pairs.map encodePair)) ++
      Inline.encodeOption "title" title)

def Section.encodeList : List Section → List Json
  | [] => []
  | s :: rest => s.encode :: Section.encodeList rest

def Footnote.encode : Footnote → Json
  | ⟨id, content⟩ =>
    .obj (field "content" (.arr (Inline.encodeList content)) ++ field "id" (.str id))

def Footnote.encodeList : List Footnote → List Json
  | [] => []
  | note :: rest => note.encode :: Footnote.encodeList rest

def GlossaryEntry.encode : GlossaryEntry → Json
  | ⟨term, definition⟩ =>
    .obj (field "definition" (.arr (Inline.encodeList definition)) ++ field "term" (.str term))

def GlossaryEntry.encodeList : List GlossaryEntry → List Json
  | [] => []
  | entry :: rest => entry.encode :: GlossaryEntry.encodeList rest

def Document.encode : Document → Json
  | ⟨id, title, kind, presentation, body, bibliography, abstract, contents, footnotes, glossary,
      authors, createdAt, updatedAt⟩ =>
    .obj (Inline.encodeOption "abstract" abstract ++ field "authors" (strs authors) ++
      field "bibliography" (.arr (bibliography.map BibEntry.encode)) ++
      field "body" (.arr (Section.encodeList body)) ++
      fieldIf "created_at" (createdAt.map .str) ++
      field "document_type" (DocumentKind.vocabulary.encode kind) ++
      field "footnotes" (.arr (Footnote.encodeList footnotes)) ++
      field "glossary" (.arr (GlossaryEntry.encodeList glossary)) ++ field "id" (.str id) ++
      fieldIf "presentation_config" (presentation.map Presentation.encode) ++
      fieldIf "table_of_contents" (contents.map TableOfContents.encode) ++
      field "title" (.str title) ++ fieldIf "updated_at" (updatedAt.map .str))

end

end Compendium
