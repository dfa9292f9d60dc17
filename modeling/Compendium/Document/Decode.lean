import Compendium.Document.Basic

/-!
# Reading documents

The decoders of a document's parts call each other in a circle. `Readers` holds the three that close
the circle; `Readers.level` builds them one level at a time, so that a value is read by the level of
its own nesting. A union that does not fit any of its variants is kept as unrecognized.
-/

namespace Compendium

open Json

/-- The decoders that the others are built from. -/
structure Readers where
  inline : Decoder Inline
  block : Decoder Block
  document : Decoder Document

namespace PanelArrangement

/-- Reads a variant of one of the known arrangements. -/
def decodeKnown (t : Tagged) : Option PanelArrangement :=
  match t.tag with
  | "Tabs" => t.bare tabs
  | "Accordion" => t.bare accordion
  | "Grid" => t.payload fun m j => do
    let f ← namedFields? m j
    let columns ← f.required 0 "columns" Decode.word32
    return grid columns
  | "Sidebar" => t.payload fun m j => do
    let f ← namedFields? m j
    let mainPanel ← f.required 0 "main_panel_id" Decode.string
    return sidebar mainPanel
  | "FloatingPanels" => t.bare floating
  | _ => none

def tags : List String := ["Tabs", "Accordion", "Grid", "Sidebar", "FloatingPanels"]

def decode : Decoder PanelArrangement := Unrecognized.keep tags decodeKnown unknown

end PanelArrangement

namespace Readers

variable (r : Readers)

/-- A run of inline text. -/
def inlines : Decoder (List Inline) := Decode.list r.inline

def blocks : Decoder (List Block) := Decode.list r.block

def knownTarget (t : Tagged) : Option LinkTarget :=
  match t.tag with
  | "Url" => (t.payload Decode.string).map .url
  | "InternalPageId" => (t.payload Decode.string).map .page
  | "DefinitionId" => t.payload fun m j => do
    let f ← namedFields? m j
    let term ← f.required 0 "term_id" Decode.string
    let theory ← f.optional 1 "theory_context" Decode.string
    return .definition term theory
  | "DefinitionAspect" => t.payload fun m j => do
    let f ← namedFields? m j
    let term ← f.required 0 "term_id" Decode.string
    let aspect ← f.required 1 "aspect_id" Decode.string
    let theory ← f.optional 2 "theory_context" Decode.string
    return .aspect term aspect theory
  | "TheoremId" => (t.payload Decode.string).map .theorem_
  | "ObjectConstructorTemplate" => t.payload fun m j => do
    let f ← namedFields? m j
    let id ← f.required 0 "template_id" Decode.string
    let parameters ← f.optional 1 "parameters" Decode.any
    let level ← f.optional 2 "target_abstraction_level" Decode.word32
    return .template id parameters level
  | "GlossaryTerm" => (t.payload Decode.string).map .glossary
  | "BibliographyKey" => (t.payload Decode.string).map .bibliography
  | "InteractiveElementId" => (t.payload Decode.string).map .element
  | "TooltipDocument" => (t.payload r.document).map .tooltip
  | "AnimationTrigger" => t.payload fun m j => do
    let f ← namedFields? m j
    let id ← f.required 0 "animation_id" Decode.string
    let trigger ← f.required 1 "trigger_type" Decode.string
    return .animation id trigger
  | _ => none

/-- The tags of the known link targets. -/
def targetTags : List String :=
  ["Url", "InternalPageId", "DefinitionId", "DefinitionAspect", "TheoremId",
   "ObjectConstructorTemplate", "GlossaryTerm", "BibliographyKey", "InteractiveElementId",
   "TooltipDocument", "AnimationTrigger"]

def target : Decoder LinkTarget := Unrecognized.keep targetTags r.knownTarget .unknown

def linkFields : Decoder Inline := fun m j => do
  let f ← namedFields? m j
  let content ← f.required 0 "content" r.inlines
  let target ← f.required 1 "target" r.target
  let tooltip ← f.optional 2 "tooltip" Decode.string
  return .link content target tooltip

/-- A variant of one of the known kinds of inline text. -/
def knownInline (t : Tagged) : Option Inline :=
  match t.tag with
  | "Text" => (t.payload Decode.string).map .text
  | "StyledText" => t.payload fun m j => do
    let f ← namedFields? m j
    let text ← f.required 0 "text" Decode.string
    let styles ← f.defaulted 1 "styles" (Decode.list TextStyle.decode) []
    return .styled text styles
  | "Math" => (t.payload Formula.decode).map .math
  | "Link" => t.payload r.linkFields
  | "FootnoteReference" => (t.payload Decode.string).map .footnote
  | "CodeInline" => (t.payload Decode.string).map .code
  | _ => none

/-- The tags of the known kinds of inline text. -/
def inlineTags : List String :=
  ["Text", "StyledText", "Math", "Link", "FootnoteReference", "CodeInline"]

/-- The next level's decoder of inline text. -/
def nextInline : Decoder Inline := Unrecognized.keep inlineTags r.knownInline .unknown

def paragraph : Decoder Paragraph := fun m j => do
  let f ← fields? 2 m j
  let segments ← f.required 0 "segments" r.inlines
  let alignment ← f.optional 1 "alignment" TextAlignment.vocabulary.decode
  return ⟨segments, alignment⟩

def equation : Decoder Equation := fun m j => do
  let f ← fields? 3 m j
  let formula ← f.required 0 "math" Formula.decode
  let label ← f.optional 1 "label" Decode.string
  let caption ← f.optional 2 "caption" r.inlines
  return ⟨formula, label, caption⟩

def statement : Decoder Statement := fun m j => do
  let f ← fields? 5 m j
  let kind ← f.required 0 "kind" StatementKind.vocabulary.decode
  let number ← f.optional 1 "number" Decode.string
  let title ← f.optional 2 "title" r.inlines
  let body ← f.defaulted 3 "body" r.blocks []
  let proof ← f.optional 4 "proof" r.blocks
  return ⟨kind, number, title, body, proof⟩

def listItem : Decoder ListItem := fun m j => do
  let f ← fields? 1 m j
  let content ← f.defaulted 0 "content" r.blocks []
  return ⟨content⟩

def listing : Decoder Listing := fun m j => do
  let f ← fields? 3 m j
  let items ← f.required 0 "items" (Decode.list r.listItem)
  let style ← f.defaulted 1 "style" ListStyle.decode .standard
  let startIndex ← f.optional 2 "start_index" Decode.word32
  return ⟨items, style, startIndex⟩

def tableCell : Decoder TableCell := fun m j => do
  let f ← fields? 5 m j
  let content ← f.defaulted 0 "content" r.blocks []
  let colSpan ← f.optional 1 "col_span" Decode.word32
  let rowSpan ← f.optional 2 "row_span" Decode.word32
  let alignment ← f.optional 3 "alignment" TextAlignment.vocabulary.decode
  let isHeader ← f.defaulted 4 "is_header" Decode.boolean false
  return ⟨content, colSpan, rowSpan, alignment, isHeader⟩

def tableRow : Decoder TableRow := fun m j => do
  let f ← fields? 1 m j
  let cells ← f.required 0 "cells" (Decode.list r.tableCell)
  return ⟨cells⟩

def table : Decoder Table := fun m j => do
  let f ← fields? 4 m j
  let caption ← f.optional 0 "caption" r.inlines
  let headerRows ← f.optional 1 "header_rows" (Decode.list r.tableRow)
  let bodyRows ← f.defaulted 2 "body_rows" (Decode.list r.tableRow) []
  let footerRows ← f.optional 3 "footer_rows" (Decode.list r.tableRow)
  return ⟨caption, headerRows, bodyRows, footerRows⟩

def codeBlock : Decoder CodeBlock := fun m j => do
  let f ← fields? 4 m j
  let code ← f.required 0 "code" Decode.string
  let language ← f.optional 1 "language" Decode.string
  let showLineNumbers ← f.defaulted 2 "show_line_numbers" Decode.boolean false
  let caption ← f.optional 3 "caption" r.inlines
  return ⟨code, language, showLineNumbers, caption⟩

def image : Decoder Image := fun m j => do
  let f ← fields? 5 m j
  let src ← f.required 0 "src" Decode.string
  let alt ← f.defaulted 1 "alt" Decode.string ""
  let caption ← f.optional 2 "caption" r.inlines
  let width ← f.optional 3 "width" Decode.string
  let height ← f.optional 4 "height" Decode.string
  return ⟨src, alt, caption, width, height⟩

def diagram : Decoder Diagram := fun m j => do
  let f ← fields? 4 m j
  let id ← f.required 0 "diagram_id" Decode.string
  let kind ← f.defaulted 1 "diagram_type" Decode.string ""
  let data ← f.defaulted 2 "data" Decode.any .null
  let caption ← f.optional 3 "caption" r.inlines
  return ⟨id, kind, data, caption⟩

def collapsible : Decoder Collapsible := fun m j => do
  let f ← fields? 4 m j
  let id ← f.required 0 "id" Decode.string
  let summary ← f.required 1 "summary" r.inlines
  let content ← f.defaulted 2 "content" r.blocks []
  let initiallyCollapsed ← f.defaulted 3 "initially_collapsed" Decode.boolean false
  return ⟨id, summary, content, initiallyCollapsed⟩

def gridItem : Decoder GridItem := fun m j => do
  let f ← fields? 3 m j
  let content ← f.defaulted 0 "content" r.blocks []
  let column ← f.optional 1 "column" Decode.string
  let row ← f.optional 2 "row" Decode.string
  return ⟨content, column, row⟩

def grid : Decoder Grid := fun m j => do
  let f ← fields? 4 m j
  let items ← f.required 0 "items" (Decode.list r.gridItem)
  let columns ← f.optional 1 "columns_template" Decode.string
  let rows ← f.optional 2 "rows_template" Decode.string
  let gap ← f.optional 3 "gap" Decode.string
  return ⟨items, columns, rows, gap⟩

def column : Decoder Column := fun m j => do
  let f ← fields? 2 m j
  let content ← f.defaulted 0 "content" r.blocks []
  let width ← f.optional 1 "width" Decode.string
  return ⟨content, width⟩

def columns : Decoder Columns := fun m j => do
  let f ← fields? 2 m j
  let columns ← f.required 0 "columns" (Decode.list r.column)
  let gap ← f.optional 1 "gap" Decode.string
  return ⟨columns, gap⟩

def quote : Decoder Quote := fun m j => do
  let f ← fields? 2 m j
  let content ← f.defaulted 0 "content" r.blocks []
  let attribution ← f.optional 1 "attribution" r.inlines
  return ⟨content, attribution⟩

def alert : Decoder Alert := fun m j => do
  let f ← fields? 3 m j
  let kind ← f.required 0 "alert_type" AlertKind.vocabulary.decode
  let title ← f.optional 1 "title" r.inlines
  let content ← f.defaulted 2 "content" r.blocks []
  return ⟨kind, title, content⟩

def component : Decoder Component := fun m j => do
  let f ← fields? 3 m j
  let name ← f.required 0 "component_name" Decode.string
  let props ← f.defaulted 1 "props" Decode.any .null
  let fallback ← f.optional 2 "fallback_content" r.blocks
  return ⟨name, props, fallback⟩

def panel : Decoder Panel := fun m j => do
  let f ← fields? 4 m j
  let id ← f.required 0 "id" Decode.string
  let title ← f.optional 1 "title" r.inlines
  let content ← f.defaulted 2 "content" r.blocks []
  let initiallyVisible ← f.defaulted 3 "initially_visible" Decode.boolean false
  return ⟨id, title, content, initiallyVisible⟩

def sideBySide : Decoder SideBySide := fun m j => do
  let f ← fields? 3 m j
  let left ← f.required 0 "left" r.panel
  let right ← f.required 1 "right" r.panel
  let widths ← f.optional 2 "layout_config" SideWidths.decode
  return ⟨left, right, widths⟩

def panelLayout : Decoder PanelLayout := fun m j => do
  let f ← fields? 3 m j
  let id ← f.required 0 "id" Decode.string
  let panels ← f.required 1 "panels" (Decode.list r.panel)
  let arrangement ← f.required 2 "layout_type" PanelArrangement.decode
  return ⟨id, panels, arrangement⟩

def overlayNote : Decoder OverlayNote := fun m j => do
  let f ← fields? 5 m j
  let id ← f.required 0 "id" Decode.string
  let kind ← f.required 1 "annotation_type" AnnotationKind.vocabulary.decode
  let content ← f.defaulted 2 "content" r.inlines []
  let position ← f.optional 3 "position" AnnotationPosition.decode
  let target ← f.optional 4 "target_id" Decode.string
  return ⟨id, kind, content, position, target⟩

def overlay : Decoder Overlay := fun m j => do
  let f ← fields? 3 m j
  let id ← f.required 0 "id" Decode.string
  let base ← f.defaulted 1 "base_content" r.blocks []
  let annotations ← f.defaulted 2 "annotations" (Decode.list r.overlayNote) []
  return ⟨id, base, annotations⟩

def sectionPart : Decoder Section := fun m j => do
  let f ← fields? 5 m j
  let id ← f.required 0 "id" Decode.string
  let title ← f.optional 1 "title" r.inlines
  let content ← f.defaulted 2 "content" r.blocks []
  let metadata ← f.optional 3 "metadata" (Decode.list Decode.stringPair)
  let display ← f.optional 4 "display_options" DisplayOptions.decode
  return ⟨id, title, content, metadata, display⟩

def footnote : Decoder Footnote := fun m j => do
  let f ← fields? 2 m j
  let id ← f.required 0 "id" Decode.string
  let content ← f.required 1 "content" r.inlines
  return ⟨id, content⟩

def glossaryEntry : Decoder GlossaryEntry := fun m j => do
  let f ← fields? 2 m j
  let term ← f.required 0 "term" Decode.string
  let definition ← f.required 1 "definition" r.inlines
  return ⟨term, definition⟩

/-- A variant of one of the known kinds of block. -/
def knownBlock (t : Tagged) : Option Block :=
  match t.tag with
  | "Paragraph" => (t.payload r.paragraph).map .paragraph
  | "MathBlock" => (t.payload r.equation).map .equation
  | "StructuredMath" => (t.payload r.statement).map .statement
  | "List" => (t.payload r.listing).map .list
  | "Table" => (t.payload r.table).map .table
  | "CodeBlock" => (t.payload r.codeBlock).map .code
  | "Image" => (t.payload r.image).map .image
  | "InteractiveDiagram" => (t.payload r.diagram).map .diagram
  | "CollapsibleBlock" => (t.payload r.collapsible).map .collapsible
  | "Grid" => (t.payload r.grid).map .grid
  | "Columns" => (t.payload r.columns).map .columns
  | "ThematicBreak" => t.bare .thematicBreak
  | "QuoteBlock" => (t.payload r.quote).map .quote
  | "AlertBox" => (t.payload r.alert).map .alert
  | "CustomComponent" => (t.payload r.component).map .component
  | "EmbeddedSectionRef" => (t.payload SectionRef.decode).map .sectionRef
  | "SubSection" => (t.payload r.sectionPart).map .subsection
  | "SideBySideLayout" => (t.payload r.sideBySide).map .sideBySide
  | "PanelLayout" => (t.payload r.panelLayout).map .panels
  | "AnnotationOverlay" => (t.payload r.overlay).map .overlay
  | "InteractiveControls" => (t.payload ControlGroup.decode).map .controls
  | "EmbeddedDocument" => (t.payload r.document).map .document
  | _ => none

/-- The tags of the known kinds of block. -/
def blockKinds : List String :=
  ["Paragraph", "MathBlock", "StructuredMath", "List", "Table", "CodeBlock", "Image",
    "InteractiveDiagram", "CollapsibleBlock", "Grid", "Columns", "ThematicBreak", "QuoteBlock",
    "AlertBox", "CustomComponent", "EmbeddedSectionRef", "SubSection", "SideBySideLayout",
    "PanelLayout", "AnnotationOverlay", "InteractiveControls", "EmbeddedDocument"]

def nextBlock : Decoder Block := Unrecognized.keep blockKinds r.knownBlock .unknown

def nextDocument : Decoder Document := fun m j => do
  let f ← fields? 13 m j
  let id ← f.required 0 "id" Decode.string
  let title ← f.required 1 "title" Decode.string
  let kind ← f.required 2 "document_type" DocumentKind.vocabulary.decode
  let presentation ← f.optional 3 "presentation_config" Presentation.decode
  let body ← f.defaulted 4 "body" (Decode.list r.sectionPart) []
  let bibliography ← f.defaulted 5 "bibliography" (Decode.list BibEntry.decode) []
  let abstract ← f.optional 6 "abstract" r.inlines
  let contents ← f.optional 7 "table_of_contents" TableOfContents.decode
  let footnotes ← f.defaulted 8 "footnotes" (Decode.list r.footnote) []
  let glossary ← f.defaulted 9 "glossary" (Decode.list r.glossaryEntry) []
  let authors ← f.defaulted 10 "authors" (Decode.list Decode.string) []
  let createdAt ← f.optional 11 "created_at" Decode.string
  let updatedAt ← f.optional 12 "updated_at" Decode.string
  return ⟨id, title, kind, presentation, body, bibliography, abstract, contents, footnotes,
    glossary, authors, createdAt, updatedAt⟩

/-- The decoders of values nested at most as deep as the level says. -/
def level : Nat → Readers
  | 0 => ⟨fun _ _ => none, fun _ _ => none, fun _ _ => none⟩
  | n + 1 =>
    let r := level n
    ⟨r.nextInline, r.nextBlock, r.nextDocument⟩

/-- The decoders that suffice for all parts of a value. -/
def within (j : Json) : Readers := level (j.depth + 1)

end Readers

/-- Reads inline text. -/
def Inline.decode : Decoder Inline := fun m j => (Readers.within j).inline m j

def Block.decode : Decoder Block := fun m j => (Readers.within j).block m j

def Document.decode : Decoder Document := fun m j => (Readers.within j).document m j

def decodePart {α : Type} (decoder : Readers → Decoder α) : Decoder α :=
  fun m j => decoder (Readers.within j) m j

end Compendium
