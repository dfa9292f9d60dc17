import Compendium.Document.Parts
import Compendium.Proofs.Document.Readers
import Compendium.Proofs.Json.Replacement

/-!
# Where documents hold their parts

`shapes` lists the records that hold blocks or lead to them, with the fields that do, and `variants`
the variants of unions whose content does. Every such field is read on its own, whatever stands in
the fields beside it, and every block inside a record is inside one of its listed fields.
-/

namespace Compendium

open Json
open Readers (all)

/-- A field of a record: where it is, how the part in it is read, the part of a record and the
record with another part, the part that it stands for if it is missing, and the parts of documents
inside it. -/
structure Slot {Whole : Type} (read : Decoder Whole) where
  {Held : Type}
  position : Nat
  name : String
  part : Decoder Held
  get : Whole → Held
  put : Held → Whole → Whole
  get_put : ∀ x a, get (put x a) = x
  absent : Option Held
  inside : Held → List Part
  inside_absent : ∀ x, absent = some x → inside x = []

namespace Slot

variable {Whole Held : Type} {read : Decoder Whole}

/-- The record reader looks at the field only to read the part in it. -/
abbrev Lawful (slot : Slot read) : Prop :=
  Reads read slot.position slot.name slot.part slot.get slot.put slot.absent

variable (position : Nat) (name : String)

/-- A field that must be there. -/
def required (part : Decoder Held) (inside : Held → List Part) (get : Whole → Held)
    (put : Held → Whole → Whole) (get_put : ∀ x a, get (put x a) = x := by intros; rfl) :
    Slot read :=
  { position, name, part, get, put, get_put, absent := none, inside, inside_absent := nofun }

def defaulted (part : Decoder Held) (missing : Held) (inside : Held → List Part)
    (hmissing : inside missing = []) (get : Whole → Held) (put : Held → Whole → Whole)
    (get_put : ∀ x a, get (put x a) = x := by intros; rfl) : Slot read :=
  { position, name, part, get, put, get_put, absent := some missing, inside,
    inside_absent := by rintro _ ⟨⟩; exact hmissing }

/-- A field that may be missing or null. -/
def optional (part : Decoder Held) (inside : Option Held → List Part) (hnone : inside none = [])
    (get : Whole → Option Held) (put : Option Held → Whole → Whole)
    (get_put : ∀ x a, get (put x a) = x := by intros; rfl) : Slot read :=
  defaulted position name (Decode.optional part) none inside hnone get put get_put

/-- Blocks, none if the field is missing. -/
def blocks (get : Whole → List Block) (put : List Block → Whole → Whole)
    (get_put : ∀ x a, get (put x a) = x := by intros; rfl) : Slot read :=
  defaulted position name all.blocks [] Block.partsList rfl get put get_put

/-- Inline text that may be missing. -/
def inlines (get : Whole → Option (List Inline)) (put : Option (List Inline) → Whole → Whole)
    (get_put : ∀ x a, get (put x a) = x := by intros; rfl) : Slot read :=
  optional position name all.inlines Inline.partsOption rfl get put get_put

end Slot

/-- A record: how it is read, the parts of documents inside it, and the fields that hold them. -/
structure Shape where
  {Whole : Type}
  read : Decoder Whole
  inside : Whole → List Part
  slots : List (Slot read)

theorem Shape.lawful_mk {Whole : Type} {read : Decoder Whole} {inside : Whole → List Part}
    {slots : List (Slot read)} (h : ∀ slot ∈ slots, slot.Lawful) :
    ∀ slot ∈ (Shape.mk read inside slots).slots, slot.Lawful :=
  h

/-! ## Documents and sections -/

def documentShape : Shape :=
  ⟨all.document, Document.parts,
    [.inlines 6 "abstract" (·.abstract) fun x d => { d with abstract := x },
      .defaulted 4 "body" (Decode.list all.sectionPart) [] Section.partsList rfl
        (·.body) fun x d => { d with body := x },
      .defaulted 8 "footnotes" (Decode.list all.footnote) [] Footnote.partsList rfl
        (·.footnotes) fun x d => { d with footnotes := x },
      .defaulted 9 "glossary" (Decode.list all.glossaryEntry) [] GlossaryEntry.partsList rfl
        (·.glossary) fun x d => { d with glossary := x }]⟩

def sectionShape : Shape :=
  ⟨all.sectionPart, Section.parts,
    [.inlines 1 "title" (·.title) fun x s => { s with title := x },
      .blocks 2 "content" (·.content) fun x s => { s with content := x }]⟩

def footnoteShape : Shape :=
  ⟨all.footnote, Footnote.parts,
    [.required 1 "content" all.inlines Inline.partsList
       (·.content) fun x f => { f with content := x }]⟩

def glossaryEntryShape : Shape :=
  ⟨all.glossaryEntry, GlossaryEntry.parts,
    [.required 1 "definition" all.inlines Inline.partsList
       (·.definition) fun x g => { g with definition := x }]⟩

/-! ## Blocks with an arrangement of their own -/

def listItemShape : Shape :=
  ⟨all.listItem, ListItem.parts,
    [.blocks 0 "content" (·.content) fun x i => { i with content := x }]⟩

def listingShape : Shape :=
  ⟨all.listing, Listing.parts,
    [.required 0 "items" (Decode.list all.listItem) ListItem.partsList
       (·.items) fun x l => { l with items := x }]⟩

def tableCellShape : Shape :=
  ⟨all.tableCell, TableCell.parts,
    [.blocks 0 "content" (·.content) fun x c => { c with content := x }]⟩

def tableRowShape : Shape :=
  ⟨all.tableRow, TableRow.parts,
    [.required 0 "cells" (Decode.list all.tableCell) TableCell.partsList
       (·.cells) fun x r => { r with cells := x }]⟩

def tableShape : Shape :=
  ⟨all.table, Table.parts,
    [.inlines 0 "caption" (·.caption) fun x t => { t with caption := x },
      .optional 1 "header_rows" (Decode.list all.tableRow) TableRow.partsOption rfl
        (·.headerRows) fun x t => { t with headerRows := x },
      .defaulted 2 "body_rows" (Decode.list all.tableRow) [] TableRow.partsList rfl
        (·.bodyRows) fun x t => { t with bodyRows := x },
      .optional 3 "footer_rows" (Decode.list all.tableRow) TableRow.partsOption rfl
        (·.footerRows) fun x t => { t with footerRows := x }]⟩

def gridItemShape : Shape :=
  ⟨all.gridItem, GridItem.parts,
    [.blocks 0 "content" (·.content) fun x i => { i with content := x }]⟩

def gridShape : Shape :=
  ⟨all.grid, Grid.parts,
    [.required 0 "items" (Decode.list all.gridItem) GridItem.partsList
       (·.items) fun x g => { g with items := x }]⟩

def columnShape : Shape :=
  ⟨all.column, Column.parts,
    [.blocks 0 "content" (·.content) fun x c => { c with content := x }]⟩

def columnsShape : Shape :=
  ⟨all.columns, Columns.parts,
    [.required 0 "columns" (Decode.list all.column) Column.partsList
       (·.columns) fun x c => { c with columns := x }]⟩

def panelShape : Shape :=
  ⟨all.panel, Panel.parts,
    [.inlines 1 "title" (·.title) fun x p => { p with title := x },
      .blocks 2 "content" (·.content) fun x p => { p with content := x }]⟩

def sideBySideShape : Shape :=
  ⟨all.sideBySide, SideBySide.parts,
    [.required 0 "left" all.panel Panel.parts (·.left) fun x s => { s with left := x },
      .required 1 "right" all.panel Panel.parts (·.right) fun x s => { s with right := x }]⟩

def panelLayoutShape : Shape :=
  ⟨all.panelLayout, PanelLayout.parts,
    [.required 1 "panels" (Decode.list all.panel) Panel.partsList
       (·.panels) fun x p => { p with panels := x }]⟩

/-! ## Blocks around other blocks -/

def statementShape : Shape :=
  ⟨all.statement, Statement.parts,
    [.inlines 2 "title" (·.title) fun x s => { s with title := x },
      .blocks 3 "body" (·.body) fun x s => { s with body := x },
      .optional 4 "proof" all.blocks Block.partsOption rfl (·.proof) fun x s =>
        { s with proof := x }]⟩

def collapsibleShape : Shape :=
  ⟨all.collapsible, Collapsible.parts,
    [.required 1 "summary" all.inlines Inline.partsList (·.summary) fun x c =>
      { c with summary := x }, .blocks 2 "content" (·.content) fun x c => { c with content := x }]⟩

def quoteShape : Shape :=
  ⟨all.quote, Quote.parts,
    [.blocks 0 "content" (·.content) fun x q => { q with content := x },
      .inlines 1 "attribution" (·.attribution) fun x q => { q with attribution := x }]⟩

def alertShape : Shape :=
  ⟨all.alert, Alert.parts,
    [.inlines 1 "title" (·.title) fun x a => { a with title := x },
      .blocks 2 "content" (·.content) fun x a => { a with content := x }]⟩

def componentShape : Shape :=
  ⟨all.component, Component.parts,
    [.optional 2 "fallback_content" all.blocks Block.partsOption rfl
       (·.fallback) fun x c => { c with fallback := x }]⟩

def overlayNoteShape : Shape :=
  ⟨all.overlayNote, OverlayNote.parts,
    [.defaulted 2 "content" all.inlines [] Inline.partsList rfl
       (·.content) fun x n => { n with content := x }]⟩

def overlayShape : Shape :=
  ⟨all.overlay, Overlay.parts,
    [.blocks 1 "base_content" (·.base) fun x o => { o with base := x },
      .defaulted 2 "annotations" (Decode.list all.overlayNote) [] OverlayNote.partsList rfl
        (·.annotations) fun x o => { o with annotations := x }]⟩

/-! ## Blocks of text -/

def paragraphShape : Shape :=
  ⟨all.paragraph, Paragraph.parts,
    [.required 0 "segments" all.inlines Inline.partsList (·.segments) fun x p =>
      { p with segments := x }]⟩

def equationShape : Shape :=
  ⟨all.equation, Equation.parts,
    [.inlines 2 "caption" (·.caption) fun x e => { e with caption := x }]⟩

def codeBlockShape : Shape :=
  ⟨all.codeBlock, CodeBlock.parts,
    [.inlines 3 "caption" (·.caption) fun x c => { c with caption := x }]⟩

def imageShape : Shape :=
  ⟨all.image, Image.parts,
    [.inlines 2 "caption" (·.caption) fun x i => { i with caption := x }]⟩

def diagramShape : Shape :=
  ⟨all.diagram, Diagram.parts,
    [.inlines 3 "caption" (·.caption) fun x d => { d with caption := x }]⟩

/-! ## Links -/

namespace Inline

def linkContent : Inline → List Inline
  | .link content _ _ => content
  | _ => []

def linkTarget : Inline → LinkTarget
  | .link _ target _ => target
  | _ => .url ""

def linkTooltip : Inline → Option String
  | .link _ _ tooltip => tooltip
  | _ => none

end Inline

def linkShape : Shape :=
  ⟨all.linkFields, Inline.parts,
    [.required 0 "content" all.inlines Inline.partsList
       (·.linkContent) fun x i => .link x i.linkTarget i.linkTooltip,
      .required 1 "target" all.target LinkTarget.parts
        (·.linkTarget) fun x i => .link i.linkContent x i.linkTooltip]⟩

/-! ## All records -/

def shapes : List Shape :=
  [linkShape, documentShape, sectionShape, footnoteShape, glossaryEntryShape, listItemShape,
   listingShape, tableCellShape, tableRowShape, tableShape, gridItemShape, gridShape, columnShape,
   columnsShape, panelShape, sideBySideShape, panelLayoutShape, statementShape, collapsibleShape,
   quoteShape, alertShape, componentShape, overlayNoteShape, overlayShape, paragraphShape,
   equationShape, codeBlockShape, imageShape, diagramShape]

theorem documentShape_mem : documentShape ∈ shapes :=
  .tail _ (.head _)

theorem shapes_lawful : ∀ shape ∈ shapes, ∀ slot ∈ shape.slots, slot.Lawful := by
  simp only [shapes, List.forall_mem_cons]
  and_intros
  all_goals first
    | exact List.forall_mem_nil _
    | refine Shape.lawful_mk ?_
      simp only [List.forall_mem_cons, Slot.Lawful, Slot.required, Slot.defaulted, Slot.optional,
        Slot.blocks, Slot.inlines, Readers.all_document]
      and_intros
      -- One goal for each field that is listed: it is reached past the fields before it.
      all_goals first
        | exact List.forall_mem_nil _
        | first
            | refine reads_of_separates (opens_fields? _) ?_
            | refine reads_of_separates opens_namedFields? ?_
          repeat first
            | exact Fields.ignores_required (by decide) (by decide) _
            | exact Fields.ignores_defaulted (by decide) (by decide) _ _
            | exact Fields.Follows.last (fun _ _ => rfl) (fun _ => rfl)
            | refine Fields.Separates.required ?_
            | refine Fields.Separates.defaulted ?_
            | refine Fields.Separates.bind ?_ fun _ => ?_
            | refine Fields.Follows.bind ?_ fun _ => ?_

/-! ## Unions -/

/-- A variant of a union: its tag, how its content is read, the union value made of it and the parts
of documents inside it. -/
structure Variant (Whole : Type) where
  {Held : Type}
  tag : String
  part : Decoder Held
  make : Held → Whole
  inside : Held → List Part

/-- A union: how it is read and how its known variants are, what is made of the others, the parts of
documents inside it, and the variants that hold them. -/
structure Union where
  {Whole : Type}
  read : Decoder Whole
  tags : List String
  known : Tagged → Option Whole
  other : Unrecognized → Whole
  inside : Whole → List Part
  variants : List (Variant Whole)

/-- The variants that are listed are read from their contents alone. -/
structure Union.Lawful (u : Union) : Prop where
  read_eq : u.read = Unrecognized.keep u.tags u.known u.other
  known_eq : ∀ v ∈ u.variants, ∀ content m,
    u.known ⟨v.tag, some content, m⟩ = (v.part m content).map v.make
  make_injective : ∀ v ∈ u.variants, Function.Injective v.make

def inlineUnion : Union where
  read := all.inline
  tags := Readers.inlineTags
  known := all.knownInline
  other := .unknown
  inside := Inline.parts
  variants := [⟨"Link", all.linkFields, id, Inline.parts⟩]

def targetUnion : Union where
  read := all.target
  tags := Readers.targetTags
  known := all.knownTarget
  other := .unknown
  inside := LinkTarget.parts
  variants := [⟨"TooltipDocument", all.document, .tooltip, Document.parts⟩]

def blockVariants : List (Variant Block) :=
  [⟨"Paragraph", all.paragraph, .paragraph, Paragraph.parts⟩,
   ⟨"MathBlock", all.equation, .equation, Equation.parts⟩,
   ⟨"StructuredMath", all.statement, .statement, Statement.parts⟩,
   ⟨"List", all.listing, .list, Listing.parts⟩,
   ⟨"Table", all.table, .table, Table.parts⟩,
   ⟨"CodeBlock", all.codeBlock, .code, CodeBlock.parts⟩,
   ⟨"Image", all.image, .image, Image.parts⟩,
   ⟨"InteractiveDiagram", all.diagram, .diagram, Diagram.parts⟩,
   ⟨"CollapsibleBlock", all.collapsible, .collapsible, Collapsible.parts⟩,
   ⟨"Grid", all.grid, .grid, Grid.parts⟩,
   ⟨"Columns", all.columns, .columns, Columns.parts⟩,
   ⟨"QuoteBlock", all.quote, .quote, Quote.parts⟩,
   ⟨"AlertBox", all.alert, .alert, Alert.parts⟩,
   ⟨"CustomComponent", all.component, .component, Component.parts⟩,
   ⟨"SubSection", all.sectionPart, .subsection, Section.parts⟩,
   ⟨"SideBySideLayout", all.sideBySide, .sideBySide, SideBySide.parts⟩,
   ⟨"PanelLayout", all.panelLayout, .panels, PanelLayout.parts⟩,
   ⟨"AnnotationOverlay", all.overlay, .overlay, Overlay.parts⟩,
   ⟨"EmbeddedDocument", all.document, .document, Document.parts⟩]

def blockUnion : Union where
  read := all.block
  tags := Readers.blockKinds
  known := all.knownBlock
  other := .unknown
  inside := fun b => b.parts.tail
  variants := blockVariants

def unions : List Union :=
  [inlineUnion, targetUnion, blockUnion]

theorem inlineUnion_lawful : inlineUnion.Lawful where
  read_eq := Readers.all_inline
  known_eq := by
    refine List.forall_mem_cons.mpr ⟨fun content m => ?_, List.forall_mem_nil _⟩
    exact (congrFun Option.map_id _).symm
  make_injective := List.forall_mem_cons.mpr ⟨Function.injective_id, List.forall_mem_nil _⟩

theorem targetUnion_lawful : targetUnion.Lawful where
  read_eq := rfl
  known_eq := List.forall_mem_cons.mpr ⟨fun _ _ => rfl, List.forall_mem_nil _⟩
  make_injective := by
    refine List.forall_mem_cons.mpr ⟨?_, List.forall_mem_nil _⟩
    rintro _ _ ⟨⟩
    rfl

theorem knownBlock_of_mem : ∀ v ∈ blockVariants, ∀ content m,
    all.knownBlock ⟨v.tag, some content, m⟩ = (v.part m content).map v.make := by
  simp only [blockVariants, List.forall_mem_cons]
  and_intros
  all_goals first
    | exact List.forall_mem_nil _
    | exact fun _ _ => rfl

theorem blockVariants_injective : ∀ v ∈ blockVariants, Function.Injective v.make := by
  simp only [blockVariants, List.forall_mem_cons]
  and_intros
  all_goals first
    | exact List.forall_mem_nil _
    | rintro _ _ ⟨⟩
      rfl

theorem blockUnion_lawful : blockUnion.Lawful :=
  ⟨Readers.all_block, knownBlock_of_mem, blockVariants_injective⟩

theorem unions_lawful : ∀ u ∈ unions, u.Lawful := by
  simp only [unions, List.forall_mem_cons]
  exact ⟨inlineUnion_lawful, targetUnion_lawful, blockUnion_lawful, List.forall_mem_nil _⟩

end Compendium
