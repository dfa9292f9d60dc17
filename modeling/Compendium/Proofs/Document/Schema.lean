import Compendium.Proofs.Document.RoundTrip

/-!
# The schema of documents

`schema` lists the types of values that documents, records and manifests are made of. For each of
them, a value that was read can be written and read again. It comes back unchanged unless a union in
it has kept a value from an array that it understands as an object; nothing else is lost or changed.
-/

namespace Compendium

open Json

/-- A type of values: how they are read and written, and what they keep. -/
structure Codec where
  Carrier : Type
  decode : Decoder Carrier
  encode : Carrier → Json
  kept : Carrier → List Kept

namespace Codec

/-- Values that keep nothing. -/
def plain {α : Type} (decode : Decoder α) (encode : α → Json) : Codec :=
  ⟨α, decode, encode, fun _ => []⟩

def names {α : Type} (v : Vocabulary α) : Codec :=
  plain v.decode v.encode

def part {α : Type} (decoder : Readers → Decoder α) (encode : α → Json) (parts : α → List Part) :
    Codec :=
  ⟨α, decodePart decoder, encode, fun a => keptIn (parts a)⟩

/-- Values of the type can be read again at every depth. -/
def Rereads (c : Codec) : Prop :=
  ∀ d, RereadBelow d c.decode c.encode c.kept

theorem plain_rereads {α : Type} {decode : Decoder α} {encode : α → Json}
    (h : Exact decode encode) : (plain decode encode).Rereads :=
  rereadBelow_of_exact h

theorem part_rereads {α : Type} {decoder : Readers → Decoder α} {encode : α → Json}
    {kept : α → List Kept}
    (hagree : ∀ {d r r'}, Readers.AgreeBelow d r r' → AgreeBelow d (decoder r) (decoder r'))
    (h : ∀ {d}, PartsReread d → RereadBelow d (decoder Readers.all) encode kept) :
    Rereads ⟨α, decodePart decoder, encode, kept⟩ := by
  intro d
  show RereadBelow d (decodePart decoder) encode kept
  rw [Readers.decodePart_eq hagree]
  exact h (partsReread d)

end Codec

def nameTypes : List Codec :=
  [.names DocumentKind.vocabulary, .names TextAlignment.vocabulary,
   .names StatementKind.vocabulary, .names OrderedStyle.vocabulary, .names BulletStyle.vocabulary,
   .names AlertKind.vocabulary, .names AnnotationKind.vocabulary, .names LayoutStyle.vocabulary,
   .names Feature.vocabulary, .names Audience.vocabulary, .names Formality.vocabulary,
   .names ControlFlow.vocabulary]

/-- The types of values that keep nothing. -/
def plainTypes : List Codec :=
  [.plain Formula.decode Formula.encode, .plain TextStyle.decode TextStyle.encode,
   .plain ListStyle.decode ListStyle.encode, .plain DisplayOptions.decode DisplayOptions.encode,
   .plain SideWidths.decode SideWidths.encode,
   .plain AnnotationPosition.decode AnnotationPosition.encode,
   .plain SectionRef.decode SectionRef.encode, .plain Animation.decode Animation.encode,
   .plain Presentation.decode Presentation.encode, .plain ControlValue.decode ControlValue.encode,
   .plain SelectOption.decode SelectOption.encode, .plain BibEntry.decode BibEntry.encode,
   .plain TocEntry.decode TocEntry.encode, .plain TableOfContents.decode TableOfContents.encode,
   .plain Unrecognized.decode Unrecognized.encode, .plain Definition.decode Definition.encode,
   .plain Theorem.decode Theorem.encode, .plain Theory.decode Theory.encode,
   .plain ManifestFile.decode ManifestFile.encode,
   .plain ManifestEntry.decode ManifestEntry.encode, .plain Manifest.decode Manifest.encode,
   .plain Bundle.decode Bundle.encode]

def recordTypes : List Codec :=
  [.part Readers.paragraph Paragraph.encode Paragraph.parts,
   .part Readers.equation Equation.encode Equation.parts,
   .part Readers.statement Statement.encode Statement.parts,
   .part Readers.listItem ListItem.encode ListItem.parts,
   .part Readers.listing Listing.encode Listing.parts,
   .part Readers.tableCell TableCell.encode TableCell.parts,
   .part Readers.tableRow TableRow.encode TableRow.parts,
   .part Readers.table Table.encode Table.parts,
   .part Readers.codeBlock CodeBlock.encode CodeBlock.parts,
   .part Readers.image Image.encode Image.parts,
   .part Readers.diagram Diagram.encode Diagram.parts,
   .part Readers.collapsible Collapsible.encode Collapsible.parts,
   .part Readers.gridItem GridItem.encode GridItem.parts,
   .part Readers.grid Grid.encode Grid.parts, .part Readers.column Column.encode Column.parts,
   .part Readers.columns Columns.encode Columns.parts,
   .part Readers.quote Quote.encode Quote.parts, .part Readers.alert Alert.encode Alert.parts,
   .part Readers.component Component.encode Component.parts,
   .part Readers.panel Panel.encode Panel.parts,
   .part Readers.sideBySide SideBySide.encode SideBySide.parts,
   .part Readers.overlayNote OverlayNote.encode OverlayNote.parts,
   .part Readers.overlay Overlay.encode Overlay.parts,
   .part Readers.sectionPart Section.encode Section.parts,
   .part Readers.footnote Footnote.encode Footnote.parts,
   .part Readers.glossaryEntry GlossaryEntry.encode GlossaryEntry.parts]

def blockCodec : Codec :=
  ⟨Block, Block.decode, Block.encode, Block.kept⟩

/-- The unions that keep what they do not understand, and the types that hold such a union. -/
def unionTypes : List Codec :=
  [⟨Inline, Inline.decode, Inline.encode, Inline.kept⟩,
    ⟨List Inline, Decode.list Inline.decode, fun l => .arr (Inline.encodeList l),
      List.flatMap Inline.kept⟩,
    ⟨LinkTarget, decodePart Readers.target, LinkTarget.encode, LinkTarget.kept⟩,
    blockCodec,
    ⟨Document, Document.decode, Document.encode, fun d => keptIn d.parts⟩,
    ⟨PanelArrangement, PanelArrangement.decode, PanelArrangement.encode, PanelArrangement.kept⟩,
    ⟨PanelLayout, decodePart Readers.panelLayout, PanelLayout.encode, PanelLayout.kept⟩,
    ⟨ControlKind, ControlKind.decode, ControlKind.encode, ControlKind.kept⟩,
    ⟨Control, Control.decode, Control.encode, fun c => c.kind.kept⟩,
    ⟨ControlGroup, ControlGroup.decode, ControlGroup.encode, ControlGroup.kept⟩]

/-- The types of values that documents, records and manifests are made of. -/
def schema : List Codec :=
  nameTypes ++ plainTypes ++ recordTypes ++ unionTypes

theorem nameTypes_reread : ∀ c ∈ nameTypes, c.Rereads := by
  simp only [nameTypes, List.forall_mem_cons, List.not_mem_nil, false_implies,
    implies_true, and_true]
  refine ⟨?_, ?_, ?_, ?_, ?_, ?_, ?_, ?_, ?_, ?_, ?_, ?_⟩
  · exact Codec.plain_rereads inverse_documentKind.exact
  · exact Codec.plain_rereads inverse_textAlignment.exact
  · exact Codec.plain_rereads inverse_statementKind.exact
  · exact Codec.plain_rereads inverse_orderedStyle.exact
  · exact Codec.plain_rereads inverse_bulletStyle.exact
  · exact Codec.plain_rereads inverse_alertKind.exact
  · exact Codec.plain_rereads inverse_annotationKind.exact
  · exact Codec.plain_rereads inverse_layoutStyle.exact
  · exact Codec.plain_rereads inverse_feature.exact
  · exact Codec.plain_rereads inverse_audience.exact
  · exact Codec.plain_rereads inverse_formality.exact
  · exact Codec.plain_rereads inverse_controlFlow.exact

theorem plainTypes_reread : ∀ c ∈ plainTypes, c.Rereads := by
  simp only [plainTypes, List.forall_mem_cons, List.not_mem_nil, false_implies,
    implies_true, and_true]
  refine ⟨?_, ?_, ?_, ?_, ?_, ?_, ?_, ?_, ?_, ?_, ?_, ?_, ?_, ?_, ?_, ?_, ?_, ?_, ?_, ?_, ?_, ?_⟩
  · exact Codec.plain_rereads inverse_formula.exact
  · exact Codec.plain_rereads inverse_textStyle.exact
  · exact Codec.plain_rereads inverse_listStyle.exact
  · exact Codec.plain_rereads inverse_displayOptions.exact
  · exact Codec.plain_rereads inverse_sideWidths.exact
  · exact Codec.plain_rereads inverse_annotationPosition.exact
  · exact Codec.plain_rereads inverse_sectionRef.exact
  · exact Codec.plain_rereads exact_animation
  · exact Codec.plain_rereads exact_presentation
  · exact Codec.plain_rereads inverse_controlValue.exact
  · exact Codec.plain_rereads inverse_selectOption.exact
  · exact Codec.plain_rereads exact_bibEntry
  · exact Codec.plain_rereads inverse_tocEntry.exact
  · exact Codec.plain_rereads inverse_tableOfContents.exact
  · exact Codec.plain_rereads Unrecognized.exact_decode
  · exact Codec.plain_rereads inverse_definition.exact
  · exact Codec.plain_rereads inverse_theorem.exact
  · exact Codec.plain_rereads inverse_theory.exact
  · exact Codec.plain_rereads inverse_manifestFile.exact
  · exact Codec.plain_rereads exact_manifestEntry
  · exact Codec.plain_rereads exact_manifest
  · exact Codec.plain_rereads inverse_bundle.exact

theorem recordTypes_reread : ∀ c ∈ recordTypes, c.Rereads := by
  simp only [recordTypes, List.forall_mem_cons, List.not_mem_nil, false_implies, implies_true,
    and_true]
  refine ⟨?_, ?_, ?_, ?_, ?_, ?_, ?_, ?_, ?_, ?_, ?_, ?_, ?_, ?_, ?_, ?_, ?_, ?_, ?_, ?_, ?_, ?_,
    ?_, ?_, ?_, ?_⟩
  · exact Codec.part_rereads Readers.AgreeBelow.paragraph PartsReread.paragraph
  · exact Codec.part_rereads Readers.AgreeBelow.equation PartsReread.equation
  · exact Codec.part_rereads Readers.AgreeBelow.statement PartsReread.statement
  · exact Codec.part_rereads Readers.AgreeBelow.listItem PartsReread.listItem
  · exact Codec.part_rereads Readers.AgreeBelow.listing PartsReread.listing
  · exact Codec.part_rereads Readers.AgreeBelow.tableCell PartsReread.tableCell
  · exact Codec.part_rereads Readers.AgreeBelow.tableRow PartsReread.tableRow
  · exact Codec.part_rereads Readers.AgreeBelow.table PartsReread.table
  · exact Codec.part_rereads Readers.AgreeBelow.codeBlock PartsReread.codeBlock
  · exact Codec.part_rereads Readers.AgreeBelow.image PartsReread.image
  · exact Codec.part_rereads Readers.AgreeBelow.diagram PartsReread.diagram
  · exact Codec.part_rereads Readers.AgreeBelow.collapsible PartsReread.collapsible
  · exact Codec.part_rereads Readers.AgreeBelow.gridItem PartsReread.gridItem
  · exact Codec.part_rereads Readers.AgreeBelow.grid PartsReread.grid
  · exact Codec.part_rereads Readers.AgreeBelow.column PartsReread.column
  · exact Codec.part_rereads Readers.AgreeBelow.columns PartsReread.columns
  · exact Codec.part_rereads Readers.AgreeBelow.quote PartsReread.quote
  · exact Codec.part_rereads Readers.AgreeBelow.alert PartsReread.alert
  · exact Codec.part_rereads Readers.AgreeBelow.component PartsReread.component
  · exact Codec.part_rereads Readers.AgreeBelow.panel PartsReread.panel
  · exact Codec.part_rereads Readers.AgreeBelow.sideBySide PartsReread.sideBySide
  · exact Codec.part_rereads Readers.AgreeBelow.overlayNote PartsReread.overlayNote
  · exact Codec.part_rereads Readers.AgreeBelow.overlay PartsReread.overlay
  · exact Codec.part_rereads Readers.AgreeBelow.sectionPart PartsReread.sectionPart
  · exact Codec.part_rereads Readers.AgreeBelow.footnote PartsReread.footnote
  · exact Codec.part_rereads Readers.AgreeBelow.glossaryEntry PartsReread.glossaryEntry

theorem unionTypes_reread : ∀ c ∈ unionTypes, c.Rereads := by
  simp only [unionTypes, List.forall_mem_cons, List.not_mem_nil, false_implies,
    implies_true, and_true]
  refine ⟨?_, ?_, ?_, ?_, ?_, ?_, ?_, ?_, ?_, ?_⟩
  · exact fun d => (partsReread d).inline
  · intro d
    have hlist := (partsReread d).inline.list
    simp only [← Inline.encodeList_eq] at hlist
    exact hlist
  · exact Codec.part_rereads Readers.AgreeBelow.target PartsReread.target
  · exact fun d => (partsReread d).block
  · exact fun d => (partsReread d).document
  · exact rereadBelow_arrangement
  · exact Codec.part_rereads Readers.AgreeBelow.panelLayout PartsReread.panelLayout
  · exact rereadBelow_controlKind
  · exact rereadBelow_control
  · exact rereadBelow_controlGroup

theorem schema_rereads {c : Codec} (hc : c ∈ schema) : c.Rereads := by
  simp only [schema, List.mem_append] at hc
  rcases hc with ((hc | hc) | hc) | hc
  · exact nameTypes_reread c hc
  · exact plainTypes_reread c hc
  · exact recordTypes_reread c hc
  · exact unionTypes_reread c hc

/-- A value that was read can be written and read again. The result is the same value exactly if no
union in it understands, once it is written as an object, what it has kept. Every kept value was
kept from a place of its own, and there an array stood if the union does understand the value
then. -/
theorem read_encode_read {c : Codec} (hc : c ∈ schema) {m : Manner} {j : Json} {v : c.Carrier}
    (h : c.decode m j = some v) :
    ∃ v', c.decode.read (c.encode v) = some v' ∧
      (v' = v ↔ ∀ k ∈ c.kept v, k.understood = false) ∧
      ∃ placed : List (Pointer × Kept), (placed.map Prod.snd).Perm (c.kept v) ∧
        (placed.map Prod.fst).Nodup ∧ ∀ p ∈ placed, p.2.StoodAt j p.1 := by
  obtain ⟨v', hv⟩ := schema_rereads hc (j.depth + 1) m j v (Nat.lt_succ_self _) h
  obtain ⟨placed, hperm, hnodup, hall⟩ := hv.origin
  exact ⟨v', hv.written .strict, hv.same, placed, hperm, hnodup, fun p hp => (hall p hp).2⟩

theorem blockCodec_mem : blockCodec ∈ schema := by
  simp [schema, unionTypes]

/-- A block that was kept from an array and is kept again, as its tag is not known. -/
theorem read_encode_read_kept :
    ∃ v', Block.decode.read (Block.encode (.unknown ⟨"Chart", some (.int 1)⟩)) = some v' ∧
      (v' = .unknown ⟨"Chart", some (.int 1)⟩ ↔
        ∀ k ∈ [(⟨.block, ⟨"Chart", some (.int 1)⟩⟩ : Kept)], k.understood = false) ∧
      ∃ placed : List (Pointer × Kept),
        (placed.map Prod.snd).Perm [⟨.block, ⟨"Chart", some (.int 1)⟩⟩] ∧
        (placed.map Prod.fst).Nodup ∧ ∀ p ∈ placed, p.2.StoodAt (.arr [.str "Chart", .int 1]) p.1 :=
  read_encode_read (c := blockCodec) (m := .strict)
    (j := .arr [.str "Chart", .int 1]) blockCodec_mem rfl

/-- A tag alone in an array is kept, and is the known block when it is read again. -/
theorem tag_in_array_not_reread :
    ∃ c ∈ schema, ∃ j v, c.decode.read j = some v ∧ c.decode.read (c.encode v) ≠ some v := by
  refine ⟨blockCodec, blockCodec_mem, .arr [.str "ThematicBreak"],
    Block.unknown ⟨"ThematicBreak", none⟩, rfl, ?_⟩
  have hread : blockCodec.decode.read (blockCodec.encode (Block.unknown ⟨"ThematicBreak", none⟩)) =
      some Block.thematicBreak := rfl
  rw [hread]
  intro heq
  cases heq

end Compendium
