import Compendium.Proofs.Document.Kept

/-!
# Reading the parts of documents again

Every part is read again as `Reread` says: one lemma follows each reader, given that the inline
text, the blocks and the documents inside are read again in this way.
-/

namespace Compendium

open Json
open Option (bind_eq_bind bind_eq_some_iff pure_def some_inj)

/-! ## Lists and optional fields as they are written -/

theorem keptIn_all {α : Type} {partsList : List α → List Part} {parts : α → List Part} (l : List α)
    (hnil : partsList [] = [])
    (hcons : ∀ a l, partsList (a :: l) = parts a ++ partsList l) :
    keptIn (partsList l) = l.flatMap fun a => keptIn (parts a) := by
  induction l with
  | nil => rw [hnil, keptIn_nil, List.flatMap_nil]
  | cons a l ih => rw [hcons, keptIn_append, ih, List.flatMap_cons]

@[simp] theorem Inline.encodeList_eq : Inline.encodeList = List.map Inline.encode :=
  eq_map_of_cons rfl fun _ _ => rfl

@[simp] theorem Inline.keptIn_partsList (l : List Inline) :
    keptIn (Inline.partsList l) = l.flatMap fun a => keptIn (Inline.parts a) :=
  keptIn_all l rfl fun _ _ => rfl

@[simp] theorem Block.encodeList_eq : Block.encodeList = List.map Block.encode :=
  eq_map_of_cons rfl fun _ _ => rfl

@[simp] theorem Block.keptIn_partsList (l : List Block) :
    keptIn (Block.partsList l) = l.flatMap fun a => keptIn (Block.parts a) :=
  keptIn_all l rfl fun _ _ => rfl

@[simp] theorem Section.encodeList_eq : Section.encodeList = List.map Section.encode :=
  eq_map_of_cons rfl fun _ _ => rfl

@[simp] theorem Section.keptIn_partsList (l : List Section) :
    keptIn (Section.partsList l) = l.flatMap fun a => keptIn (Section.parts a) :=
  keptIn_all l rfl fun _ _ => rfl

@[simp] theorem Footnote.encodeList_eq : Footnote.encodeList = List.map Footnote.encode :=
  eq_map_of_cons rfl fun _ _ => rfl

@[simp] theorem Footnote.keptIn_partsList (l : List Footnote) :
    keptIn (Footnote.partsList l) = l.flatMap fun a => keptIn (Footnote.parts a) :=
  keptIn_all l rfl fun _ _ => rfl

@[simp] theorem GlossaryEntry.encodeList_eq :
    GlossaryEntry.encodeList = List.map GlossaryEntry.encode :=
  eq_map_of_cons rfl fun _ _ => rfl

@[simp] theorem GlossaryEntry.keptIn_partsList (l : List GlossaryEntry) :
    keptIn (GlossaryEntry.partsList l) = l.flatMap fun a => keptIn (GlossaryEntry.parts a) :=
  keptIn_all l rfl fun _ _ => rfl

@[simp] theorem ListItem.encodeList_eq : ListItem.encodeList = List.map ListItem.encode :=
  eq_map_of_cons rfl fun _ _ => rfl

@[simp] theorem ListItem.keptIn_partsList (l : List ListItem) :
    keptIn (ListItem.partsList l) = l.flatMap fun a => keptIn (ListItem.parts a) :=
  keptIn_all l rfl fun _ _ => rfl

@[simp] theorem TableCell.encodeList_eq : TableCell.encodeList = List.map TableCell.encode :=
  eq_map_of_cons rfl fun _ _ => rfl

@[simp] theorem TableCell.keptIn_partsList (l : List TableCell) :
    keptIn (TableCell.partsList l) = l.flatMap fun a => keptIn (TableCell.parts a) :=
  keptIn_all l rfl fun _ _ => rfl

@[simp] theorem TableRow.encodeList_eq : TableRow.encodeList = List.map TableRow.encode :=
  eq_map_of_cons rfl fun _ _ => rfl

@[simp] theorem TableRow.keptIn_partsList (l : List TableRow) :
    keptIn (TableRow.partsList l) = l.flatMap fun a => keptIn (TableRow.parts a) :=
  keptIn_all l rfl fun _ _ => rfl

@[simp] theorem GridItem.encodeList_eq : GridItem.encodeList = List.map GridItem.encode :=
  eq_map_of_cons rfl fun _ _ => rfl

@[simp] theorem GridItem.keptIn_partsList (l : List GridItem) :
    keptIn (GridItem.partsList l) = l.flatMap fun a => keptIn (GridItem.parts a) :=
  keptIn_all l rfl fun _ _ => rfl

@[simp] theorem Column.encodeList_eq : Column.encodeList = List.map Column.encode :=
  eq_map_of_cons rfl fun _ _ => rfl

@[simp] theorem Column.keptIn_partsList (l : List Column) :
    keptIn (Column.partsList l) = l.flatMap fun a => keptIn (Column.parts a) :=
  keptIn_all l rfl fun _ _ => rfl

@[simp] theorem Panel.encodeList_eq : Panel.encodeList = List.map Panel.encode :=
  eq_map_of_cons rfl fun _ _ => rfl

@[simp] theorem Panel.keptIn_partsList (l : List Panel) :
    keptIn (Panel.partsList l) = l.flatMap fun a => keptIn (Panel.parts a) :=
  keptIn_all l rfl fun _ _ => rfl

@[simp] theorem OverlayNote.encodeList_eq : OverlayNote.encodeList = List.map OverlayNote.encode :=
  eq_map_of_cons rfl fun _ _ => rfl

@[simp] theorem OverlayNote.keptIn_partsList (l : List OverlayNote) :
    keptIn (OverlayNote.partsList l) = l.flatMap fun a => keptIn (OverlayNote.parts a) :=
  keptIn_all l rfl fun _ _ => rfl

@[simp] theorem Inline.encodeOption_eq (name : String) (o : Option (List Inline)) :
    Inline.encodeOption name o = fieldIf name (o.map fun l => .arr (l.map Inline.encode)) := by
  cases o <;> simp [Inline.encodeOption, field, fieldIf]

@[simp] theorem Inline.keptIn_partsOption (o : Option (List Inline)) :
    keptIn (Inline.partsOption o) = o.toList.flatMap
      (List.flatMap fun a => keptIn (Inline.parts a)) := by
  cases o <;> simp [Inline.partsOption]

@[simp] theorem Block.encodeOption_eq (name : String) (o : Option (List Block)) :
    Block.encodeOption name o = fieldIf name (o.map fun l => .arr (l.map Block.encode)) := by
  cases o <;> simp [Block.encodeOption, field, fieldIf]

@[simp] theorem Block.keptIn_partsOption (o : Option (List Block)) :
    keptIn (Block.partsOption o) = o.toList.flatMap
      (List.flatMap fun a => keptIn (Block.parts a)) := by
  cases o <;> simp [Block.partsOption]

@[simp] theorem TableRow.encodeOption_eq (name : String) (o : Option (List TableRow)) :
    TableRow.encodeOption name o = fieldIf name (o.map fun l => .arr (l.map TableRow.encode)) := by
  cases o <;> simp [TableRow.encodeOption, field, fieldIf]

@[simp] theorem TableRow.keptIn_partsOption (o : Option (List TableRow)) :
    keptIn (TableRow.partsOption o) = o.toList.flatMap
      (List.flatMap fun a => keptIn (TableRow.parts a)) := by
  cases o <;> simp [TableRow.partsOption]

/-! ## Records -/

/-- Inline text, blocks and documents nested less deep than a bound are read again. -/
structure PartsReread (d : Nat) : Prop where
  inline : RereadBelow d Readers.all.inline Inline.encode fun i => keptIn i.parts
  block : RereadBelow d Readers.all.block Block.encode fun b => keptIn b.parts
  document : RereadBelow d Readers.all.document Document.encode fun d => keptIn d.parts

namespace PartsReread

open Readers

variable {d : Nat} (h : PartsReread d)

include h

theorem inlines : RereadBelow d all.inlines (fun l => .arr (l.map Inline.encode))
    (List.flatMap fun i => keptIn i.parts) :=
  h.inline.list

theorem blocks : RereadBelow d all.blocks (fun l => .arr (l.map Block.encode))
    (List.flatMap fun b => keptIn b.parts) :=
  h.block.list

section Fields

variable {whole : Json} {f : Fields} {i : Nat} {name : String} (hf : f.Of whole)
  (hd : whole.depth ≤ d)

include hf hd

/-- Blocks in a field that may be missing. -/
theorem blocksField {l : List Block} (hl : f.defaulted i name all.blocks [] = some l) :
    ∃ l', Reread all.blocks (fun l => .arr (l.map Block.encode))
      (l.flatMap fun b => keptIn b.parts) whole (Kept.Under [(i, name)]) l l' :=
  h.block.listField hf hd hl

/-- Inline text in a field that may be missing. -/
theorem inlinesField {l : List Inline} (hl : f.defaulted i name all.inlines [] = some l) :
    ∃ l', Reread all.inlines (fun l => .arr (l.map Inline.encode))
      (l.flatMap fun i => keptIn i.parts) whole (Kept.Under [(i, name)]) l l' :=
  h.inline.listField hf hd hl

/-- Inline text in a field that may be missing or null. -/
theorem captionField {o : Option (List Inline)} (ho : f.optional i name all.inlines = some o) :
    ∃ o', Reread (Decode.optional all.inlines) (ofOption fun l => .arr (l.map Inline.encode))
      (o.toList.flatMap (List.flatMap fun i => keptIn i.parts)) whole
        (Kept.Under [(i, name)]) o o' :=
  h.inlines.optionalField hf hd (by simp) ho

end Fields

theorem paragraph : RereadBelow d all.paragraph Paragraph.encode fun p => keptIn p.parts := by
  refine rereadBelow_record fun whole f a hf hd ha => ?_
  simp only [bind_eq_bind, bind_eq_some_iff, pure_def, some_inj] at ha
  obtain ⟨segments, hsegments, alignment, _, rfl⟩ := ha
  obtain ⟨segments', rsegments⟩ := h.inlines.requiredField hf hd hsegments
  refine rsegments.field (Paragraph.mk · alignment) (by simp)
    (by simp [Paragraph.parts]) fun m => ?_
  simp [Paragraph.encode, rsegments.written]

theorem equation : RereadBelow d all.equation Equation.encode fun e => keptIn e.parts := by
  refine rereadBelow_record fun whole f a hf hd ha => ?_
  simp only [bind_eq_bind, bind_eq_some_iff, pure_def, some_inj] at ha
  obtain ⟨formula, _, label, _, caption, hcaption, rfl⟩ := ha
  obtain ⟨caption', rcaption⟩ := h.captionField hf hd hcaption
  refine rcaption.field (Equation.mk formula label ·) (by simp)
    (by simp [Equation.parts]) fun m => ?_
  simp [Equation.encode, rcaption.written]

theorem statement : RereadBelow d all.statement Statement.encode fun s => keptIn s.parts := by
  refine rereadBelow_record fun whole f a hf hd ha => ?_
  simp only [bind_eq_bind, bind_eq_some_iff, pure_def, some_inj] at ha
  obtain ⟨kind, _, number, _, title, htitle, body, hbody, proof, hproof, rfl⟩ := ha
  obtain ⟨title', rtitle⟩ := h.captionField hf hd htitle
  obtain ⟨body', rbody⟩ := h.blocksField hf hd hbody
  obtain ⟨proof', rproof⟩ := h.blocks.optionalField hf hd (by simp) hproof
  refine ⟨⟨kind, number, title', body', proof'⟩, fun m => ?_, ?_, ?_⟩
  · simp [Statement.encode, rtitle.written, rbody.written, rproof.written]
  · simp [Statement.parts, rtitle.same, rbody.same, rproof.same]
  · exact (rtitle.origin.fields (rbody.origin.fields rproof.origin (by simp)) (by simp)).perm
      (by simp [Statement.parts])

theorem listItem : RereadBelow d all.listItem ListItem.encode fun l => keptIn l.parts := by
  refine rereadBelow_record fun whole f a hf hd ha => ?_
  simp only [bind_eq_bind, bind_eq_some_iff, pure_def, some_inj] at ha
  obtain ⟨content, hcontent, rfl⟩ := ha
  obtain ⟨content', rcontent⟩ := h.blocksField hf hd hcontent
  refine rcontent.field ListItem.mk (by simp) (by simp [ListItem.parts]) fun m => ?_
  simp [ListItem.encode, rcontent.written]

theorem listing : RereadBelow d all.listing Listing.encode fun l => keptIn l.parts := by
  refine rereadBelow_record fun whole f a hf hd ha => ?_
  simp only [bind_eq_bind, bind_eq_some_iff, pure_def, some_inj] at ha
  obtain ⟨items, hitems, style, _, startIndex, hstartIndex, rfl⟩ := ha
  obtain ⟨items', ritems⟩ := h.listItem.list.requiredField hf hd hitems
  have startIndexWritten := exact_word32.optionalField (by simp [nat]) hstartIndex
  refine ritems.field (Listing.mk · style startIndex) (by simp)
    (by simp [Listing.parts]) fun m => ?_
  simp [Listing.encode, ritems.written, startIndexWritten]

theorem tableCell : RereadBelow d all.tableCell TableCell.encode fun t => keptIn t.parts := by
  refine rereadBelow_record fun whole f a hf hd ha => ?_
  simp only [bind_eq_bind, bind_eq_some_iff, pure_def, some_inj] at ha
  obtain ⟨content, hcontent, colSpan, hcolSpan, rowSpan, hrowSpan, alignment, _, isHeader, _,
      rfl⟩ := ha
  obtain ⟨content', rcontent⟩ := h.blocksField hf hd hcontent
  have colSpanWritten := exact_word32.optionalField (by simp [nat]) hcolSpan
  have rowSpanWritten := exact_word32.optionalField (by simp [nat]) hrowSpan
  refine rcontent.field (TableCell.mk · colSpan rowSpan alignment isHeader) (by simp)
    (by simp [TableCell.parts]) fun m => ?_
  simp [TableCell.encode, rcontent.written, colSpanWritten, rowSpanWritten]

theorem tableRow : RereadBelow d all.tableRow TableRow.encode fun t => keptIn t.parts := by
  refine rereadBelow_record fun whole f a hf hd ha => ?_
  simp only [bind_eq_bind, bind_eq_some_iff, pure_def, some_inj] at ha
  obtain ⟨cells, hcells, rfl⟩ := ha
  obtain ⟨cells', rcells⟩ := h.tableCell.list.requiredField hf hd hcells
  refine rcells.field TableRow.mk (by simp) (by simp [TableRow.parts]) fun m => ?_
  simp [TableRow.encode, rcells.written]

theorem table : RereadBelow d all.table Table.encode fun t => keptIn t.parts := by
  refine rereadBelow_record fun whole f a hf hd ha => ?_
  simp only [bind_eq_bind, bind_eq_some_iff, pure_def, some_inj] at ha
  obtain ⟨caption, hcaption, headerRows, hheaderRows, bodyRows, hbodyRows, footerRows,
      hfooterRows, rfl⟩ := ha
  obtain ⟨caption', rcaption⟩ := h.captionField hf hd hcaption
  obtain ⟨headerRows', rheaderRows⟩ := h.tableRow.list.optionalField hf hd (by simp) hheaderRows
  obtain ⟨bodyRows', rbodyRows⟩ := h.tableRow.listField hf hd hbodyRows
  obtain ⟨footerRows', rfooterRows⟩ := h.tableRow.list.optionalField hf hd (by simp) hfooterRows
  refine ⟨⟨caption', headerRows', bodyRows', footerRows'⟩, fun m => ?_, ?_, ?_⟩
  · simp [Table.encode, rcaption.written, rheaderRows.written, rbodyRows.written,
      rfooterRows.written]
  · simp [Table.parts, rcaption.same, rheaderRows.same, rbodyRows.same, rfooterRows.same]
  · exact (rcaption.origin.fields (rheaderRows.origin.fields (rbodyRows.origin.fields
      rfooterRows.origin (by simp)) (by simp)) (by simp)).perm (by simp [Table.parts])

theorem codeBlock : RereadBelow d all.codeBlock CodeBlock.encode fun c => keptIn c.parts := by
  refine rereadBelow_record fun whole f a hf hd ha => ?_
  simp only [bind_eq_bind, bind_eq_some_iff, pure_def, some_inj] at ha
  obtain ⟨code, _, language, _, showLineNumbers, _, caption, hcaption, rfl⟩ := ha
  obtain ⟨caption', rcaption⟩ := h.captionField hf hd hcaption
  refine rcaption.field (CodeBlock.mk code language showLineNumbers ·) (by simp)
    (by simp [CodeBlock.parts]) fun m => ?_
  simp [CodeBlock.encode, rcaption.written]

theorem image : RereadBelow d all.image Image.encode fun i => keptIn i.parts := by
  refine rereadBelow_record fun whole f a hf hd ha => ?_
  simp only [bind_eq_bind, bind_eq_some_iff, pure_def, some_inj] at ha
  obtain ⟨src, _, alt, _, caption, hcaption, width, _, height, _, rfl⟩ := ha
  obtain ⟨caption', rcaption⟩ := h.captionField hf hd hcaption
  refine rcaption.field (Image.mk src alt · width height) (by simp)
    (by simp [Image.parts]) fun m => ?_
  simp [Image.encode, rcaption.written]

theorem diagram : RereadBelow d all.diagram Diagram.encode fun x => keptIn x.parts := by
  refine rereadBelow_record fun whole f a hf hd ha => ?_
  simp only [bind_eq_bind, bind_eq_some_iff, pure_def, some_inj] at ha
  obtain ⟨id, _, kind, _, data, _, caption, hcaption, rfl⟩ := ha
  obtain ⟨caption', rcaption⟩ := h.captionField hf hd hcaption
  refine rcaption.field (Diagram.mk id kind data ·) (by simp) (by simp [Diagram.parts]) fun m => ?_
  simp [Diagram.encode, rcaption.written]

theorem collapsible : RereadBelow d all.collapsible Collapsible.encode fun c => keptIn c.parts := by
  refine rereadBelow_record fun whole f a hf hd ha => ?_
  simp only [bind_eq_bind, bind_eq_some_iff, pure_def, some_inj] at ha
  obtain ⟨id, _, summary, hsummary, content, hcontent, initiallyCollapsed, _, rfl⟩ := ha
  obtain ⟨summary', rsummary⟩ := h.inlines.requiredField hf hd hsummary
  obtain ⟨content', rcontent⟩ := h.blocksField hf hd hcontent
  refine ⟨⟨id, summary', content', initiallyCollapsed⟩, fun m => ?_, ?_, ?_⟩
  · simp [Collapsible.encode, rsummary.written, rcontent.written]
  · simp [Collapsible.parts, rsummary.same, rcontent.same]
  · exact (rsummary.origin.fields rcontent.origin (by simp)).perm (by simp [Collapsible.parts])

theorem gridItem : RereadBelow d all.gridItem GridItem.encode fun g => keptIn g.parts := by
  refine rereadBelow_record fun whole f a hf hd ha => ?_
  simp only [bind_eq_bind, bind_eq_some_iff, pure_def, some_inj] at ha
  obtain ⟨content, hcontent, column, _, row, _, rfl⟩ := ha
  obtain ⟨content', rcontent⟩ := h.blocksField hf hd hcontent
  refine rcontent.field (GridItem.mk · column row) (by simp) (by simp [GridItem.parts]) fun m => ?_
  simp [GridItem.encode, rcontent.written]

theorem grid : RereadBelow d all.grid Grid.encode fun g => keptIn g.parts := by
  refine rereadBelow_record fun whole f a hf hd ha => ?_
  simp only [bind_eq_bind, bind_eq_some_iff, pure_def, some_inj] at ha
  obtain ⟨items, hitems, columns, _, rows, _, gap, _, rfl⟩ := ha
  obtain ⟨items', ritems⟩ := h.gridItem.list.requiredField hf hd hitems
  refine ritems.field (Grid.mk · columns rows gap) (by simp) (by simp [Grid.parts]) fun m => ?_
  simp [Grid.encode, ritems.written]

theorem column : RereadBelow d all.column Column.encode fun c => keptIn c.parts := by
  refine rereadBelow_record fun whole f a hf hd ha => ?_
  simp only [bind_eq_bind, bind_eq_some_iff, pure_def, some_inj] at ha
  obtain ⟨content, hcontent, width, _, rfl⟩ := ha
  obtain ⟨content', rcontent⟩ := h.blocksField hf hd hcontent
  refine rcontent.field (Column.mk · width) (by simp) (by simp [Column.parts]) fun m => ?_
  simp [Column.encode, rcontent.written]

theorem columns : RereadBelow d all.columns Columns.encode fun c => keptIn c.parts := by
  refine rereadBelow_record fun whole f a hf hd ha => ?_
  simp only [bind_eq_bind, bind_eq_some_iff, pure_def, some_inj] at ha
  obtain ⟨columns, hcolumns, gap, _, rfl⟩ := ha
  obtain ⟨columns', rcolumns⟩ := h.column.list.requiredField hf hd hcolumns
  refine rcolumns.field (Columns.mk · gap) (by simp) (by simp [Columns.parts]) fun m => ?_
  simp [Columns.encode, rcolumns.written]

theorem quote : RereadBelow d all.quote Quote.encode fun q => keptIn q.parts := by
  refine rereadBelow_record fun whole f a hf hd ha => ?_
  simp only [bind_eq_bind, bind_eq_some_iff, pure_def, some_inj] at ha
  obtain ⟨content, hcontent, attribution, hattribution, rfl⟩ := ha
  obtain ⟨content', rcontent⟩ := h.blocksField hf hd hcontent
  obtain ⟨attribution', rattribution⟩ := h.captionField hf hd hattribution
  refine ⟨⟨content', attribution'⟩, fun m => ?_, ?_, ?_⟩
  · simp [Quote.encode, rcontent.written, rattribution.written]
  · simp [Quote.parts, rcontent.same, rattribution.same]
  · exact (rcontent.origin.fields rattribution.origin (by simp)).perm (by simp [Quote.parts])

theorem alert : RereadBelow d all.alert Alert.encode fun a => keptIn a.parts := by
  refine rereadBelow_record fun whole f a hf hd ha => ?_
  simp only [bind_eq_bind, bind_eq_some_iff, pure_def, some_inj] at ha
  obtain ⟨kind, _, title, htitle, content, hcontent, rfl⟩ := ha
  obtain ⟨title', rtitle⟩ := h.captionField hf hd htitle
  obtain ⟨content', rcontent⟩ := h.blocksField hf hd hcontent
  refine ⟨⟨kind, title', content'⟩, fun m => ?_, ?_, ?_⟩
  · simp [Alert.encode, rtitle.written, rcontent.written]
  · simp [Alert.parts, rtitle.same, rcontent.same]
  · exact (rtitle.origin.fields rcontent.origin (by simp)).perm (by simp [Alert.parts])

theorem component : RereadBelow d all.component Component.encode fun c => keptIn c.parts := by
  refine rereadBelow_record fun whole f a hf hd ha => ?_
  simp only [bind_eq_bind, bind_eq_some_iff, pure_def, some_inj] at ha
  obtain ⟨name, _, props, _, fallback, hfallback, rfl⟩ := ha
  obtain ⟨fallback', rfallback⟩ := h.blocks.optionalField hf hd (by simp) hfallback
  refine rfallback.field (Component.mk name props ·) (by simp)
    (by simp [Component.parts]) fun m => ?_
  simp [Component.encode, rfallback.written]

theorem panel : RereadBelow d all.panel Panel.encode fun p => keptIn p.parts := by
  refine rereadBelow_record fun whole f a hf hd ha => ?_
  simp only [bind_eq_bind, bind_eq_some_iff, pure_def, some_inj] at ha
  obtain ⟨id, _, title, htitle, content, hcontent, initiallyVisible, _, rfl⟩ := ha
  obtain ⟨title', rtitle⟩ := h.captionField hf hd htitle
  obtain ⟨content', rcontent⟩ := h.blocksField hf hd hcontent
  refine ⟨⟨id, title', content', initiallyVisible⟩, fun m => ?_, ?_, ?_⟩
  · simp [Panel.encode, rtitle.written, rcontent.written]
  · simp [Panel.parts, rtitle.same, rcontent.same]
  · exact (rtitle.origin.fields rcontent.origin (by simp)).perm (by simp [Panel.parts])

theorem sideBySide : RereadBelow d all.sideBySide SideBySide.encode fun s => keptIn s.parts := by
  refine rereadBelow_record fun whole f a hf hd ha => ?_
  simp only [bind_eq_bind, bind_eq_some_iff, pure_def, some_inj] at ha
  obtain ⟨left, hleft, right, hright, widths, _, rfl⟩ := ha
  obtain ⟨left', rleft⟩ := h.panel.requiredField hf hd hleft
  obtain ⟨right', rright⟩ := h.panel.requiredField hf hd hright
  refine ⟨⟨left', right', widths⟩, fun m => ?_, ?_, ?_⟩
  · simp [SideBySide.encode, rleft.written, rright.written]
  · simp [SideBySide.parts, rleft.same, rright.same]
  · exact (rleft.origin.fields rright.origin (by simp)).perm (by simp [SideBySide.parts])

theorem overlayNote : RereadBelow d all.overlayNote OverlayNote.encode fun o => keptIn o.parts := by
  refine rereadBelow_record fun whole f a hf hd ha => ?_
  simp only [bind_eq_bind, bind_eq_some_iff, pure_def, some_inj] at ha
  obtain ⟨id, _, kind, _, content, hcontent, position, _, target, _, rfl⟩ := ha
  obtain ⟨content', rcontent⟩ := h.inlinesField hf hd hcontent
  refine rcontent.field (OverlayNote.mk id kind · position target) (by simp)
    (by simp [OverlayNote.parts]) fun m => ?_
  simp [OverlayNote.encode, rcontent.written]

theorem overlay : RereadBelow d all.overlay Overlay.encode fun o => keptIn o.parts := by
  refine rereadBelow_record fun whole f a hf hd ha => ?_
  simp only [bind_eq_bind, bind_eq_some_iff, pure_def, some_inj] at ha
  obtain ⟨id, _, base, hbase, annotations, hannotations, rfl⟩ := ha
  obtain ⟨base', rbase⟩ := h.blocksField hf hd hbase
  obtain ⟨annotations', rannotations⟩ := h.overlayNote.listField hf hd hannotations
  refine ⟨⟨id, base', annotations'⟩, fun m => ?_, ?_, ?_⟩
  · simp [Overlay.encode, rbase.written, rannotations.written]
  · simp [Overlay.parts, rbase.same, rannotations.same]
  · exact (rbase.origin.fields rannotations.origin (by simp)).perm (by simp [Overlay.parts])

omit h in
theorem inverse_metadata : Inverse (Decode.optional (Decode.list Decode.stringPair))
    (ofOption fun pairs => .arr (pairs.map encodePair)) :=
  inverse_stringPair.list.optional (by simp)

theorem sectionPart : RereadBelow d all.sectionPart Section.encode fun s => keptIn s.parts := by
  refine rereadBelow_record fun whole f a hf hd ha => ?_
  simp only [bind_eq_bind, bind_eq_some_iff, pure_def, some_inj] at ha
  obtain ⟨id, _, title, htitle, content, hcontent, metadata, hmetadata, display, _, rfl⟩ := ha
  obtain ⟨title', rtitle⟩ := h.captionField hf hd htitle
  obtain ⟨content', rcontent⟩ := h.blocksField hf hd hcontent
  have metadataWritten := fun m => inverse_metadata m metadata
  refine ⟨⟨id, title', content', metadata, display⟩, fun m => ?_, ?_, ?_⟩
  · simp [Section.encode, rtitle.written, rcontent.written, metadataWritten]
  · simp [Section.parts, Part.kept, rtitle.same, rcontent.same]
  · exact (rtitle.origin.fields rcontent.origin (by simp)).perm (by simp [Section.parts, Part.kept])

theorem footnote : RereadBelow d all.footnote Footnote.encode fun x => keptIn x.parts := by
  refine rereadBelow_record fun whole f a hf hd ha => ?_
  simp only [bind_eq_bind, bind_eq_some_iff, pure_def, some_inj] at ha
  obtain ⟨id, _, content, hcontent, rfl⟩ := ha
  obtain ⟨content', rcontent⟩ := h.inlines.requiredField hf hd hcontent
  refine rcontent.field (Footnote.mk id ·) (by simp) (by simp [Footnote.parts]) fun m => ?_
  simp [Footnote.encode, rcontent.written]

theorem glossaryEntry :
    RereadBelow d all.glossaryEntry GlossaryEntry.encode fun g => keptIn g.parts := by
  refine rereadBelow_record fun whole f a hf hd ha => ?_
  simp only [bind_eq_bind, bind_eq_some_iff, pure_def, some_inj] at ha
  obtain ⟨term, _, definition, hdefinition, rfl⟩ := ha
  obtain ⟨definition', rdefinition⟩ := h.inlines.requiredField hf hd hdefinition
  refine rdefinition.field (GlossaryEntry.mk term ·) (by simp)
    (by simp [GlossaryEntry.parts]) fun m => ?_
  simp [GlossaryEntry.encode, rdefinition.written]

end PartsReread

end Compendium
