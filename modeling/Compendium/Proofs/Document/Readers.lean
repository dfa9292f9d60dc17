import Compendium.Document.Decode
import Compendium.Proofs.Json.Locality

/-!
# The readers of documents at every level

Readers that agree below a depth build readers that agree one level deeper. So a level reads the
values that fit into it like every higher level, and `Readers.all`, which takes the level of each
value, is built from itself: proofs about reading need not mention levels any more.
-/

namespace Compendium

open Json

/-- The readers of union values agree where the readers of the known variants do. -/
theorem Unrecognized.agreeBelow_keep {α : Type} {d : Nat} {tags : List String}
    {known known' : Tagged → Option α} {other : Unrecognized → α}
    (h : ∀ whole t, t.Of whole → whole.depth ≤ d → known t = known' t) :
    AgreeBelow (d + 1) (keep tags known other) (keep tags known' other) := by
  intro m j hj
  unfold keep
  cases ht : tagged? tags .indexed j with
  | none => rfl
  | some t =>
    rw [Option.bind_some, Option.bind_some, h j t (of_tagged? ht) (by omega)]

namespace Readers

/-- The readers agree below a depth. -/
structure AgreeBelow (d : Nat) (r r' : Readers) : Prop where
  inline : Json.AgreeBelow d r.inline r'.inline
  block : Json.AgreeBelow d r.block r'.block
  document : Json.AgreeBelow d r.document r'.document

namespace AgreeBelow

variable {d : Nat} {r r' : Readers} (h : r.AgreeBelow d r')

include h

theorem inlines : Json.AgreeBelow d r.inlines r'.inlines :=
  h.inline.list

theorem blocks : Json.AgreeBelow d r.blocks r'.blocks :=
  h.block.list

theorem paragraph : Json.AgreeBelow d r.paragraph r'.paragraph := by
  refine agreeBelow_record fun whole f hf hd => ?_
  simp only [h.inlines.requiredField hf hd]

theorem equation : Json.AgreeBelow d r.equation r'.equation := by
  refine agreeBelow_record fun whole f hf hd => ?_
  simp only [h.inlines.optionalField hf hd]

theorem statement : Json.AgreeBelow d r.statement r'.statement := by
  refine agreeBelow_record fun whole f hf hd => ?_
  simp only [h.inlines.optionalField hf hd, h.blocks.defaultedField hf hd,
    h.blocks.optionalField hf hd]

theorem listItem : Json.AgreeBelow d r.listItem r'.listItem := by
  refine agreeBelow_record fun whole f hf hd => ?_
  simp only [h.blocks.defaultedField hf hd]

theorem listing : Json.AgreeBelow d r.listing r'.listing := by
  refine agreeBelow_record fun whole f hf hd => ?_
  simp only [h.listItem.list.requiredField hf hd]

theorem tableCell : Json.AgreeBelow d r.tableCell r'.tableCell := by
  refine agreeBelow_record fun whole f hf hd => ?_
  simp only [h.blocks.defaultedField hf hd]

theorem tableRow : Json.AgreeBelow d r.tableRow r'.tableRow := by
  refine agreeBelow_record fun whole f hf hd => ?_
  simp only [h.tableCell.list.requiredField hf hd]

theorem table : Json.AgreeBelow d r.table r'.table := by
  refine agreeBelow_record fun whole f hf hd => ?_
  simp only [h.inlines.optionalField hf hd, h.tableRow.list.optionalField hf hd,
    h.tableRow.list.defaultedField hf hd]

theorem codeBlock : Json.AgreeBelow d r.codeBlock r'.codeBlock := by
  refine agreeBelow_record fun whole f hf hd => ?_
  simp only [h.inlines.optionalField hf hd]

theorem image : Json.AgreeBelow d r.image r'.image := by
  refine agreeBelow_record fun whole f hf hd => ?_
  simp only [h.inlines.optionalField hf hd]

theorem diagram : Json.AgreeBelow d r.diagram r'.diagram := by
  refine agreeBelow_record fun whole f hf hd => ?_
  simp only [h.inlines.optionalField hf hd]

theorem collapsible : Json.AgreeBelow d r.collapsible r'.collapsible := by
  refine agreeBelow_record fun whole f hf hd => ?_
  simp only [h.inlines.requiredField hf hd, h.blocks.defaultedField hf hd]

theorem gridItem : Json.AgreeBelow d r.gridItem r'.gridItem := by
  refine agreeBelow_record fun whole f hf hd => ?_
  simp only [h.blocks.defaultedField hf hd]

theorem grid : Json.AgreeBelow d r.grid r'.grid := by
  refine agreeBelow_record fun whole f hf hd => ?_
  simp only [h.gridItem.list.requiredField hf hd]

theorem column : Json.AgreeBelow d r.column r'.column := by
  refine agreeBelow_record fun whole f hf hd => ?_
  simp only [h.blocks.defaultedField hf hd]

theorem columns : Json.AgreeBelow d r.columns r'.columns := by
  refine agreeBelow_record fun whole f hf hd => ?_
  simp only [h.column.list.requiredField hf hd]

theorem quote : Json.AgreeBelow d r.quote r'.quote := by
  refine agreeBelow_record fun whole f hf hd => ?_
  simp only [h.blocks.defaultedField hf hd, h.inlines.optionalField hf hd]

theorem alert : Json.AgreeBelow d r.alert r'.alert := by
  refine agreeBelow_record fun whole f hf hd => ?_
  simp only [h.inlines.optionalField hf hd, h.blocks.defaultedField hf hd]

theorem component : Json.AgreeBelow d r.component r'.component := by
  refine agreeBelow_record fun whole f hf hd => ?_
  simp only [h.blocks.optionalField hf hd]

theorem panel : Json.AgreeBelow d r.panel r'.panel := by
  refine agreeBelow_record fun whole f hf hd => ?_
  simp only [h.inlines.optionalField hf hd, h.blocks.defaultedField hf hd]

theorem sideBySide : Json.AgreeBelow d r.sideBySide r'.sideBySide := by
  refine agreeBelow_record fun whole f hf hd => ?_
  simp only [h.panel.requiredField hf hd]

theorem panelLayout : Json.AgreeBelow d r.panelLayout r'.panelLayout := by
  refine agreeBelow_record fun whole f hf hd => ?_
  simp only [h.panel.list.requiredField hf hd]

theorem overlayNote : Json.AgreeBelow d r.overlayNote r'.overlayNote := by
  refine agreeBelow_record fun whole f hf hd => ?_
  simp only [h.inlines.defaultedField hf hd]

theorem overlay : Json.AgreeBelow d r.overlay r'.overlay := by
  refine agreeBelow_record fun whole f hf hd => ?_
  simp only [h.blocks.defaultedField hf hd, h.overlayNote.list.defaultedField hf hd]

theorem sectionPart : Json.AgreeBelow d r.sectionPart r'.sectionPart := by
  refine agreeBelow_record fun whole f hf hd => ?_
  simp only [h.inlines.optionalField hf hd, h.blocks.defaultedField hf hd]

theorem footnote : Json.AgreeBelow d r.footnote r'.footnote := by
  refine agreeBelow_record fun whole f hf hd => ?_
  simp only [h.inlines.requiredField hf hd]

theorem glossaryEntry : Json.AgreeBelow d r.glossaryEntry r'.glossaryEntry := by
  refine agreeBelow_record fun whole f hf hd => ?_
  simp only [h.inlines.requiredField hf hd]

/-! ## The next level -/

theorem nextDocument : Json.AgreeBelow (d + 1) r.nextDocument r'.nextDocument := by
  refine agreeBelow_next (fun whole f hf hd => ?_) of_fields?
  simp only [h.sectionPart.list.defaultedField hf hd, h.inlines.optionalField hf hd,
    h.footnote.list.defaultedField hf hd, h.glossaryEntry.list.defaultedField hf hd]

theorem target : Json.AgreeBelow d r.target r'.target := by
  refine AgreeBelow.pred (Unrecognized.agreeBelow_keep fun whole t ht hd => ?_)
  simp only [knownTarget, h.document.payload ht hd]

theorem linkFields : Json.AgreeBelow d r.linkFields r'.linkFields := by
  refine agreeBelow_named fun whole f hf hd => ?_
  simp only [h.inlines.requiredField hf hd, h.target.requiredField hf hd]

theorem nextInline : Json.AgreeBelow (d + 1) r.nextInline r'.nextInline := by
  refine Unrecognized.agreeBelow_keep fun whole t ht hd => ?_
  simp only [knownInline, h.linkFields.payload ht hd]

theorem nextBlock : Json.AgreeBelow (d + 1) r.nextBlock r'.nextBlock := by
  refine Unrecognized.agreeBelow_keep fun whole t ht hd => ?_
  simp only [knownBlock, h.paragraph.payload ht hd, h.equation.payload ht hd,
    h.statement.payload ht hd, h.listing.payload ht hd, h.table.payload ht hd,
    h.codeBlock.payload ht hd, h.image.payload ht hd, h.diagram.payload ht hd,
    h.collapsible.payload ht hd, h.grid.payload ht hd, h.columns.payload ht hd,
    h.quote.payload ht hd, h.alert.payload ht hd, h.component.payload ht hd,
    h.sectionPart.payload ht hd, h.sideBySide.payload ht hd, h.panelLayout.payload ht hd,
    h.overlay.payload ht hd, h.document.payload ht hd]

end AgreeBelow

/-- Levels that are high enough for a depth agree below it. -/
theorem level_agreeBelow {d n n' : Nat} (hn : d ≤ n) (hn' : d ≤ n') :
    (level n).AgreeBelow d (level n') := by
  induction d generalizing n n' with
  | zero => exact ⟨fun _ _ h => by omega, fun _ _ h => by omega, fun _ _ h => by omega⟩
  | succ d ih =>
    obtain ⟨k, rfl⟩ : ∃ k, n = k + 1 := ⟨n - 1, by omega⟩
    obtain ⟨k', rfl⟩ : ∃ k', n' = k' + 1 := ⟨n' - 1, by omega⟩
    have h : (level k).AgreeBelow d (level k') := ih (by omega) (by omega)
    exact ⟨h.nextInline, h.nextBlock, h.nextDocument⟩

/-- The readers that take the level of each value. -/
def all : Readers := ⟨Inline.decode, Block.decode, Document.decode⟩

theorem level_agreeBelow_all (n : Nat) : (level n).AgreeBelow n all where
  inline m j hj := (level_agreeBelow hj (Nat.le_refl _)).inline m j (Nat.lt_succ_self _)
  block m j hj := (level_agreeBelow hj (Nat.le_refl _)).block m j (Nat.lt_succ_self _)
  document m j hj := (level_agreeBelow hj (Nat.le_refl _)).document m j (Nat.lt_succ_self _)

theorem all_inline : all.inline = all.nextInline := by
  funext m j
  exact (level_agreeBelow_all j.depth).nextInline m j (Nat.lt_succ_self _)

theorem all_block : all.block = all.nextBlock := by
  funext m j
  exact (level_agreeBelow_all j.depth).nextBlock m j (Nat.lt_succ_self _)

theorem all_document : all.document = all.nextDocument := by
  funext m j
  exact (level_agreeBelow_all j.depth).nextDocument m j (Nat.lt_succ_self _)

/-- A part of a document is read by the reader built from all levels. -/
theorem decodePart_eq {α : Type} {decoder : Readers → Decoder α}
    (h : ∀ {d r r'}, AgreeBelow d r r' → Json.AgreeBelow d (decoder r) (decoder r')) :
    decodePart decoder = decoder all := by
  funext m j
  exact h (level_agreeBelow_all (j.depth + 1)) m j (Nat.lt_succ_self _)

end Readers

end Compendium
