import Compendium.Proofs.Document.Coverage

/-!
# A block that is not understood spoils nothing around it

An object with any tag or none is read as a block, understood or kept. Where it is put in the place
of another block of a document, the document is read as before, with that block in that place.
-/

namespace Compendium

open Json
open Readers (all)

/-! ## Objects as blocks -/

/-- The tag of an object, empty if there is none. One that is no string does not count. -/
def Json.tagOf? (fields : List (String × Json)) : Option String :=
  match Dict.get? fields "type" with
  | none => some ""
  | some j => j.str?

def Json.nonNull? : Option Json → Option Json
  | some .null => none
  | content => content

/-- The block that an object with a tag stands for: a known one, or else a kept one with the tag and
the content. -/
def Block.ofTagged (tag : String) (fields : List (String × Json)) : Block :=
  let content := Dict.get? fields "content"
  (all.knownBlock ⟨tag, content, .lenient⟩).getD (.unknown ⟨tag, nonNull? content⟩)

theorem keeps_tagged {fields : List (String × Json)} {tag : String} (h : tagOf? fields = some tag)
    (m : Manner) :
    Unrecognized.decode m (.obj fields) = some ⟨tag, nonNull? (Dict.get? fields "content")⟩ := by
  have htag : (Dict.get? fields "type").elim (some "") (Decode.string m) = some tag := by
    rw [tagOf?] at h
    split at h
    next hnone => rwa [hnone]
    next j hsome => rwa [hsome]
  have hcontent : optionalValue Decode.any m (Dict.get? fields "content") =
      some (nonNull? (Dict.get? fields "content")) := by
    cases Dict.get? fields "content" with
    | none => rfl
    | some j => cases j <;> rfl
  simp [Unrecognized.decode, htag, hcontent]

theorem knownBlock_untagged (content : Option Json) (m : Manner) :
    all.knownBlock ⟨"", content, m⟩ = none :=
  rfl

theorem decode_tagged {fields : List (String × Json)} {tag : String} (h : tagOf? fields = some tag)
    (m : Manner) : Block.decode m (.obj fields) = some (.ofTagged tag fields) := by
  show all.block m (.obj fields) = _
  rw [Readers.all_block, Readers.nextBlock, Unrecognized.keep, keeps_tagged h, Block.ofTagged]
  rw [tagOf?] at h
  split at h
  next hnone =>
    cases h
    simp [tagged?, hnone, knownBlock_untagged]
  next j hsome =>
    cases j with
    | str s =>
      cases h
      simp only [tagged?, hsome, Option.bind_some, name?, Option.map_some]
      cases all.knownBlock ⟨tag, Dict.get? fields "content", .lenient⟩ <;> rfl
    | _ => cases h

/-! ## Replaced blocks -/

/-- Every object whose tag is a string or missing is read as a block, known or kept, wherever a
block is read. Every block of a document is at the end of a pointer that leads to it past known
variants only. Where such a pointer leads, the object changes the document in that one place. -/
theorem replaced_block_stays_local :
    (∀ fields tag, tagOf? fields = some tag →
      ∀ m, Block.decode m (.obj fields) = some (.ofTagged tag fields)) ∧
    (∀ j d b, Document.decode.read j = some d → Part.block b ∈ d.parts →
      ∃ pointer, Leads Document.decode .strict j pointer ∧
        (j.at? pointer).bind Block.decode.read = some b) ∧
    ∀ j pointer d, Leads Document.decode .strict j pointer → Document.decode.read j = some d →
      ∃ place old, Place pointer place ∧ Function.Injective place ∧
        (j.at? pointer).bind Block.decode.read = some old ∧ d = place old ∧
        ∀ fields tag, tagOf? fields = some tag →
          Document.decode.read (j.replaceAt (.obj fields) pointer) =
            some (place (.ofTagged tag fields)) := by
  refine ⟨fun fields tag htag m => decode_tagged htag m, fun j d b hd hb => Document.pointsTo hd hb,
    fun j pointer d hleads hd => ?_⟩
  obtain ⟨place, old, hplace, hfound, hwhole, hreplaced⟩ := hleads.holds hd
  refine ⟨place, old, hplace, hplace.injective, hfound, hwhole, fun fields tag htag => ?_⟩
  exact hreplaced _ _ (decode_tagged htag .strict)

/-- A thematic break, quoted in the only section of a document. The quotation is written as an
array. -/
def quotedBreak : Json :=
  .obj [("body", .arr [.obj [("content", .arr [.arr [.str "QuoteBlock", .obj [("content",
    .arr [.obj [("type", .str "ThematicBreak")]])]]]), ("id", .str "s")]]),
    ("document_type", .str "Article"), ("id", .str "d"), ("title", .str "t")]

def toBreak : Pointer :=
  [.field "body", .item 0, .field "content", .item 0, .item 1, .field "content", .item 0]

theorem quotedBreak_leads : Leads Document.decode .strict quotedBreak toBreak := by
  have hquote : ⟨"QuoteBlock", all.quote, .quote, Quote.parts⟩ ∈ blockVariants := by
    simp [blockVariants]
  refine @Leads.field documentShape _ _ _ _ _ _ documentShape_mem
    (.tail _ (.head _)) (.inl rfl) rfl ?_
  refine .item rfl ?_
  refine @Leads.field sectionShape _ _ _ _ _ _ (by simp [shapes])
    (.tail _ (.head _)) (.inl rfl) rfl ?_
  refine .item rfl ?_
  refine @Leads.variant blockUnion _ _ _ _ _ _ _ (by simp [unions]) hquote rfl (by decide +kernel)
    (.inr rfl) rfl ?_
  refine @Leads.field quoteShape _ _ _ _ _ _ (by simp [shapes]) (.head _) (.inl rfl) rfl ?_
  exact .item rfl .here

/-- With an object of a tag that nobody knows in the place of the break, the document still has its
section and its quotation, and in it a block that keeps the object. -/
theorem replaced_block_stays_local_quotedBreak :
    ∃ d place, Document.decode.read quotedBreak = some d ∧
      Leads Document.decode .strict quotedBreak toBreak ∧ Place toBreak place ∧
      d = place .thematicBreak ∧ Document.decode.read
          (quotedBreak.replaceAt (.obj [("content", .int 1), ("type", .str "Hologram")]) toBreak) =
        some (place (.unknown ⟨"Hologram", some (.int 1)⟩)) := by
  have hsome : (Document.decode.read quotedBreak).isSome = true := by decide +kernel
  obtain ⟨d, hd⟩ := Option.isSome_iff_exists.mp hsome
  obtain ⟨place, old, hplace, -, hfound, hwhole, hreplaced⟩ :=
    replaced_block_stays_local.2.2 quotedBreak toBreak d quotedBreak_leads hd
  have hold : (quotedBreak.at? toBreak).bind Block.decode.read = some .thematicBreak := rfl
  cases hold.symm.trans hfound
  exact ⟨d, place, hd, quotedBreak_leads, hplace, hwhole, hreplaced _ "Hologram" rfl⟩

end Compendium
