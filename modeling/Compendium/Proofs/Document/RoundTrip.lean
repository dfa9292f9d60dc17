import Compendium.Proofs.Document.Reread

/-!
# Documents are read again at every depth

The unions are read again variant by variant, and with them documents, by induction on how deep
values are nested.
-/

namespace Compendium

open Json
open Option (bind_eq_bind bind_eq_some_iff pure_def some_inj)

@[simp] theorem bare_eq_some_iff {α : Type} {t : Tagged} {a b : α} :
    t.bare a = some b ↔ (t.content = none ∨ t.content = some .null) ∧ a = b := by
  unfold Tagged.bare
  split <;> simp_all

/-! ## Variants -/

section Variants

variable {α : Type} {d : Nat} {encode : α → Json} {kept : α → List Kept} {whole : Json}
variable {tags : List String} {known : Tagged → Option α} {other : Unrecognized → α} {t : Tagged}
  (tag : String) {a : α}

/-- A variant without content is read again as it is. -/
theorem reread_bare {b : α} (hknown : known ⟨tag, none, .lenient⟩ = some b)
    (hencode : encode b = variant tag none) (hkept : kept b = []) (ha : t.bare b = some a) :
    Rereads (Unrecognized.keep tags known other) encode (kept a) whole a := by
  obtain ⟨_, rfl⟩ := bare_eq_some_iff.mp ha
  refine ⟨b, fun m => ?_, ?_, ?_⟩
  · rw [hencode]
    exact keep_variant hknown m
  · simp [hkept]
  · simp [hkept]

/-- A variant is read again if its content is. -/
theorem reread_payload {β : Type} {read : Decoder β} {encodeContent : β → Json}
    {keptContent : β → List Kept} (h : RereadBelow d read encodeContent keptContent)
    {make : β → α} (ht : t.Of whole) (hd : whole.depth ≤ d)
    (ha : (t.payload read).map make = some a)
    (hmake : ∀ x y, make x = make y → x = y := by rintro _ _ ⟨⟩; rfl)
    (hknown : ∀ j, known ⟨tag, some j, .lenient⟩ = (read .lenient j).map make := by intro; rfl)
    (hencode : ∀ x, encode (make x) = variant tag (some (encodeContent x)) := by intro; rfl)
    (hkept : ∀ x, kept (make x) = keptContent x := by intro; rfl) :
    Rereads (Unrecognized.keep tags known other) encode (kept a) whole a := by
  obtain ⟨x, hx, rfl⟩ := Option.map_eq_some_iff.mp ha
  obtain ⟨j, hj, hread⟩ := bind_eq_some_iff.mp hx
  obtain ⟨y, hy⟩ := h _ j x (Nat.lt_of_lt_of_le (ht.depth_lt hj) hd) hread
  refine (hy.inField (ht j hj)).field make hmake (hkept x) fun m => ?_
  rw [hencode]
  exact keep_variant (by rw [hknown, hy.written, Option.map_some]) m

/-- A variant with named fields is read again field by field. -/
theorem reread_named {k : Fields → Option α} (ht : t.Of whole) (hd : whole.depth ≤ d)
    (hknown : ∀ j, known ⟨tag, some j, .lenient⟩ = namedFields? .lenient j >>= k)
    (h : ∀ content f, f.Of content → content.depth ≤ d → k f = some a →
      ∃ b fields, encode a = variant tag (some (.obj fields)) ∧
        k (.named .lenient fields) = some b ∧
        (b = a ↔ Kept.Settled (kept a)) ∧ Kept.Placed content (fun _ => True) (kept a))
    (ha : t.payload (fun m j => namedFields? m j >>= k) = some a) :
    Rereads (Unrecognized.keep tags known other) encode (kept a) whole a := by
  obtain ⟨j, hj, hread⟩ := bind_eq_some_iff.mp ha
  obtain ⟨f, hf, hk⟩ := bind_eq_some_iff.mp hread
  obtain ⟨s, -, hs⟩ := ht j hj
  have hdepth := depth_of_child? hs
  obtain ⟨b, fields, hencode, hb, hsame, horigin⟩ := h j f (of_namedFields? hf) (by omega) hk
  refine ⟨b, fun m => ?_, hsame, (horigin.below hs).perm (.refl _)⟩
  rw [hencode]
  exact keep_variant (by rw [hknown]; exact hb) m

/-- A variant with named fields that keeps nothing is read again as it is. -/
theorem reread_plain {k : Fields → Option α} (ht : t.Of whole) (hd : whole.depth ≤ d)
    (hknown : ∀ j, known ⟨tag, some j, .lenient⟩ = namedFields? .lenient j >>= k)
    (h : ∀ f, k f = some a → kept a = [] ∧
      ∃ fields, encode a = variant tag (some (.obj fields)) ∧ k (.named .lenient fields) = some a)
    (ha : t.payload (fun m j => namedFields? m j >>= k) = some a) :
    Rereads (Unrecognized.keep tags known other) encode (kept a) whole a := by
  refine reread_named tag ht hd hknown (fun _ f _ _ hk => ?_) ha
  obtain ⟨hkept, fields, hencode, hread⟩ := h f hk
  exact ⟨a, fields, hencode, hread, by simp [hkept], by simp [hkept]⟩

end Variants

/-! ## Arrangements and controls -/

theorem rereadBelow_arrangement (d : Nat) :
    RereadBelow d PanelArrangement.decode PanelArrangement.encode PanelArrangement.kept := by
  refine RereadBelow.pred (rereadBelow_keep .arrangement (fun _ => rfl) (fun _ => rfl)
    (fun _ => rfl) ?_ (fun _ _ => rfl) ?_ fun whole t a ht hd ha => ?_)
  · intro t u hu
    unfold PanelArrangement.decodeKnown at hu
    split at hu <;> simp [Tagged.payload, bind_eq_some_iff] at hu
  · intro tag hnull
    unfold PanelArrangement.decodeKnown at hnull ⊢
    split at hnull <;> simp_all [Tagged.bare, Tagged.payload]
  · unfold PanelArrangement.decodeKnown at ha
    split at ha
    · exact reread_bare "Tabs" rfl rfl rfl ha
    · exact reread_bare "Accordion" rfl rfl rfl ha
    · refine reread_plain "Grid" ht hd (fun _ => rfl) (fun f hk => ?_) ha
      simp only [bind_eq_bind, bind_eq_some_iff, pure_def, some_inj] at hk
      obtain ⟨columns, hcolumns, rfl⟩ := hk
      have hwritten := exact_word32.required hcolumns
      exact ⟨rfl, _, rfl, by simp [hwritten]⟩
    · refine reread_plain "Sidebar" ht hd (fun _ => rfl) (fun f hk => ?_) ha
      simp only [bind_eq_bind, bind_eq_some_iff, pure_def, some_inj] at hk
      obtain ⟨mainPanel, _, rfl⟩ := hk
      exact ⟨rfl, _, rfl, by simp⟩
    · exact reread_bare "FloatingPanels" rfl rfl rfl ha
    · cases ha

theorem rereadBelow_controlKind (d : Nat) :
    RereadBelow d ControlKind.decode ControlKind.encode ControlKind.kept := by
  have hoptions : RereadBelow d ControlKind.decodeOptions ControlKind.encodeOptions
      fun _ => [] := by
    refine rereadBelow_of_exact (Inverse.exact fun m options => ?_) d
    have hlist := inverse_selectOption.list m options
    simp [ControlKind.decodeOptions, ControlKind.encodeOptions, hlist]
  refine RereadBelow.pred (rereadBelow_keep .control (fun _ => rfl) (fun _ => rfl)
    (fun _ => rfl) ?_ (fun _ _ => rfl) ?_ fun whole t a ht hd ha => ?_)
  · intro t u hu
    unfold ControlKind.decodeKnown at hu
    split at hu <;> simp [Tagged.payload, bind_eq_some_iff] at hu
  · intro tag hnull
    unfold ControlKind.decodeKnown at hnull ⊢
    split at hnull <;> simp_all [Tagged.bare, Tagged.payload]
  · unfold ControlKind.decodeKnown at ha
    split at ha
    · refine reread_plain "Slider" ht hd (fun _ => rfl) (fun f hk => ?_) ha
      simp only [bind_eq_bind, bind_eq_some_iff, pure_def, some_inj] at hk
      obtain ⟨min, _, max, _, step, _, rfl⟩ := hk
      exact ⟨rfl, _, rfl, by simp⟩
    · exact reread_bare "Toggle" rfl rfl rfl ha
    · exact reread_payload "Dropdown" hoptions ht hd ha
    · refine reread_plain "NumberInput" ht hd (fun _ => rfl) (fun f hk => ?_) ha
      simp only [bind_eq_bind, bind_eq_some_iff, pure_def, some_inj] at hk
      obtain ⟨min, _, max, _, step, _, rfl⟩ := hk
      exact ⟨rfl, _, rfl, by simp⟩
    · exact reread_bare "ColorPicker" rfl rfl rfl ha
    · refine reread_plain "Button" ht hd (fun _ => rfl) (fun f hk => ?_) ha
      simp only [bind_eq_bind, bind_eq_some_iff, pure_def, some_inj] at hk
      obtain ⟨action, _, rfl⟩ := hk
      exact ⟨rfl, _, rfl, by simp⟩
    · exact reread_payload "RadioGroup" hoptions ht hd ha
    · cases ha

theorem rereadBelow_control (d : Nat) :
    RereadBelow d Control.decode Control.encode fun c => c.kind.kept := by
  refine rereadBelow_record fun whole f a hf hd ha => ?_
  simp only [bind_eq_bind, bind_eq_some_iff, pure_def, some_inj] at ha
  obtain ⟨id, _, label, _, kind, hkind, defaultValue, _, targets, _, rfl⟩ := ha
  obtain ⟨kind', hk⟩ := (rereadBelow_controlKind d).requiredField hf hd hkind
  refine ⟨⟨id, label, kind', defaultValue, targets⟩, fun m => ?_, ?_, hk.origin.perm (.refl _)⟩
  · simp [Control.encode, strs, hk.written]
  · simp [hk.same]

theorem rereadBelow_controlGroup (d : Nat) :
    RereadBelow d ControlGroup.decode ControlGroup.encode ControlGroup.kept := by
  refine rereadBelow_record fun whole f a hf hd ha => ?_
  simp only [bind_eq_bind, bind_eq_some_iff, pure_def, some_inj] at ha
  obtain ⟨id, _, controls, hcontrols, flow, _, rfl⟩ := ha
  obtain ⟨controls', hc⟩ := (rereadBelow_control d).list.requiredField hf hd hcontrols
  refine ⟨⟨id, controls', flow⟩, fun m => ?_, ?_, hc.origin.perm (.refl _)⟩
  · simp [ControlGroup.encode, hc.written]
  · simp [ControlGroup.kept, hc.same]

/-! ## Links and inline text -/

theorem rereadBelow_string (d : Nat) : RereadBelow d Decode.string .str fun _ => [] :=
  rereadBelow_of_exact inverse_string.exact d

namespace PartsReread

open Readers

variable {d : Nat} (h : PartsReread d)

theorem knownTarget_ne_unknown (r : Readers) (t : Tagged) (u : Unrecognized) :
    r.knownTarget t ≠ some (.unknown u) := by
  intro hu
  unfold knownTarget at hu
  split at hu <;> simp [Tagged.payload, bind_eq_some_iff] at hu

theorem knownTarget_null (r : Readers) (tag : String)
    (hnull : r.knownTarget ⟨tag, some .null, .lenient⟩ = none) :
    r.knownTarget ⟨tag, none, .lenient⟩ = none := by
  unfold knownTarget at hnull ⊢
  split at hnull <;> simp_all [Tagged.payload]

include h

theorem target : RereadBelow d all.target LinkTarget.encode LinkTarget.kept := by
  have hstring := rereadBelow_string d
  refine RereadBelow.pred (rereadBelow_keep .target (fun _ => rfl) ?_ (fun _ => rfl)
    (knownTarget_ne_unknown all) (fun _ _ => rfl)
      (knownTarget_null all) fun whole t a ht hd ha => ?_)
  · intro u
    simp [LinkTarget.kept, LinkTarget.ownKept, LinkTarget.parts]
  unfold knownTarget at ha
  split at ha
  · exact reread_payload "Url" hstring ht hd ha
  · exact reread_payload "InternalPageId" hstring ht hd ha
  · refine reread_plain "DefinitionId" ht hd (fun _ => rfl) (fun f hk => ?_) ha
    simp only [bind_eq_bind, bind_eq_some_iff, pure_def, some_inj] at hk
    obtain ⟨term, _, theory, _, rfl⟩ := hk
    exact ⟨rfl, _, rfl, by simp⟩
  · refine reread_plain "DefinitionAspect" ht hd (fun _ => rfl) (fun f hk => ?_) ha
    simp only [bind_eq_bind, bind_eq_some_iff, pure_def, some_inj] at hk
    obtain ⟨term, _, aspect, _, theory, _, rfl⟩ := hk
    exact ⟨rfl, _, rfl, by simp⟩
  · exact reread_payload "TheoremId" hstring ht hd ha
  · refine reread_plain "ObjectConstructorTemplate" ht hd (fun _ => rfl) (fun f hk => ?_) ha
    simp only [bind_eq_bind, bind_eq_some_iff, pure_def, some_inj] at hk
    obtain ⟨id, _, parameters, hparameters, level, hlevel, rfl⟩ := hk
    have hp := optionalValue_any hparameters
    have hl := exact_word32.optionalField (by simp [nat]) hlevel
    exact ⟨rfl, _, rfl, by simp [hp, hl]⟩
  · exact reread_payload "GlossaryTerm" hstring ht hd ha
  · exact reread_payload "BibliographyKey" hstring ht hd ha
  · exact reread_payload "InteractiveElementId" hstring ht hd ha
  · exact reread_payload "TooltipDocument" h.document ht hd ha
  · refine reread_plain "AnimationTrigger" ht hd (fun _ => rfl) (fun f hk => ?_) ha
    simp only [bind_eq_bind, bind_eq_some_iff, pure_def, some_inj] at hk
    obtain ⟨id, _, trigger, _, rfl⟩ := hk
    exact ⟨rfl, _, rfl, by simp⟩
  · cases ha

omit h in
theorem knownInline_ne_unknown (r : Readers) (t : Tagged) (u : Unrecognized) :
    r.knownInline t ≠ some (.unknown u) := by
  intro hu
  unfold knownInline linkFields at hu
  split at hu <;> simp [Tagged.payload, bind_eq_some_iff] at hu

omit h in
theorem knownInline_null (r : Readers) (tag : String)
    (hnull : r.knownInline ⟨tag, some .null, .lenient⟩ = none) :
    r.knownInline ⟨tag, none, .lenient⟩ = none := by
  unfold knownInline at hnull ⊢
  split at hnull <;> simp_all [Tagged.payload]

theorem nextInline : RereadBelow (d + 1) all.nextInline Inline.encode Inline.kept := by
  have hstring := rereadBelow_string d
  refine rereadBelow_keep .inline (fun _ => rfl) ?_ (fun _ => rfl) (knownInline_ne_unknown all)
    (fun _ _ => rfl) (knownInline_null all) fun whole t a ht hd ha => ?_
  · intro u
    simp [Inline.kept, Inline.parts, Part.kept]
  unfold knownInline at ha
  split at ha
  · exact reread_payload "Text" hstring ht hd ha
  · refine reread_plain "StyledText" ht hd (fun _ => rfl) (fun f hk => ?_) ha
    simp only [bind_eq_bind, bind_eq_some_iff, pure_def, some_inj] at hk
    obtain ⟨text, _, styles, _, rfl⟩ := hk
    have hs := inverse_textStyle.list .lenient styles
    exact ⟨rfl, _, rfl, by simp [hs]⟩
  · exact reread_payload "Math" (rereadBelow_of_exact inverse_formula.exact d) ht hd ha
  · refine reread_named "Link" ht hd (fun _ => rfl) (fun _ f hf hd hk => ?_) ha
    simp only [bind_eq_bind, bind_eq_some_iff, pure_def, some_inj] at hk
    obtain ⟨content, hcontent, target, htarget, tooltip, _, rfl⟩ := hk
    obtain ⟨content', hc⟩ := h.inlines.requiredField hf hd hcontent
    obtain ⟨target', ht⟩ := h.target.requiredField hf hd htarget
    have hsettled := ht.same
    simp only [LinkTarget.kept, Kept.settled_append] at hsettled
    refine ⟨.link content' target' tooltip, _, by rw [Inline.encode], ?_, ?_, ?_⟩
    · simp [hc.written, ht.written]
    · simp [Inline.kept, Inline.parts, Part.kept, hc.same, hsettled, and_left_comm]
    · refine (hc.origin.fields ht.origin (by simp)).perm ?_
      simp only [Inline.kept, Inline.parts, Part.kept, LinkTarget.kept, Inline.keptIn_partsList,
        keptIn_cons, keptIn_append]
      exact (List.perm_append_comm_assoc _ _ _)
  · exact reread_payload "FootnoteReference" hstring ht hd ha
  · exact reread_payload "CodeInline" hstring ht hd ha
  · cases ha

/-! ## Blocks and documents -/

theorem panelLayout : RereadBelow d all.panelLayout PanelLayout.encode PanelLayout.kept := by
  refine rereadBelow_record fun whole f a hf hd ha => ?_
  simp only [bind_eq_bind, bind_eq_some_iff, pure_def, some_inj] at ha
  obtain ⟨id, _, panels, hpanels, arrangement, harrangement, rfl⟩ := ha
  obtain ⟨panels', hp⟩ := h.panel.list.requiredField hf hd hpanels
  obtain ⟨arrangement', hr⟩ := (rereadBelow_arrangement d).requiredField hf hd harrangement
  refine ⟨⟨id, panels', arrangement'⟩, fun m => ?_, ?_, ?_⟩
  · simp [PanelLayout.encode, hp.written, hr.written]
  · simp [PanelLayout.kept, PanelLayout.parts, hp.same, hr.same, and_comm]
  · refine (hp.origin.fields hr.origin (by simp)).perm ?_
    simpa [PanelLayout.kept, PanelLayout.parts] using List.perm_append_comm

theorem nextDocument :
    RereadBelow (d + 1) all.nextDocument Document.encode fun x => keptIn x.parts := by
  refine rereadBelow_next fun whole f a hf hd ha => ?_
  -- one field at a time: the whole chain of fields is too long for one rewriting
  obtain ⟨id, _, ha⟩ := bind_eq_some_iff.mp ha
  obtain ⟨title, _, ha⟩ := bind_eq_some_iff.mp ha
  obtain ⟨kind, _, ha⟩ := bind_eq_some_iff.mp ha
  obtain ⟨presentation, hpresentation, ha⟩ := bind_eq_some_iff.mp ha
  obtain ⟨body, hbody, ha⟩ := bind_eq_some_iff.mp ha
  obtain ⟨bibliography, hbibliography, ha⟩ := bind_eq_some_iff.mp ha
  obtain ⟨summary, hsummary, ha⟩ := bind_eq_some_iff.mp ha
  obtain ⟨contents, _, ha⟩ := bind_eq_some_iff.mp ha
  obtain ⟨footnotes, hfootnotes, ha⟩ := bind_eq_some_iff.mp ha
  obtain ⟨glossary, hglossary, ha⟩ := bind_eq_some_iff.mp ha
  obtain ⟨authors, _, ha⟩ := bind_eq_some_iff.mp ha
  obtain ⟨createdAt, _, ha⟩ := bind_eq_some_iff.mp ha
  obtain ⟨updatedAt, _, ha⟩ := bind_eq_some_iff.mp ha
  cases ha
  have hp := exact_presentation.optionalField (by simp [Presentation.encode]) hpresentation
  have hi := exact_bibEntry.list.defaulted hbibliography fun _ => rfl
  obtain ⟨body', hb⟩ := h.sectionPart.listField hf hd hbody
  obtain ⟨summary', hs⟩ := h.captionField hf hd hsummary
  obtain ⟨footnotes', hn⟩ := h.footnote.listField hf hd hfootnotes
  obtain ⟨glossary', hg⟩ := h.glossaryEntry.listField hf hd hglossary
  refine ⟨⟨id, title, kind, presentation, body', bibliography, summary', contents, footnotes',
    glossary', authors, createdAt, updatedAt⟩, fun m => ?_, ?_, ?_⟩
  · rw [Document.encode]
    refine bind_eq_some_iff.mpr ⟨_, rfl, ?_⟩
    refine bind_eq_some_iff.mpr ⟨id, by simp, ?_⟩
    refine bind_eq_some_iff.mpr ⟨title, by simp, ?_⟩
    refine bind_eq_some_iff.mpr ⟨kind, by simp, ?_⟩
    refine bind_eq_some_iff.mpr ⟨presentation, by simp [hp], ?_⟩
    refine bind_eq_some_iff.mpr ⟨body', by simp [hb.written], ?_⟩
    refine bind_eq_some_iff.mpr ⟨bibliography, by simp [hi], ?_⟩
    refine bind_eq_some_iff.mpr ⟨summary', by simp [hs.written], ?_⟩
    refine bind_eq_some_iff.mpr ⟨contents, by simp, ?_⟩
    refine bind_eq_some_iff.mpr ⟨footnotes', by simp [hn.written], ?_⟩
    refine bind_eq_some_iff.mpr ⟨glossary', by simp [hg.written], ?_⟩
    refine bind_eq_some_iff.mpr ⟨authors, by simp [strs], ?_⟩
    refine bind_eq_some_iff.mpr ⟨createdAt, by simp, ?_⟩
    exact bind_eq_some_iff.mpr ⟨updatedAt, by simp, rfl⟩
  · simp [Document.parts, Part.kept, hb.same, hs.same, hn.same, hg.same, and_left_comm]
  · refine (hs.origin.fields (hb.origin.fields (hn.origin.fields hg.origin (by simp)) (by simp))
      (by simp)).perm ?_
    simp [Document.parts, Part.kept]

omit h in
theorem knownBlock_ne_unknown (r : Readers) (t : Tagged) (u : Unrecognized) :
    r.knownBlock t ≠ some (.unknown u) := by
  intro hu
  unfold knownBlock at hu
  split at hu <;> simp at hu

omit h in
theorem knownBlock_null (r : Readers) (tag : String)
    (hnull : r.knownBlock ⟨tag, some .null, .lenient⟩ = none) :
    r.knownBlock ⟨tag, none, .lenient⟩ = none := by
  unfold knownBlock at hnull ⊢
  split at hnull <;> simp_all [Tagged.bare, Tagged.payload]

theorem nextBlock : RereadBelow (d + 1) all.nextBlock Block.encode Block.kept := by
  refine rereadBelow_keep .block (fun _ => rfl) ?_ (fun _ => rfl) (knownBlock_ne_unknown all)
    (fun _ _ => rfl) (knownBlock_null all) fun whole t a ht hd ha => ?_
  · intro u
    simp [Block.kept, Block.parts, Part.kept]
  unfold knownBlock at ha
  split at ha
  · exact reread_payload "Paragraph" h.paragraph ht hd ha
  · exact reread_payload "MathBlock" h.equation ht hd ha
  · exact reread_payload "StructuredMath" h.statement ht hd ha
  · exact reread_payload "List" h.listing ht hd ha
  · exact reread_payload "Table" h.table ht hd ha
  · exact reread_payload "CodeBlock" h.codeBlock ht hd ha
  · exact reread_payload "Image" h.image ht hd ha
  · exact reread_payload "InteractiveDiagram" h.diagram ht hd ha
  · exact reread_payload "CollapsibleBlock" h.collapsible ht hd ha
  · exact reread_payload "Grid" h.grid ht hd ha
  · exact reread_payload "Columns" h.columns ht hd ha
  · exact reread_bare "ThematicBreak" rfl rfl rfl ha
  · exact reread_payload "QuoteBlock" h.quote ht hd ha
  · exact reread_payload "AlertBox" h.alert ht hd ha
  · exact reread_payload "CustomComponent" h.component ht hd ha
  · exact reread_payload "EmbeddedSectionRef"
      (rereadBelow_of_exact inverse_sectionRef.exact d) ht hd ha
  · exact reread_payload "SubSection" h.sectionPart ht hd ha
  · exact reread_payload "SideBySideLayout" h.sideBySide ht hd ha
  · exact reread_payload "PanelLayout" h.panelLayout ht hd ha
  · exact reread_payload "AnnotationOverlay" h.overlay ht hd ha
  · exact reread_payload "InteractiveControls" (rereadBelow_controlGroup d) ht hd ha
      (fun _ _ => Block.controls.inj) (fun _ => rfl) (fun _ => rfl) fun _ => List.append_nil _
  · exact reread_payload "EmbeddedDocument" h.document ht hd ha
  · cases ha

end PartsReread

/-- Inline text, blocks and documents of every depth are read again. -/
theorem partsReread (d : Nat) : PartsReread d := by
  induction d with
  | zero => exact ⟨fun _ _ _ h => by omega, fun _ _ _ h => by omega, fun _ _ _ h => by omega⟩
  | succ d ih =>
    refine ⟨?_, ?_, ?_⟩
    · rw [Readers.all_inline]
      exact ih.nextInline
    · rw [Readers.all_block]
      exact ih.nextBlock
    · rw [Readers.all_document]
      exact ih.nextDocument

end Compendium
