import Compendium.Proofs.Render.Plain

/-!
# The outline of a document

`Scope.outline` gives the frames of a block without rendering it: a section that is not open yet is
a frame around its blocks, a document that is not open yet is a frame around its sections, and every
other block only passes on what is inside it. Inside of a document, rendering emits the outline.
-/

namespace Compendium

namespace Scope

open Markup Rendered

/-! ## Outlines -/

def sectionFrames (walk : Scope → Block → List Frame) (scope : Scope) (mode : SectionMode)
    (s : Section) : List Frame :=
  if scope.sections.contains s.id then []
  else [.mk .division (some s.id) (if mode.isCopy then none else some s.id)
    (s.content.flatMap (walk (scope.insideSection mode s)))]

def articleFrames (walk : Scope → Block → List Frame) (scope : Scope) (d : Document) : List Frame :=
  if scope.documents.any (fun other => other.id == d.id) then []
  else [.mk .article (some d.id) none
    (d.body.flatMap (sectionFrames walk (scope.insideDocument d) .anchored))]

def outlineWith (walk : Scope → Block → List Frame) (scope : Scope) : Block → List Frame
  | .subsection s =>
    sectionFrames walk { scope with level := scope.level + 1 } (scope.nestedMode s) s
  | .sectionRef r =>
    (scope.referenced? r).toList.flatMap (sectionFrames walk scope (.copy r.showTitle))
  | .document d => articleFrames walk scope d
  | b => (b.inner scope.renderer).flatMap (walk scope)

/-- The frames of a block on a budget of nesting. -/
def outline : Nat → Scope → Block → List Frame
  | 0 => fun _ _ => []
  | budget + 1 => outlineWith (outline budget)

theorem outlineWith_simple (walk : Scope → Block → List Frame) (scope : Scope) {b : Block}
    (h : b.isSimple = true) : outlineWith walk scope b =
      (b.inner scope.renderer).flatMap (walk scope) := by
  cases b with
  | subsection s => cases h
  | sectionRef r => cases h
  | document d => cases h
  | _ => rfl

/-! ## Sections -/

/-- The scope is inside of a document, and the parts of all open documents are among the parts. -/
structure IsInside (scope : Scope) (W : List Part) : Prop where
  opened : scope.documents ≠ []
  parts : ∀ d ∈ scope.documents, d.parts ⊆ W

theorem IsInside.insideSection {scope : Scope} {W : List Part} (h : scope.IsInside W)
    (mode : SectionMode) (s : Section) : (scope.insideSection mode s).IsInside W :=
  ⟨h.opened, h.parts⟩

theorem IsInside.deeper {scope : Scope} {W : List Part} (h : scope.IsInside W) :
    IsInside { scope with level := scope.level + 1 } W :=
  ⟨h.opened, h.parts⟩

theorem isInside_insideDocument {scope : Scope} {W : List Part}
    (h : ∀ d ∈ scope.documents, d.parts ⊆ W) {d : Document} (hd : d.parts ⊆ W) :
    (scope.insideDocument d).IsInside W :=
  ⟨List.cons_ne_nil _ _, List.forall_mem_cons.mpr ⟨hd, h⟩⟩

/-- A reference leads to a section of an open document. -/
theorem IsInside.referenced {scope : Scope} {W : List Part} (h : scope.IsInside W) {r : SectionRef}
    {s : Section} (hs : scope.referenced? r = some s) : s.parts ⊆ W := by
  obtain ⟨d, hd, hfound⟩ := Option.bind_eq_some_iff.mp hs
  have hopen := h.parts d (List.mem_of_head? hd)
  exact List.Subset.trans (Document.parts_subperm_of_findSection? hfound).subset hopen

variable {W : List Part} {block : BlockRenderer} {walk : Scope → Block → List Frame}

/-- A renderer of blocks that emits, inside of documents of the parts, what `walk` says. -/
def BlockEmits (W : List Part) (block : BlockRenderer) (walk : Scope → Block → List Frame) : Prop :=
  ∀ scope : Scope, scope.IsInside W → ∀ number b, b.parts ⊆ W →
    (block scope number b).Emits W (walk scope b)

theorem framed_sectionAttrs (scope : Scope) (mode : SectionMode) (numbered : Bool) (s : Section)
    (inner : List Frame) : framed "section" (scope.sectionAttrs mode numbered s) inner =
      [.mk .division (some s.id) (if mode.isCopy then none else some s.id) inner] := by
  unfold sectionAttrs
  cases mode.isCopy <;> rfl

theorem framed_articleAttrs (d : Document) (inner : List Frame) :
    framed "article" (articleAttrs d) inner = [.mk .article (some d.id) none inner] := by
  have hname : (articleAttrs d).lookup "data-document-id" = some d.id := rfl
  have hanchor : (articleAttrs d).lookup "id" = none := by
    have hanimation : ∀ a : Animation, (animationAttrs a).lookup "id" = none := by
      intro a
      unfold animationAttrs
      cases a.enabled <;> cases a.duration <;> cases a.easing <;> rfl
    have hpresentation : ∀ p : Presentation, (presentationAttrs p).lookup "id" = none := by
      intro p
      unfold presentationAttrs
      rw [List.lookup_append, List.lookup_append]
      cases p.animation with
      | none => cases p.features.isEmpty <;> rfl
      | some a => cases p.features.isEmpty <;> exact hanimation a
    unfold articleAttrs
    rw [List.lookup_append, List.lookup_append]
    cases d.presentation with
    | none => cases d.kind.laysItselfOut <;> rfl
    | some p => cases d.kind.laysItselfOut <;> exact hpresentation p
  have hkind : FrameKind.ofTag? "article" = some .article := rfl
  simp only [framed, hkind, FrameKind.label, hname, hanchor]
  rfl

/-! ## Plain markup -/

/-- A plain element is no frame. -/
theorem framed_plain {tag : String} {attrs : List Attr} {flags : List String}
    (htag : PlainTag tag attrs flags)
    (hattrs : PlainAttrs attrs) (inner : List Frame) : framed tag attrs inner = inner := by
  obtain ⟨kind, rfl, hframed⟩ | ⟨hframed, -⟩ := framed_cases tag attrs inner
  · cases kind with
    | article => exact absurd rfl htag.other
    | division =>
      have hname : attrs.lookup "data-section-id" = none := hattrs.lookup_name (by decide)
      have hanchor : attrs.lookup "id" = none := by
        cases hvalue : attrs.lookup "id" with
        | none => rfl
        | some value => exact absurd (List.mem_map_of_mem (mem_of_lookup hvalue)) (htag.anchor rfl)
      simp only [framed, FrameKind.ofTag?_eq_some.mpr rfl, FrameKind.label, hname, hanchor]
      rfl
  · exact hframed

mutual

theorem frames_of_plain : ∀ m : Markup, m.Plain → frames m = []
  | .text _, _ | .script _, _ | .raw _, _ => rfl
  | .void tag attrs flags, h => by
    have hother : ∀ tag ∈ documentNames.voids, FrameKind.ofTag? tag = none := by decide
    exact framed_other (hother tag h.1.1) attrs []
  | .element tag attrs flags content, h => by
    rw [frames, framed_plain h.1 h.2.1, framesList_of_plain content h.2.2.2]

theorem framesList_of_plain : ∀ ms : List Markup, PlainList ms → framesList ms = []
  | [], _ => rfl
  | m :: rest, h => by
    rw [framesList_cons, frames_of_plain m h.1, framesList_of_plain rest h.2, List.append_nil]

end

/-- Plain markup emits no frames, and steps one after the other emit all of theirs. -/
theorem emits_collects : Rendered.CollectsIn True fun x fs => x.Emits W fs where
  nil := emits_pure rfl
  append := fun hx hy => hx.bind fun first hfirst => hy.bind fun others hothers => emits_pure (by
    rw [framesList_append, hfirst, hothers])
  fixed := fun hplain => emits_pure (framesList_of_plain [_] ⟨hplain, trivial⟩)
  element := fun _ htag hattrs hx => hx.bind fun m hm => emits_pure (by
    rw [framesList_cons, framesList_nil, List.append_nil, frames, framed_plain htag hattrs, hm])

/-! ## Sections, documents and blocks -/

section Blocks

variable (hblock : BlockEmits W block walk) {scope : Scope}

include hblock

/-- A section emits its frame, around the frames of its blocks. -/
theorem emits_renderSection (hscope : scope.IsInside W) (mode : SectionMode)
    (number : Option String) {s : Section} (h : s.parts ⊆ W) :
    (renderSection block scope mode number s).Emits W (sectionFrames walk scope mode s) := by
  by_cases hopen : s.id ∈ scope.sections
  · rw [renderSection_opened block mode number hopen, sectionFrames,
      if_pos (List.contains_iff_mem.mpr hopen)]
    exact emits_pure (by rw [framesList_cons, sectionCycle, frames_marker]; rfl)
  · have htexts :
        ∀ text ∈ Layout.textsAll (Layout.ofSection (scope.insideSection mode s) mode number s),
        Inline.partsList text ⊆ W := by
      rw [Section.parts_eq, List.cons_subset, List.append_subset] at h
      intro text htext part hpart
      have htitle := Layout.textsAll_ofSection_subset _ mode number s htext
      exact h.2.1 (List.mem_flatMap.mpr ⟨text, htitle, hpart⟩)
    have hcontent := Layout.collects_blocks emits_collects
      (Layout.plainList_ofSection _ mode number s)
      (fun text htext => emits_inlines _ text (htexts text htext))
        (Layout.shownAll_ofSection _ mode number s)
      fun b hb number => hblock _ (hscope.insideSection mode s) number b
        (List.Subset.trans (Section.parts_sublist_of_mem_content hb).subset h)
    rw [Layout.renderSection_eq block scope number hopen, sectionFrames,
      if_neg (by simpa using hopen)]
    refine hcontent.bind fun m hm => emits_pure ?_
    rw [framesList_cons, node, frames, framed_sectionAttrs, hm]
    rfl

theorem emits_bodySection (hscope : scope.IsInside W) {body : List Section}
    (h : body.flatMap Section.parts ⊆ W) : ∀ s ∈ body, ∀ number,
      (bodySection block scope number s).Emits W (sectionFrames walk scope .anchored s) :=
  fun s hs number => emits_renderSection hblock hscope .anchored number fun _ hpart =>
    h (List.mem_flatMap.mpr ⟨s, hs, hpart⟩)

theorem emits_bodySections (hscope : scope.IsInside W) {d : Document}
    (h : d.body.flatMap Section.parts ⊆ W) :
    (bodySections block scope d).Emits W
      (d.body.flatMap (sectionFrames walk scope .anchored)) := by
  rw [← Layout.renderAll_ofBody]
  refine Layout.collects_sections emits_collects (Layout.plainList_ofBody d) ?_
    (Layout.shownAll_ofBody d) (emits_bodySection hblock hscope h)
  rw [Layout.textsAll_ofBody]
  exact List.forall_mem_nil _

theorem emits_articleFront (hscope : scope.IsInside W) {d : Document} (h : d.parts ⊆ W) :
    (Rendered.sequence (articleFront block scope d)).Emits W
      (d.body.flatMap (sectionFrames walk scope .anchored)) := by
  have hparts := List.Subset.trans d.parts_perm.symm.subset h
  rw [List.cons_subset, List.append_subset] at hparts
  obtain ⟨-, htexts, hbody⟩ := hparts
  rw [Layout.sequence_articleFront]
  refine Layout.collects_sections emits_collects (Layout.plainList_ofDocument scope d)
    (fun text htext => emits_inlines scope text fun part hpart => htexts ?_)
    (Layout.shownAll_ofDocument scope d) (emits_bodySection hblock hscope hbody)
  exact List.mem_flatMap.mpr ⟨text, Layout.textsAll_ofDocument_subset scope d htext, hpart⟩

/-- An article emits its frame, around the frames of its sections. -/
theorem emits_innerArticle (hscope : ∀ d ∈ scope.documents, d.parts ⊆ W) {d : Document}
    (h : d.parts ⊆ W) : (innerArticle block scope d).Emits W (articleFrames walk scope d) := by
  unfold innerArticle articleFrames
  cases hopen : scope.documents.any (fun other => other.id == d.id) with
  | true =>
    rw [articleWith_opened block _ hopen]
    exact emits_pure (by rw [framesList_cons, documentCycle, frames_marker]; rfl)
  | false =>
    have hfront := emits_articleFront hblock (isInside_insideDocument hscope h) h
    rw [articleWith_eq block _ hopen, sequence_append_singleton]
    have hcontent : Emits (do
        let markup ← Rendered.sequence (articleFront block (scope.insideDocument d) d)
        let last ← pure []
        return markup ++ last) W
        (d.body.flatMap (sectionFrames walk (scope.insideDocument d) .anchored)) := by
      refine hfront.bind fun front hm => (emits_pure rfl).bind fun last hlast => emits_pure ?_
      rw [framesList_append, hm, hlast, framesList_nil, List.append_nil]
    refine hcontent.bind fun m hm => emits_pure ?_
    rw [framesList_cons, node, frames, framed_articleAttrs, hm]
    rfl

theorem emits_sectionRef (hscope : scope.IsInside W) (r : SectionRef) :
    (sectionRef block scope r).Emits W
      ((scope.referenced? r).toList.flatMap (sectionFrames walk scope (.copy r.showTitle))) := by
  unfold sectionRef
  split
  · next s hs =>
    rw [hs, Option.toList_some, List.flatMap_singleton]
    exact emits_renderSection hblock hscope _ none (hscope.referenced hs)
  · next hs =>
    rw [hs]
    exact emits_pure (by rw [framesList_cons, missingSection, frames_marker]; rfl)

/-- One level of blocks: what is said of the level below is said of it. -/
theorem emits_blockWith (hscope : scope.IsInside W) (number : Option String) {b : Block}
    (h : b.parts ⊆ W) : (blockWith block scope number b).Emits W (outlineWith walk scope b) := by
  have hsub : ∀ {part : Part} {l : List Part}, b.parts = part :: l → l ⊆ W := fun heq => by
    rw [heq] at h
    exact (List.cons_subset.mp h).2
  by_cases hsimple : b.isSimple = true
  · rw [outlineWith_simple walk scope hsimple,
      ← Layout.renderAll_ofBlock block scope number hsimple]
    refine Layout.collects_blocks emits_collects (Layout.plainList_ofBlock (fun _ => trivial) b)
      (fun text htext => emits_inlines scope text ?_) (Layout.shownAll_ofBlock scope b)
      fun b' hb' number => hblock scope hscope number b' ?_
    · rw [Layout.textsAll_ofBlock] at htext
      exact List.Subset.trans (Block.partsList_subset_of_mem_texts hsimple htext) h
    · have hinner := List.Subset.trans (Block.parts_subperm_of_mem_inner hsimple hb').subset h
      exact (List.cons_subset.mp hinner).2
  · cases b with
    | sectionRef r => exact emits_sectionRef hblock hscope r
    | subsection s =>
      exact emits_renderSection hblock hscope.deeper _ number (hsub (by rw [Block.parts]))
    | document d =>
      show (Rendered.classed "div" "embedded-document" (article block scope d)).Emits W _
      rw [article_of_inside block hscope.opened]
      exact (emits_innerArticle hblock hscope.parts
        (hsub (by rw [Block.parts]))).classed (by decide) _
    | _ => exact absurd rfl hsimple

end Blocks

/-- Inside of a document, rendering emits the outline. -/
theorem emits_renderBlock (W : List Part) (budget : Nat) :
    BlockEmits W (renderBlock budget) (outline budget) := by
  induction budget with
  | zero =>
    intro scope _ number b _
    exact emits_pure (by rw [framesList_cons, depthMarker, frames_marker]; rfl)
  | succ budget ih =>
    intro scope hscope number b hb
    rw [renderBlock_succ]
    exact emits_blockWith ih hscope number hb

end Scope

end Compendium
