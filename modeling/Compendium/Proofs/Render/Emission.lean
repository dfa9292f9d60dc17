import Compendium.Proofs.Markup.Frames
import Compendium.Proofs.Render.Inner
import Compendium.Proofs.Render.StyleSources

/-!
# What rendering emits

Except for the closing of the outermost document, a rendering step makes the same markup whatever
tooltip documents are noted already, and asks for the same documents. `Rendered.Emits` says so, with
the frames of the markup, and with the documents that may be asked for among the tooltips of given
parts.
-/

namespace Compendium

open Markup

/-! ## Noting documents -/

def note (noted : List Document) (document : Document) : List Document :=
  if noted.any (fun d => d.id == document.id) then noted else noted ++ [document]

theorem any_id_iff {documents : List Document} {id : String} :
    documents.any (fun other => other.id == id) = true ↔ id ∈ documents.map (·.id) := by
  simp only [List.any_eq_true, beq_iff_eq, List.mem_map]

def noteAll (noted asked : List Document) : List Document :=
  asked.foldl note noted

theorem noteAll_append (noted asked more : List Document) :
    noteAll noted (asked ++ more) = noteAll (noteAll noted asked) more :=
  List.foldl_append

theorem note_extends (noted : List Document) (d : Document) : noted <+: note noted d := by
  unfold note
  split
  · exact List.prefix_refl _
  · exact List.prefix_append _ _

theorem noteAll_extends (noted asked : List Document) : noted <+: noteAll noted asked := by
  induction asked generalizing noted with
  | nil => exact List.prefix_refl _
  | cons d rest ih => exact (note_extends noted d).trans (ih (note noted d))

theorem note_nodup {noted : List Document} (h : (noted.map (·.id)).Nodup) (d : Document) :
    ((note noted d).map (·.id)).Nodup := by
  unfold note
  split
  · exact h
  · next hnew =>
    have hfresh : d.id ∉ noted.map (·.id) := fun hmem => hnew (any_id_iff.mpr hmem)
    rw [List.map_append, List.map_cons, List.map_nil]
    exact List.nodup_append.mpr ⟨h, List.pairwise_singleton _ _, fun a ha b hb hab =>
      hfresh (by rw [← List.mem_singleton.mp hb, ← hab]; exact ha)⟩

theorem noteAll_nodup {noted : List Document} (h : (noted.map (·.id)).Nodup)
    (asked : List Document) :
    ((noteAll noted asked).map (·.id)).Nodup := by
  induction asked generalizing noted with
  | nil => exact h
  | cons d rest ih => exact ih (note_nodup h d)

theorem note_subset {noted allowed : List Document} (h : noted ⊆ allowed) {d : Document}
    (hd : d ∈ allowed) : note noted d ⊆ allowed := by
  unfold note
  split
  · exact h
  · exact List.append_subset.mpr ⟨h, List.cons_subset.mpr ⟨hd, List.nil_subset _⟩⟩

theorem noteAll_subset {noted asked allowed : List Document} (h : noted ⊆ allowed)
    (hasked : asked ⊆ allowed) : noteAll noted asked ⊆ allowed := by
  induction asked generalizing noted with
  | nil => exact h
  | cons d rest ih =>
    obtain ⟨hd, hrest⟩ := List.cons_subset.mp hasked
    exact ih (note_subset h hd) hrest

/-! ## Emission -/

/-- The step makes markup with the frames and asks for tooltips of the parts, whatever is noted. -/
def Rendered.Emits (x : Rendered) (parts : List Part) (fs : List Frame) : Prop :=
  ∃ (m : List Markup) (asked : List Document),
    framesList m = fs ∧ asked ⊆ Part.tooltips parts ∧
      ∀ noted, x.run noted = (m, noteAll noted asked)

namespace Rendered

variable {W : List Part} {fs gs : List Frame}

theorem emits_pure {m : List Markup} (h : framesList m = fs) : Emits (pure m) W fs :=
  ⟨m, [], h, List.nil_subset _, fun _ => rfl⟩

/-- The second step may look at the markup of the first. -/
theorem Emits.bind {x : Rendered} {next : List Markup → Rendered} (hx : x.Emits W fs)
    (hnext : ∀ m, framesList m = fs → (next m).Emits W gs) : Emits (x >>= next) W gs := by
  obtain ⟨m, asked, hm, hasked, hrun⟩ := hx
  obtain ⟨m', asked', hm', hasked', hrun'⟩ := hnext m hm
  refine ⟨m', asked ++ asked', hm', List.append_subset.mpr ⟨hasked, hasked'⟩, fun noted => ?_⟩
  rw [StateT.run_bind, hrun noted]
  show (next m).run (noteAll noted asked) = _
  rw [hrun', noteAll_append]

/-- Asking for a document before going on. -/
theorem Emits.after_note {next : Rendered} {d : Document} (hd : d ∈ Part.tooltips W)
    (h : next.Emits W fs) : Emits (noteTooltip d >>= fun _ => next) W fs := by
  obtain ⟨m, asked, hm, hasked, hrun⟩ := h
  refine ⟨m, d :: asked, hm, List.cons_subset.mpr ⟨hd, hasked⟩, fun noted => ?_⟩
  rw [StateT.run_bind]
  show next.run (note noted d) = _
  rw [hrun]
  rfl

theorem Emits.inside {tag : String} (htag : FrameKind.ofTag? tag = none) (attrs : List Attr)
    {content : Rendered} (h : content.Emits W fs) : (inside tag attrs content).Emits W fs := by
  refine h.bind fun m hm => emits_pure ?_
  rw [framesList_cons, framesList_nil, List.append_nil, node, frames, framed_other htag, hm]

theorem Emits.classed {tag : String} (htag : FrameKind.ofTag? tag = none) (cssClass : String)
    {content : Rendered} (h : content.Emits W fs) : (classed tag cssClass content).Emits W fs :=
  h.inside htag _

end Rendered

namespace Scope

open Rendered

/-! ## Markup without frames -/

@[simp] theorem frames_leaf {tag : String} (htag : FrameKind.ofTag? tag = none) (attrs : List Attr)
    (s : String) : frames (.leaf tag attrs s) = [] :=
  framed_other htag attrs _

@[simp] theorem frames_node {tag : String} (htag : FrameKind.ofTag? tag = none) (attrs : List Attr)
    (content : List Markup) : frames (.node tag attrs content) = framesList content :=
  framed_other htag attrs _

@[simp] theorem frames_classed {tag : String} (htag : FrameKind.ofTag? tag = none)
    (cssClass : String)
    (content : List Markup) : frames (.classed tag cssClass content) = framesList content :=
  framed_other htag _ _

@[simp] theorem frames_element {tag : String} (htag : FrameKind.ofTag? tag = none)
    (attrs : List Attr) (flags : List String) (content : List Markup) :
    frames (.element tag attrs flags content) = framesList content :=
  framed_other htag attrs _

theorem frames_styled (s : String) (styles : List TextStyle) : frames (styled s styles) = [] := by
  refine styled_induction (Q := fun m => frames m = []) rfl (fun tag htag m hm => ?_)
    (fun style _ m hm => ?_)
    styles
  · have hother : ∀ tag ∈ styleTags, FrameKind.ofTag? tag = none := by decide
    rw [frames_node (hother tag htag), framesList_cons, hm]
    rfl
  · rw [frames_node (by decide), framesList_cons, hm]
    rfl

theorem frames_marker (cssClass : String) (attrs : List Attr) (message : String) :
    frames (marker cssClass attrs message) = [] :=
  frames_leaf (by decide) _ _

/-! ## Inline text -/

variable {W : List Part}

theorem mem_tooltips_of_link {content : List Inline} {target : LinkTarget} {tooltip : Option String}
    (h : Part.text (.link content target tooltip) ∈ W) {d : Document}
    (hd : target.tooltipDocument? = some d) : d ∈ Part.tooltips W := by
  cases target with
  | tooltip shown =>
    cases hd
    exact List.mem_filterMap.mpr ⟨_, h, rfl⟩
  | _ => cases hd

/-- A link has no frames, and asks for tooltips of the parts only. -/
theorem emits_link {scope : Scope} {content : List Inline} {target : LinkTarget}
    {tooltip : Option String} (h : Part.text (.link content target tooltip) ∈ W)
    {render : Scope → Rendered} (hrender : ∀ inner, (render inner).Emits W []) :
    (scope.link target tooltip render).Emits W [] := by
  unfold link
  dsimp only
  split
  · exact hrender scope
  · split
    · next d hd =>
      refine Emits.after_note (mem_tooltips_of_link h hd) ?_
      split
      · exact (hrender _).inside (by decide) _
      · exact (hrender _).inside (by decide) _
    · split
      · exact (hrender _).inside (by decide) _
      · exact (hrender _).inside (by decide) _

mutual

theorem emits_inlinePiece : ∀ (scope : Scope) (i : Inline), i.parts ⊆ W →
    (scope.inlinePiece i).Emits W []
  | _, .text s, _ => emits_pure rfl
  | scope, .styled s styles, _ =>
    emits_pure (by rw [framesList_cons, frames_styled, framesList_nil, List.append_nil])
  | scope, .math f, _ => by
    rw [inlinePiece]
    refine emits_pure ?_
    unfold formula displayFormula
    split <;> simp +decide
  | scope, .link content target tooltip, h => by
    rw [Inline.parts, List.cons_subset, List.append_subset] at h
    obtain ⟨hlink, hcontent, -⟩ := h
    rw [inlinePiece]
    exact emits_link hlink fun inner => emits_inlines inner content hcontent
  | scope, .footnote id, _ => by
    rw [inlinePiece]
    refine emits_pure ?_
    unfold footnoteRef
    split <;> simp +decide
  | _, .code s, _ => emits_pure (by simp +decide)
  | scope, .unknown u, _ => by
    rw [inlinePiece]
    refine emits_pure ?_
    unfold unknownInline
    split <;> simp +decide

/-- Inline text has no frames. -/
theorem emits_inlines : ∀ (scope : Scope) (content : List Inline), Inline.partsList content ⊆ W →
    (scope.inlines content).Emits W []
  | _, [], _ => emits_pure rfl
  | scope, i :: rest, h => by
    rw [Inline.partsList, List.append_subset] at h
    rw [inlines]
    refine (emits_inlinePiece scope i h.1).bind fun first hfirst => ?_
    refine (emits_inlines scope rest h.2).bind fun others hothers => emits_pure ?_
    rw [framesList_append, hfirst, hothers]
    rfl

end

end Scope

end Compendium
