import Compendium.Proofs.Render.Tooltips

/-!
# The calls of rendering

Rendering a block calls for the rendering of other blocks: those inside it in the same scope, or
those of a section that it opens. `Scope.Calls` lists these calls. That rendering depends on nothing
else is said as locality: two renderers of blocks that agree on the calls of a block give it the
same markup.
-/

namespace Compendium

namespace Scope

open Rendered

/-! ## Inline text -/

/-- The scopes have all in common that inline text depends on. -/
structure SameText (scope other : Scope) : Prop where
  documents : scope.documents = other.documents
  links : scope.links = other.links
  markers : scope.renderer.settings.showUnknownMarkers = other.renderer.settings.showUnknownMarkers

theorem link_congr {scope other : Scope} (h : scope.SameText other) (target : LinkTarget)
    (tooltip : Option String) {content content' : Scope → Rendered}
    (hcontent : ∀ inner inner' : Scope, inner.SameText inner' → content inner = content' inner') :
    scope.link target tooltip content = other.link target tooltip content' := by
  have hinside : content { scope with links := target.key :: scope.links } =
      content' { other with links := target.key :: other.links } :=
    hcontent _ _ ⟨h.documents, by rw [h.links], h.markers⟩
  unfold link
  dsimp only
  rw [hcontent scope other h, hinside, h.links]

mutual

theorem inlinePiece_congr : ∀ {scope other : Scope}, scope.SameText other → ∀ i : Inline,
    scope.inlinePiece i = other.inlinePiece i
  | scope, other, h, .link content target tooltip => by
    rw [inlinePiece, inlinePiece]
    exact link_congr h target tooltip fun inner inner' hinner => inlines_congr hinner content
  | scope, other, h, .footnote id => by
    rw [inlinePiece, inlinePiece, footnoteRef, footnoteRef, footnoteLabel, footnoteLabel, document?,
      document?, h.documents, h.links]
  | scope, other, h, .unknown u => by
    rw [inlinePiece, inlinePiece, unknownInline, unknownInline, h.markers]
  | scope, other, _, .text s | scope, other, _, .styled s styles | scope, other, _, .math f
  | scope, other, _, .code s => rfl

/-- Inline text depends on nothing else of the scope. -/
theorem inlines_congr : ∀ {scope other : Scope}, scope.SameText other → ∀ content : List Inline,
    scope.inlines content = other.inlines content
  | scope, other, _, [] => rfl
  | scope, other, h, i :: rest => by
    rw [inlines, inlines, inlinePiece_congr h i, inlines_congr h rest]

end

/-! ## Layouts -/

/-- Two renderers agree on what stands in the places of the leaves. -/
structure AgreeOnLeaves (f g : BlockRenderer) (scope : Scope) (leaves : List Part) : Prop where
  blocks : ∀ b, .block b ∈ leaves → ∀ number, f scope number b = g scope number b
  sections : ∀ s, .division s ∈ leaves → ∀ number,
    bodySection f scope number s = bodySection g scope number s

theorem AgreeOnLeaves.mono {f g : BlockRenderer} {scope : Scope} {leaves fewer : List Part}
    (h : AgreeOnLeaves f g scope leaves) (hsub : fewer ⊆ leaves) : AgreeOnLeaves f g scope fewer :=
  ⟨fun b hb => h.blocks b (hsub hb), fun s hs => h.sections s (hsub hs)⟩

mutual

theorem render_congr {f g : BlockRenderer} {scope : Scope} : ∀ l : Layout,
    AgreeOnLeaves f g scope l.shown → l.render f scope = l.render g scope
  | .fixed m, _ | .text content, _ => by rw [Layout.render, Layout.render]
  | .block number b, h => by
    rw [Layout.render, Layout.render]
    exact h.blocks b (by simp) number
  | .division number s, h => by
    rw [Layout.render, Layout.render]
    exact h.sections s (by simp) number
  | .element tag attrs flags inner, h => by
    rw [Layout.shown_element] at h
    rw [Layout.render, Layout.render, renderAll_congr inner h]

/-- Layouts are rendered alike by renderers that agree on the leaves. -/
theorem renderAll_congr {f g : BlockRenderer} {scope : Scope} : ∀ ls : List Layout,
    AgreeOnLeaves f g scope (Layout.shownAll ls) →
      Layout.renderAll f scope ls = Layout.renderAll g scope ls
  | [], _ => by rw [Layout.renderAll, Layout.renderAll]
  | l :: rest, h => by
    rw [Layout.shownAll_cons] at h
    rw [Layout.renderAll, Layout.renderAll, render_congr l (h.mono (List.subset_append_left _ _)),
      renderAll_congr rest (h.mono (List.subset_append_right _ _))]

end

theorem agreeOnLeaves_blocks {f g : BlockRenderer} {scope : Scope} {content : List Block}
    (h : ∀ b ∈ content, ∀ number, f scope number b = g scope number b) :
    AgreeOnLeaves f g scope (content.map .block) :=
  ⟨fun b hb => h b (by simpa using hb), fun s hs => by simp at hs⟩

theorem agreeOnLeaves_sections {f g : BlockRenderer} {scope : Scope} {body : List Section}
    (h : ∀ s ∈ body, ∀ number, bodySection f scope number s = bodySection g scope number s) :
    AgreeOnLeaves f g scope (body.map .division) :=
  ⟨fun b hb => by simp at hb, fun s hs => h s (by simpa using hs)⟩

/-- A simple block depends on the blocks inside it only. -/
theorem blockWith_congr_simple {f g : BlockRenderer} {scope : Scope} {b : Block}
    (hsimple : b.isSimple = true)
    (h : ∀ b' ∈ b.inner scope.renderer, ∀ number, f scope number b' = g scope number b')
    (number : Option String) : blockWith f scope number b = blockWith g scope number b := by
  rw [← Layout.renderAll_ofBlock f scope number hsimple,
    ← Layout.renderAll_ofBlock g scope number hsimple]
  refine renderAll_congr _ ?_
  rw [Layout.shownAll_ofBlock]
  exact agreeOnLeaves_blocks h

/-! ## Calls -/

/-- The sections that a block opens, each with the scope it stands in and why it is shown. A
document opens the sections of its body; the outermost one also opens those of tooltip documents. -/
inductive Opens (tooltips : List Document) : Scope → Block → Scope → SectionMode → Section → Prop
  | subsection (scope : Scope) (s : Section) :
    Opens tooltips scope (.subsection s) { scope with level := scope.level + 1 }
      (scope.nestedMode s) s
  | reference {scope : Scope} {r : SectionRef} {s : Section} (hs : scope.referenced? r = some s) :
    Opens tooltips scope (.sectionRef r) scope (.copy r.showTitle) s
  | body {scope : Scope} {d : Document} {s : Section} (hnew : d.id ∉ scope.documents.map (·.id))
    (hs : s ∈ d.body) : Opens tooltips scope (.document d) (scope.insideDocument d) .anchored s
  | tooltip {scope : Scope} {d t : Document} {s : Section} (houter : scope.documents = [])
    (ht : t ∈ tooltips) (hnew : t.id ≠ d.id) (hs : s ∈ t.body) :
    Opens tooltips scope (.document d) ((scope.insideDocument d).insideDocument t) .anchored s

/-- The blocks, with their scopes, that rendering a block calls for: those inside it, and those of a
section that it opens and that is not open already. -/
inductive Calls (tooltips : List Document) : Scope × Block → Scope × Block → Prop
  | inside {scope : Scope} {b b' : Block} (hsimple : b.isSimple = true)
    (h : b' ∈ b.inner scope.renderer) : Calls tooltips (scope, b) (scope, b')
  | opened {scope outer : Scope} {mode : SectionMode} {s : Section} {b b' : Block}
    (hopens : Opens tooltips scope b outer mode s) (hnew : s.id ∉ outer.sections)
    (h : b' ∈ s.content) : Calls tooltips (scope, b) (outer.insideSection mode s, b')

/-- Two renderers agree on what rendering a block calls for. -/
def AgreeOnCalls (tooltips : List Document) (f g : BlockRenderer) (c : Scope × Block) : Prop :=
  ∀ c', Calls tooltips c c' → ∀ number, f c'.1 number c'.2 = g c'.1 number c'.2

section Locality

variable {f g : BlockRenderer} {tooltips : List Document}

/-- A section looks at the renderer for its own blocks only. -/
theorem renderSection_congr {scope : Scope} (mode : SectionMode) (number : Option String)
    {s : Section} (h : s.id ∉ scope.sections → ∀ b ∈ s.content, ∀ number,
      f (scope.insideSection mode s) number b = g (scope.insideSection mode s) number b) :
    renderSection f scope mode number s = renderSection g scope mode number s := by
  by_cases hopen : s.id ∈ scope.sections
  · rw [renderSection_opened f mode number hopen, renderSection_opened g mode number hopen]
  · rw [Layout.renderSection_eq f scope number hopen, Layout.renderSection_eq g scope number hopen,
      renderAll_congr _
        (Layout.shownAll_ofSection _ mode number s ▸ agreeOnLeaves_blocks (h hopen))]

theorem articleFront_congr {inner : Scope} {d : Document}
    (h : ∀ s ∈ d.body, ∀ number, bodySection f inner number s = bodySection g inner number s) :
    Rendered.sequence (articleFront f inner d) = Rendered.sequence (articleFront g inner d) := by
  rw [Layout.sequence_articleFront, Layout.sequence_articleFront]
  exact renderAll_congr _ (Layout.shownAll_ofDocument inner d ▸ agreeOnLeaves_sections h)

/-- An article looks at the renderer for its own sections only. -/
theorem innerArticle_congr {scope : Scope} {d : Document}
    (h : d.id ∉ scope.documents.map (·.id) → ∀ s ∈ d.body, ∀ number,
      bodySection f (scope.insideDocument d) number s =
        bodySection g (scope.insideDocument d) number s) :
    innerArticle f scope d = innerArticle g scope d := by
  unfold innerArticle
  cases hopen : scope.documents.any (fun other => other.id == d.id) with
  | true => rw [articleWith_opened f _ hopen, articleWith_opened g _ hopen]
  | false =>
    have hnew : d.id ∉ scope.documents.map (·.id) := fun hmem =>
      Bool.eq_false_iff.mp hopen (any_id_iff.mpr hmem)
    rw [articleWith_eq f _ hopen, articleWith_eq g _ hopen, sequence_append_singleton,
      sequence_append_singleton, articleFront_congr (h hnew)]

/-- Inside of a document, rendering a block depends on its calls only. -/
theorem blockWith_congr {scope : Scope} (hinside : scope.documents ≠ []) {b : Block}
    (h : AgreeOnCalls tooltips f g (scope, b)) (number : Option String) :
    blockWith f scope number b = blockWith g scope number b := by
  have hsection : ∀ {outer mode s}, Opens tooltips scope b outer mode s → ∀ number,
      renderSection f outer mode number s = renderSection g outer mode number s :=
    fun hopens number => renderSection_congr _ number fun hnew b' hb' =>
      h _ (.opened hopens hnew hb')
  by_cases hsimple : b.isSimple = true
  · exact blockWith_congr_simple hsimple (fun b' hb' => h _ (.inside hsimple hb')) number
  · cases b with
    | subsection s => exact hsection (.subsection scope s) number
    | sectionRef r =>
      show sectionRef f scope r = sectionRef g scope r
      unfold sectionRef
      split
      · next s hs => exact hsection (.reference hs) none
      · rfl
    | document d =>
      show Rendered.classed "div" "embedded-document" (article f scope d) =
        Rendered.classed "div" "embedded-document" (article g scope d)
      have hinner := innerArticle_congr fun hnew s hs number =>
        hsection (Opens.body hnew hs) number
      rw [article_of_inside f hinside, article_of_inside g hinside, hinner]
    | _ => exact absurd rfl hsimple

end Locality

end Scope

end Compendium
