import Compendium.Proofs.Markup.Nesting
import Compendium.Proofs.Render.Kept
import Compendium.Proofs.Render.WellFormed

/-!
# Anchors never nest

The links around a text decide whether it may hold anchors: with no link open it may, and inside of
a link it holds none, since a link there is only a span or only its text, and so is a reference to a
footnote. Blocks stand in no link, and the anchors in tables of contents, navigation and
bibliography hold a text and nothing else.
-/

namespace Compendium

namespace Markup

mutual

/-- The anchors of plain markup do not nest. -/
theorem apart_of_plain : ∀ {m : Markup}, m.Plain → Apart "a" false m
  | .text _, _ | .script _, _ | .raw _, _ => trivial
  | .void tag _ _, h => by
    have hother : ∀ tag ∈ documentNames.voids, tag ≠ "a" := by decide
    exact hother tag h.1.1
  | .element tag attrs flags content, h => by
    obtain ⟨-, -, hanchor, hcontent⟩ := h
    by_cases htag : tag = "a"
    · -- an anchor holds one text
      obtain ⟨s, rfl⟩ := hanchor htag
      exact ⟨fun _ => rfl, trivial, trivial⟩
    · exact (apart_element htag attrs flags content).mpr (apartList_of_plain hcontent)

theorem apartList_of_plain : ∀ {ms : List Markup}, PlainList ms → ApartList "a" false ms
  | [], _ => trivial
  | _ :: _, h => ⟨apart_of_plain h.1, apartList_of_plain h.2⟩

end

end Markup

namespace Scope

open Markup Rendered

/-- The markup of the step has no anchor inside another one, and none at all if it stands in an
anchor. -/
def AnchorsApart (within : Bool) (x : Rendered) : Prop :=
  ∀ noted, ApartList "a" within (x.run noted).1

section Steps

variable {within : Bool} {x y : Rendered}

theorem anchorsApart_pure {ms : List Markup} (h : ApartList "a" within ms) :
    AnchorsApart within (pure ms) :=
  fun _ => h

theorem AnchorsApart.append (hx : AnchorsApart within x) (hy : AnchorsApart within y) :
    AnchorsApart within (do
      let first ← x
      let others ← y
      return first ++ others) :=
  fun noted => (apartList_append _ _).mpr ⟨hx noted, hy (x.run noted).2⟩

theorem AnchorsApart.element (hx : AnchorsApart within x) {tag : String} (htag : tag ≠ "a")
    (attrs : List Attr) (flags : List String) :
    AnchorsApart within (do
      let content ← x
      return [.element tag attrs flags content]) :=
  fun noted => ⟨(apart_element htag attrs flags _).mpr (hx noted), trivial⟩

theorem AnchorsApart.inside (hx : AnchorsApart within x) {tag : String} (htag : tag ≠ "a")
    (attrs : List Attr) : AnchorsApart within (Rendered.inside tag attrs x) :=
  hx.element htag attrs []

theorem AnchorsApart.mono (hx : AnchorsApart true x) : AnchorsApart within x :=
  fun noted => (hx noted).mono

/-- An anchor may stand around what has none. -/
theorem AnchorsApart.anchor (hx : AnchorsApart true x) (attrs : List Attr) :
    AnchorsApart false (Rendered.inside "a" attrs x) :=
  fun noted => ⟨⟨fun _ => rfl, hx noted⟩, trivial⟩

theorem AnchorsApart.after {α : Type} {first : Rendering α} {next : α → Rendered}
    (h : ∀ a, AnchorsApart within (next a)) : AnchorsApart within (first >>= next) :=
  fun noted => h (first.run noted).1 (first.run noted).2

end Steps

/-! ## Inline text -/

/-- Whether a text stands in a link. -/
def inLink (scope : Scope) : Bool :=
  !scope.links.isEmpty

theorem apart_leaf {tag : String} (htag : tag ≠ "a") (within : Bool) (attrs : List Attr)
    (s : String) :
    Apart "a" within (.leaf tag attrs s) :=
  (apart_element htag attrs [] _).mpr ⟨trivial, trivial⟩

theorem apart_styled (s : String) (styles : List TextStyle) : Apart "a" true (styled s styles) := by
  refine styled_induction (Q := Apart "a" true) trivial (fun tag htag m hm => ?_)
    (fun style _ m hm => ?_)
    styles
  · have hother : ∀ tag ∈ styleTags, tag ≠ "a" := by decide
    exact (apart_element (hother tag htag) [] [] _).mpr ⟨hm, trivial⟩
  · exact (apart_element (by decide) _ [] _).mpr ⟨hm, trivial⟩

theorem apart_footnoteRef (scope : Scope) (id : String) :
    Apart "a" scope.inLink (scope.footnoteRef id) := by
  unfold footnoteRef inLink
  refine (apart_element (by decide) _ [] _).mpr ⟨?_, trivial⟩
  cases scope.links.isEmpty with
  | true => exact ⟨fun _ => rfl, trivial, trivial⟩
  | false => exact apart_leaf (by decide) _ _ _

/-- A link is an anchor only if no link is open, and inside of it one is. -/
theorem anchorsApart_link (scope : Scope) (target : LinkTarget) (tooltip : Option String)
    {content : Scope → Rendered} (h : ∀ inner, AnchorsApart inner.inLink (content inner)) :
    AnchorsApart scope.inLink (scope.link target tooltip content) := by
  have hinside : AnchorsApart true (content (scope.insideLink target)) :=
    h (scope.insideLink target)
  have htag : scope.linkTag target = "a" → scope.inLink = false := by
    unfold linkTag linkHref? inLink
    cases scope.links.isEmpty <;> simp
  refine forall_link (h scope) ?_
  by_cases hanchor : scope.linkTag target = "a"
  · rw [hanchor, htag hanchor]
    exact hinside.anchor _
  · exact hinside.mono.inside hanchor _

mutual

theorem anchorsApart_inlinePiece : ∀ (scope : Scope) (i : Inline),
    AnchorsApart scope.inLink (scope.inlinePiece i)
  | _, .text s => anchorsApart_pure ⟨trivial, trivial⟩
  | _, .styled s styles => anchorsApart_pure ⟨(apart_styled s styles).mono, trivial⟩
  | scope, .math f => by
    rw [inlinePiece]
    refine anchorsApart_pure ⟨?_, trivial⟩
    unfold formula displayFormula
    split
    · exact apart_leaf (by decide) _ _ _
    · exact apart_leaf (by decide) _ _ _
  | scope, .link content target tooltip =>
    anchorsApart_link scope target tooltip fun inner => anchorsApart_inlines inner content
  | scope, .footnote id => anchorsApart_pure ⟨apart_footnoteRef scope id, trivial⟩
  | _, .code s => anchorsApart_pure ⟨apart_leaf (by decide) _ _ _, trivial⟩
  | scope, .unknown u => by
    rw [inlinePiece]
    refine anchorsApart_pure ?_
    unfold unknownInline
    split
    · exact ⟨apart_leaf (by decide) _ _ _, trivial⟩
    · trivial

theorem anchorsApart_inlines : ∀ (scope : Scope) (content : List Inline),
    AnchorsApart scope.inLink (scope.inlines content)
  | _, [] => anchorsApart_pure trivial
  | scope, i :: rest => (anchorsApart_inlinePiece scope i).append (anchorsApart_inlines scope rest)

end

/-! ## Blocks -/

/-- Outside of links, anchors do not nest. -/
def FlatAnchors (scope : Scope) (x : Rendered) : Prop :=
  scope.links = [] → AnchorsApart false x

theorem anchorsApart_marker (cssClass : String) (attrs : List Attr) (message : String) :
    AnchorsApart false (pure [marker cssClass attrs message]) :=
  anchorsApart_pure ⟨apart_leaf (by decide) _ _ _, trivial⟩

/-- Rendering keeps anchors from nesting. -/
theorem flatAnchors_kept : KeptOutside FlatAnchors where
  closed _ := Rendered.ClosedIn.within
    { nil := fun _ => anchorsApart_pure trivial
      append := fun hx hy hlinks => (hx hlinks).append (hy hlinks)
      fixed := fun hplain _ => anchorsApart_pure ⟨apart_of_plain hplain, trivial⟩
      element := fun htag _ _ hx hlinks => (hx hlinks).element htag _ _ }
  texts scope content hlinks := by
    have houtside : scope.inLink = false := by rw [inLink, hlinks]; rfl
    have htext := anchorsApart_inlines scope content
    rwa [houtside] at htext
  depth _ _ := anchorsApart_marker _ _ _
  missing _ _ _ := anchorsApart_marker _ _ _
  deeper hx hlinks := hx hlinks
  opened _ _ hx hlinks := (hx hlinks).inside (by decide) _
  article _ hx hlinks := (hx hlinks).inside (by decide) _
  ask hnext hlinks := AnchorsApart.after fun noted => hnext noted hlinks
  tooltip _ hx hlinks := (hx hlinks).inside (by decide) _
  aside hx hlinks := (hx hlinks).element (by decide) _ _
  sectionCycle _ _ := anchorsApart_marker _ _ _
  documentCycle _ _ := anchorsApart_marker _ _ _

end Scope

namespace Renderer

open Markup Scope

/-- In the text of a document, a section or a block, no anchor is opened inside another one. -/
theorem rendered_anchorsApart (settings : RenderSettings) (view : View) :
    let r : Renderer := { settings := settings }
    (∀ d, WrittenApart documentNames "a" (r.document view d)) ∧
    (∀ d s, WrittenApart documentNames "a" (r.sectionOf view d s)) ∧
    (∀ b, WrittenApart documentNames "a" (r.blockAlone view b)) := by
  intro r
  have htag : "a" ∈ documentNames.elements := by decide
  have hclean : CleanBlocks r.block := clean_renderBlock settings.maxDepth
  have hblock : ∀ scope number b, FlatAnchors scope (r.block scope number b) :=
    keptOutside_renderBlock flatAnchors_kept settings.maxDepth
  refine ⟨fun d => ?_, fun d s => ?_, fun b => ?_⟩
  · exact writtenApart_of_clean htag (clean_article hclean rfl d [])
      (keptOutside_article flatAnchors_kept hblock (r.scope view d.parts) d rfl [])
  · let scope : Scope := { r.scope view d.parts with documents := [d] }
    have hscope : scope.renderer.components = [] := rfl
    exact writtenApart_of_clean htag (clean_renderSection hclean hscope .anchored none s [])
      (keptOutside_renderSection flatAnchors_kept hblock scope .anchored none s rfl [])
  · exact writtenApart_of_clean htag (hclean _ rfl none b [])
      (hblock (r.scope view b.parts) none b rfl [])

end Renderer

end Compendium
