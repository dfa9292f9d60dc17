import Compendium.Proofs.Markup.Content
import Compendium.Proofs.Render.StyleValues
import Compendium.Proofs.Render.WellFormed

/-!
# The styles of a page

The styles of a page are those of its sources, so each style is cut at its semicolons into one
declaration for each property of its source. With other texts for the values the page has the same
sources with these texts: the text of a value neither adds nor drops a declaration. The styles that
are read from the written page, with the references resolved, are those of the tree.
-/

namespace Compendium

namespace Markup

/-! ## The styles of written markup -/

/-- The values of the styles of a piece, with the references in them resolved. -/
def Token.styles : Token → List String
  | start tag =>
    (tag.attrs.filter fun a => a.1 == "style".toList).map fun a => String.ofList (unescape a.2)
  | _ => []

/-- The values of the styles that are read from written markup, if it can be read. -/
def styles? (written : String) : Option (List String) :=
  (lex written.toList).map fun tokens => tokens.flatMap Token.styles

theorem Token.styles_merged (tokens : List Token) :
    (merged tokens).flatMap Token.styles = tokens.flatMap Token.styles := by
  induction tokens with
  | nil => rfl
  | cons t rest ih =>
    rw [List.flatMap_cons, ← ih]
    show (join t (merged rest)).flatMap Token.styles = _
    unfold join
    split
    · next hmerged =>
      rw [hmerged]
      rfl
    · rw [List.flatMap_cons]

theorem styles_tagOf (tag : String) (attrs : List Attr) (flags : List String) :
    Token.styles (.start (tagOf tag attrs flags)) = styleValues attrs := by
  have hname : (fun a : List Char × List Char => a.1 == "style".toList) ∘
      (fun a : Attr => (a.1.toList, escape a.2.toList)) = fun a => a.1 == "style" := by
    funext a
    rw [Bool.eq_iff_iff]
    simp [← String.toList_inj]
  show ((attrs.map fun a => (a.1.toList, escape a.2.toList)).filter _).map _ = _
  rw [List.filter_map, hname, List.map_map, styleValues]
  refine List.map_congr_left fun a _ => ?_
  show String.ofList (unescape (escape a.2.toList)) = a.2
  rw [unescape_escape, String.ofList_toList]

mutual

theorem styles_pieces : ∀ m : Markup, m.pieces.flatMap Token.styles = stylesIn [m]
  | .text s => by
    rw [pieces, List.flatMap_map, stylesIn_text, stylesIn_nil]
    exact List.flatMap_eq_nil_iff.mpr fun _ _ => rfl
  | .element tag attrs flags children => by
    rw [pieces, List.flatMap_cons, styles_tagOf, List.flatMap_append, styles_piecesList children,
      stylesIn_element, List.append_assoc]
    rfl
  | .void tag attrs flags => by
    rw [pieces, List.flatMap_singleton, styles_tagOf, stylesIn_void, stylesIn_nil, List.append_nil]
  | .script _ => by
    rw [stylesIn_script, stylesIn_nil]
    rfl
  | .raw _ => by
    rw [stylesIn_raw, stylesIn_nil]
    rfl

theorem styles_piecesList : ∀ ms : List Markup, (piecesList ms).flatMap Token.styles = stylesIn ms
  | [] => stylesIn_nil.symm
  | m :: rest => by
    rw [piecesList, List.flatMap_append, styles_pieces m, styles_piecesList rest, ← stylesIn_cons]

end

/-- The styles that are read from written clean trees are those of the trees. -/
theorem styles?_render {names : Names} {ms : List Markup} (h : CleanList names ms) :
    styles? (render ms) = some (stylesIn ms) := by
  rw [styles?, render, String.toList_ofList, lex_charsList h, Option.map_some, Token.styles_merged,
    styles_piecesList]

end Markup

namespace StyleSource

/-- The style is that of the source, and is cut into one declaration for each property of the
source. -/
def Writes (source : StyleSource) (style : String) : Prop :=
  source.style? = some style ∧
    ∃ written, written.map Prod.fst = source.properties ∧ Css.Declares style written

def isStyled (source : StyleSource) : Bool :=
  !source.properties.isEmpty

theorem Writes.properties_eq {source : StyleSource} {style : String} (h : source.Writes style) :
    source.properties = Css.properties style := by
  have hstyle := h.1
  unfold style? at hstyle
  split at hstyle
  · cases hstyle
  · next hsome =>
    cases hstyle
    exact (Css.properties_style source.declares (by simpa using hsome)).symm

theorem writes_styles (sources : List StyleSource) :
    List.Forall₂ Writes (sources.filter isStyled) (styles sources) := by
  induction sources with
  | nil => exact .nil
  | cons source rest ih =>
    have hlength := source.declares.length_eq
    by_cases hnone : source.declarations = []
    · have hproperties : source.properties = [] := by simpa [hnone] using hlength
      have hstyle : source.style? = none := if_pos (by simpa using hnone)
      simpa [isStyled, hproperties, hstyle] using ih
    · have hproperties : source.properties ≠ [] := fun h => hnone (by simpa [h] using hlength.symm)
      have hstyle : source.style? = some (Css.style source.declarations) :=
        if_neg (by simpa using hnone)
      rw [List.filter_cons_of_pos (by simpa [isStyled] using hproperties), styles_cons, hstyle]
      exact .cons ⟨hstyle, source.exists_declares hstyle⟩ ih

theorem filter_isStyled_revalued (f : String → String) (sources : List StyleSource) :
    (sources.map (revalued f)).filter isStyled = (sources.filter isStyled).map (revalued f) := by
  rw [List.filter_map]
  exact congrArg (fun p => (sources.filter p).map _)
    (funext fun source => by simp [isStyled, properties_revalued])

end StyleSource

namespace Renderer

open Markup Rendered Scope StyleSource

/-- A page and its copies with other values for the styles. Every style of the page has a source,
and is cut into one declaration for each property of it. The page with other values has the same
sources with these values, so it declares the same properties. The styles are read from the written
page as they are, unless components write text of their own. -/
structure KeepsDeclarations (r : Renderer) (page : List Markup)
    (revalued : (String → String) → List Markup) : Prop where
  declares : ∃ sources : List StyleSource, List.Forall₂ Writes sources (stylesIn page) ∧
    ∀ f, List.Forall₂ Writes (sources.map (StyleSource.revalued f)) (stylesIn (revalued f))
  properties : ∀ f, (stylesIn (revalued f)).map Css.properties = (stylesIn page).map Css.properties
  read : r.components = [] → styles? (render page) = some (stylesIn page)

theorem keepsDeclarations_of_alike {r : Renderer} {x : Rendered} {y : (String → String) → Rendered}
    (h : Alike x y) (hclean : r.components = [] → CleanList documentNames (x.run []).1) :
    r.KeepsDeclarations (x.run []).1 fun f => ((y f).run []).1 := by
  obtain ⟨sources, hsources, hrun⟩ := h []
  have hpage := writes_styles sources
  rw [← hsources] at hpage
  have hother : ∀ f, List.Forall₂ Writes ((sources.filter isStyled).map (StyleSource.revalued f))
      (stylesIn ((y f).run []).1) := by
    intro f
    have hstyles := (hrun f).1
    rw [List.map_nil] at hstyles
    rw [hstyles, ← filter_isStyled_revalued]
    exact writes_styles _
  have hproperties : ∀ {sources : List StyleSource} {styles : List String},
      List.Forall₂ Writes sources styles → styles.map Css.properties = sources.map properties := by
    intro sources styles hwrites
    induction hwrites with
    | nil => rfl
    | cons hwrites _ ih => rw [List.map_cons, List.map_cons, ih, hwrites.properties_eq]
  refine ⟨⟨_, hpage, hother⟩, fun f => ?_, fun hbare => styles?_render (hclean hbare)⟩
  rw [hproperties (hother f), hproperties hpage, List.map_map]
  exact List.map_congr_left fun source _ => source.properties_revalued f

/-- The texts of style values neither add nor drop declarations. -/
theorem style_values_keep_declarations (r : Renderer) (view : View) :
    (∀ d, r.KeepsDeclarations (r.document view d) fun f => r.document view (d.revalued f)) ∧
    (∀ d s, r.KeepsDeclarations (r.sectionOf view d s) fun f =>
      r.sectionOf view (d.revalued f) (s.revalued f)) ∧
    ∀ b, r.KeepsDeclarations (r.blockAlone view b) fun f => r.blockAlone view (b.revalued f) := by
  have hclean : CleanBlocks r.block := clean_renderBlock r.settings.maxDepth
  have halike : AlikeBlocks r.block := alike_renderBlock r.settings.maxDepth
  refine ⟨fun d => ?_, fun d s => ?_, fun b => ?_⟩
  · refine keepsDeclarations_of_alike
      ((alike_article halike (r.scope view d.parts) d).of_eq rfl fun f => ?_)
      fun hbare => clean_article hclean hbare d []
    rw [scope_revalued f r view (Part.tooltipCount_revalued f d)]
  · refine keepsDeclarations_of_alike ((alike_renderSection halike
      { r.scope view d.parts with documents := [d] } .anchored none s).of_eq rfl fun f =>
        ?_) fun hbare =>
        clean_renderSection hclean
          (show { r.scope view d.parts with documents := [d] }.renderer.components = [] from hbare)
          .anchored none s []
    rw [scope_revalued f r view (Part.tooltipCount_revalued f d)]
    rfl
  · refine keepsDeclarations_of_alike ((halike (r.scope view b.parts) none b).of_eq rfl fun f => ?_)
      fun hbare => hclean _ hbare none b []
    rw [scope_revalued f r view
      (Part.tooltipCount_block (fun t _ => Part.tooltipCount_revalued f t) _
      (Nat.le_refl _) b (Nat.le_refl _))]

end Renderer

end Compendium
