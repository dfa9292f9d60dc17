import Compendium.Proofs.Markup.Content
import Compendium.Proofs.Render.Kept
import Compendium.Proofs.Render.WellFormed

/-!
# Plain text and rendered text

A title is shown in two ways: rendered as inline text, and as plain text in tabs, in the table of
contents and in navigation. Plain text has nothing for references to footnotes and for unrecognized
pieces. A title without these shows the same text both ways, wherever it stands: styles, formulas
and links are elements around their text, and a link that is not opened again is its text alone.
-/

namespace Compendium

mutual

/-- The piece is no reference to a footnote and not unrecognized, nor is any piece in it. -/
def Inline.isProse : Inline → Bool
  | .text _ => true
  | .styled _ _ => true
  | .math _ => true
  | .link content _ _ => Inline.isProseList content
  | .footnote _ => false
  | .code _ => true
  | .unknown _ => false

/-- All pieces are such. -/
def Inline.isProseList : List Inline → Bool
  | [] => true
  | i :: rest => i.isProse && Inline.isProseList rest

end

namespace Scope

open Markup

/-! ## Inline text -/

theorem textIn_styled (s : String) (styles : List TextStyle) :
    textIn (styled s styles) = s.toList := by
  refine styled_induction (Q := fun m => textIn m = s.toList) (textIn_text s) (fun tag _ m hm => ?_)
    (fun style _ m hm => ?_) styles
  · rw [textIn_node, textInList_singleton, hm]
  · rw [textIn_node, textInList_singleton, hm]

theorem textIn_formula (f : Formula) : textIn (formula f) = f.content.toList := by
  unfold formula displayFormula
  split
  · exact textIn_leaf _ _ _
  · exact textIn_leaf _ _ _

/-- A link shows what its content shows, whether it is opened or not. -/
theorem textInList_link (scope : Scope) (target : LinkTarget) (tooltip : Option String)
    {content : Scope → Rendered} {s : List Char}
    (h : ∀ inner noted, textInList ((content inner).run noted).1 = s) (noted : List Document) :
    textInList ((scope.link target tooltip content).run noted).1 = s := by
  refine forall_link (Q := fun ms => textInList ms = s) (h scope) (fun noted => ?_) noted
  rw [textInList_singleton, textIn_node, h]

mutual

theorem textInList_inlinePiece : ∀ (scope : Scope) (i : Inline), i.isProse = true →
    ∀ noted, textInList ((scope.inlinePiece i).run noted).1 = i.plainText.toList
  | scope, .text s, _, _ => by
    rw [inlinePiece, Inline.plainText]
    show textInList [.text s] = s.toList
    rw [textInList_singleton, textIn_text]
  | scope, .styled s styles, _, _ => by
    rw [inlinePiece, Inline.plainText]
    show textInList [styled s styles] = s.toList
    rw [textInList_singleton, textIn_styled]
  | scope, .math f, _, _ => by
    rw [inlinePiece, Inline.plainText]
    show textInList [formula f] = f.content.toList
    rw [textInList_singleton, textIn_formula]
  | scope, .link content target tooltip, h, noted => by
    rw [Inline.isProse] at h
    rw [inlinePiece, Inline.plainText]
    exact textInList_link scope target tooltip
      (fun inner noted => textInList_inlines inner content h noted) noted
  | scope, .footnote _, h, _ => by
    rw [Inline.isProse] at h
    cases h
  | scope, .code s, _, _ => by
    rw [inlinePiece, Inline.plainText]
    show textInList [.leaf "code" [] s] = s.toList
    rw [textInList_singleton, textIn_leaf]
  | scope, .unknown _, h, _ => by
    rw [Inline.isProse] at h
    cases h

theorem textInList_inlines : ∀ (scope : Scope) (content : List Inline),
    Inline.isProseList content = true → ∀ noted,
      textInList ((scope.inlines content).run noted).1 = (Inline.plainTextList content).toList
  | scope, [], _, _ => by
    rw [inlines, Inline.plainTextList]
    rfl
  | scope, i :: rest, h, noted => by
    rw [Inline.isProseList, Bool.and_eq_true] at h
    have hfirst := textInList_inlinePiece scope i h.1 noted
    have hothers := textInList_inlines scope rest h.2 ((scope.inlinePiece i).run noted).2
    rw [inlines, Inline.plainTextList, String.toList_append, ← hfirst, ← hothers,
      ← textInList_append]
    rfl

end

/-! ## Labels -/

/-- What is shown of clean markup, given the text in it. -/
theorem shown?_of_textIn {ms : List Markup} {s : String} (hclean : CleanTrees ms)
    (htext : textInList ms = s.toList) : shown? (render ms) = some s := by
  rw [shown?_render hclean, htext, String.ofList_toList]

theorem textIn_panelLabel {p : Panel} {title : List Inline} (h : p.title = some title) :
    textIn (panelLabel p) = (Inline.plainTextList title).toList := by
  unfold panelLabel
  rw [h]
  exact textIn_text _

theorem shown?_panelButton {p : Panel} {title : List Inline} (h : p.title = some title)
    {attrs : List Attr} (hattrs : CleanAttrs attrs) :
    shown? (render [.node "button" attrs [panelLabel p]]) = some (Inline.plainTextList title) := by
  refine shown?_of_textIn ?_ ?_
  · have hlabel : CleanTree (panelLabel p) := trivial
    simp +decide [hattrs, hlabel]
  · simp [textIn_panelLabel h]

/-- An entry of the table of contents starts with a link that shows the title. -/
theorem tocEntry_eq (id title : String) (children : List TocEntry) :
    tocEntry (.mk id title children) =
      .node "li" [] (.leaf "a" [("href", "#" ++ id)] title :: tocSublist children) := by
  rw [tocEntry]

theorem shown?_sectionLink (id label : String) :
    shown? (render [.leaf "a" [("href", "#" ++ id)] label]) = some label :=
  shown?_of_textIn (by simp +decide) (by simp)

/-- A title without references to footnotes and unrecognized pieces shows its plain text, in every
scope and whatever is noted; and so do the tab or the toggle of a panel with this title, and the
entry in the table of contents and in the navigation of a section with this title. -/
theorem title_shown_as_plain_text (title : List Inline) (hprose : Inline.isProseList title = true)
    (scope : Scope) (noted : List Document) :
    let shownTitle := shown? (render ((scope.inlines title).run noted).1)
    shownTitle = some (Inline.plainTextList title) ∧
    (∀ p : Panel, p.title = some title → ∀ state : PanelState,
      shown? (render [tabButton state p]) = shownTitle ∧
      ∀ (blocks : BlocksRenderer) (before : List Document), ∃ attrs toggle rest,
        ((scope.accordionItem blocks state p).run before).1 = [.node "div" attrs (toggle :: rest)] ∧
          shown? (render [toggle]) = shownTitle) ∧
    ∀ s : Section, s.title = some title →
      (∃ link, resourceLink s = .node "li" [] [link] ∧ shown? (render [link]) = shownTitle) ∧
      ∃ entry, s.tocEntries = [entry] ∧ ∃ link rest,
        tocEntry entry = .node "li" [] (link :: rest) ∧ shown? (render [link]) = shownTitle := by
  have htitle : shown? (render ((scope.inlines title).run noted).1) =
      some (Inline.plainTextList title) :=
    shown?_of_textIn (clean_inlines scope title noted) (textInList_inlines scope title hprose noted)
  refine ⟨htitle, fun p hp state => ?_, fun s hs => ?_⟩
  · rw [htitle]
    exact ⟨shown?_panelButton hp (by simp +decide), fun blocks before => ⟨_, _, _, rfl,
      shown?_panelButton hp (by simp +decide)⟩⟩
  · rw [htitle]
    have hlabel : s.titleText? = some (Inline.plainTextList title) := by
      rw [Section.titleText?, hs]; rfl
    refine ⟨⟨_, rfl, ?_⟩, ?_⟩
    · rw [hlabel]
      exact shown?_sectionLink s.id _
    · obtain ⟨id, sectionTitle, content, metadata, display⟩ := s
      obtain rfl : sectionTitle = some title := hs
      exact ⟨_, by rw [Section.tocEntries], _, _, tocEntry_eq _ _ _, shown?_sectionLink id _⟩

/-- A title with a formula and code in a link, which is repeated inside of the link. -/
def linkedTitle : List Inline :=
  [.text "If ", .styled "a < b" [.bold, .color "teal"], .text " & ",
    .link [.math ⟨"c", some true⟩, .link [.code " > d"] (.url "#e") none] (.url "#e")
      (some "see e")]

theorem linkedTitle_shown_as_plain_text :
    let scope : Scope := ({} : Renderer).scope .empty []
    Inline.isProseList linkedTitle = true ∧
      shown? (render ((scope.inlines linkedTitle).run []).1) = some "If a < b & c > d" ∧
      let layout : PanelLayout := ⟨"tabs", [⟨"p", some linkedTitle, [], true⟩], .tabs⟩
      ∃ tab, layout.panels.map (tabButton (.initial layout)) = [tab] ∧
        shown? (render [tab]) = some "If a < b & c > d" := by
  have hplain : Inline.plainTextList linkedTitle = "If a < b & c > d" := by decide +kernel
  obtain ⟨htitle, hpanel, -⟩ := title_shown_as_plain_text linkedTitle (by decide +kernel)
    (({} : Renderer).scope .empty []) []
  rw [hplain] at htitle
  exact ⟨by decide +kernel, htitle, _, rfl, ((hpanel _ rfl _).1).trans htitle⟩

end Scope

end Compendium
