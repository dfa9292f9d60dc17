import Compendium.Proofs.Render.Anchors
import Compendium.Proofs.Render.Parallel
import Compendium.Proofs.View.History

/-!
# What a page takes from the view

The view is asked in three places: for the panels of a layout, for whether a block is folded, and
for the values of controls. So two views that answer alike for the layouts, blocks and controls of a
document give the same page. For tabs, the buttons and the panels are made by two loops that ask the
same state; in a view that was reached by events, one button is selected and one panel is shown, and
they belong together.
-/

namespace Compendium

/-- The views answer alike for all layouts, foldable blocks and controls among the parts. -/
structure View.AgreeOn (W : List Part) (v w : View) : Prop where
  panels : ∀ l, .block (.panels l) ∈ W → v.panelState l = w.panelState l
  collapsed : ∀ c, .block (.collapsible c) ∈ W → v.isCollapsed c = w.isCollapsed c
  controls : ∀ g, .block (.controls g) ∈ W → ∀ c ∈ g.controls,
    v.controlValue g c.id = w.controlValue g c.id

theorem View.AgreeOn.mono {W W' : List Part} {v w : View} (h : v.AgreeOn W w) (hsub : W' ⊆ W) :
    v.AgreeOn W' w :=
  ⟨fun l hl => h.panels l (hsub hl), fun c hc => h.collapsed c (hsub hc),
    fun g hg => h.controls g (hsub hg)⟩

namespace Scope

def viewed (scope : Scope) (view : View) : Scope :=
  { scope with view := view }

def viewing (f : BlockRenderer) (view : View) : BlockRenderer :=
  fun scope number b => f (scope.viewed view) number b

/-! ## Changing the view outside or inside -/

/-- Rendering steps that are equal. -/
theorem parallel_eq : Parallel (· = ·) where
  same _ := rfl
  append hx hx' := by rw [hx, hx']
  element _ hx := by rw [hx]
  ask h := congrArg (get >>= ·) (funext h)

theorem viewing_eq (f : BlockRenderer) (view : View) (scope : Scope)
    (number : Option String) (b : Block) :
    viewing f view scope number b = f (scope.altered (fun _ => view) id) number b :=
  rfl

theorem article_viewed (f : BlockRenderer) (view : View) (scope : Scope) (d : Document) :
    article (viewing f view) scope d = article f (scope.viewed view) d :=
  parallel_article parallel_eq (viewing_eq f view) scope d

/-- A block asks the view for its own state, and for the blocks inside it. -/
theorem blockWith_viewed (f : BlockRenderer) {view : View} {scope : Scope} {b : Block}
    (hagree : scope.view.AgreeOn [.block b] view) (number : Option String) :
    blockWith (viewing f view) scope number b = blockWith f (scope.viewed view) number b := by
  refine parallel_blockWith parallel_eq (viewing_eq f view) ?_ number
  show Layout.ofBlock (scope.viewed view) b = Layout.ofBlock scope b
  cases b with
  | panels l =>
    have hstate : (scope.viewed view).view.panelState l = scope.view.panelState l :=
      (hagree.panels l List.mem_cons_self).symm
    show [Layout.panelLayout _ l] = [Layout.panelLayout _ l]
    rw [Layout.panelLayout, hstate, ← Layout.panelLayout]
  | collapsible c =>
    have hstate : (scope.viewed view).view.isCollapsed c = scope.view.isCollapsed c :=
      (hagree.collapsed c List.mem_cons_self).symm
    show [Layout.collapsible _ c] = [Layout.collapsible _ c]
    rw [Layout.collapsible, hstate, ← Layout.collapsible]
  | controls g =>
    have hcontrols : g.controls.map ((scope.viewed view).control g) =
        g.controls.map (scope.control g) := by
      refine List.map_congr_left fun c hc => ?_
      have hvalue : (scope.viewed view).view.controlValue g c.id = scope.view.controlValue g c.id :=
        (hagree.controls g List.mem_cons_self c hc).symm
      rw [Scope.control, hvalue]
      rfl
    show [Layout.fixed (Scope.controls _ g)] = [Layout.fixed (Scope.controls _ g)]
    rw [Scope.controls, hcontrols, ← Scope.controls]
  | _ => rfl

/-! ## Views that agree -/

theorem Calls.view {tooltips : List Document} {c c' : Scope × Block} (h : Calls tooltips c c') :
    c'.1.view = c.1.view := by
  cases h with
  | inside => rfl
  | opened hopens => cases hopens <;> rfl

/-- A block of the parts is the same for views that agree on the parts. -/
theorem renderBlock_viewed {W : List Part} (hclosed : Part.Closed W) {v w : View}
    (hagree : v.AgreeOn W w)
    (budget : Nat) {c : Scope × Block} (hc : Keeps W c) (hinside : c.1.documents ≠ [])
    (hview : c.1.view = v) (number : Option String) :
    renderBlock budget (c.1.viewed w) number c.2 = renderBlock budget c.1 number c.2 := by
  induction budget generalizing c number with
  | zero => rfl
  | succ budget ih =>
    have hown : c.1.view.AgreeOn [.block c.2] w := by
      rw [hview]
      refine hagree.mono (List.cons_subset.mpr ⟨hc.block.subset c.2.mem_parts, List.nil_subset _⟩)
    have hcalls : AgreeOnCalls (Part.tooltips W) (viewing (renderBlock budget) w)
        (renderBlock budget) c :=
      fun c' hcall number => ih (hc.calls hclosed hcall) (hcall.isInside (.inl hinside))
        (hcall.view.trans hview) number
    rw [renderBlock_succ, renderBlock_succ]
    calc blockWith (renderBlock budget) (c.1.viewed w) number c.2
        = blockWith (viewing (renderBlock budget) w) c.1 number c.2 :=
          (blockWith_viewed _ hown number).symm
      _ = blockWith (renderBlock budget) c.1 number c.2 := blockWith_congr hinside hcalls number

end Scope

namespace Renderer

open Scope

theorem document_congr (r : Renderer) {d : Document} {v w : View} (hagree : v.AgreeOn d.parts w) :
    r.document v d = r.document w d := by
  let scope := r.scope v d.parts
  have hmem : ∀ b, b ≠ .document d → .block b ∈ (Block.document d).parts → .block b ∈ d.parts := by
    intro b hb h
    rw [Block.parts] at h
    rcases List.mem_cons.mp h with heq | h
    · exact absurd (Part.block.inj heq) hb
    · exact h
  have hagree' : v.AgreeOn (Block.document d).parts w :=
    ⟨fun l hl => hagree.panels l (hmem _ (by simp) hl), fun c hc =>
      hagree.collapsed c (hmem _ (by simp) hc), fun g hg => hagree.controls g (hmem _ (by simp) hg)⟩
  have hcalls : AgreeOnCalls (Part.tooltips d.parts) r.block (viewing r.block w)
      (scope, .document d) := by
    intro c hcall number
    have hkeeps := Called.keeps (.single hcall)
    exact (renderBlock_viewed (closed_document d) hagree' r.settings.maxDepth hkeeps.1 hkeeps.2
      hcall.view number).symm
  calc r.document v d = ((article r.block scope d).run []).1 := rfl
    _ = ((article (viewing r.block w) scope d).run []).1 := congrArg Prod.fst
        (article_congr (emits_renderBlock d.parts r.settings.maxDepth) rfl hcalls)
    _ = ((article r.block (scope.viewed w) d).run []).1 := by rw [article_viewed]
    _ = r.document w d := rfl

end Renderer

/-! ## The active tab -/

namespace View

/-- In the event, the id of the layout stands for that layout. -/
def Event.Knows (l : PanelLayout) : Event → Prop
  | .selectTab layout _ => layout.id = l.id → layout = l
  | .togglePanel layout _ => layout.id = l.id → layout = l
  | _ => True

/-- The active tab of the layout is one of its panels. -/
def ShowsTab (v : View) (l : PanelLayout) : Prop :=
  ∃ p ∈ l.panels, v.panelState l = .tabs (some p.id)

variable {l : PanelLayout} {v : View}

theorem showsTab_empty (htabs : l.isTabs = true) (hpanels : l.panels ≠ []) :
    View.empty.ShowsTab l := by
  obtain ⟨id, hid⟩ := PanelLayout.exists_initialTab hpanels
  obtain ⟨p, hp, rfl⟩ := PanelLayout.hasPanel_iff.mp (PanelLayout.hasPanel_initialTab hid)
  refine ⟨p, hp, ?_⟩
  show PanelState.initial l = _
  rw [PanelLayout.initial_of_isTabs htabs, hid]

/-- Toggling a panel of one layout leaves the others as they are. -/
theorem panelState_togglePanel {layout : PanelLayout} (hid : l.id ≠ layout.id) (panel : String) :
    (v.togglePanel layout panel).2.panelState l = v.panelState l := by
  unfold togglePanel
  split
  · dsimp only
    split
    · split <;> rw [panelState_insert, if_neg hid]
    · rfl
  · rfl

/-- One event: the active tab changes to another panel, or not at all. -/
theorem ShowsTab.perform (h : v.ShowsTab l) (htabs : l.isTabs = true) {e : Event} (he : e.Knows l) :
    (e.perform v).2.ShowsTab l := by
  obtain ⟨p, hp, hstate⟩ := h
  cases e with
  | selectTab layout panel =>
    show (v.selectTab layout panel).2.ShowsTab l
    unfold selectTab
    split
    · next hvalid =>
      unfold ShowsTab
      rw [panelState_insert]
      by_cases hid : l.id = layout.id
      · obtain rfl := he hid.symm
        obtain ⟨q, hq, rfl⟩ := PanelLayout.hasPanel_iff.mp ((Bool.and_eq_true _ _).mp hvalid).2
        exact ⟨q, hq, if_pos rfl⟩
      · exact ⟨p, hp, by rw [if_neg hid, hstate]⟩
    · exact ⟨p, hp, hstate⟩
  | togglePanel layout panel =>
    show (v.togglePanel layout panel).2.ShowsTab l
    by_cases hid : l.id = layout.id
    · -- tabs are no accordion, so the event is refused
      obtain rfl := he hid.symm
      have hother : layout.isAccordion = false := by
        cases haccordion : layout.isAccordion with
        | false => rfl
        | true => exact absurd htabs (by rw [PanelLayout.isTabs_eq_false haccordion]; decide)
      rw [View.togglePanel, hother, Bool.false_and, if_neg Bool.false_ne_true]
      exact ⟨p, hp, hstate⟩
    · exact ⟨p, hp, (panelState_togglePanel hid panel).trans hstate⟩
  | toggleCollapsible block => exact ⟨p, hp, hstate⟩
  | changeControl group control value =>
    show (v.changeControl group control value).2.ShowsTab l
    unfold changeControl
    split
    · exact ⟨p, hp, hstate⟩
    · exact ⟨p, hp, hstate⟩

theorem ShowsTab.after (h : v.ShowsTab l) (htabs : l.isTabs = true) {events : List Event}
    (hevents : ∀ e ∈ events, e.Knows l) : (v.after events).ShowsTab l := by
  induction events generalizing v with
  | nil => exact h
  | cons e rest ih =>
    obtain ⟨he, hrest⟩ := List.forall_mem_cons.mp hevents
    exact ih (h.perform htabs he) hrest

end View

/-! ## Tabs on a page -/

namespace Markup

def flags : Markup → List String
  | element _ _ names _ => names
  | void _ _ names => names
  | _ => []

def isTabList (m : Markup) : Bool :=
  m.valueOf? "div" "role" == some "tablist"

def isSelected (m : Markup) : Bool :=
  m.valueOf? "button" "aria-selected" == some "true"

def isShownPanel (m : Markup) : Bool :=
  m.valueOf? "div" "role" == some "tabpanel" && !m.flags.contains "hidden"

def selectedTabs (m : Markup) : List (Option String) :=
  (((m.children.filter isTabList).flatMap children).filter isSelected).map
    (valueOf? "button" "data-panel-id")

/-- The panels of a layout that are not hidden. -/
def shownPanels (m : Markup) : List (Option String) :=
  (m.children.filter isShownPanel).map (valueOf? "div" "data-panel-id")

end Markup

namespace Scope

open Markup

section Tabs

variable (state : PanelState)

theorem selected_tabButtons (panels : List Panel) :
    ((panels.map (tabButton state)).filter isSelected).map (valueOf? "button" "data-panel-id") =
      (panels.filter fun p => state.isVisible p.id).map fun p => some p.id := by
  induction panels with
  | nil => rfl
  | cons p rest ih =>
    have hselected : isSelected (tabButton state p) = state.isVisible p.id := by
      show (some (flagWord (state.isVisible p.id)) == some "true") = _
      cases state.isVisible p.id <;> rfl
    rw [List.map_cons, List.filter_cons, List.filter_cons, hselected]
    cases state.isVisible p.id with
    | false => exact ih
    | true => exact congrArg (some p.id :: ·) ih

def tabPanel (p : Panel) : Layout :=
  Layout.panel (if state.isVisible p.id then "tab-panel panel-active" else "tab-panel")
    (state.isVisible p.id) [("role", "tabpanel")] p

theorem render_tabPanel (block : BlockRenderer) (scope : Scope) (p : Panel)
    (noted : List Document) :
    ∃ m noted', ((tabPanel state p).render block scope).run noted = ([m], noted') ∧
      isTabList m = false ∧ isShownPanel m = state.isVisible p.id ∧
      m.valueOf? "div" "data-panel-id" = some p.id := by
  unfold tabPanel Layout.panel
  rw [Layout.render]
  refine ⟨_, _, rfl, rfl, ?_, rfl⟩
  cases state.isVisible p.id <;> rfl

theorem tabPanels_run (block : BlockRenderer) (scope : Scope) (p : Panel) (rest : List Panel)
    (noted : List Document) :
    ∃ m noted', isTabList m = false ∧ isShownPanel m = state.isVisible p.id ∧
      m.valueOf? "div" "data-panel-id" = some p.id ∧
      ((Layout.renderAll block scope ((p :: rest).map (tabPanel state))).run noted).1 =
        m :: ((Layout.renderAll block scope (rest.map (tabPanel state))).run noted').1 := by
  obtain ⟨m, noted', hrun, hlist, hshown, hid⟩ := render_tabPanel state block scope p noted
  refine ⟨m, noted', hlist, hshown, hid, ?_⟩
  rw [List.map_cons, Layout.renderAll_cons, StateT.run_bind, hrun]
  rfl

/-- The panels of tabs are no list of tabs, and those that are shown are the visible ones. -/
theorem shown_tabPanels (block : BlockRenderer) (scope : Scope) (panels : List Panel)
    (noted : List Document) :
    ((Layout.renderAll block scope (panels.map (tabPanel state))).run noted).1.filter isTabList =
      [] ∧
      (((Layout.renderAll block scope (panels.map (tabPanel state))).run noted).1.filter
        isShownPanel).map
        (valueOf? "div" "data-panel-id") =
      (panels.filter fun p => state.isVisible p.id).map fun p => some p.id := by
  induction panels generalizing noted with
  | nil => exact ⟨rfl, rfl⟩
  | cons p rest ih =>
    obtain ⟨m, noted', hlist, hshown, hid, hcontent⟩ := tabPanels_run state block scope p rest noted
    obtain ⟨ihlist, ihshown⟩ := ih noted'
    rw [hcontent, List.filter_cons, List.filter_cons, List.filter_cons, hlist, hshown]
    refine ⟨ihlist, ?_⟩
    cases state.isVisible p.id with
    | false => exact ihshown
    | true => exact congrArg₂ List.cons hid ihshown

/-- Tabs with an active panel: its tab is selected, its panel is shown, and no others. -/
theorem tabs_show_active (budget : Nat) {scope : Scope} {l : PanelLayout} (htabs : l.isTabs = true)
    (hnodup : (l.panels.map (·.id)).Nodup) {p : Panel} (hp : p ∈ l.panels)
    (hstate : scope.view.panelState l = .tabs (some p.id)) (number : Option String)
    (noted : List Document) :
    ∃ m, ((renderBlock (budget + 1) scope number (.panels l)).run noted).1 = [m] ∧
      m.selectedTabs = [some p.id] ∧ m.shownPanels = [some p.id] := by
  let state := PanelState.tabs (some p.id)
  let buttons := l.panels.map (tabButton state)
  let shown :=
    ((Layout.renderAll (renderBlock budget) scope (l.panels.map (tabPanel state))).run noted).1
  have harrangement : l.arrangement = .tabs := by
    unfold PanelLayout.isTabs at htabs
    split at htabs
    · assumption
    · cases htabs
  have hvisible : l.panels.filter (fun q => state.isVisible q.id) = [p] := by
    have hsame : ∀ q : Panel, state.isVisible q.id = (q.id == p.id) := fun q => by
      rw [PanelState.isVisible, Option.some_beq_some, Bool.beq_comm]
    simp only [hsame]
    obtain ⟨q, hq⟩ := List.length_eq_one_iff.mp (View.filter_id_length hnodup hp)
    have hmem : p ∈ l.panels.filter fun q => q.id == p.id :=
      List.mem_filter.mpr ⟨hp, beq_self_eq_true p.id⟩
    rw [hq] at hmem ⊢
    rw [List.mem_singleton.mp hmem]
  have hlayout : Layout.panelLayout scope l = Layout.tabs l state := by
    rw [Layout.panelLayout, harrangement, hstate]
  have hrun : ((renderBlock (budget + 1) scope number (.panels l)).run noted).1 =
      [.element "div" [("class", "panel-layout layout-tabs"), ("data-layout-id", l.id)] []
        (.element "div" [("class", "tab-list"), ("role", "tablist")] [] buttons :: shown)] := by
    have hblock : renderBlock (budget + 1) scope number (.panels l) =
        Layout.renderAll (renderBlock budget) scope [Layout.tabs l state] := by
      rw [← hlayout, renderBlock_succ]
      exact (Layout.renderAll_ofBlock (renderBlock budget) scope number (b := .panels l) rfl).symm
    rw [hblock, Layout.renderAll_singleton, Layout.tabs, Layout.node, Layout.render,
      Layout.renderAll_cons, Layout.render, pure_bind]
    rfl
  obtain ⟨hlist, hshown⟩ := shown_tabPanels state (renderBlock budget) scope l.panels noted
  rw [hvisible] at hshown
  have hlists : (Markup.element "div" [("class", "tab-list"), ("role", "tablist")] [] buttons ::
      shown).filter isTabList =
        [.element "div" [("class", "tab-list"), ("role", "tablist")] [] buttons] :=
    congrArg (_ :: ·) hlist
  refine ⟨_, hrun, ?_, hshown⟩
  rw [selectedTabs, children, hlists, List.flatMap_singleton, children,
    selected_tabButtons, hvisible]
  rfl

end Tabs

end Scope

namespace Renderer

open Scope

/-- A page depends on the view through the state of the layouts, the foldable blocks and the
controls in its document alone. Tabs with different ids, in a view reached by events, have one
selected tab and one panel that is not hidden, both for the panel that the view has as the active
one. -/
theorem page_follows_view :
    (∀ (r : Renderer) (d : Document) (v w : View), v.AgreeOn d.parts w →
      r.document v d = r.document w d) ∧
    ∀ (l : PanelLayout) (events : List View.Event), l.isTabs = true → l.panels ≠ [] →
      (l.panels.map (·.id)).Nodup → (∀ e ∈ events, e.Knows l) →
      ∀ scope : Scope, scope.view = View.empty.after events →
        ∀ budget number noted, ∃ m, ∃ p ∈ l.panels, scope.view.panelState l = .tabs (some p.id) ∧
          ((renderBlock (budget + 1) scope number (.panels l)).run noted).1 = [m] ∧
          m.selectedTabs = [some p.id] ∧ m.shownPanels = [some p.id] := by
  refine ⟨fun r d v w hagree => r.document_congr hagree, ?_⟩
  intro l events htabs hpanels hnodup hevents scope hview budget number noted
  obtain ⟨p, hp, hstate⟩ := (View.showsTab_empty htabs hpanels).after htabs hevents
  rw [← hview] at hstate
  obtain ⟨m, hm⟩ := tabs_show_active budget htabs hnodup hp hstate number noted
  exact ⟨m, p, hp, hstate, hm⟩

/-- A document with tabs and a block that can be folded. -/
def guide : Document :=
  untitled "guide" [("body", [.panels View.twoTabs, .collapsible View.note])]

/-- The views differ in a layout that the document has not. -/
theorem page_follows_view_guide :
    ((View.empty.after [.togglePanel View.twoFolds "top"]).panelState View.twoFolds ≠
        View.empty.panelState View.twoFolds ∧
      (View.empty.after [.togglePanel View.twoFolds "top"]).AgreeOn guide.parts .empty ∧
      ({} : Renderer).document (View.empty.after [.togglePanel View.twoFolds "top"]) guide =
        ({} : Renderer).document .empty guide) ∧
    View.twoTabs.isTabs = true ∧ View.twoTabs.panels ≠ [] ∧ (View.twoTabs.panels.map (·.id)).Nodup ∧
      (∀ e ∈ View.smallPageEvents, e.Knows View.twoTabs) ∧
      ∃ scope : Scope, scope.view = View.empty.after View.smallPageEvents ∧ ∃ m : Markup,
        ((renderBlock 1 scope none (.panels View.twoTabs)).run []).1 = [m] ∧
          m.selectedTabs = [some "left"] ∧ m.shownPanels = [some "left"] := by
  have hparts : guide.parts = [.document guide,
      .division ⟨"body", none, [.panels View.twoTabs, .collapsible View.note], none, none⟩,
      .block (.panels View.twoTabs), .block (.collapsible View.note)] := rfl
  have hagree : (View.empty.after [.togglePanel View.twoFolds "top"]).AgreeOn
      guide.parts .empty := by
    refine ⟨fun l hl => ?_, fun _ _ => rfl, fun _ _ _ _ => rfl⟩
    obtain rfl : l = View.twoTabs := by simpa [hparts] using hl
    decide
  have hknown : ∀ e ∈ View.smallPageEvents, e.Knows View.twoTabs := by
    simp [View.smallPageEvents, View.Event.Knows, View.twoTabs, View.twoFolds]
  let scope : Scope := ({} : Renderer).scope (View.empty.after View.smallPageEvents) []
  obtain ⟨hpages, htabs⟩ := page_follows_view
  obtain ⟨m, p, -, hstate, hm⟩ :=
    htabs View.twoTabs View.smallPageEvents rfl (by decide) (by decide) hknown
    scope rfl 0 none []
  have hactive : p.id = "left" := by
    have hleft : scope.view.panelState View.twoTabs = .tabs (some "left") := by decide
    rw [hleft] at hstate
    exact (Option.some.inj (PanelState.tabs.inj hstate)).symm
  rw [hactive] at hm
  exact ⟨⟨by decide, hagree, hpages {} guide _ _ hagree⟩, rfl, by decide, by decide, hknown,
    scope, rfl, m, hm⟩

end Renderer

end Compendium
