import Compendium.Render.Inline

/-!
# Rendering panels and annotations

The functions here take the rendering of a list of blocks as an argument, because panels hold
blocks.
-/

namespace Compendium.Scope

abbrev BlocksRenderer := List Block → Rendered

/-- One panel; `extra` are attributes that its layout adds. -/
def panel (scope : Scope) (blocks : BlocksRenderer) (cssClass : String) (visible : Bool)
    (extra : List Attr) (p : Panel) : Rendered := do
  let title ← scope.inlinesIn "h4" [("class", "panel-title")] p.title
  let content ← blocks p.content
  return [.element "div"
    ([("class", "panel " ++ cssClass), ("id", "panel-" ++ p.id), ("data-panel-id", p.id)] ++ extra)
    (if visible then [] else ["hidden"]) (title ++ content)]

/-- The text of a panel's tab or toggle. -/
def panelLabel (p : Panel) : Markup :=
  .text (match p.title with
    | some title => Inline.plainTextList title
    | none => p.id)

def sideBySide (scope : Scope) (blocks : BlocksRenderer) (s : SideBySide) : Rendered :=
  let widths := s.widths.getD SideWidths.equal
  let columns := "grid-template-columns: " ++ Css.value widths.left ++ " " ++ Css.value widths.right
  let gap := match widths.gap with
    | some gap => [Css.declaration "gap" gap]
    | none => []
  Rendered.inside "div"
    [("class", "side-by-side"), ("style", Css.style (["display: grid", columns] ++ gap))]
    (.sequence [scope.panel blocks "side-left" true [] s.left,
      scope.panel blocks "side-right" true [] s.right])

/-- The word for a truth value in an attribute. -/
def flagWord (b : Bool) : String :=
  if b then "true" else "false"

def tabButton (state : PanelState) (p : Panel) : Markup :=
  let active := state.isVisible p.id
  .node "button"
    [("type", "button"), ("class", if active then "tab tab-active" else "tab"), ("role", "tab"),
      ("data-panel-id", p.id), ("aria-selected", flagWord active)] [panelLabel p]

def tabs (scope : Scope) (blocks : BlocksRenderer) (layout : PanelLayout) (state : PanelState) :
    Rendered := do
  let content ← Rendered.each (fun p =>
    let active := state.isVisible p.id
    scope.panel blocks (if active then "tab-panel panel-active" else "tab-panel") active
      [("role", "tabpanel")] p) layout.panels
  return [.node "div" [("class", "panel-layout layout-tabs"), ("data-layout-id", layout.id)]
    (.node "div" [("class", "tab-list"), ("role", "tablist")]
      (layout.panels.map (tabButton state)) :: content)]

def accordionItem (scope : Scope) (blocks : BlocksRenderer) (state : PanelState) (p : Panel) :
    Rendered := do
  let visible := state.isVisible p.id
  let content ← scope.panel blocks "accordion-panel" visible [] p
  return [.node "div"
    [("class", "accordion-item"), ("data-panel-id", p.id), ("data-open", flagWord visible)]
    (.node "button"
      [("type", "button"), ("class", "accordion-toggle"), ("aria-expanded", flagWord visible)]
      [panelLabel p] :: content)]

/-- The position of the main panel of a sidebar: the named panel, or else the first. -/
def mainPanel (name : String) (panels : List Panel) : Nat :=
  (panels.findIdx? fun p => p.id == name).getD 0

def sidebar (scope : Scope) (blocks : BlocksRenderer) (layout : PanelLayout) (name : String) :
    Rendered := do
  let main := mainPanel name layout.panels
  let mainPart ← match layout.panels[main]? with
    | none => pure []
    | some p => Rendered.classed "div" "sidebar-main" (scope.panel blocks "main-panel" true [] p)
  let rest ← Rendered.classed "aside" "sidebar-panels"
    (.each (scope.panel blocks "side-panel" true []) (layout.panels.eraseIdx main))
  return [.node "div"
    [("class", "panel-layout layout-sidebar"), ("data-layout-id", layout.id),
      ("style", Css.style ["display: grid", "grid-template-columns: 3fr 1fr"])] (mainPart ++ rest)]

def panelLayout (scope : Scope) (blocks : BlocksRenderer) (layout : PanelLayout) : Rendered :=
  let state := scope.view.panelState layout
  let every (cssClass : String) := Rendered.each (scope.panel blocks cssClass true []) layout.panels
  match layout.arrangement with
  | .tabs => scope.tabs blocks layout state
  | .accordion =>
    .inside "div" [("class", "panel-layout layout-accordion"), ("data-layout-id", layout.id)]
      (.each (scope.accordionItem blocks state) layout.panels)
  | .grid columns =>
    .inside "div" [("class", "panel-layout layout-grid"), ("data-layout-id", layout.id),
      ("style", Css.style ["display: grid", "grid-template-columns: repeat(" ++
        String.ofList (Decimal.natText (max columns 1)) ++ ", 1fr)"])] (every "grid-panel")
  | .sidebar name => scope.sidebar blocks layout name
  | .floating =>
    .inside "div" [("class", "panel-layout layout-floating"), ("data-layout-id", layout.id)]
      (every "floating-panel")
  | .unknown u =>
    .inside "div" [("class", "panel-layout"), ("data-layout-id", layout.id),
      ("data-layout-type", u.displayName)] (every "stacked-panel")

/-- An annotation: at its position, or aside. -/
def overlayNote (scope : Scope) (a : OverlayNote) : Rendered :=
  let kind := match a.kind.cssClass? with
    | some name => "annotation " ++ name
    | none => "annotation"
  let target := match a.target with
    | some id => [("data-target-id", id)]
    | none => []
  let attrs := [("class", kind), ("data-annotation-id", a.id)] ++ target
  match a.position with
  | some position =>
    .inside "div" (attrs ++ [("style", Css.style ["position: absolute",
      Css.declaration "left" position.x, Css.declaration "top" position.y])])
      (scope.inlines a.content)
  | none => .inside "aside" attrs (scope.inlines a.content)

/-- Blocks with annotations on top. -/
def overlay (scope : Scope) (blocks : BlocksRenderer) (o : Overlay) : Rendered := do
  let base ← Rendered.classed "div" "annotation-base" (blocks o.base)
  let annotations ← Rendered.each scope.overlayNote o.annotations
  return [.node "div"
    [("class", "annotation-overlay"), ("id", o.id), ("data-overlay-id", o.id),
      ("style", Css.style ["position: relative"])] (base ++ annotations)]

end Compendium.Scope
