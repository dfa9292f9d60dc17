import Compendium.Document.Basic

/-!
# View state

What a reader has changed on a page: the active tab, the open panels, the folded blocks and the
values of controls. Whatever was not changed follows the flags of the document.
-/

namespace Compendium

/-- Which panels of a layout are showing. The open panels of an accordion are in ascending order. -/
inductive PanelState where
  | tabs (active : Option String)
  | accordion (opened : List String)
  | all
  deriving DecidableEq, Repr

namespace PanelState

/-- A list of ids in ascending order with one more. -/
def insertId (id : String) : List String → List String
  | [] => [id]
  | k :: rest =>
    if k < id then k :: insertId id rest
    else if k = id then k :: rest
    else id :: k :: rest

/-- The state that the layout's own flags give. -/
def initial (layout : PanelLayout) : PanelState :=
  match layout.arrangement with
  | .tabs => tabs (((layout.panels.find? (·.initiallyVisible)).or layout.panels.head?).map (·.id))
  | .accordion =>
    accordion
      ((layout.panels.filter (·.initiallyVisible)).foldl (fun ids p => insertId p.id ids) [])
  | _ => all

/-- Whether a panel is showing. -/
def isVisible (state : PanelState) (panel : String) : Bool :=
  match state with
  | tabs active => active == some panel
  | accordion opened => opened.contains panel
  | all => true

end PanelState

namespace PanelLayout

def hasPanel (layout : PanelLayout) (panel : String) : Bool :=
  layout.panels.any fun p => p.id == panel

def isTabs (layout : PanelLayout) : Bool :=
  match layout.arrangement with
  | .tabs => true
  | _ => false

def isAccordion (layout : PanelLayout) : Bool :=
  match layout.arrangement with
  | .accordion => true
  | _ => false

end PanelLayout

/-- A change of a control, for whoever shows its targets. -/
structure ControlChange where
  control : String
  value : ControlValue
  targets : List String

/-- What has been changed on a page. -/
structure View where
  panels : Dict PanelState
  collapsed : Dict Bool
  controls : Dict ControlValue

namespace View

/-- Nothing changed. -/
def empty : View := ⟨[], [], []⟩

def panelState (v : View) (layout : PanelLayout) : PanelState :=
  (v.panels.get? layout.id).getD (PanelState.initial layout)

/-- Activates a tab; refused for other layouts and unknown panels. -/
def selectTab (v : View) (layout : PanelLayout) (panel : String) : Bool × View :=
  if layout.isTabs && layout.hasPanel panel then
    (true, { v with panels := v.panels.insert layout.id (.tabs (some panel)) })
  else (false, v)

/-- Opens or closes a panel of an accordion and says whether it is now open; refused for other
layouts and unknown panels. -/
def togglePanel (v : View) (layout : PanelLayout) (panel : String) : Option Bool × View :=
  if layout.isAccordion && layout.hasPanel panel then
    let state := v.panelState layout
    match state with
    | .accordion opened =>
      if opened.contains panel then
        (some false,
          { v with panels := v.panels.insert layout.id (.accordion (opened.erase panel)) })
      else
        (some true,
          { v with
            panels := v.panels.insert layout.id (.accordion (PanelState.insertId panel opened)) })
    | _ => (none, v)
  else (none, v)

/-- Whether a block is folded. -/
def isCollapsed (v : View) (block : Collapsible) : Bool :=
  (v.collapsed.get? block.id).getD block.initiallyCollapsed

/-- Folds or unfolds a block and says whether it is now folded. -/
def toggleCollapsible (v : View) (block : Collapsible) : Bool × View :=
  let now := !v.isCollapsed block
  (now, { v with collapsed := v.collapsed.insert block.id now })

/-- The key under which the value of a control is kept. -/
def controlKey (group control : String) : String :=
  group ++ "/" ++ control

/-- The value of a control: the one set last, or the one it starts from. -/
def controlValue (v : View) (group : ControlGroup) (control : String) : Option ControlValue :=
  match v.controls.get? (controlKey group.id control) with
  | some value => some value
  | none => (group.find? control).map (·.seedValue)

/-- Sets the value of a control and describes the change; refused for unknown controls. -/
def changeControl (v : View) (group : ControlGroup) (control : String) (value : ControlValue) :
    Option ControlChange × View :=
  match group.find? control with
  | none => (none, v)
  | some c =>
    (some ⟨c.id, value, c.targets⟩,
      { v with controls := v.controls.insert (controlKey group.id control) value })

end View

end Compendium
