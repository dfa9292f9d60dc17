import Compendium.Render.Scope

/-!
# Rendering controls

A group of controls is a form; every control shows its present value.
-/

namespace Compendium.Scope

def numberText (x : Float) : String :=
  String.ofList (Decimal.plainText x)

def inputLabel (inputId label : String) : Markup :=
  .leaf "label" [("for", inputId)] label

/-- A choice of a drop-down list. -/
def dropdownOption (current : String) (o : SelectOption) : Markup :=
  .element "option" [("value", o.value)] (if o.value = current then ["selected"] else [])
    [.text o.label]

/-- A choice of a group of radio buttons. -/
def radioOption (inputId current : String) (o : SelectOption) : Markup :=
  .node "label" []
    [.void "input" [("type", "radio"), ("name", inputId), ("value", o.value)]
      (if o.value = current then ["checked"] else []), .text o.label]

/-- An attribute for a bound that may be missing. -/
def boundAttr (name : String) (bound : Option Float) : List Attr :=
  match bound with
  | none => []
  | some x => [(name, numberText x)]

def controlInput (scope : Scope) (inputId : String) (control : Control) (value : ControlValue) :
    List Markup :=
  let label := inputLabel inputId control.label
  let current := value.toAttr
  match control.kind with
  | .slider min max step =>
    [label, .void "input" [("type", "range"), ("id", inputId), ("min", numberText min),
      ("max", numberText max), ("step", numberText step), ("value", current)] []]
  | .numberInput min max step =>
    [label, .void "input" ([("type", "number"), ("id", inputId), ("value", current)] ++
      boundAttr "min" min ++ boundAttr "max" max ++ boundAttr "step" step) []]
  | .toggle =>
    [.void "input" [("type", "checkbox"), ("id", inputId)]
      (if value.isTrue then ["checked"] else []), label]
  | .colorPicker =>
    [label, .void "input" [("type", "color"), ("id", inputId), ("value", current)] []]
  | .button action =>
    [.leaf "button" [("type", "button"), ("id", inputId), ("data-action", action)] control.label]
  | .dropdown options =>
    [label, .node "select" [("id", inputId)] (options.map (dropdownOption current))]
  | .radioGroup options =>
    [.node "fieldset" [("id", inputId)]
      (.leaf "legend" [] control.label :: options.map (radioOption inputId current))]
  | .unknown u => scope.unknownMarker u.displayName

def control (scope : Scope) (group : ControlGroup) (c : Control) : Markup :=
  let value := (scope.view.controlValue group c.id).getD c.seedValue
  .node "div"
    [("class", "control " ++ c.kind.cssClass), ("data-control-id", c.id),
      ("data-targets", " ".intercalate c.targets)]
    (scope.controlInput (group.id ++ "-" ++ c.id) c value)

def controlsClass : ControlFlow → String
  | .horizontal => "interactive-controls controls-horizontal"
  | .vertical => "interactive-controls controls-vertical"
  | .unknown => "interactive-controls"

def controls (scope : Scope) (group : ControlGroup) : Markup :=
  .node "form" [("class", controlsClass group.flow), ("data-controls-id", group.id)]
    (group.controls.map (scope.control group))

end Compendium.Scope
