import Compendium.Decimal.Layout
import Compendium.Document.Unrecognized

/-!
# Interactive controls

A group of controls, the kinds of control, and the values they take. A control starts from its own
default value, or else from the initial value of its kind.
-/

namespace Compendium

open Json

inductive ControlValue where
  | bool (b : Bool)
  | number (x : Float)
  | text (s : String)

namespace ControlValue

/-- The value as it stands in an attribute. -/
def toAttr : ControlValue → String
  | bool true => "true"
  | bool false => "false"
  | number x => String.ofList (Decimal.plainText x)
  | text s => s

def isTrue : ControlValue → Bool
  | bool b => b
  | _ => false

def decode : Decoder ControlValue
  | _, .bool b => some (bool b)
  | _, .int n => some (number (Decode.floatOfInt n))
  | _, .float x => some (number x)
  | _, .str s => some (text s)
  | _, _ => none

def encode : ControlValue → Json
  | bool b => .bool b
  | number x => .float x
  | text s => .str s

end ControlValue

/-- One of the choices of a control. -/
structure SelectOption where
  value : String
  label : String
  deriving DecidableEq, Repr

namespace SelectOption

def decode : Decoder SelectOption := fun m j => do
  let f ← fields? 2 m j
  let value ← f.required 0 "value" Decode.string
  let label ← f.required 1 "label" Decode.string
  return ⟨value, label⟩

def encode (o : SelectOption) : Json :=
  .obj (field "label" (.str o.label) ++ field "value" (.str o.value))

end SelectOption

inductive ControlKind where
  | slider (min max step : Float)
  | toggle
  | dropdown (options : List SelectOption)
  | numberInput (min max step : Option Float)
  | colorPicker
  | button (action : String)
  | radioGroup (options : List SelectOption)
  | unknown (u : Unrecognized)

namespace ControlKind

def firstChoice : List SelectOption → ControlValue
  | [] => .text ""
  | o :: _ => .text o.value

def initialValue : ControlKind → ControlValue
  | slider min _ _ => .number min
  | numberInput min _ _ => .number (min.getD 0)
  | toggle => .bool false
  | button _ => .bool false
  | dropdown options => firstChoice options
  | radioGroup options => firstChoice options
  | colorPicker => .text "#000000"
  | unknown _ => .text ""

def cssClass : ControlKind → String
  | slider _ _ _ => "control-slider"
  | toggle => "control-toggle"
  | dropdown _ => "control-dropdown"
  | numberInput _ _ _ => "control-number"
  | colorPicker => "control-color"
  | button _ => "control-button"
  | radioGroup _ => "control-radio"
  | unknown _ => "control-unknown"

/-- Reads the choices of a control. -/
def decodeOptions : Decoder (List SelectOption) := fun m j => do
  let f ← namedFields? m j
  f.required 0 "options" (Decode.list SelectOption.decode)

/-- Reads a variant of one of the known kinds. -/
def decodeKnown (t : Tagged) : Option ControlKind :=
  match t.tag with
  | "Slider" => t.payload fun m j => do
    let f ← namedFields? m j
    let min ← f.required 0 "min" Decode.number
    let max ← f.required 1 "max" Decode.number
    let step ← f.defaulted 2 "step" Decode.number 1
    return slider min max step
  | "Toggle" => t.bare toggle
  | "Dropdown" => (t.payload decodeOptions).map dropdown
  | "NumberInput" => t.payload fun m j => do
    let f ← namedFields? m j
    let min ← f.optional 0 "min" Decode.number
    let max ← f.optional 1 "max" Decode.number
    let step ← f.optional 2 "step" Decode.number
    return numberInput min max step
  | "ColorPicker" => t.bare colorPicker
  | "Button" => t.payload fun m j => do
    let f ← namedFields? m j
    let action ← f.required 0 "action" Decode.string
    return button action
  | "RadioGroup" => (t.payload decodeOptions).map radioGroup
  | _ => none

def tags : List String :=
  ["Slider", "Toggle", "Dropdown", "NumberInput", "ColorPicker", "Button", "RadioGroup"]

def decode : Decoder ControlKind := Unrecognized.keep tags decodeKnown unknown

def encodeOptions (options : List SelectOption) : Json :=
  .obj (field "options" (.arr (options.map SelectOption.encode)))

def encode : ControlKind → Json
  | slider min max step =>
    variant "Slider" (some (.obj
      (field "max" (.float max) ++ field "min" (.float min) ++ field "step" (.float step))))
  | toggle => variant "Toggle" none
  | dropdown options => variant "Dropdown" (some (encodeOptions options))
  | numberInput min max step =>
    variant "NumberInput" (some (.obj
      (fieldIf "max" (max.map .float) ++ fieldIf "min" (min.map .float) ++
        fieldIf "step" (step.map .float))))
  | colorPicker => variant "ColorPicker" none
  | button action => variant "Button" (some (.obj (field "action" (.str action))))
  | radioGroup options => variant "RadioGroup" (some (encodeOptions options))
  | unknown u => u.encode

end ControlKind

/-- A control of a group. -/
structure Control where
  id : String
  label : String
  kind : ControlKind
  defaultValue : Option ControlValue
  targets : List String

namespace Control

def seedValue (c : Control) : ControlValue :=
  c.defaultValue.getD c.kind.initialValue

def decode : Decoder Control := fun m j => do
  let f ← fields? 5 m j
  let id ← f.required 0 "id" Decode.string
  let label ← f.defaulted 1 "label" Decode.string ""
  let kind ← f.required 2 "control_type" ControlKind.decode
  let defaultValue ← f.optional 3 "default_value" ControlValue.decode
  let targets ← f.defaulted 4 "target_content_ids" (Decode.list Decode.string) []
  return ⟨id, label, kind, defaultValue, targets⟩

def encode (c : Control) : Json :=
  .obj (field "control_type" c.kind.encode ++
    fieldIf "default_value" (c.defaultValue.map ControlValue.encode) ++
    field "id" (.str c.id) ++ field "label" (.str c.label) ++
    field "target_content_ids" (strs c.targets))

end Control

/-- How the controls of a group are laid out. -/
inductive ControlFlow where
  | horizontal
  | vertical
  | unknown
  deriving DecidableEq, Repr

namespace ControlFlow

def name : ControlFlow → String
  | horizontal => "Horizontal"
  | vertical => "Vertical"
  | unknown => "Unknown"

def vocabulary : Vocabulary ControlFlow :=
  ⟨[horizontal, vertical, unknown], name, some unknown⟩

end ControlFlow

structure ControlGroup where
  id : String
  controls : List Control
  flow : ControlFlow

namespace ControlGroup

def find? (g : ControlGroup) (id : String) : Option Control :=
  g.controls.find? fun c => c.id == id

def decode : Decoder ControlGroup := fun m j => do
  let f ← fields? 3 m j
  let id ← f.required 0 "id" Decode.string
  let controls ← f.required 1 "controls" (Decode.list Control.decode)
  let flow ← f.defaulted 2 "layout" ControlFlow.vocabulary.decode .horizontal
  return ⟨id, controls, flow⟩

def encode (g : ControlGroup) : Json :=
  .obj (field "controls" (.arr (g.controls.map Control.encode)) ++ field "id" (.str g.id) ++
    field "layout" (ControlFlow.vocabulary.encode g.flow))

end ControlGroup

end Compendium
