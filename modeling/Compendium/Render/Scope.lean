import Compendium.Document.Outline
import Compendium.Markup
import Compendium.Settings
import Compendium.View

/-!
# Where rendering stands

`Scope` is what the place of a value in the document decides about its markup. Rendering itself
keeps one piece of state: the tooltip documents that links have asked for so far.
-/

namespace Compendium

/-- Draws a component from its properties. -/
abbrev Draw := Json → String

/-- The settings of rendering and the functions that draw components. -/
structure Renderer where
  settings : RenderSettings := {}
  components : Dict Draw := []

/-- The surroundings of a value: the renderer and the view, the level of the enclosing section, how
many referenced copies enclose it, and the enclosing documents, sections and links, innermost
first. -/
structure Scope where
  renderer : Renderer
  view : View
  tooltipLimit : Nat
  level : Nat := 0
  references : Nat := 0
  documents : List Document := []
  sections : List String := []
  links : List String := []

/-- A rendering step: it may note tooltip documents, in the order in which links first ask for
them. -/
abbrev Rendering (α : Type) := StateM (List Document) α

/-- Markup with the tooltip documents noted on the way. -/
abbrev Rendered := Rendering (List Markup)

namespace Rendered

/-- The markup of every item, one after the other. -/
def each {α : Type} (render : α → Rendered) : List α → Rendered
  | [] => pure []
  | a :: rest => do
    let first ← render a
    let others ← each render rest
    return first ++ others

/-- The markup of every item with its position, one after the other. -/
def eachFrom {α : Type} (render : Nat → α → Rendered) : Nat → List α → Rendered
  | _, [] => pure []
  | n, a :: rest => do
    let first ← render n a
    let others ← eachFrom render (n + 1) rest
    return first ++ others

/-- The markup of an optional item. -/
def optional {α : Type} (render : α → Rendered) : Option α → Rendered
  | none => pure []
  | some a => render a

/-- Markup inside an element. -/
def inside (tag : String) (attrs : List Attr) (content : Rendered) : Rendered := do
  let children ← content
  return [.node tag attrs children]

/-- Markup inside an element with a class. -/
def classed (tag cssClass : String) (content : Rendered) : Rendered :=
  inside tag [("class", cssClass)] content

/-- Pieces one after the other. -/
def sequence : List Rendered → Rendered
  | [] => pure []
  | first :: rest => do
    let markup ← first
    let others ← sequence rest
    return markup ++ others

end Rendered

/-- Notes a tooltip document, unless one with its id is noted already. -/
def noteTooltip (document : Document) : Rendering Unit :=
  modify fun noted =>
    if noted.any (fun d => d.id == document.id) then noted else noted ++ [document]

namespace Scope

/-- The innermost open document. -/
def document? (scope : Scope) : Option Document :=
  scope.documents.head?

/-- A visible stand-in for content that is not rendered. -/
def marker (cssClass : String) (attrs : List Attr) (message : String) : Markup :=
  .leaf "div" (("class", "render-marker " ++ cssClass) :: attrs) message

/-- The stand-in for content of an unknown type, if such stand-ins are shown. -/
def unknownMarker (scope : Scope) (typeName : String) : List Markup :=
  if scope.renderer.settings.showUnknownMarkers then
    [marker "unknown-content" [("data-content-type", typeName)]
      ("Unknown content type: " ++ typeName)]
  else []

/-- The stand-in for content that is nested too deeply. -/
def depthMarker : Markup :=
  marker "depth-limit" [] "Content nested too deeply to display"

end Scope

end Compendium
