import Compendium.Decimal.Layout
import Compendium.Render.Scope
import Compendium.Text.Slug

/-!
# Rendering inline text

Links never nest: a link inside a link to the same target is only its text, and one to another
target is a span that keeps the target as data.
-/

namespace Compendium

def glossaryAnchor (term : String) : String :=
  "glossary-" ++ String.ofList (Text.heading term.toList)

namespace LinkTarget

/-- The address of a target, if it has one. -/
def href? : LinkTarget → Option String
  | .url address => some address
  | .page id => some ("/docs/" ++ id)
  | .definition term (some theory) => some ("/math/" ++ theory ++ "#definition-" ++ term)
  | .definition term none => some ("#definition-" ++ term)
  | .aspect term name (some theory) =>
    some ("/math/" ++ theory ++ "#definition-" ++ term ++ "-" ++ name)
  | .aspect term name none => some ("#definition-" ++ term ++ "-" ++ name)
  | .theorem_ id => some ("#theorem-" ++ id)
  | .glossary term => some ("#" ++ glossaryAnchor term)
  | .bibliography key => some ("#bib-" ++ key)
  | .element id => some ("#" ++ id)
  | .tooltip document => some ("#tooltip-" ++ document.id)
  | .template _ _ _ => none
  | .animation _ _ => none
  | .unknown _ => none

def kindWord : LinkTarget → String
  | .url _ => "url"
  | .page _ => "page"
  | .definition _ _ => "definition"
  | .aspect _ _ _ => "definition-aspect"
  | .theorem_ _ => "theorem"
  | .template _ _ _ => "template"
  | .glossary _ => "glossary"
  | .bibliography _ => "bibliography"
  | .element _ => "interactive"
  | .tooltip _ => "tooltip"
  | .animation _ _ => "animation"
  | .unknown _ => "unknown"

def tooltipDocument? : LinkTarget → Option Document
  | .tooltip document => some document
  | _ => none

end LinkTarget

namespace TextStyle

/-- The element of a style, for styles that are elements. -/
def tag? : TextStyle → Option String
  | bold => some "strong"
  | italic => some "em"
  | underline => some "u"
  | strikethrough => some "s"
  | superscript => some "sup"
  | subscript => some "sub"
  | _ => none

def declaration? : TextStyle → Option String
  | color value => some (Css.declaration "color" value)
  | backgroundColor value => some (Css.declaration "background-color" value)
  | fontSize value => some (Css.declaration "font-size" value)
  | fontFamily value => some (Css.declaration "font-family" value)
  | _ => none

end TextStyle

namespace Scope

/-- A text in its styles: the declarations outside, then the elements in order. -/
def styled (s : String) (styles : List TextStyle) : Markup :=
  let inner := (styles.filterMap TextStyle.tag?).foldr
    (fun tag m => Markup.node tag [] [m]) (.text s)
  match styles.filterMap TextStyle.declaration? with
  | [] => inner
  | declarations => .node "span" [("style", Css.style declarations)] [inner]

/-- A formula as a block of its own. -/
def displayFormula (content : String) : Markup :=
  .leaf "div" [("class", "math math-display"), ("data-math", content)] content

def formula (f : Formula) : Markup :=
  if f.isBlock then displayFormula f.content
  else .leaf "span" [("class", "math math-inline"), ("data-math", f.content)] f.content

/-- The number of a footnote of the innermost document, or a question mark. -/
def footnoteLabel (scope : Scope) (id : String) : String :=
  match scope.document?.bind fun d => d.footnotes.findIdx? fun note => note.id == id with
  | some position => String.ofList (Decimal.natText (position + 1))
  | none => "?"

/-- A reference to a footnote. Inside a link it is no link of its own. -/
def footnoteRef (scope : Scope) (id : String) : Markup :=
  let label := scope.footnoteLabel id
  let inner :=
    if scope.links.isEmpty then
      Markup.leaf "a" [("href", "#footnote-" ++ id), ("data-footnote-id", id)] label
    else .leaf "span" [("data-footnote-id", id)] label
  .classed "sup" "footnote-ref" [inner]

/-- The stand-in for unrecognized inline text. -/
def unknownInline (scope : Scope) (u : Unrecognized) : List Markup :=
  if scope.renderer.settings.showUnknownMarkers then
    [.leaf "span"
      [("class", "render-marker unknown-content"), ("data-content-type", u.displayName)]
      ("[" ++ u.displayName ++ "]")]
  else []

def link (scope : Scope) (target : LinkTarget) (tooltip : Option String)
    (content : Scope → Rendered) : Rendered := do
  let key := target.key
  if scope.links.contains key then content scope
  else
    match target.tooltipDocument? with
    | some document => noteTooltip document
    | none => pure ()
    let data : List Attr := [("data-link-kind", target.kindWord), ("data-link-target", key)] ++
      (match tooltip with
        | some s => [("title", s)]
        | none => [])
    let inner := { scope with links := key :: scope.links }
    match scope.links, target.href? with
    | [], some href =>
      Rendered.inside "a" ([("class", "link"), ("href", href)] ++ data) (content inner)
    | _, _ => Rendered.inside "span" (("class", "link") :: data) (content inner)

mutual

def inlinePiece (scope : Scope) : Inline → Rendered
  | .text s => pure [.text s]
  | .styled s styles => pure [styled s styles]
  | .math f => pure [formula f]
  | .link content target tooltip =>
    scope.link target tooltip (fun inner => inlines inner content)
  | .footnote id => pure [scope.footnoteRef id]
  | .code s => pure [.leaf "code" [] s]
  | .unknown u => pure (scope.unknownInline u)

def inlines (scope : Scope) : List Inline → Rendered
  | [] => pure []
  | i :: rest => do
    let first ← inlinePiece scope i
    let others ← inlines scope rest
    return first ++ others

end

/-- Inline text inside an element, if there is any. -/
def inlinesIn (scope : Scope) (tag : String) (attrs : List Attr) : Option (List Inline) → Rendered
  | none => pure []
  | some content => Rendered.inside tag attrs (scope.inlines content)

end Scope

end Compendium
