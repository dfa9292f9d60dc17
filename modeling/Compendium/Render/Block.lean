import Compendium.Json.Printer
import Compendium.Render.ListMarker
import Compendium.Render.Panel

/-!
# Rendering simple blocks

Everything but sections and documents. The functions take the rendering of a list of blocks as an
argument, so nothing here recurs.
-/

namespace Compendium.Scope

/-- A number as an attribute value. -/
def natAttr (n : Nat) : String :=
  String.ofList (Decimal.natText n)

/-- The style attribute of an alignment. -/
def alignmentAttr (alignment : Option TextAlignment) : List Attr :=
  match alignment.bind TextAlignment.css? with
  | some word => [("style", Css.style ["text-align: " ++ word])]
  | none => []

/-- A declaration for a value that may be missing. -/
def declarationIf (property : String) : Option String → List String
  | some s => [Css.declaration property s]
  | none => []

/-- A style attribute, unless it would be empty. -/
def styleAttr (declarations : List String) : List Attr :=
  if declarations.isEmpty then [] else [("style", Css.style declarations)]

def caption (scope : Scope) : Option (List Inline) → Rendered :=
  scope.inlinesIn "figcaption" []

def paragraph (scope : Scope) (p : Paragraph) : Rendered :=
  .inside "p" (alignmentAttr p.alignment) (scope.inlines p.segments)

/-- An equation. It is an anchor only outside of referenced copies. -/
def equation (scope : Scope) (e : Equation) : Rendered := do
  let anchor := match e.label with
    | some label =>
      if scope.references = 0 then [("id", "eq-" ++ label), ("data-label", label)] else []
    | none => []
  let label := match e.label with
    | some label => [Markup.leaf "span" [("class", "equation-label")] ("(" ++ label ++ ")")]
    | none => []
  let caption ← scope.caption e.caption
  return [.node "figure" (("class", "math-block") :: anchor)
    (displayFormula e.formula.content :: (label ++ caption))]

/-- A definition, theorem or the like. -/
def statement (scope : Scope) (blocks : BlocksRenderer) (s : Statement) : Rendered := do
  let label := s.kind.label
  let heading := match s.number with
    | some number => label ++ " " ++ number
    | none => label
  let title ← Rendered.optional (fun title => do
    let content ← scope.inlines title
    return [Markup.text " ("] ++ content ++ [Markup.text ")"]) s.title
  let body ← Rendered.classed "div" "structured-math-body" (blocks s.body)
  let proof ← Rendered.optional (fun proof => Rendered.classed "div" "proof" do
    let content ← blocks proof
    return [Markup.leaf "span" [("class", "proof-label")] "Proof."] ++ content ++
      [Markup.leaf "span" [("class", "qed")] "∎"]) s.proof
  return [.node "div"
    [("class", "structured-math structured-" ++ String.ofList (Text.className label.toList)),
      ("data-kind", label)]
    (.classed "p" "structured-math-heading"
      (.leaf "span" [("class", "structured-math-label")] heading :: (title ++ [Markup.text "."])) ::
        (body ++ proof))]

/-- The element and the style name of a list. -/
def listKind : ListStyle → String × String
  | .ordered style => ("ol", style.name)
  | .unordered style => ("ul", style.name)

/-- The start number of a list; only ordered lists show one. -/
def startAttr (l : Listing) : List Attr :=
  match l.style, l.startIndex with
  | .ordered _, some start => [("start", natAttr start)]
  | _, _ => []

/-- A list. Its markers are text of their own. -/
def listing (blocks : BlocksRenderer) (l : Listing) : Rendered :=
  let (tag, style) := listKind l.style
  .inside tag ([("class", "list list-" ++ String.ofList (Text.className style.toList)),
      ("style", Css.style ["list-style: none"])] ++ startAttr l)
    (.eachFrom (fun position item => do
      let content ← blocks item.content
      return [.node "li" [] (.leaf "span" [("class", "list-marker")]
        (ListMarker.marker l.style l.startIndex position) :: content)]) 0 l.items)

/-- A number attribute for a value that may be missing. -/
def spanAttr (name : String) : Option Nat → List Attr
  | some span => [(name, natAttr span)]
  | none => []

def tableCell (blocks : BlocksRenderer) (inHeader : Bool) (cell : TableCell) : Rendered :=
  .inside (if inHeader || cell.isHeader then "th" else "td")
    (spanAttr "colspan" cell.colSpan ++ spanAttr "rowspan" cell.rowSpan ++
      alignmentAttr cell.alignment) (blocks cell.content)

def rowGroup (blocks : BlocksRenderer) (tag : String) (inHeader : Bool) (rows : List TableRow) :
    Rendered :=
  .inside tag [] (.each (fun row => .inside "tr" []
    (.each (tableCell blocks inHeader) row.cells)) rows)

def table (scope : Scope) (blocks : BlocksRenderer) (t : Table) : Rendered :=
  .classed "table" "content-table" (.sequence [scope.inlinesIn "caption" [] t.caption,
    .optional (rowGroup blocks "thead" true) t.headerRows,
    rowGroup blocks "tbody" false t.bodyRows,
    .optional (rowGroup blocks "tfoot" false) t.footerRows])

/-- The lines of a program, numbered from one. -/
def codeLines (n : Nat) : List (List Char) → List Markup
  | [] => []
  | line :: rest =>
    .leaf "span" [("class", "code-line"), ("data-line", natAttr n)] (String.ofList line) ::
      .text "\n" :: codeLines (n + 1) rest

/-- A block of program text. -/
def codeBlock (scope : Scope) (c : CodeBlock) : Rendered := do
  let attrs := match c.language with
    | some language => [("class", "language-" ++ language), ("data-language", language)]
    | none => []
  let text := if c.showLineNumbers then codeLines 1 (Text.lines c.code.toList) else [.text c.code]
  let caption ← scope.caption c.caption
  return [.classed "figure" "code-block" (.node "pre" [] [.node "code" attrs text] :: caption)]

def image (scope : Scope) (i : Image) : Rendered := do
  let style := styleAttr (declarationIf "width" i.width ++ declarationIf "height" i.height)
  let caption ← scope.caption i.caption
  return [.classed "figure" "image"
    (.void "img" ([("src", i.src), ("alt", i.alt)] ++ style) [] :: caption)]

/-- JSON text inside a script: an end tag cannot occur in it, since each `/` after a `<` is
escaped. -/
def scriptSafe : List Char → List Char
  | '<' :: '/' :: rest => '<' :: Char.ofNat 0x5C :: '/' :: scriptSafe rest
  | c :: rest => c :: scriptSafe rest
  | [] => []

def diagram (scope : Scope) (d : Diagram) : Rendered := do
  let caption ← scope.caption d.caption
  return [.classed "figure" "interactive-diagram"
    (.node "div" [("class", "diagram-mount"), ("id", d.id), ("data-diagram-type", d.kind)]
      [.script (scriptSafe d.data.compact.toList)] :: caption)]

/-- A block that can be folded. -/
def collapsible (scope : Scope) (blocks : BlocksRenderer) (c : Collapsible) : Rendered := do
  let summary ← Rendered.inside "summary" [] (scope.inlines c.summary)
  let content ← blocks c.content
  return [.element "details" [("class", "collapsible"), ("data-collapsible-id", c.id)]
    (if scope.view.isCollapsed c then [] else ["open"]) (summary ++ content)]

def gridItem (blocks : BlocksRenderer) (item : GridItem) : Rendered :=
  let place :=
    styleAttr (declarationIf "grid-column" item.column ++ declarationIf "grid-row" item.row)
  .inside "div" (("class", "grid-item") :: place) (blocks item.content)

def grid (blocks : BlocksRenderer) (g : Grid) : Rendered :=
  .inside "div" [("class", "content-grid"),
    ("style", Css.style ("display: grid" :: (declarationIf "grid-template-columns" g.columns ++
      declarationIf "grid-template-rows" g.rows ++ declarationIf "gap" g.gap)))]
    (.each (gridItem blocks) g.items)

def columnWidth (c : Column) : String :=
  match c.width with
  | some width => Css.value width
  | none => "1fr"

def columns (blocks : BlocksRenderer) (c : Columns) : Rendered :=
  let template := "grid-template-columns: " ++ " ".intercalate (c.columns.map columnWidth)
  .inside "div" [("class", "columns"),
    ("style", Css.style (["display: grid", template] ++ declarationIf "gap" c.gap))]
    (.each (fun column => .classed "div" "column" (blocks column.content)) c.columns)

/-- A quotation. -/
def quote (scope : Scope) (blocks : BlocksRenderer) (q : Quote) : Rendered :=
  .inside "blockquote" [] (.sequence [blocks q.content,
    scope.inlinesIn "footer" [("class", "attribution")] q.attribution])

/-- A box that draws attention. -/
def alert (scope : Scope) (blocks : BlocksRenderer) (a : Alert) : Rendered :=
  let cssClass := match a.kind.cssClass? with
    | some name => "alert " ++ name
    | none => "alert"
  .inside "div" [("class", cssClass), ("role", "note")]
    (.sequence [scope.inlinesIn "p" [("class", "alert-title")] a.title, blocks a.content])

/-- A component: drawn by its registered function, or else its fallback. -/
def component (scope : Scope) (blocks : BlocksRenderer) (c : Component) : Rendered :=
  match scope.renderer.components.get? c.name, c.fallback with
  | some draw, _ =>
    pure [.node "div" [("class", "custom-component"), ("data-component", c.name)]
      [.raw (draw c.props)]]
  | none, some fallback =>
    .inside "div" [("class", "custom-component fallback"), ("data-component", c.name)]
      (blocks fallback)
  | none, none => pure (scope.unknownMarker ("CustomComponent:" ++ c.name))

end Compendium.Scope
