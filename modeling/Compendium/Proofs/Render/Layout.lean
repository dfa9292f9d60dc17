import Compendium.Proofs.Render.Emission

/-!
# Layouts

A layout is a rendering step written out as a tree: elements around fixed markup, and as leaves the
inline texts, blocks and sections that are rendered in their places. Every simple block, the inside
of a section and the inside of an article have a layout, and rendering them is rendering their
layout. So what holds of the leaves and is kept by elements is known of all of them at once.
-/

namespace Compendium

/-! ## What is open already -/

namespace Scope

theorem renderSection_opened (block : BlockRenderer) {scope : Scope} (mode : SectionMode)
    (number : Option String) {s : Section} (hopen : s.id ∈ scope.sections) :
    renderSection block scope mode number s = pure [sectionCycle s.id] := by
  unfold renderSection
  rw [if_pos (List.contains_iff_mem.mpr hopen)]

/-- Inside of a document, every document is an inner one. -/
theorem article_of_inside (block : BlockRenderer) {scope : Scope} (hinside : scope.documents ≠ [])
    (d : Document) : article block scope d = innerArticle block scope d := by
  unfold article
  rw [List.isEmpty_eq_false_iff.mpr hinside, if_neg Bool.false_ne_true]

theorem articleWith_opened (block : BlockRenderer) (closing : Scope → Rendered) {scope : Scope}
    {d : Document} (hopen : scope.documents.any (fun other => other.id == d.id) = true) :
    articleWith block closing scope d = pure [documentCycle d.id] := by
  unfold articleWith
  rw [if_pos hopen]

theorem articleWith_eq (block : BlockRenderer) (closing : Scope → Rendered) {scope : Scope}
    {d : Document} (hopen : scope.documents.any (fun other => other.id == d.id) = false) :
    articleWith block closing scope d = Rendered.inside "article" (articleAttrs d)
      (.sequence (articleFront block (scope.insideDocument d) d ++
        [closing (scope.insideDocument d)])) := by
  unfold articleWith
  rw [if_neg (Bool.eq_false_iff.mp hopen)]

theorem sequence_append_singleton (xs : List Rendered) (y : Rendered) :
    Rendered.sequence (xs ++ [y]) = do
      let markup ← Rendered.sequence xs
      let last ← y
      return markup ++ last := by
  induction xs with
  | nil => simp only [List.nil_append, Rendered.sequence, pure_bind, List.append_nil]
  | cons x rest ih =>
    simp only [List.cons_append, Rendered.sequence, ih, bind_assoc, pure_bind, List.append_assoc]

/-- The subsections of a numbered section have a branch of their own in the loop over its content,
and are shown as the dispatch on blocks shows a subsection with that number. -/
theorem renderBlock_succ (budget : Nat) (scope : Scope) (number : Option String) (b : Block) :
    renderBlock (budget + 1) scope number b = blockWith (renderBlock budget) scope number b := by
  cases number with
  | none => rfl
  | some number => cases b <;> rfl

/-- Titles are headings from the second level on. -/
theorem headingTag_level (scope : Scope) : scope.headingTag ∈ ["h2", "h3", "h4", "h5", "h6"] := by
  have hlevel : min (scope.level + 2) 6 ∈ [2, 3, 4, 5, 6] := by
    simp only [List.mem_cons, List.not_mem_nil, or_false]
    omega
  have hall : ∀ n ∈ [2, 3, 4, 5, 6], "h" ++ natAttr n ∈ ["h2", "h3", "h4", "h5", "h6"] := by decide
  exact hall _ hlevel

end Scope

open Scope (BlockRenderer)

/-! ## Trees of steps -/

/-- A rendering step as a tree. -/
inductive Layout where
  | fixed (m : Markup)
  | text (content : List Inline)
  | block (number : Option String) (b : Block)
  | division (number : Option String) (s : Section)
  | element (tag : String) (attrs : List Attr) (flags : List String) (inner : List Layout)

namespace Layout

mutual

def render (block : BlockRenderer) (scope : Scope) : Layout → Rendered
  | fixed m => pure [m]
  | text content => scope.inlines content
  | .block number b => block scope number b
  | division number s => Scope.bodySection block scope number s
  | element tag attrs flags inner => do
    let content ← renderAll block scope inner
    return [.element tag attrs flags content]

/-- The markup of layouts one after the other. -/
def renderAll (block : BlockRenderer) (scope : Scope) : List Layout → Rendered
  | [] => pure []
  | l :: rest => do
    let first ← render block scope l
    let others ← renderAll block scope rest
    return first ++ others

end

/-! ## Building layouts -/

def node (tag : String) (attrs : List Attr) (inner : List Layout) : Layout :=
  element tag attrs [] inner

def classed (tag cssClass : String) (inner : List Layout) : Layout :=
  element tag [("class", cssClass)] [] inner

/-- Blocks one after the other, none of them numbered. -/
def blocks (content : List Block) : List Layout :=
  content.map (.block none)

/-- Text inside an element, if there is any. -/
def textIn (tag : String) (attrs : List Attr) (content : Option (List Inline)) : List Layout :=
  content.toList.map fun content => node tag attrs [.text content]

/-- The layouts of every item with its position. -/
def eachFrom {α : Type} (layout : Nat → α → Layout) : Nat → List α → List Layout
  | _, [] => []
  | n, a :: rest => layout n a :: eachFrom layout (n + 1) rest

section Render

variable (block : BlockRenderer) (scope : Scope)

@[simp] theorem renderAll_nil : renderAll block scope [] = pure [] := by
  rw [renderAll]

@[simp] theorem renderAll_cons (l : Layout) (rest : List Layout) :
    renderAll block scope (l :: rest) = do
      let first ← render block scope l
      let others ← renderAll block scope rest
      return first ++ others := by
  rw [renderAll]

@[simp] theorem renderAll_append (l m : List Layout) :
    renderAll block scope (l ++ m) = do
      let first ← renderAll block scope l
      let others ← renderAll block scope m
      return first ++ others := by
  induction l with
  | nil => simp only [List.nil_append, renderAll_nil, pure_bind, bind_pure]
  | cons a rest ih =>
    simp only [List.cons_append, renderAll_cons, ih, bind_assoc, pure_bind, List.append_assoc]

theorem renderAll_singleton (l : Layout) : renderAll block scope [l] = render block scope l := by
  simp only [renderAll_cons, renderAll_nil, pure_bind, List.append_nil, bind_pure]

@[simp] theorem renderAll_fixed (ms : List Markup) :
    renderAll block scope (ms.map fixed) = pure ms := by
  induction ms with
  | nil => rw [List.map_nil, renderAll_nil]
  | cons m rest ih =>
    simp only [List.map_cons, renderAll_cons, render, ih, pure_bind, List.cons_append,
      List.nil_append]

theorem renderAll_map {α : Type} (layout : α → Layout) (l : List α) :
    renderAll block scope (l.map layout) = Rendered.each
      (fun a => render block scope (layout a)) l := by
  induction l with
  | nil => rw [List.map_nil, renderAll_nil, Rendered.each]
  | cons a rest ih => rw [List.map_cons, renderAll_cons, ih, Rendered.each]

@[simp] theorem renderAll_flatMap {α : Type} (layout : α → List Layout) (l : List α) :
    renderAll block scope (l.flatMap layout) =
      Rendered.each (fun a => renderAll block scope (layout a)) l := by
  induction l with
  | nil => rw [List.flatMap_nil, renderAll_nil, Rendered.each]
  | cons a rest ih => rw [List.flatMap_cons, renderAll_append, ih, Rendered.each]

@[simp] theorem renderAll_eachFrom {α : Type} (layout : Nat → α → Layout) (n : Nat) (l : List α) :
    renderAll block scope (eachFrom layout n l) =
      Rendered.eachFrom (fun i a => render block scope (layout i a)) n l := by
  induction l generalizing n with
  | nil => rw [eachFrom, renderAll_nil, Rendered.eachFrom]
  | cons a rest ih => rw [eachFrom, renderAll_cons, ih, Rendered.eachFrom]

@[simp] theorem renderAll_optional {α : Type} (layout : α → Layout) (o : Option α) :
    renderAll block scope (o.toList.map layout) =
      Rendered.optional (fun a => render block scope (layout a)) o := by
  cases o with
  | none => rw [Option.toList_none, List.map_nil, renderAll_nil, Rendered.optional]
  | some a =>
    rw [Option.toList_some, List.map_cons, List.map_nil, renderAll_singleton, Rendered.optional]

@[simp] theorem renderAll_blocks (content : List Block) :
    renderAll block scope (blocks content) = Scope.blocks block scope content := by
  rw [blocks, renderAll_map, Scope.blocks]
  simp only [render]

@[simp] theorem renderAll_textIn (tag : String) (attrs : List Attr)
    (content : Option (List Inline)) :
    renderAll block scope (textIn tag attrs content) = scope.inlinesIn tag attrs content := by
  cases content with
  | none => rfl
  | some content =>
    rw [textIn, Option.toList_some, List.map_cons, List.map_nil, renderAll_singleton, node, render,
      renderAll_singleton, render]
    rfl

@[simp] theorem render_node (tag : String) (attrs : List Attr) (inner : List Layout) :
    render block scope (node tag attrs inner) =
      Rendered.inside tag attrs (renderAll block scope inner) := by
  rw [node, render]
  rfl

@[simp] theorem render_classed (tag cssClass : String) (inner : List Layout) :
    render block scope (classed tag cssClass inner) =
      Rendered.classed tag cssClass (renderAll block scope inner) := by
  rw [classed, render]
  rfl

end Render

/-! ## Simple blocks -/

open Scope

def caption (content : Option (List Inline)) : List Layout :=
  textIn "figcaption" [] content

def paragraph (p : Paragraph) : Layout :=
  node "p" (alignmentAttr p.alignment) [.text p.segments]

def equation (scope : Scope) (e : Equation) : Layout :=
  node "figure" (("class", "math-block") :: e.label.toList.flatMap fun label =>
      if scope.references = 0 then [("id", "eq-" ++ label), ("data-label", label)] else [])
    (fixed (displayFormula e.formula.content) ::
      ((e.label.toList.map fun label =>
        fixed (.leaf "span" [("class", "equation-label")] ("(" ++ label ++ ")"))) ++
      caption e.caption))

def statement (s : Statement) : Layout :=
  let label := s.kind.label
  node "div"
    [("class", "structured-math structured-" ++ String.ofList (Text.className label.toList)),
      ("data-kind", label)]
    (classed "p" "structured-math-heading"
      (fixed (.leaf "span" [("class", "structured-math-label")]
          (s.number.elim label fun number => label ++ " " ++ number)) ::
        ((s.title.toList.flatMap fun title =>
          [fixed (.text " ("), Layout.text title, fixed (.text ")")]) ++ [fixed (.text ".")])) ::
      classed "div" "structured-math-body" (blocks s.body) ::
      s.proof.toList.map fun proof => classed "div" "proof"
        (fixed (.leaf "span" [("class", "proof-label")] "Proof.") :: (blocks proof ++
          [fixed (.leaf "span" [("class", "qed")] "∎")])))

def listing (l : Listing) : Layout :=
  node (listKind l.style).1
    ([("class", "list list-" ++ String.ofList (Text.className (listKind l.style).2.toList)),
      ("style", Css.style ["list-style: none"])] ++ startAttr l)
    (eachFrom (fun position item => node "li" [] (.fixed (.leaf "span" [("class", "list-marker")]
      (ListMarker.marker l.style l.startIndex position)) :: blocks item.content)) 0 l.items)

def tableCell (inHeader : Bool) (cell : TableCell) : Layout :=
  node (if inHeader || cell.isHeader then "th" else "td")
    (spanAttr "colspan" cell.colSpan ++ spanAttr "rowspan" cell.rowSpan ++
    alignmentAttr cell.alignment) (blocks cell.content)

def rowGroup (tag : String) (inHeader : Bool) (rows : List TableRow) : Layout :=
  node tag [] (rows.map fun row => node "tr" [] (row.cells.map (tableCell inHeader)))

def table (t : Table) : Layout :=
  classed "table" "content-table" (textIn "caption" [] t.caption ++
    (t.headerRows.toList.map (rowGroup "thead" true) ++ (rowGroup "tbody" false t.bodyRows ::
      t.footerRows.toList.map (rowGroup "tfoot" false))))

def codeBlock (c : CodeBlock) : Layout :=
  classed "figure" "code-block" (.fixed (.node "pre" [] [.node "code"
    (c.language.toList.flatMap fun language =>
      [("class", "language-" ++ language), ("data-language", language)])
    (if c.showLineNumbers then codeLines 1 (Text.lines c.code.toList) else [.text c.code])]) ::
    caption c.caption)

def image (i : Image) : Layout :=
  classed "figure" "image" (.fixed (.void "img" ([("src", i.src), ("alt", i.alt)] ++
    styleAttr (declarationIf "width" i.width ++ declarationIf "height" i.height)) []) ::
    caption i.caption)

def diagram (d : Diagram) : Layout :=
  classed "figure" "interactive-diagram" (.fixed (.node "div"
    [("class", "diagram-mount"), ("id", d.id), ("data-diagram-type", d.kind)]
    [.script (scriptSafe d.data.compact.toList)]) :: caption d.caption)

def collapsible (scope : Scope) (c : Collapsible) : Layout :=
  element "details" [("class", "collapsible"), ("data-collapsible-id", c.id)]
    (if scope.view.isCollapsed c then [] else ["open"])
    (node "summary" [] [.text c.summary] :: blocks c.content)

def gridItem (item : GridItem) : Layout :=
  node "div" (("class", "grid-item") ::
    styleAttr (declarationIf "grid-column" item.column ++ declarationIf "grid-row" item.row))
    (blocks item.content)

def grid (g : Grid) : Layout :=
  node "div" [("class", "content-grid"),
    ("style", Css.style ("display: grid" :: (declarationIf "grid-template-columns" g.columns ++
      declarationIf "grid-template-rows" g.rows ++ declarationIf "gap" g.gap)))]
    (g.items.map gridItem)

def columns (c : Columns) : Layout :=
  node "div" [("class", "columns"),
    ("style", Css.style (["display: grid",
      "grid-template-columns: " ++ " ".intercalate (c.columns.map columnWidth)] ++
      declarationIf "gap" c.gap))]
    (c.columns.map fun column => classed "div" "column" (blocks column.content))

def quote (q : Quote) : Layout :=
  node "blockquote" []
    (blocks q.content ++ textIn "footer" [("class", "attribution")] q.attribution)

def alert (a : Alert) : Layout :=
  node "div"
    [("class", a.kind.cssClass?.elim "alert" fun name => "alert " ++ name), ("role", "note")]
    (textIn "p" [("class", "alert-title")] a.title ++ blocks a.content)

def component (scope : Scope) (c : Component) : List Layout :=
  (scope.renderer.components.get? c.name).elim
    (c.fallback.elim ((scope.unknownMarker ("CustomComponent:" ++ c.name)).map fixed)
      fun fallback =>
      [node "div" [("class", "custom-component fallback"), ("data-component", c.name)]
        (blocks fallback)])
    fun draw => [.fixed (.node "div" [("class", "custom-component"), ("data-component", c.name)]
      [.raw (draw c.props)])]

def panel (cssClass : String) (visible : Bool) (extra : List Attr) (p : Panel) : Layout :=
  element "div"
    ([("class", "panel " ++ cssClass), ("id", "panel-" ++ p.id), ("data-panel-id", p.id)] ++ extra)
    (if visible then [] else ["hidden"])
    (textIn "h4" [("class", "panel-title")] p.title ++ blocks p.content)

def sideBySide (s : SideBySide) : Layout :=
  let widths := s.widths.getD SideWidths.equal
  node "div" [("class", "side-by-side"), ("style", Css.style (["display: grid",
      "grid-template-columns: " ++ Css.value widths.left ++ " " ++ Css.value widths.right] ++
      declarationIf "gap" widths.gap))]
    [panel "side-left" true [] s.left, panel "side-right" true [] s.right]

def tabs (layout : PanelLayout) (state : PanelState) : Layout :=
  node "div" [("class", "panel-layout layout-tabs"), ("data-layout-id", layout.id)]
    (.fixed (.node "div" [("class", "tab-list"), ("role", "tablist")]
      (layout.panels.map (tabButton state))) ::
    layout.panels.map fun p =>
      panel (if state.isVisible p.id then "tab-panel panel-active" else "tab-panel")
        (state.isVisible p.id) [("role", "tabpanel")] p)

def accordionItem (state : PanelState) (p : Panel) : Layout :=
  node "div" [("class", "accordion-item"), ("data-panel-id", p.id),
      ("data-open", flagWord (state.isVisible p.id))]
    [.fixed (.node "button" [("type", "button"), ("class", "accordion-toggle"),
      ("aria-expanded", flagWord (state.isVisible p.id))] [panelLabel p]),
    panel "accordion-panel" (state.isVisible p.id) [] p]

def sidebar (layout : PanelLayout) (name : String) : Layout :=
  node "div" [("class", "panel-layout layout-sidebar"), ("data-layout-id", layout.id),
      ("style", Css.style ["display: grid", "grid-template-columns: 3fr 1fr"])]
    ((layout.panels[mainPanel name layout.panels]?.toList.map fun p =>
        classed "div" "sidebar-main" [panel "main-panel" true [] p]) ++
      [classed "aside" "sidebar-panels"
        ((layout.panels.eraseIdx (mainPanel name layout.panels)).map (panel "side-panel" true []))])

def panelLayout (scope : Scope) (layout : PanelLayout) : Layout :=
  match layout.arrangement with
  | .tabs => tabs layout (scope.view.panelState layout)
  | .accordion =>
    node "div" [("class", "panel-layout layout-accordion"), ("data-layout-id", layout.id)]
      (layout.panels.map (accordionItem (scope.view.panelState layout)))
  | .grid columns =>
    node "div" [("class", "panel-layout layout-grid"), ("data-layout-id", layout.id),
      ("style", Css.style ["display: grid", "grid-template-columns: repeat(" ++
        String.ofList (Decimal.natText (max columns 1)) ++ ", 1fr)"])]
      (layout.panels.map (panel "grid-panel" true []))
  | .sidebar name => sidebar layout name
  | .floating =>
    node "div" [("class", "panel-layout layout-floating"), ("data-layout-id", layout.id)]
      (layout.panels.map (panel "floating-panel" true []))
  | .unknown u =>
    node "div" [("class", "panel-layout"), ("data-layout-id", layout.id),
      ("data-layout-type", u.displayName)] (layout.panels.map (panel "stacked-panel" true []))

def overlayNote (a : OverlayNote) : Layout :=
  let attrs := [("class", a.kind.cssClass?.elim "annotation" fun name => "annotation " ++ name),
    ("data-annotation-id", a.id)] ++ a.target.toList.map fun id => ("data-target-id", id)
  a.position.elim (node "aside" attrs [.text a.content]) fun position =>
    node "div" (attrs ++ [("style", Css.style ["position: absolute",
      Css.declaration "left" position.x, Css.declaration "top" position.y])]) [.text a.content]

def overlay (o : Overlay) : Layout :=
  node "div" [("class", "annotation-overlay"), ("id", o.id), ("data-overlay-id", o.id),
      ("style", Css.style ["position: relative"])]
    (classed "div" "annotation-base" (blocks o.base) :: o.annotations.map overlayNote)

def ofBlock (scope : Scope) : Block → List Layout
  | .paragraph p => [paragraph p]
  | .equation e => [equation scope e]
  | .statement s => [statement s]
  | .list l => [listing l]
  | .table t => [table t]
  | .code c => [codeBlock c]
  | .image i => [image i]
  | .diagram d => [diagram d]
  | .collapsible c => [collapsible scope c]
  | .grid g => [grid g]
  | .columns c => [columns c]
  | .thematicBreak => [.fixed (.void "hr" [] [])]
  | .quote q => [quote q]
  | .alert a => [alert a]
  | .component c => component scope c
  | .sideBySide s => [sideBySide s]
  | .panels p => [panelLayout scope p]
  | .overlay o => [overlay o]
  | .controls g => [.fixed (scope.controls g)]
  | .unknown u => (scope.unknownMarker u.displayName).map fixed
  | .sectionRef _ | .subsection _ | .document _ => []

section Blocks

variable (block : BlockRenderer) (scope : Scope)

theorem render_paragraph (p : Paragraph) :
    render block scope (paragraph p) = scope.paragraph p := by
  simp [paragraph, Scope.paragraph, render]

theorem render_equation (e : Equation) :
    render block scope (equation scope e) = scope.equation e := by
  obtain ⟨formula, label, content⟩ := e
  cases label <;> simp [equation, Scope.equation, Scope.caption, caption, render, Rendered.inside]

theorem render_statement (s : Statement) :
    render block scope (statement s) = scope.statement (Scope.blocks block scope) s := by
  obtain ⟨kind, number, title, body, proof⟩ := s
  cases number <;> cases title <;> cases proof <;>
    simp [statement, Scope.statement, render, Rendered.inside, Rendered.classed, Rendered.optional,
      Markup.classed, Markup.node]

theorem render_listing (l : Listing) :
    render block scope (listing l) = Scope.listing (Scope.blocks block scope) l := by
  simp [listing, Scope.listing, render, Rendered.inside, Markup.node]

theorem render_rowGroup (tag : String) (inHeader : Bool) (rows : List TableRow) :
    render block scope (rowGroup tag inHeader rows) =
      Scope.rowGroup (Scope.blocks block scope) tag inHeader rows := by
  simp only [rowGroup, Scope.rowGroup, render_node, renderAll_map, tableCell, renderAll_blocks]
  rfl

theorem render_table (t : Table) :
    render block scope (table t) = scope.table (Scope.blocks block scope) t := by
  obtain ⟨content, headerRows, bodyRows, footerRows⟩ := t
  simp [table, Scope.table, Rendered.sequence, render_rowGroup]

theorem render_codeBlock (c : CodeBlock) :
    render block scope (codeBlock c) = scope.codeBlock c := by
  obtain ⟨code, language, showLineNumbers, content⟩ := c
  cases language <;>
    simp [codeBlock, Scope.codeBlock, caption, Scope.caption, render, Rendered.classed,
      Rendered.inside, Markup.classed, Markup.node]

theorem render_image (i : Image) : render block scope (image i) = scope.image i := by
  simp [image, Scope.image, caption, Scope.caption, render, Rendered.classed, Rendered.inside,
    Markup.classed, Markup.node]

theorem render_diagram (d : Diagram) : render block scope (diagram d) = scope.diagram d := by
  simp [diagram, Scope.diagram, caption, Scope.caption, render, Rendered.classed, Rendered.inside,
    Markup.classed, Markup.node]

theorem render_collapsible (c : Collapsible) :
    render block scope (collapsible scope c) =
      scope.collapsible (Scope.blocks block scope) c := by
  simp [collapsible, Scope.collapsible, render]

theorem render_grid (g : Grid) :
    render block scope (grid g) = Scope.grid (Scope.blocks block scope) g := by
  simp only [grid, Scope.grid, render_node, renderAll_map, gridItem, renderAll_blocks]
  rfl

theorem render_columns (c : Columns) :
    render block scope (columns c) = Scope.columns (Scope.blocks block scope) c := by
  simp [columns, Scope.columns, renderAll_map]

theorem render_quote (q : Quote) :
    render block scope (quote q) = scope.quote (Scope.blocks block scope) q := by
  simp [quote, Scope.quote, Rendered.sequence]

theorem render_alert (a : Alert) :
    render block scope (alert a) = scope.alert (Scope.blocks block scope) a := by
  cases hclass : a.kind.cssClass? <;> simp [alert, Scope.alert, Rendered.sequence, hclass]

theorem renderAll_component (c : Component) :
    renderAll block scope (component scope c) =
      scope.component (Scope.blocks block scope) c := by
  unfold component Scope.component
  cases scope.renderer.components.get? c.name with
  | some draw => simp [render]
  | none =>
    cases c.fallback with
    | some fallback => simp
    | none => simp

theorem render_panel (cssClass : String) (visible : Bool) (extra : List Attr) (p : Panel) :
    render block scope (panel cssClass visible extra p) =
      scope.panel (Scope.blocks block scope) cssClass visible extra p := by
  simp [panel, Scope.panel, render]

theorem render_sideBySide (s : SideBySide) :
    render block scope (sideBySide s) = scope.sideBySide (Scope.blocks block scope) s := by
  simp [sideBySide, Scope.sideBySide, render_panel, Rendered.sequence]
  rfl

theorem render_tabs (layout : PanelLayout) (state : PanelState) :
    render block scope (tabs layout state) =
      scope.tabs (Scope.blocks block scope) layout state := by
  simp [tabs, Scope.tabs, renderAll_map, render_panel, render, Rendered.inside, Markup.node]

theorem render_accordionItem (state : PanelState) (p : Panel) :
    render block scope (accordionItem state p) =
      scope.accordionItem (Scope.blocks block scope) state p := by
  simp [accordionItem, Scope.accordionItem, render_panel, render, Rendered.inside, Markup.node]

theorem render_sidebar (layout : PanelLayout) (name : String) :
    render block scope (sidebar layout name) =
      scope.sidebar (Scope.blocks block scope) layout name := by
  unfold sidebar Scope.sidebar
  cases hmain : layout.panels[mainPanel name layout.panels]? <;>
    simp [hmain, renderAll_map, render_panel, Rendered.inside, Rendered.classed, Markup.node]

theorem render_panelLayout (layout : PanelLayout) :
    render block scope (panelLayout scope layout) =
      scope.panelLayout (Scope.blocks block scope) layout := by
  unfold panelLayout Scope.panelLayout
  cases layout.arrangement with
  | tabs => exact render_tabs block scope layout _
  | sidebar name => exact render_sidebar block scope layout name
  | accordion => simp [renderAll_map, render_accordionItem]
  | _ => simp [renderAll_map, render_panel]

theorem render_overlayNote (a : OverlayNote) :
    render block scope (overlayNote a) = scope.overlayNote a := by
  unfold overlayNote Scope.overlayNote
  cases a.kind.cssClass? <;> cases a.target <;> cases a.position <;> simp [render]

theorem render_overlay (o : Overlay) :
    render block scope (overlay o) = scope.overlay (Scope.blocks block scope) o := by
  simp [overlay, Scope.overlay, renderAll_map, render_overlayNote, Rendered.inside, Markup.node]

/-- Rendering a simple block is rendering its layout. -/
theorem renderAll_ofBlock (number : Option String) {b : Block} (h : b.isSimple = true) :
    renderAll block scope (ofBlock scope b) = blockWith block scope number b := by
  have hone : ∀ {l : Layout} {x : Rendered}, render block scope l = x →
      renderAll block scope [l] = x := fun heq => (renderAll_singleton block scope _).trans heq
  cases b with
  | paragraph p => exact hone (render_paragraph block scope p)
  | equation e => exact hone (render_equation block scope e)
  | statement s => exact hone (render_statement block scope s)
  | list l => exact hone (render_listing block scope l)
  | table t => exact hone (render_table block scope t)
  | code c => exact hone (render_codeBlock block scope c)
  | image i => exact hone (render_image block scope i)
  | diagram d => exact hone (render_diagram block scope d)
  | collapsible c => exact hone (render_collapsible block scope c)
  | grid g => exact hone (render_grid block scope g)
  | columns c => exact hone (render_columns block scope c)
  | thematicBreak => exact hone (by rw [render, blockWith])
  | quote q => exact hone (render_quote block scope q)
  | alert a => exact hone (render_alert block scope a)
  | component c => exact renderAll_component block scope c
  | sideBySide s => exact hone (render_sideBySide block scope s)
  | panels p => exact hone (render_panelLayout block scope p)
  | overlay o => exact hone (render_overlay block scope o)
  | controls g => exact hone (by rw [render, blockWith])
  | unknown u => exact renderAll_fixed block scope _
  | sectionRef r => cases h
  | subsection s => cases h
  | document d => cases h

end Blocks

/-! ## Sections -/

/-- The blocks of a section, the subsections with their numbers. -/
def numbered (number : Option String) : Nat → List Block → List Layout
  | _, [] => []
  | k, b :: rest =>
    match b, number with
    | .subsection s, some parent =>
      .block (some (parent ++ "." ++ natAttr (k + 1))) (.subsection s) ::
        numbered number (k + 1) rest
    | b, _ => .block none b :: numbered number k rest

/-- The blocks of a section come one after the other; only their numbers depend on what they are. -/
theorem numbered_cons (number : Option String) (k : Nat) (b : Block) (rest : List Block) :
    ∃ own next, numbered number k (b :: rest) = .block own b :: numbered number next rest ∧
      ∀ (block : BlockRenderer) (scope : Scope),
        sectionContent block scope number k (b :: rest) = do
        let first ← block scope own b
        let others ← sectionContent block scope number next rest
        return first ++ others := by
  cases number with
  | none => cases b <;> exact ⟨none, k, rfl, fun _ _ => rfl⟩
  | some parent =>
    cases b with
    | subsection s => exact ⟨_, k + 1, rfl, fun _ _ => rfl⟩
    | _ => exact ⟨none, k, rfl, fun _ _ => rfl⟩

/-- The title and the metadata of a section. -/
def sectionFront (inner : Scope) (mode : SectionMode) (number : Option String) (s : Section) :
    List Layout :=
  (if showsTitle mode s then s.title.toList.map fun title =>
      node inner.headingTag [("class", "section-title")]
        ((numberLabel number).map fixed ++ [Layout.text title])
    else []) ++ (sectionMetadata s).map fixed

def ofSection (inner : Scope) (mode : SectionMode) (number : Option String) (s : Section) :
    List Layout :=
  sectionFront inner mode number s ++ numbered number 0 s.content

section Sections

variable (block : BlockRenderer) (scope : Scope)

theorem renderAll_numbered (number : Option String) (k : Nat) (content : List Block) :
    renderAll block scope (numbered number k content) =
      sectionContent block scope number k content := by
  induction content generalizing k with
  | nil => rw [numbered, renderAll_nil, sectionContent]
  | cons b rest ih =>
    obtain ⟨own, next, hlayout, hcontent⟩ := numbered_cons number k b rest
    rw [hlayout, hcontent, renderAll_cons, render, ih]

/-- A section that is not open yet is an element around its layout. -/
theorem renderSection_eq {mode : SectionMode} {s : Section} (number : Option String)
    (hnew : s.id ∉ scope.sections) :
    renderSection block scope mode number s =
      Rendered.inside "section" (scope.sectionAttrs mode number.isSome s)
        (renderAll block (scope.insideSection mode s)
          (ofSection (scope.insideSection mode s) mode number s)) := by
  have htitle : ∀ inner : Scope, inner.sectionTitle mode number s = renderAll block inner
      (if showsTitle mode s then s.title.toList.map fun title =>
        node inner.headingTag [("class", "section-title")]
          ((numberLabel number).map fixed ++ [Layout.text title]) else []) := by
    intro inner
    unfold sectionTitle
    split
    · simp [render, Rendered.inside, Markup.node]
    · rw [renderAll_nil]
  have hfresh : scope.sections.contains s.id = false := by simpa using hnew
  unfold renderSection ofSection sectionFront
  rw [hfresh, if_neg Bool.false_ne_true]
  simp [htitle, Rendered.sequence, renderAll_numbered]

end Sections

/-! ## Articles -/

def glossary (d : Document) : List Layout :=
  if d.glossary.isEmpty then []
  else [classed "section" "glossary" [.fixed (.leaf "h2" [] "Glossary"),
    node "dl" [] (d.glossary.flatMap fun entry =>
      [.fixed (.leaf "dt" [("id", glossaryAnchor entry.term)] entry.term),
        node "dd" [] [.text entry.definition]])]]

def footnotes (d : Document) : List Layout :=
  if d.footnotes.isEmpty then []
  else [classed "section" "footnotes" [node "ol" [] (d.footnotes.map fun note =>
    node "li" [("id", "footnote-" ++ note.id)] [.text note.content])]]

def pairs : List Section → List Layout
  | [] => []
  | [source] =>
    [classed "div" "mapping-source" [.division none source],
      .fixed (.leaf "span" [("class", "mapping-arrow")] "→"),
      .fixed (.classed "div" "mapping-target" [])]
  | source :: target :: rest =>
    classed "div" "mapping-source" [.division none source] ::
      .fixed (.leaf "span" [("class", "mapping-arrow")] "→") ::
      classed "div" "mapping-target" [.division none target] :: pairs rest

/-- The sections of a body, as the kind of the document arranges them. -/
def ofBody (d : Document) : List Layout :=
  match d.kind with
  | .textbook => eachFrom (fun i s => .division (some (natAttr (i + 1))) s) 0 d.body
  | .comparisonPage => d.body.map fun s => classed "div" "comparison-column" [.division none s]
  | .animatedPresentation =>
    eachFrom (fun i s => node "div"
      [("class", if i = 0 then "slide slide-current" else "slide"), ("data-slide-index", natAttr i)]
      [.division none s]) 0 d.body
  | .typeMappingDisplay | .transformationMapping => pairs d.body
  | _ => d.body.map (.division none)

/-- The inside of an article, before its closing. -/
def ofDocument (inner : Scope) (d : Document) : List Layout :=
  .fixed (documentHeader d) ::
    ((d.abstract.toList.map fun summary => classed "section" "document-abstract"
      [.fixed (.leaf "h2" [] "Abstract"), node "p" [] [.text summary]]) ++
    ((documentContents d).map fixed ++
    ((if d.kind == .glossary then glossary d else []) ++
    ((if d.kind == .resourcePanel then (resourceNav d.body).map fixed else []) ++
    (node "main" (("class", (inner.bodyLayout d).1) :: styleAttr (inner.bodyLayout d).2)
      (ofBody d) :: (footnotes d ++
      ((if d.kind == .glossary then [] else glossary d) ++
      (documentBibliography d).map fixed)))))))

section Articles

variable (block : BlockRenderer) (scope : Scope)

theorem renderAll_glossary (d : Document) :
    renderAll block scope (glossary d) = scope.documentGlossary d := by
  unfold glossary documentGlossary
  split
  · rw [renderAll_nil]
  · simp [render, Rendered.inside, Rendered.classed, Markup.node]
    rfl

theorem renderAll_footnotes (d : Document) :
    renderAll block scope (footnotes d) = scope.documentFootnotes d := by
  unfold footnotes documentFootnotes
  split
  · rw [renderAll_nil]
  · simp [render, renderAll_map]

theorem renderAll_pairs (body : List Section) :
    renderAll block scope (pairs body) = mappingPairs block scope body := by
  fun_induction pairs body with
  | case1 => rw [renderAll_nil, mappingPairs]
  | case2 source => simp [mappingPairs, render]
  | case3 source target rest ih => simp [mappingPairs, render, ih]

theorem renderAll_ofBody (d : Document) :
    renderAll block scope (ofBody d) = bodySections block scope d := by
  unfold ofBody bodySections
  cases d.kind with
  | typeMappingDisplay | transformationMapping => exact renderAll_pairs block scope d.body
  | _ => simp [renderAll_map, render]

/-- The inside of an article is rendered from its layout. -/
theorem sequence_articleFront (d : Document) :
    Rendered.sequence (articleFront block scope d) =
      renderAll block scope (ofDocument scope d) := by
  have habstract : scope.documentAbstract d = renderAll block scope
      (d.abstract.toList.map fun summary => classed "section" "document-abstract"
        [.fixed (.leaf "h2" [] "Abstract"), node "p" [] [.text summary]]) := by
    unfold documentAbstract
    simp [render, Rendered.inside, Markup.node]
  have hbody : documentBody block scope d = render block scope (node "main"
      (("class", (scope.bodyLayout d).1) :: styleAttr (scope.bodyLayout d).2) (ofBody d)) := by
    rw [render_node, renderAll_ofBody]
    rfl
  unfold articleFront ofDocument
  cases d.kind == .glossary <;> cases d.kind == .resourcePanel <;>
    simp only [Rendered.sequence, habstract, hbody, renderAll_cons, renderAll_append,
      renderAll_fixed, renderAll_glossary, renderAll_footnotes, render, pure_bind, bind_assoc,
      if_true, if_false, Bool.false_eq_true, List.nil_append, List.append_nil]

/-- A document that is not open yet is an element around its layout and its closing. -/
theorem articleWith_eq_layout (closing : Scope → Rendered) {d : Document}
    (hnew : d.id ∉ scope.documents.map (·.id)) :
    articleWith block closing scope d = Rendered.inside "article" (articleAttrs d) (do
      let front ← renderAll block (scope.insideDocument d) (ofDocument (scope.insideDocument d) d)
      let last ← closing (scope.insideDocument d)
      return front ++ last) := by
  have hopen : scope.documents.any (fun other => other.id == d.id) = false :=
    Bool.eq_false_iff.mpr fun hany => hnew (any_id_iff.mp hany)
  rw [articleWith_eq block closing hopen, sequence_append_singleton, sequence_articleFront]

end Articles

/-! ## Leaves -/

mutual

/-- What is read off the nodes of a layout, in their order. -/
def collect {α : Type} (read : Layout → List α) : Layout → List α
  | element tag attrs flags inner => read (element tag attrs flags inner) ++ collectAll read inner
  | l => read l

def collectAll {α : Type} (read : Layout → List α) : List Layout → List α
  | [] => []
  | l :: rest => collect read l ++ collectAll read rest

end

theorem map_zipIdx {α β : Type} (f : α → β) (n : Nat) (l : List α) :
    ((l.zipIdx n).map fun e => f e.1) = l.map f := by
  conv_rhs => rw [← List.zipIdx_map_fst n l, List.map_map]
  rfl

section Collect

variable {α β : Type} (read : Layout → List α)

@[simp] theorem collectAll_nil : collectAll read [] = [] := by
  rw [collectAll]

@[simp] theorem collectAll_cons (l : Layout) (rest : List Layout) :
    collectAll read (l :: rest) = collect read l ++ collectAll read rest := by
  rw [collectAll]

@[simp] theorem collectAll_append (l m : List Layout) :
    collectAll read (l ++ m) = collectAll read l ++ collectAll read m :=
  append_of_cons l m rfl fun _ _ => rfl

theorem collectAll_flatMap (f : β → List Layout) (l : List β) :
    collectAll read (l.flatMap f) = l.flatMap fun a => collectAll read (f a) :=
  flatMap_of_cons l f rfl fun _ _ => rfl

theorem collectAll_map (f : β → Layout) (l : List β) :
    collectAll read (l.map f) = l.flatMap fun a => collect read (f a) := by
  simp [List.map_eq_flatMap, collectAll_flatMap]

theorem collectAll_eachFrom (f : Nat → β → Layout) (n : Nat) (l : List β) :
    collectAll read (eachFrom f n l) = (l.zipIdx n).flatMap fun e => collect read (f e.2 e.1) := by
  induction l generalizing n with
  | nil => simp [eachFrom]
  | cons a rest ih => simp [eachFrom, ih]

@[simp] theorem collect_fixed (m : Markup) : collect read (fixed m) = read (fixed m) := by
  rw [collect]
  nofun

@[simp] theorem collect_text (content : List Inline) :
    collect read (.text content) = read (.text content) := by
  rw [collect]
  nofun

@[simp] theorem collect_block (number : Option String) (b : Block) :
    collect read (.block number b) = read (.block number b) := by
  rw [collect]
  nofun

@[simp] theorem collect_division (number : Option String) (s : Section) :
    collect read (division number s) = read (division number s) := by
  rw [collect]
  nofun

@[simp] theorem collect_element (tag : String) (attrs : List Attr) (flags : List String)
    (inner : List Layout) : collect read (element tag attrs flags inner) =
      read (element tag attrs flags inner) ++ collectAll read inner := by
  rw [collect]

@[simp] theorem collect_node (tag : String) (attrs : List Attr) (inner : List Layout) :
    collect read (node tag attrs inner) =
      read (element tag attrs [] inner) ++ collectAll read inner := by
  rw [node, collect_element]

@[simp] theorem collect_classed (tag cssClass : String) (inner : List Layout) :
    collect read (classed tag cssClass inner) =
      read (element tag [("class", cssClass)] [] inner) ++ collectAll read inner := by
  rw [classed, collect_element]

mutual

theorem collect_comp (next : α → List β) : ∀ l : Layout,
    collect (fun l => (read l).flatMap next) l = (collect read l).flatMap next
  | fixed _ | .text _ | .block _ _ | division _ _ => by simp
  | element tag attrs flags inner => by simp [collectAll_comp next inner]

theorem collectAll_comp (next : α → List β) : ∀ ls : List Layout,
    collectAll (fun l => (read l).flatMap next) ls = (collectAll read ls).flatMap next
  | [] => by simp
  | l :: rest => by simp [collect_comp next l, collectAll_comp next rest]

end

end Collect

/-- A leaf of a layout, which is rendered by the scope that the layout is in. -/
inductive Leaf where
  | text (content : List Inline)
  | block (number : Option String) (b : Block)
  | division (number : Option String) (s : Section)

namespace Leaf

def render (block : BlockRenderer) (scope : Scope) : Leaf → Rendered
  | text content => scope.inlines content
  | .block number b => block scope number b
  | division number s => Scope.bodySection block scope number s

def part : Leaf → List Part
  | text _ => []
  | block _ b => [.block b]
  | division _ s => [.division s]

def texts : Leaf → List (List Inline)
  | text content => [content]
  | block _ _ | division _ _ => []

end Leaf

@[simp] def leafOf : Layout → List Leaf
  | fixed _ | element _ _ _ _ => []
  | .text content => [.text content]
  | .block number b => [.block number b]
  | division number s => [.division number s]

@[simp] def leafPart : Layout → List Part
  | fixed _ | text _ | element _ _ _ _ => []
  | block _ b => [.block b]
  | division _ s => [.division s]

@[simp] def leafText : Layout → List (List Inline)
  | fixed _ | block _ _ | division _ _ | element _ _ _ _ => []
  | text content => [content]

abbrev leavesAll : List Layout → List Leaf := collectAll leafOf

/-- The blocks and sections of a layout. -/
abbrev shown : Layout → List Part := collect leafPart

abbrev shownAll : List Layout → List Part := collectAll leafPart

abbrev texts : Layout → List (List Inline) := collect leafText

abbrev textsAll : List Layout → List (List Inline) := collectAll leafText

theorem shown_element (tag : String) (attrs : List Attr) (flags : List String)
    (inner : List Layout) :
    shown (element tag attrs flags inner) = shownAll inner := by
  simp

theorem shownAll_cons (l : Layout) (rest : List Layout) :
    shownAll (l :: rest) = shown l ++ shownAll rest := by
  simp

theorem shownAll_eq (ls : List Layout) : shownAll ls = (leavesAll ls).flatMap Leaf.part := by
  have hleaf : leafPart = fun l => (leafOf l).flatMap Leaf.part :=
    funext fun l => by cases l <;> rfl
  rw [shownAll, hleaf, collectAll_comp]

theorem textsAll_eq (ls : List Layout) : textsAll ls = (leavesAll ls).flatMap Leaf.texts := by
  have hleaf : leafText = fun l => (leafOf l).flatMap Leaf.texts :=
    funext fun l => by cases l <;> rfl
  rw [textsAll, hleaf, collectAll_comp]

@[simp] theorem leavesAll_fixed (ms : List Markup) : leavesAll (ms.map fixed) = [] := by
  simp [collectAll_map]

@[simp] theorem shownAll_fixed (ms : List Markup) : shownAll (ms.map fixed) = [] := by
  simp [shownAll_eq]

@[simp] theorem textsAll_fixed (ms : List Markup) : textsAll (ms.map fixed) = [] := by
  simp [textsAll_eq]

/-- What holds of the texts, of the blocks and of the sections of layouts holds of their leaves. -/
theorem forall_leaves {Q : Leaf → Prop} {ls : List Layout}
    (htext : ∀ content ∈ textsAll ls, Q (.text content))
    (hblock : ∀ b, .block b ∈ shownAll ls → ∀ number, Q (.block number b))
    (hsection : ∀ s, .division s ∈ shownAll ls → ∀ number, Q (.division number s)) :
    ∀ l ∈ leavesAll ls, Q l := by
  rw [textsAll_eq] at htext
  rw [shownAll_eq] at hblock hsection
  intro l hl
  cases l with
  | text content => exact htext content (List.mem_flatMap.mpr ⟨_, hl, List.mem_singleton_self _⟩)
  | block number b =>
    exact hblock b (List.mem_flatMap.mpr ⟨_, hl, List.mem_singleton_self _⟩) number
  | division number s =>
    exact hsection s (List.mem_flatMap.mpr ⟨_, hl, List.mem_singleton_self _⟩) number

@[simp] theorem shownAll_blocks (content : List Block) :
    shownAll (blocks content) = content.map .block := by
  rw [List.map_eq_flatMap]
  simp [blocks, collectAll_map]

@[simp] theorem shownAll_textIn (tag : String) (attrs : List Attr)
    (content : Option (List Inline)) :
    shownAll (textIn tag attrs content) = [] := by
  cases content <;> simp [textIn]

@[simp] theorem shown_panel (cssClass : String) (visible : Bool) (extra : List Attr) (p : Panel) :
    shown (panel cssClass visible extra p) = p.content.map .block := by
  simp [panel]

@[simp] theorem textsAll_blocks (content : List Block) : textsAll (blocks content) = [] := by
  simp [blocks, collectAll_map]

@[simp] theorem textsAll_textIn (tag : String) (attrs : List Attr)
    (content : Option (List Inline)) :
    textsAll (textIn tag attrs content) = content.toList := by
  cases content <;> simp [textIn]

@[simp] theorem texts_panel (cssClass : String) (visible : Bool) (extra : List Attr) (p : Panel) :
    texts (panel cssClass visible extra p) = p.title.toList := by
  simp [panel]

/-- A simple block shows its inner blocks, in their order. -/
theorem shownAll_ofBlock (scope : Scope) (b : Block) :
    shownAll (ofBlock scope b) = (b.inner scope.renderer).map .block := by
  cases b with
  | equation e => cases hlabel : e.label <;> simp [ofBlock, equation, caption, hlabel, Block.inner]
  | statement s =>
    obtain ⟨kind, number, title, body, proof⟩ := s
    cases title <;> cases proof <;> simp [ofBlock, statement, Block.inner]
  | list l =>
    have hitems : ((l.items.zipIdx 0).flatMap fun e => e.1.content.map Part.block) =
        l.items.flatMap fun item => item.content.map .block := by
      rw [List.flatMap_def, map_zipIdx (fun item : ListItem => item.content.map Part.block),
        ← List.flatMap_def]
    simp [ofBlock, listing, Block.inner, collectAll_eachFrom, hitems, List.map_flatMap]
  | table t =>
    obtain ⟨content, headerRows, bodyRows, footerRows⟩ := t
    have hgroup : ∀ tag inHeader rows,
        shown (rowGroup tag inHeader rows) = (rows.flatMap TableRow.blocks).map .block := by
      intro tag inHeader rows
      have hblocks : TableRow.blocks = fun row => row.cells.flatMap (·.content) := rfl
      simp [rowGroup, tableCell, collectAll_map, hblocks, List.map_flatMap]
    cases headerRows <;> cases footerRows <;> simp [ofBlock, table, Block.inner, hgroup]
  | grid g => simp [ofBlock, grid, gridItem, Block.inner, collectAll_map, List.map_flatMap]
  | columns c => simp [ofBlock, columns, Block.inner, collectAll_map, List.map_flatMap]
  | component c =>
    show shownAll (component scope c) = List.map .block
      (if (scope.renderer.components.get? c.name).isSome then [] else c.fallback.getD [])
    unfold component
    cases scope.renderer.components.get? c.name <;> cases c.fallback <;> simp
  | panels layout =>
    show shownAll [panelLayout scope layout] = (layout.shown.flatMap (·.content)).map .block
    unfold panelLayout PanelLayout.shown
    cases layout.arrangement with
    | sidebar name =>
      cases hmain : layout.panels[mainPanel name layout.panels]? <;>
        simp [sidebar, hmain, collectAll_map, List.map_flatMap]
    | tabs => simp [tabs, collectAll_map, List.map_flatMap]
    | accordion => simp [accordionItem, collectAll_map, List.map_flatMap]
    | _ => simp [collectAll_map, List.map_flatMap]
  | overlay o =>
    have hnote : ∀ a, shown (overlayNote a) = [] := by
      intro a
      unfold overlayNote
      cases a.position <;> simp
    simp [ofBlock, overlay, Block.inner, collectAll_map, hnote]
  | _ =>
    simp [ofBlock, Block.inner, paragraph, caption, codeBlock, image, diagram, collapsible, quote,
      alert, sideBySide]

theorem shownAll_ofSection (inner : Scope) (mode : SectionMode) (number : Option String)
    (s : Section) :
    shownAll (ofSection inner mode number s) = s.content.map .block := by
  have hnumbered : ∀ k content, shownAll (numbered number k content) = content.map .block := by
    intro k content
    induction content generalizing k with
    | nil => simp [numbered]
    | cons b rest ih =>
      obtain ⟨own, next, hlayout, -⟩ := numbered_cons number k b rest
      simp [hlayout, ih]
  unfold ofSection sectionFront
  cases showsTitle mode s <;> cases s.title <;> simp [hnumbered]

/-- The number of a section by its place in the body, which is counted from one: textbooks number
them. -/
def bodyNumber (d : Document) (i : Nat) : Option String :=
  if d.kind = .textbook then some (natAttr i) else none

/-- The leaves of a body are its sections, in their order. -/
theorem leavesAll_ofBody (d : Document) :
    leavesAll (ofBody d) = (d.body.zipIdx 1).map fun e => .division (bodyNumber d e.2) e.1 := by
  have hpairs : ∀ body, leavesAll (pairs body) = body.map (.division none) := by
    intro body
    fun_induction pairs body with
    | case1 => simp
    | case2 source => simp
    | case3 source target rest ih => simp [ih]
  have hfirst : ∀ body : List Section, body.map (Leaf.division none) =
      (body.zipIdx 1).map fun e => .division none e.1 := fun body => (map_zipIdx _ 1 body).symm
  unfold ofBody bodyNumber
  cases d.kind with
  | textbook =>
    simp [collectAll_eachFrom, List.zipIdx_succ, List.map_eq_flatMap, List.flatMap_assoc]
  | animatedPresentation =>
    simp [collectAll_eachFrom, List.zipIdx_succ, List.map_eq_flatMap, List.flatMap_assoc]
  | typeMappingDisplay => simp [hpairs, hfirst]
  | transformationMapping => simp [hpairs, hfirst]
  | _ => simp [collectAll_map, ← hfirst, List.map_eq_flatMap (f := Leaf.division none)]

/-- The leaves of an article are the sections of its body and some texts. -/
theorem flatMap_leaves_ofDocument {α : Type} {read : Leaf → List α}
    (htext : ∀ content, read (.text content) = []) (inner : Scope) (d : Document) :
    (leavesAll (ofDocument inner d)).flatMap read = (leavesAll (ofBody d)).flatMap read := by
  have hglossary : (leavesAll (glossary d)).flatMap read = [] := by
    unfold glossary
    split <;> simp [collectAll_flatMap, List.flatMap_assoc, htext]
  have hfootnotes : (leavesAll (footnotes d)).flatMap read = [] := by
    unfold footnotes
    split <;> simp [collectAll_map, List.flatMap_assoc, htext]
  unfold ofDocument
  cases d.abstract <;> cases d.kind == .glossary <;> cases d.kind == .resourcePanel <;>
    simp [hglossary, hfootnotes, htext]

theorem shownAll_ofBody (d : Document) : shownAll (ofBody d) = d.body.map .division := by
  rw [shownAll_eq, leavesAll_ofBody, List.flatMap_map, ← map_zipIdx Part.division 1 d.body]
  exact List.map_eq_flatMap.symm

/-- An article shows the sections of its body, in their order. -/
theorem shownAll_ofDocument (inner : Scope) (d : Document) :
    shownAll (ofDocument inner d) = d.body.map .division := by
  rw [← shownAll_ofBody, shownAll_eq, flatMap_leaves_ofDocument (fun _ => rfl), shownAll_eq]

/-! ## Texts -/

/-- A simple block shows its texts. -/
theorem textsAll_ofBlock (scope : Scope) (b : Block) : textsAll (ofBlock scope b) = b.texts := by
  cases b with
  | equation e => cases hlabel : e.label <;> simp [ofBlock, equation, caption, hlabel, Block.texts]
  | statement s =>
    obtain ⟨kind, number, title, body, proof⟩ := s
    cases title <;> cases proof <;> simp [ofBlock, statement, Block.texts]
  | list l => simp [ofBlock, listing, Block.texts, collectAll_eachFrom]
  | table t =>
    obtain ⟨content, headerRows, bodyRows, footerRows⟩ := t
    have hgroup : ∀ tag inHeader rows, texts (rowGroup tag inHeader rows) = [] := by
      intro tag inHeader rows
      simp [rowGroup, tableCell, collectAll_map]
    cases headerRows <;> cases footerRows <;> simp [ofBlock, table, Block.texts, hgroup]
  | grid g => simp [ofBlock, grid, gridItem, Block.texts, collectAll_map]
  | columns c => simp [ofBlock, columns, Block.texts, collectAll_map]
  | component c =>
    show textsAll (component scope c) = []
    unfold component
    cases scope.renderer.components.get? c.name <;> cases c.fallback <;> simp
  | panels layout =>
    show textsAll [panelLayout scope layout] = layout.shown.flatMap fun panel => panel.title.toList
    unfold panelLayout PanelLayout.shown
    cases layout.arrangement with
    | sidebar name =>
      cases hmain : layout.panels[mainPanel name layout.panels]? <;>
        simp [sidebar, hmain, collectAll_map]
    | tabs => simp [tabs, collectAll_map]
    | accordion => simp [accordionItem, collectAll_map]
    | _ => simp [collectAll_map]
  | overlay o =>
    have hnote : ∀ a, texts (overlayNote a) = [a.content] := by
      intro a
      unfold overlayNote
      cases a.position <;> simp
    simp only [ofBlock, overlay, collectAll_cons, collectAll_nil, collect_node, collect_classed,
      leafText, textsAll_blocks, collectAll_map, hnote, List.nil_append, List.append_nil]
    exact List.map_eq_flatMap.symm
  | _ =>
    simp [ofBlock, Block.texts, paragraph, caption, codeBlock, image, diagram, collapsible, quote,
      alert, sideBySide]

/-- The only text of a section, outside of its blocks, is its title. -/
theorem textsAll_ofSection_subset (inner : Scope) (mode : SectionMode) (number : Option String)
    (s : Section) : textsAll (ofSection inner mode number s) ⊆ s.title.toList := by
  have hnumbered : ∀ k content, textsAll (numbered number k content) = [] := by
    intro k content
    induction content generalizing k with
    | nil => simp [numbered]
    | cons b rest ih =>
      obtain ⟨own, next, hlayout, -⟩ := numbered_cons number k b rest
      simp [hlayout, ih]
  unfold ofSection sectionFront
  cases showsTitle mode s <;> cases s.title <;> simp [hnumbered]

theorem textsAll_ofBody (d : Document) : textsAll (ofBody d) = [] := by
  rw [textsAll_eq, leavesAll_ofBody, List.flatMap_map]
  exact List.flatMap_eq_nil_iff.mpr fun _ _ => rfl

/-- The texts of an article, outside of its sections, are those of its document. -/
theorem textsAll_ofDocument_subset (inner : Scope) (d : Document) :
    textsAll (ofDocument inner d) ⊆ d.texts := by
  have habstract :
      textsAll (d.abstract.toList.map fun summary => classed "section" "document-abstract"
      [.fixed (.leaf "h2" [] "Abstract"), node "p" [] [.text summary]]) = d.abstract.toList := by
    simp [collectAll_map]
  have hglossary : textsAll (glossary d) ⊆ d.glossary.map (·.definition) := by
    unfold glossary
    split <;> simp [collectAll_flatMap, List.map_eq_flatMap]
  have hfootnotes : textsAll (footnotes d) ⊆ d.footnotes.map (·.content) := by
    unfold footnotes
    split <;> simp [collectAll_flatMap, List.map_eq_flatMap]
  unfold ofDocument Document.texts
  cases d.kind == .glossary <;> cases d.kind == .resourcePanel <;>
    simp only [collectAll_cons, collectAll_append, textsAll_fixed, collect_fixed, collect_node,
      leafText, textsAll_ofBody, habstract, if_true, if_false, Bool.false_eq_true,
      collectAll_nil] <;> grind

end Layout

end Compendium
