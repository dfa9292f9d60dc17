import Compendium.Proofs.Render.Clean
import Compendium.Proofs.Render.Layout

/-!
# Plain markup

Links, references to footnotes, sections, documents, tooltips and the stand-ins for what is not
rendered are known by their attributes. Everything else is plain: it has none of these attributes,
its anchors hold a text and nothing more, its names are those of documents, and its styles are put
together from single declarations. All layouts are plain, up to what a registered component draws.
So a property of rendering steps that plain elements keep holds of every layout as soon as it holds
of the leaves.
-/

namespace Compendium

/-- Attributes that only links, references to footnotes, sections and documents have. -/
def markNames : List String :=
  ["data-link-kind", "data-footnote-id", "data-section-id", "data-document-id"]

/-- Classes that only links, tooltips and stand-ins have. -/
def markClasses : List String :=
  ["link", "tooltip-document", "tooltip-documents", "render-marker section-cycle",
    "render-marker document-cycle", "render-marker depth-limit"]

/-- An attribute that anything may have. -/
def PlainAttr (a : Attr) : Prop :=
  a.1 ∉ markNames ∧ (a.1 = "class" → a.2 ∉ markClasses) ∧ a.1 ∈ documentNames.attrs ∧
    (a.1 = "style" → IsStyle a.2)

def PlainAttrs (attrs : List Attr) : Prop :=
  ∀ a ∈ attrs, PlainAttr a

@[simp] theorem plainAttrs_nil : PlainAttrs [] := by
  simp [PlainAttrs]

@[simp] theorem plainAttrs_cons (a : Attr) (rest : List Attr) :
    PlainAttrs (a :: rest) ↔ PlainAttr a ∧ PlainAttrs rest := by
  simp [PlainAttrs]

@[simp] theorem plainAttrs_append (a b : List Attr) :
    PlainAttrs (a ++ b) ↔ PlainAttrs a ∧ PlainAttrs b := by
  simp only [PlainAttrs, List.mem_append, or_imp, forall_and]

@[simp] theorem plainAttr_mk (name value : String) :
    PlainAttr (name, value) ↔ name ∉ markNames ∧ (name = "class" → value ∉ markClasses) ∧
      name ∈ documentNames.attrs ∧ (name = "style" → IsStyle value) :=
  Iff.rfl

@[simp] theorem mem_markNames (name : String) : name ∈ markNames ↔
    name = "data-link-kind" ∨ name = "data-footnote-id" ∨ name = "data-section-id" ∨
      name = "data-document-id" := by
  simp [markNames]

@[simp] theorem mem_markClasses (word : String) : word ∈ markClasses ↔
    word = "link" ∨ word = "tooltip-document" ∨ word = "tooltip-documents" ∨
      word = "render-marker section-cycle" ∨ word = "render-marker document-cycle" ∨
      word = "render-marker depth-limit" := by
  simp [markClasses]

/-- How these classes start. -/
@[simp] def markStarts : List (List Char) :=
  [['l', 'i', 'n', 'k'], ['t', 'o', 'o', 'l'], ['r', 'e', 'n', 'd']]

theorem take_mem_markStarts : ∀ word ∈ markClasses, word.toList.take 4 ∈ markStarts := by
  decide

@[simp high] theorem append_mem_markClasses {start : String}
    (h : 4 ≤ start.toList.length ∧ start.toList.take 4 ∉ markStarts) (more : String) :
    start ++ more ∈ markClasses ↔ False := by
  refine iff_false_intro fun hmem => h.2 ?_
  have hstart := take_mem_markStarts _ hmem
  rwa [String.toList_append, List.take_append_of_le_length h.1] at hstart

theorem plainAttrs_class (cssClass : String) :
    PlainAttrs [("class", cssClass)] ↔ cssClass ∉ markClasses := by
  have hclass : "class" ∈ documentNames.attrs := by decide
  simp [hclass]

theorem mem_of_lookup {attrs : List Attr} {name value : String}
    (h : attrs.lookup name = some value) :
    (name, value) ∈ attrs := by
  obtain ⟨before, rest, rfl, -⟩ := List.lookup_eq_some_iff.mp h
  exact List.mem_append_right _ List.mem_cons_self

theorem PlainAttrs.lookup_name {attrs : List Attr} (h : PlainAttrs attrs) {name : String}
    (hname : name ∈ markNames) : attrs.lookup name = none := by
  cases hvalue : attrs.lookup name with
  | none => rfl
  | some value => exact absurd hname (h _ (mem_of_lookup hvalue)).1

theorem PlainAttrs.lookup_class {attrs : List Attr} (h : PlainAttrs attrs) {word : String}
    (hword : attrs.lookup "class" = some word) : word ∉ markClasses :=
  (h _ (mem_of_lookup hword)).2.1 rfl

/-- The names and attributes of an element that may stand anywhere. A section with an id is one of
the document. -/
@[mk_iff]
structure PlainTag (tag : String) (attrs : List Attr) (flags : List String) : Prop where
  other : tag ≠ "article"
  known : tag ∈ documentNames.elements
  flagged : ∀ flag ∈ flags, flag ∈ documentNames.flags
  anchor : tag = "section" → "id" ∉ attrs.map Prod.fst

attribute [simp] plainTag_iff

namespace Markup

mutual

/-- Markup that is no link, reference, section, document, tooltip or stand-in, and holds none. Raw
text may stand in it if something is drawn. -/
def PlainIn (drawn : Prop) : Markup → Prop
  | element tag attrs flags content =>
    PlainTag tag attrs flags ∧ PlainAttrs attrs ∧ (tag = "a" → ∃ s, content = [text s]) ∧
      PlainListIn drawn content
  | void tag attrs flags =>
    (tag ∈ documentNames.voids ∧ ∀ flag ∈ flags, flag ∈ documentNames.flags) ∧ PlainAttrs attrs
  | text _ => True
  | script json => hasClose json = false
  | raw _ => drawn

def PlainListIn (drawn : Prop) : List Markup → Prop
  | [] => True
  | m :: rest => PlainIn drawn m ∧ PlainListIn drawn rest

end

abbrev Plain : Markup → Prop :=
  PlainIn True

abbrev PlainList : List Markup → Prop :=
  PlainListIn True

mutual

theorem PlainIn.mono {drawn drawn' : Prop} (hdrawn : drawn → drawn') :
    ∀ {m : Markup}, m.PlainIn drawn → m.PlainIn drawn'
  | .text _, _ => trivial
  | .script _, h => h
  | .raw _, h => hdrawn h
  | .void _ _ _, h => h
  | .element _ _ _ _, h => ⟨h.1, h.2.1, h.2.2.1, PlainListIn.mono hdrawn h.2.2.2⟩

theorem PlainListIn.mono {drawn drawn' : Prop} (hdrawn : drawn → drawn') : ∀ {ms : List Markup},
    PlainListIn drawn ms → PlainListIn drawn' ms
  | [], _ => trivial
  | _ :: _, h => ⟨PlainIn.mono hdrawn h.1, PlainListIn.mono hdrawn h.2⟩

end

variable {drawn : Prop}

@[simp] theorem plainList_nil : PlainListIn drawn [] :=
  trivial

@[simp] theorem plainList_cons (m : Markup) (rest : List Markup) :
    PlainListIn drawn (m :: rest) ↔ PlainIn drawn m ∧ PlainListIn drawn rest :=
  Iff.rfl

@[simp] theorem plainList_append (a b : List Markup) :
    PlainListIn drawn (a ++ b) ↔ PlainListIn drawn a ∧ PlainListIn drawn b :=
  and_of_append a b trivial fun _ _ => .rfl

theorem plainList_of_forall {ms : List Markup} (h : ∀ m ∈ ms, PlainIn drawn m) :
    PlainListIn drawn ms :=
  (iff_forall_of_cons ms trivial fun _ _ => .rfl).mpr h

theorem plainList_map {α : Type} {f : α → Markup} {l : List α} (h : ∀ a, PlainIn drawn (f a)) :
    PlainListIn drawn (l.map f) := by
  refine plainList_of_forall fun m hm => ?_
  obtain ⟨a, -, rfl⟩ := List.mem_map.mp hm
  exact h a

theorem plainList_flatMap {α : Type} {f : α → List Markup} {l : List α}
    (h : ∀ a, PlainListIn drawn (f a)) : PlainListIn drawn (l.flatMap f) :=
  all_flatMap (fun a _ => h a) trivial fun _ _ => .rfl

@[simp] theorem plain_text (s : String) : PlainIn drawn (.text s) :=
  trivial

@[simp] theorem plain_script (json : List Char) :
    PlainIn drawn (.script json) ↔ hasClose json = false :=
  Iff.rfl

@[simp] theorem plain_raw (html : String) : PlainIn drawn (.raw html) ↔ drawn :=
  Iff.rfl

@[simp] theorem plain_element {tag : String} (htag : tag ≠ "a") (attrs : List Attr)
    (flags : List String) (content : List Markup) :
    PlainIn drawn (.element tag attrs flags content) ↔
      PlainTag tag attrs flags ∧ PlainAttrs attrs ∧ PlainListIn drawn content := by
  simp [PlainIn, htag]

@[simp] theorem plain_void (tag : String) (attrs : List Attr) (flags : List String) :
    PlainIn drawn (.void tag attrs flags) ↔
      (tag ∈ documentNames.voids ∧ ∀ flag ∈ flags, flag ∈ documentNames.flags) ∧ PlainAttrs attrs :=
  Iff.rfl

@[simp] theorem plain_node {tag : String} (htag : tag ≠ "a") (attrs : List Attr)
    (content : List Markup) :
    PlainIn drawn (.node tag attrs content) ↔
      PlainTag tag attrs [] ∧ PlainAttrs attrs ∧ PlainListIn drawn content :=
  plain_element htag attrs [] content

@[simp] theorem plain_leaf (tag : String) (attrs : List Attr) (s : String) :
    PlainIn drawn (.leaf tag attrs s) ↔ PlainTag tag attrs [] ∧ PlainAttrs attrs := by
  simp [leaf, PlainIn]

@[simp] theorem plain_classed {tag : String} (htag : tag ≠ "a") (cssClass : String)
    (content : List Markup) :
    PlainIn drawn (.classed tag cssClass content) ↔
      PlainTag tag [("class", cssClass)] [] ∧ cssClass ∉ markClasses ∧
        PlainListIn drawn content := by
  rw [classed, plain_element htag, plainAttrs_class]

end Markup

namespace Layout

mutual

/-- The elements of the layout are plain, and so is its fixed markup. -/
def PlainIn (drawn : Prop) : Layout → Prop
  | fixed m => m.PlainIn drawn
  | text _ => True
  | block _ _ => True
  | division _ _ => True
  | element tag attrs flags inner =>
    tag ≠ "a" ∧ PlainTag tag attrs flags ∧ PlainAttrs attrs ∧ PlainListIn drawn inner

def PlainListIn (drawn : Prop) : List Layout → Prop
  | [] => True
  | l :: rest => PlainIn drawn l ∧ PlainListIn drawn rest

end

variable {drawn : Prop}

@[simp] theorem plainList_nil : PlainListIn drawn [] :=
  trivial

@[simp] theorem plainList_cons (l : Layout) (rest : List Layout) :
    PlainListIn drawn (l :: rest) ↔ PlainIn drawn l ∧ PlainListIn drawn rest :=
  Iff.rfl

@[simp] theorem plainList_append (a b : List Layout) :
    PlainListIn drawn (a ++ b) ↔ PlainListIn drawn a ∧ PlainListIn drawn b :=
  and_of_append a b trivial fun _ _ => .rfl

theorem plainList_map {α : Type} {f : α → Layout} {l : List α} (h : ∀ a, PlainIn drawn (f a)) :
    PlainListIn drawn (l.map f) := by
  induction l with
  | nil => trivial
  | cons a rest ih => exact ⟨h a, ih⟩

theorem plainList_flatMap {α : Type} {f : α → List Layout} {l : List α}
    (h : ∀ a, PlainListIn drawn (f a)) : PlainListIn drawn (l.flatMap f) :=
  all_flatMap (fun a _ => h a) trivial fun _ _ => .rfl

theorem plainList_eachFrom {α : Type} {f : Nat → α → Layout} (h : ∀ i a, PlainIn drawn (f i a))
    (n : Nat) (l : List α) : PlainListIn drawn (eachFrom f n l) := by
  induction l generalizing n with
  | nil => trivial
  | cons a rest ih => exact ⟨h n a, ih (n + 1)⟩

@[simp] theorem plainList_fixed (ms : List Markup) :
    PlainListIn drawn (ms.map fixed) ↔ Markup.PlainListIn drawn ms := by
  induction ms with
  | nil => simp
  | cons m rest ih => simp [ih, PlainIn]

@[simp] theorem plainList_blocks (content : List Block) : PlainListIn drawn (blocks content) :=
  plainList_map fun _ => trivial

@[simp] theorem plain_fixed (m : Markup) : PlainIn drawn (fixed m) ↔ m.PlainIn drawn :=
  Iff.rfl

@[simp] theorem plain_text (content : List Inline) : PlainIn drawn (.text content) :=
  trivial

@[simp] theorem plain_division (number : Option String) (s : Section) :
    PlainIn drawn (.division number s) :=
  trivial

@[simp] theorem plain_element (tag : String) (attrs : List Attr) (flags : List String)
    (inner : List Layout) : PlainIn drawn (element tag attrs flags inner) ↔
      tag ≠ "a" ∧ PlainTag tag attrs flags ∧ PlainAttrs attrs ∧ PlainListIn drawn inner :=
  Iff.rfl

@[simp] theorem plain_node (tag : String) (attrs : List Attr) (inner : List Layout) :
    PlainIn drawn (node tag attrs inner) ↔
      tag ≠ "a" ∧ PlainTag tag attrs [] ∧ PlainAttrs attrs ∧ PlainListIn drawn inner :=
  Iff.rfl

@[simp] theorem plain_classed (tag cssClass : String) (inner : List Layout) :
    PlainIn drawn (classed tag cssClass inner) ↔ tag ≠ "a" ∧ PlainTag tag [("class", cssClass)] [] ∧
      cssClass ∉ markClasses ∧ PlainListIn drawn inner := by
  rw [classed, plain_element, plainAttrs_class]

@[simp] theorem plainList_textIn (tag : String) (attrs : List Attr)
    (content : Option (List Inline)) :
    PlainListIn drawn (textIn tag attrs content) ↔
      (content.isSome = true → tag ≠ "a" ∧ PlainTag tag attrs [] ∧ PlainAttrs attrs) := by
  cases content <;> simp [textIn]

@[simp] theorem plainList_caption (content : Option (List Inline)) :
    PlainListIn drawn (caption content) := by
  simp +decide [caption]

/-! ## The layouts of blocks -/

open Scope

theorem plain_styleAttr (source : StyleSource) : PlainAttrs (styleAttr source.declarations) := by
  unfold styleAttr
  split
  · simp
  · next hsome =>
    simp +decide [source.isStyle (by simpa using hsome)]

theorem plain_alignmentAttr (alignment : Option TextAlignment) :
    PlainAttrs (alignmentAttr alignment) := by
  unfold alignmentAttr
  split
  · next word h =>
    obtain ⟨a, -, ha⟩ := Option.bind_eq_some_iff.mp h
    simp +decide [isStyle_alignment ha]
  · simp

theorem plain_paragraph (p : Paragraph) : PlainIn drawn (paragraph p) := by
  simp +decide [paragraph, plain_alignmentAttr]

theorem plain_equation (scope : Scope) (e : Equation) : PlainIn drawn (equation scope e) := by
  unfold equation displayFormula
  cases e.label with
  | none => simp +decide
  | some label => by_cases h : scope.references = 0 <;> simp +decide [h]

theorem plain_statement (s : Statement) : PlainIn drawn (statement s) := by
  unfold statement
  cases s.title <;> cases s.proof <;> simp +decide

theorem plain_listing (l : Listing) : PlainIn drawn (listing l) := by
  have htag : (listKind l.style).1 ∈ ["ol", "ul"] := by
    cases l.style <;> simp [listKind]
  have hother : ∀ tag ∈ ["ol", "ul"], tag ≠ "a" ∧ tag ≠ "article" ∧ tag ≠ "section" ∧
      tag ∈ documentNames.elements := by
    decide
  have hstart : PlainAttrs (startAttr l) := by
    unfold startAttr
    split <;> simp +decide
  have hitems := plainList_eachFrom (fun position (item : ListItem) =>
    show PlainIn drawn (node "li" [] (.fixed (.leaf "span" [("class", "list-marker")]
      (ListMarker.marker l.style l.startIndex position)) :: blocks item.content)) by
      simp +decide) 0 l.items
  have hstyle : IsStyle (Css.style ["list-style: none"]) := ⟨.list, rfl⟩
  simp +decide [listing, hother _ htag, hstart, hitems, hstyle]

theorem plain_tableCell (inHeader : Bool) (cell : TableCell) :
    PlainIn drawn (tableCell inHeader cell) := by
  have hspan : PlainAttrs (spanAttr "colspan" cell.colSpan ++ spanAttr "rowspan" cell.rowSpan) := by
    cases cell.colSpan <;> cases cell.rowSpan <;> simp +decide [spanAttr]
  unfold tableCell
  rw [plain_node, plainAttrs_append]
  refine ⟨?_, ?_, ⟨hspan, plain_alignmentAttr _⟩, plainList_blocks _⟩
  · split <;> decide
  · split <;> simp +decide

theorem plain_rowGroup {tag : String} (htag : tag ∈ ["thead", "tbody", "tfoot"]) (inHeader : Bool)
    (rows : List TableRow) : PlainIn drawn (rowGroup tag inHeader rows) := by
  have hother : ∀ tag ∈ ["thead", "tbody", "tfoot"], tag ≠ "a" ∧ tag ≠ "article" ∧ tag ≠ "section" ∧
      tag ∈ documentNames.elements := by
    decide
  have hrows : PlainListIn drawn (rows.map fun row =>
      node "tr" [] (row.cells.map (tableCell inHeader))) :=
    plainList_map fun row => by simp +decide [plainList_map (plain_tableCell inHeader)]
  simp [rowGroup, hother tag htag, hrows]

theorem plain_table (t : Table) : PlainIn drawn (table t) := by
  have hhead : PlainListIn drawn (t.headerRows.toList.map (rowGroup "thead" true)) :=
    plainList_map (plain_rowGroup (by decide) true)
  have hfoot : PlainListIn drawn (t.footerRows.toList.map (rowGroup "tfoot" false)) :=
    plainList_map (plain_rowGroup (by decide) false)
  have hbody : PlainIn drawn (rowGroup "tbody" false t.bodyRows) :=
    plain_rowGroup (by decide) false _
  simp +decide [table, hhead, hbody, hfoot]

theorem plain_codeBlock (c : CodeBlock) : PlainIn drawn (codeBlock c) := by
  have hlines : ∀ n lines, Markup.PlainListIn drawn (codeLines n lines) := by
    intro n lines
    induction lines generalizing n with
    | nil => trivial
    | cons line rest ih => simp +decide [codeLines, ih (n + 1)]
  unfold codeBlock
  cases c.language <;> cases c.showLineNumbers <;> simp +decide [hlines]

theorem plain_image (i : Image) : PlainIn drawn (image i) := by
  have hstyle :
      PlainAttrs (styleAttr (declarationIf "width" i.width ++ declarationIf "height" i.height)) :=
    plain_styleAttr (.image i.width i.height)
  simp +decide [image, hstyle]

theorem plain_diagram (d : Diagram) : PlainIn drawn (diagram d) := by
  simp +decide [diagram, hasClose_scriptSafe]

theorem plain_collapsible (scope : Scope) (c : Collapsible) :
    PlainIn drawn (collapsible scope c) := by
  unfold collapsible
  split <;> simp +decide

theorem plain_grid (g : Grid) : PlainIn drawn (grid g) := by
  have hitems : PlainListIn drawn (g.items.map gridItem) := plainList_map fun item => by
    have hstyle : PlainAttrs (styleAttr
        (declarationIf "grid-column" item.column ++ declarationIf "grid-row" item.row)) :=
      plain_styleAttr (.gridItem item.column item.row)
    simp +decide [gridItem, hstyle]
  have hstyle := (StyleSource.grid g.columns g.rows g.gap).isStyle (List.cons_ne_nil _ _)
  simpa +decide [grid, hitems, StyleSource.declarations] using hstyle

theorem plain_columns (c : Columns) : PlainIn drawn (columns c) := by
  have hcolumns : PlainListIn drawn
      (c.columns.map fun column => classed "div" "column" (blocks column.content)) :=
    plainList_map fun column => by simp +decide
  have hstyle := (StyleSource.columns c.columns c.gap).isStyle (List.cons_ne_nil _ _)
  simpa +decide [columns, hcolumns, StyleSource.declarations] using hstyle

theorem plain_quote (q : Quote) : PlainIn drawn (quote q) := by
  simp +decide [quote]

theorem plain_alert (a : Alert) : PlainIn drawn (alert a) := by
  unfold alert
  cases a.kind.cssClass? <;> simp +decide

theorem plain_unknownMarker (scope : Scope) (typeName : String) :
    Markup.PlainListIn drawn (scope.unknownMarker typeName) := by
  unfold unknownMarker marker
  split
  · simp +decide
  · trivial

/-- Only a registered component draws. -/
theorem plainList_component {scope : Scope} (hdrawn : scope.renderer.components ≠ [] → drawn)
    (c : Component) : PlainListIn drawn (component scope c) := by
  unfold component
  cases hdraw : scope.renderer.components.get? c.name with
  | some draw =>
    have hsome : scope.renderer.components ≠ [] := fun hnone => by
      rw [hnone] at hdraw
      cases hdraw
    simp +decide [hdrawn hsome]
  | none =>
    cases c.fallback with
    | some fallback => simp +decide
    | none => simp [plain_unknownMarker]

@[simp] theorem plain_panel (cssClass : String) (visible : Bool) (extra : List Attr) (p : Panel) :
    PlainIn drawn (panel cssClass visible extra p) ↔ PlainAttrs extra := by
  cases visible <;> simp +decide [panel]

theorem plainList_panels (cssClass : String) (panels : List Panel) :
    PlainListIn drawn (panels.map (panel cssClass true [])) :=
  plainList_map fun p => by simp

theorem plain_sideBySide (s : SideBySide) : PlainIn drawn (sideBySide s) := by
  have hstyle := (StyleSource.sideBySide s.widths).isStyle (List.cons_ne_nil _ _)
  simpa +decide [sideBySide, StyleSource.declarations] using hstyle

theorem plain_tabs (layout : PanelLayout) (state : PanelState) :
    PlainIn drawn (tabs layout state) := by
  have hbuttons : Markup.PlainListIn drawn (layout.panels.map (tabButton state)) :=
    Markup.plainList_map fun p => by
      unfold tabButton panelLabel
      cases state.isVisible p.id <;> simp +decide
  have hpanels : PlainListIn drawn (layout.panels.map fun p =>
      panel (if state.isVisible p.id then "tab-panel panel-active" else "tab-panel")
        (state.isVisible p.id) [("role", "tabpanel")] p) :=
    plainList_map fun p => by simp +decide
  simp +decide [tabs, hbuttons, hpanels]

theorem plain_accordionItem (state : PanelState) (p : Panel) :
    PlainIn drawn (accordionItem state p) := by
  simp +decide [accordionItem, panelLabel]

theorem plain_sidebar (layout : PanelLayout) (name : String) :
    PlainIn drawn (sidebar layout name) := by
  have hstyle : IsStyle (Css.style ["display: grid", "grid-template-columns: 3fr 1fr"]) :=
    ⟨.sidebar, rfl⟩
  unfold sidebar
  cases layout.panels[mainPanel name layout.panels]? <;> simp +decide [plainList_panels, hstyle]

theorem plain_panelLayout (scope : Scope) (layout : PanelLayout) :
    PlainIn drawn (panelLayout scope layout) := by
  unfold panelLayout
  cases layout.arrangement with
  | tabs => exact plain_tabs layout _
  | sidebar name => exact plain_sidebar layout name
  | accordion =>
    have hitems : PlainListIn drawn
        (layout.panels.map (accordionItem (scope.view.panelState layout))) :=
      plainList_map (plain_accordionItem _)
    simp +decide [hitems]
  | grid columns =>
    have hstyle := (StyleSource.panels (max columns 1)).isStyle (List.cons_ne_nil _ _)
    simpa +decide [plainList_panels, StyleSource.declarations, natAttr] using hstyle
  | _ => simp +decide [plainList_panels]

theorem plain_overlayNote (a : OverlayNote) : PlainIn drawn (overlayNote a) := by
  have hstyle : ∀ x y, IsStyle (Css.style
      ["position: absolute", Css.declaration "left" x, Css.declaration "top" y]) :=
    fun x y => ⟨.position x y, rfl⟩
  unfold overlayNote
  cases a.kind.cssClass? <;> cases a.target <;> cases a.position <;> simp +decide [hstyle]

theorem plain_overlay (o : Overlay) : PlainIn drawn (overlay o) := by
  have hnotes : PlainListIn drawn (o.annotations.map overlayNote) := plainList_map plain_overlayNote
  have hstyle : IsStyle (Css.style ["position: relative"]) := ⟨.overlay, rfl⟩
  simp +decide [overlay, hnotes, hstyle]

theorem plain_controls (scope : Scope) (g : ControlGroup) : (scope.controls g).PlainIn drawn := by
  have hinput : ∀ inputId c value, Markup.PlainListIn drawn
      (scope.controlInput inputId c value) := by
    intro inputId c value
    have hoptions : ∀ options : List SelectOption,
        Markup.PlainListIn drawn (options.map (dropdownOption value.toAttr)) := fun _ =>
      Markup.plainList_map fun o => by
        unfold dropdownOption
        split <;> simp +decide
    have hradios : ∀ options : List SelectOption,
        Markup.PlainListIn drawn (options.map (radioOption inputId value.toAttr)) := fun _ =>
      Markup.plainList_map fun o => by
        unfold radioOption
        split <;> simp +decide
    unfold controlInput inputLabel
    cases c.kind with
    | unknown u => exact plain_unknownMarker scope _
    | numberInput min max step =>
      cases min <;> cases max <;> cases step <;> simp +decide [boundAttr]
    | toggle => cases value.isTrue <;> simp +decide
    | _ => simp +decide [hoptions, hradios]
  have hcontrols : Markup.PlainListIn drawn (g.controls.map (scope.control g)) :=
    Markup.plainList_map fun c => by simp +decide [Scope.control, hinput]
  unfold controls controlsClass
  cases g.flow <;> simp +decide [hcontrols]

/-- The layouts of simple blocks are plain, up to what components draw. -/
theorem plainList_ofBlock {scope : Scope}
    (hdrawn : scope.renderer.components ≠ [] → drawn) (b : Block) :
    PlainListIn drawn (ofBlock scope b) := by
  cases b with
  | paragraph p => exact ⟨plain_paragraph p, trivial⟩
  | equation e => exact ⟨plain_equation scope e, trivial⟩
  | statement s => exact ⟨plain_statement s, trivial⟩
  | list l => exact ⟨plain_listing l, trivial⟩
  | table t => exact ⟨plain_table t, trivial⟩
  | code c => exact ⟨plain_codeBlock c, trivial⟩
  | image i => exact ⟨plain_image i, trivial⟩
  | diagram d => exact ⟨plain_diagram d, trivial⟩
  | collapsible c => exact ⟨plain_collapsible scope c, trivial⟩
  | grid g => exact ⟨plain_grid g, trivial⟩
  | columns c => exact ⟨plain_columns c, trivial⟩
  | thematicBreak => simp +decide [ofBlock]
  | quote q => exact ⟨plain_quote q, trivial⟩
  | alert a => exact ⟨plain_alert a, trivial⟩
  | component c => exact plainList_component hdrawn c
  | sideBySide s => exact ⟨plain_sideBySide s, trivial⟩
  | panels p => exact ⟨plain_panelLayout scope p, trivial⟩
  | overlay o => exact ⟨plain_overlay o, trivial⟩
  | controls g => exact ⟨plain_controls scope g, trivial⟩
  | unknown u => exact (plainList_fixed _).mpr (plain_unknownMarker scope _)
  | sectionRef r => trivial
  | subsection s => trivial
  | document d => trivial

/-! ## The layouts of sections and articles -/

theorem plainTag_headingTag (scope : Scope) (cssClass : String) :
    scope.headingTag ≠ "a" ∧ PlainTag scope.headingTag [("class", cssClass)] [] := by
  have hall : ∀ tag ∈ ["h2", "h3", "h4", "h5", "h6"], tag ≠ "a" ∧ tag ≠ "article" ∧
      tag ≠ "section" ∧ tag ∈ documentNames.elements := by
    decide
  obtain ⟨ha, harticle, hsection, hknown⟩ := hall _ scope.headingTag_level
  exact ⟨ha, harticle, hknown, List.forall_mem_nil _, fun h => absurd h hsection⟩

theorem plainList_numbered (number : Option String) (k : Nat) (content : List Block) :
    PlainListIn drawn (numbered number k content) := by
  induction content generalizing k with
  | nil => trivial
  | cons b rest ih =>
    obtain ⟨own, next, hlayout, -⟩ := numbered_cons number k b rest
    rw [hlayout]
    exact ⟨trivial, ih next⟩

theorem plainList_sectionMetadata (s : Section) : Markup.PlainListIn drawn (sectionMetadata s) := by
  unfold sectionMetadata
  split
  · refine ⟨(Markup.plain_classed (by decide) _ _).mpr ⟨by simp +decide, by decide, ?_⟩, trivial⟩
    exact Markup.plainList_flatMap fun _ => by simp +decide
  · trivial

theorem plainList_ofSection (inner : Scope) (mode : SectionMode) (number : Option String)
    (s : Section) :
    PlainListIn drawn (ofSection inner mode number s) := by
  have hlabel : Markup.PlainListIn drawn (numberLabel number) := by
    cases number <;> simp +decide [numberLabel]
  have htitle : PlainListIn drawn (s.title.toList.map fun title => node inner.headingTag
      [("class", "section-title")] ((numberLabel number).map fixed ++ [Layout.text title])) :=
    plainList_map fun title =>
      have htag := plainTag_headingTag inner "section-title"
      (plain_node _ _ _).mpr ⟨htag.1, htag.2, by simp +decide, by simp [hlabel]⟩
  rw [ofSection, sectionFront, plainList_append, plainList_append, plainList_fixed]
  refine ⟨⟨?_, plainList_sectionMetadata s⟩, plainList_numbered _ _ _⟩
  split
  · exact htitle
  · trivial

mutual

theorem plain_tocEntry : ∀ e : TocEntry, (tocEntry e).PlainIn drawn
  | .mk id title children => by
    have hchildren := plain_tocSublist children
    rw [tocEntry]
    simp +decide [hchildren]

theorem plain_tocItems : ∀ entries : List TocEntry, Markup.PlainListIn drawn (tocItems entries)
  | [] => by
    rw [tocItems]
    trivial
  | e :: rest => by
    rw [tocItems]
    exact ⟨plain_tocEntry e, plain_tocItems rest⟩

theorem plain_tocSublist : ∀ entries : List TocEntry, Markup.PlainListIn drawn (tocSublist entries)
  | [] => by
    rw [tocSublist]
    trivial
  | e :: rest => by
    have he := plain_tocEntry e
    have hrest := plain_tocItems rest
    rw [tocSublist]
    simp +decide [he, hrest]

end

theorem plain_documentHeader (d : Document) : (documentHeader d).PlainIn drawn := by
  have hdates : Markup.PlainListIn drawn (dates d.createdAt d.updatedAt) := by
    unfold dates timeMark
    split <;> simp +decide
  unfold documentHeader
  cases d.authors.isEmpty <;> simp +decide [hdates]

theorem plain_documentContents (d : Document) : Markup.PlainListIn drawn (documentContents d) := by
  have hitems : Markup.PlainListIn drawn (tocSublist (tocEntries d)) :=
    plain_tocSublist (tocEntries d)
  unfold documentContents
  split
  · trivial
  · simp +decide [hitems]

theorem plain_resourceNav (body : List Section) : Markup.PlainListIn drawn (resourceNav body) := by
  have hlinks : Markup.PlainListIn drawn (body.map resourceLink) :=
    Markup.plainList_map fun s => by simp +decide [resourceLink]
  unfold resourceNav
  split
  · trivial
  · simp +decide [hlinks]

theorem plain_documentBibliography (d : Document) :
    Markup.PlainListIn drawn (documentBibliography d) := by
  have hentries : Markup.PlainListIn drawn (d.bibliography.map bibliographyEntry) :=
    Markup.plainList_map fun e => by
      unfold bibliographyEntry
      cases e.authors.isEmpty <;> cases e.venue <;> cases e.year <;> cases e.url <;>
        simp +decide
  unfold documentBibliography
  split
  · trivial
  · simp +decide [hentries]

theorem plainList_glossary (d : Document) : PlainListIn drawn (glossary d) := by
  unfold glossary
  split
  · trivial
  · have hentries : PlainListIn drawn (d.glossary.flatMap fun entry =>
        [.fixed (.leaf "dt" [("id", glossaryAnchor entry.term)] entry.term),
          node "dd" [] [.text entry.definition]]) :=
      plainList_flatMap fun entry => by simp +decide
    simp +decide [hentries]

theorem plainList_footnotes (d : Document) : PlainListIn drawn (footnotes d) := by
  unfold footnotes
  split
  · trivial
  · have hnotes : PlainListIn drawn (d.footnotes.map fun note =>
        node "li" [("id", "footnote-" ++ note.id)] [.text note.content]) :=
      plainList_map fun note => by simp +decide
    simp +decide [hnotes]

theorem plainList_pairs (body : List Section) : PlainListIn drawn (pairs body) := by
  fun_induction pairs body with
  | case1 => trivial
  | case2 source => simp +decide
  | case3 source target rest ih => simp +decide [ih]

theorem plainList_ofBody (d : Document) : PlainListIn drawn (ofBody d) := by
  unfold ofBody
  split
  · exact plainList_eachFrom (fun i s => plain_division (some (natAttr (i + 1))) s) 0 d.body
  · exact plainList_map fun s => by simp +decide
  · refine plainList_eachFrom (fun i s => ?_) 0 d.body
    by_cases hfirst : i = 0 <;> simp +decide [hfirst]
  · exact plainList_pairs d.body
  · exact plainList_pairs d.body
  · exact plainList_map fun _ => trivial

theorem bodyLayout_class (scope : Scope) (d : Document) : (scope.bodyLayout d).1 ∉ markClasses := by
  have hname : ∀ name : String, "document-body " ++ name ∉ markClasses := fun name =>
    (append_mem_markClasses (by decide) name).mp
  unfold bodyLayout
  split
  · exact hname "comparison-grid"
  · exact hname "mapping-grid"
  · exact hname "mapping-grid"
  · dsimp only
    split
    · exact hname _
    · decide

/-- The inside of an article is plain. -/
theorem plainList_ofDocument (inner : Scope) (d : Document) :
    PlainListIn drawn (ofDocument inner d) := by
  have habstract :
      PlainListIn drawn (d.abstract.toList.map fun summary => classed "section" "document-abstract"
      [.fixed (.leaf "h2" [] "Abstract"), node "p" [] [.text summary]]) :=
    plainList_map fun summary => by simp +decide
  have hclass := bodyLayout_class inner d
  rw [mem_markClasses] at hclass
  obtain ⟨source, hsource, -⟩ := StyleSource.exists_bodyLayout inner d
  have hmain : PlainIn drawn (node "main" (("class", (inner.bodyLayout d).1) ::
      styleAttr (inner.bodyLayout d).2) (ofBody d)) := by
    rw [hsource]
    simp +decide [plain_styleAttr, hclass, plainList_ofBody]
  unfold ofDocument
  cases d.kind == .glossary <;> cases d.kind == .resourcePanel <;>
    simp [plain_documentHeader, habstract, plain_documentContents, plain_resourceNav, hmain,
      plainList_footnotes, plainList_glossary, plain_documentBibliography, -plain_node]

end Layout

/-! ## What plain elements keep -/

/-- A property of rendering steps that is kept by sequence and by plain elements. -/
structure Rendered.ClosedIn (drawn : Prop) (P : Rendered → Prop) : Prop where
  nil : P (pure [])
  append : ∀ {x y : Rendered}, P x → P y → P (do
    let first ← x
    let others ← y
    return first ++ others)
  fixed : ∀ {m : Markup}, m.PlainIn drawn → P (pure [m])
  element : ∀ {tag : String} {attrs : List Attr} {flags : List String} {x : Rendered},
    tag ≠ "a" → PlainTag tag attrs flags → PlainAttrs attrs → P x → P (do
      let content ← x
      return [.element tag attrs flags content])

/-- Kept whatever components draw. -/
abbrev Rendered.Closed : (Rendered → Prop) → Prop := ClosedIn True

theorem Rendered.ClosedIn.mono {drawn drawn' : Prop} {P : Rendered → Prop} (h : ClosedIn drawn' P)
    (hdrawn : drawn → drawn') : ClosedIn drawn P :=
  ⟨h.nil, h.append, fun hm => h.fixed (hm.mono hdrawn), h.element⟩

theorem Rendered.ClosedIn.within {drawn : Prop} {P : Rendered → Prop} (h : Closed P) :
    ClosedIn drawn P :=
  h.mono fun _ => trivial

/-- What a list says of a rendering step: sequence puts the lists together, and plain elements pass
them on. -/
structure Rendered.CollectsIn {α : Type} (drawn : Prop) (E : Rendered → List α → Prop) : Prop where
  nil : E (pure []) []
  append : ∀ {x y : Rendered} {l m : List α}, E x l → E y m → E (do
    let first ← x
    let others ← y
    return first ++ others) (l ++ m)
  fixed : ∀ {m : Markup}, m.PlainIn drawn → E (pure [m]) []
  element : ∀ {tag : String} {attrs : List Attr} {flags : List String} {x : Rendered} {l : List α},
    tag ≠ "a" → PlainTag tag attrs flags → PlainAttrs attrs → E x l → E (do
      let content ← x
      return [.element tag attrs flags content]) l

theorem Rendered.ClosedIn.collects {drawn : Prop} {P : Rendered → Prop} (h : ClosedIn drawn P) :
    CollectsIn drawn fun x (_ : List Unit) => P x :=
  ⟨h.nil, h.append, h.fixed, h.element⟩

namespace Layout

open Scope

section Collects

variable {α : Type} {drawn : Prop} {E : Rendered → List α → Prop} {read : Leaf → List α}
variable {block : BlockRenderer} {scope : Scope}

mutual

theorem collects_render (hE : Rendered.CollectsIn drawn E) : ∀ l : Layout, l.PlainIn drawn →
    (∀ leaf ∈ collect leafOf l, E (leaf.render block scope) (read leaf)) →
    E (render block scope l) ((collect leafOf l).flatMap read)
  | fixed m, hplain, _ => by
    rw [render, collect_fixed]
    exact hE.fixed hplain
  | .text content, _, h => by
    simpa [render, Leaf.render] using h (.text content) (by simp)
  | .block number b, _, h => by
    simpa [render, Leaf.render] using h (.block number b) (by simp)
  | division number s, _, h => by
    simpa [render, Leaf.render] using h (.division number s) (by simp)
  | element tag attrs flags inner, hplain, h => by
    obtain ⟨ha, htag, hattrs, hinner⟩ := hplain
    rw [collect_element, leafOf, List.nil_append] at h ⊢
    rw [render]
    exact hE.element ha htag hattrs (collects_renderAll hE inner hinner h)

/-- What lists say of the leaves of plain layouts, put together, is said of the layouts. -/
theorem collects_renderAll (hE : Rendered.CollectsIn drawn E) :
    ∀ ls : List Layout, PlainListIn drawn ls →
    (∀ leaf ∈ leavesAll ls, E (leaf.render block scope) (read leaf)) →
    E (renderAll block scope ls) ((leavesAll ls).flatMap read)
  | [], _, _ => by
    rw [renderAll]
    exact hE.nil
  | l :: rest, hplain, h => by
    have hboth : leavesAll (l :: rest) = collect leafOf l ++ leavesAll rest :=
      collectAll_cons leafOf l rest
    rw [hboth, List.forall_mem_append] at h
    rw [renderAll, hboth, List.flatMap_append]
    exact hE.append (collects_render hE l hplain.1 h.1) (collects_renderAll hE rest hplain.2 h.2)

end

variable (hE : Rendered.CollectsIn drawn E) {ls : List Layout} (hplain : PlainListIn drawn ls)
variable (htext : ∀ content ∈ textsAll ls, E (scope.inlines content) [])

include hE hplain htext

/-- Layouts with texts that give nothing. -/
theorem collects_shown {g : Part → List α}
    (hblock : ∀ b, .block b ∈ shownAll ls → ∀ number, E (block scope number b) (g (.block b)))
    (hsection : ∀ s, .division s ∈ shownAll ls → ∀ number,
      E (bodySection block scope number s) (g (.division s))) :
    E (renderAll block scope ls) ((shownAll ls).flatMap g) := by
  rw [shownAll_eq, List.flatMap_assoc]
  refine collects_renderAll hE ls hplain (forall_leaves htext (fun b hb number => ?_)
    fun s hs number => ?_)
  · simpa [Leaf.part, Leaf.render] using hblock b hb number
  · simpa [Leaf.part, Leaf.render] using hsection s hs number

/-- Layouts with blocks at their leaves. -/
theorem collects_blocks {content : List Block} (hshown : shownAll ls = content.map .block)
    {g : Block → List α} (hblock : ∀ b ∈ content, ∀ number, E (block scope number b) (g b)) :
    E (renderAll block scope ls) (content.flatMap g) := by
  have hall := collects_shown hE hplain htext
    (g := fun | .block b => g b | _ => [])
    (fun b hb number => hblock b (by simpa [hshown] using hb) number) fun s hs => by
      simp [hshown] at hs
  rwa [hshown, List.flatMap_map] at hall

/-- Layouts with sections at their leaves. -/
theorem collects_sections {body : List Section} (hshown : shownAll ls = body.map .division)
    {g : Section → List α}
    (hsection : ∀ s ∈ body, ∀ number, E (bodySection block scope number s) (g s)) :
    E (renderAll block scope ls) (body.flatMap g) := by
  have hall := collects_shown hE hplain htext
    (g := fun | .division s => g s | _ => []) (fun b hb => by simp [hshown] at hb)
    fun s hs number => hsection s (by simpa [hshown] using hs) number
  rwa [hshown, List.flatMap_map] at hall

end Collects

section Closed

variable {drawn : Prop} {P : Rendered → Prop} {block : BlockRenderer} {scope : Scope}

variable (hP : Rendered.ClosedIn drawn P)

include hP

/-- A simple block has the property if its texts and the blocks inside it have it. -/
theorem closed_ofBlock (hdrawn : scope.renderer.components ≠ [] → drawn) {b : Block}
    (htext : ∀ content ∈ b.texts, P (scope.inlines content))
    (hsimple : b.isSimple = true)
    (hblock : ∀ b' ∈ b.inner scope.renderer, ∀ number, P (block scope number b'))
    (number : Option String) : P (blockWith block scope number b) := by
  rw [← renderAll_ofBlock block scope number hsimple]
  refine collects_blocks (g := fun _ => []) hP.collects (plainList_ofBlock hdrawn b) ?_
    (shownAll_ofBlock scope b) hblock
  rw [textsAll_ofBlock]
  exact htext

theorem closed_ofSection (mode : SectionMode) (number : Option String) {s : Section}
    (htext : ∀ content ∈ s.title.toList, P (scope.inlines content))
    (hblock : ∀ b ∈ s.content, ∀ number, P (block scope number b)) :
    P (renderAll block scope (ofSection scope mode number s)) :=
  collects_blocks (g := fun _ => []) hP.collects (plainList_ofSection scope mode number s)
    (fun content hcontent => htext content (textsAll_ofSection_subset scope mode number s hcontent))
    (shownAll_ofSection scope mode number s) hblock

theorem closed_ofDocument {d : Document} (htext : ∀ content, P (scope.inlines content))
    (hsection : ∀ s ∈ d.body, ∀ number, P (bodySection block scope number s)) :
    P (renderAll block scope (ofDocument scope d)) :=
  collects_sections (g := fun _ => []) hP.collects (plainList_ofDocument scope d)
    (fun content _ => htext content) (shownAll_ofDocument scope d) hsection

end Closed

end Layout

end Compendium
