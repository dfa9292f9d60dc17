import Compendium.Proofs.Render.Marks

/-!
# The styles of a block

For each kind of block the pieces that it is written with are listed here, as far as styles go: the
sources of its own styles, its inline texts and the blocks inside it, in the order of the page. The
layout of a block has just the styles and the leaves of these pieces. A block with other texts for
its values has the same pieces, with other texts in them.
-/

namespace Compendium

/-! ## Pieces -/

/-- A piece that a layout is written with: a style, or a leaf that is rendered in its place. -/
inductive Piece where
  | source (s : StyleSource)
  | leaf (l : Layout.Leaf)

def Layout.Leaf.revalued (f : String → String) : Layout.Leaf → Layout.Leaf
  | text content => text (Inline.revaluedList f content)
  | block number b => block number (b.revalued f)
  | division number s => division number (s.revalued f)

namespace Piece

def revalued (f : String → String) : Piece → Piece
  | source s => source (s.revalued f)
  | leaf l => leaf (l.revalued f)

def text (content : List Inline) : Piece :=
  leaf (.text content)

def someText (content : Option (List Inline)) : List Piece :=
  content.toList.map text

def ofBlocks (content : List Block) : List Piece :=
  content.map fun b => leaf (.block none b)

def alignment (a : Option TextAlignment) : List Piece :=
  a.toList.map fun a => source (.alignment a)

end Piece

open Piece (someText ofBlocks)

def TableRow.pieces (row : TableRow) : List Piece :=
  row.cells.flatMap fun cell => Piece.alignment cell.alignment ++ ofBlocks cell.content

def Panel.pieces (p : Panel) : List Piece :=
  someText p.title ++ ofBlocks p.content

def PanelArrangement.pieces : PanelArrangement → List Piece
  | .grid columns => [.source (.panels (max columns 1))]
  | .sidebar _ => [.source .sidebar]
  | _ => []

def OverlayNote.pieces (a : OverlayNote) : List Piece :=
  (a.position.toList.map fun position => .source (.position position.x position.y)) ++
    [.text a.content]

def Block.pieces (r : Renderer) : Block → List Piece
  | .paragraph p => Piece.alignment p.alignment ++ [.text p.segments]
  | .equation e => someText e.caption
  | .statement s => someText s.title ++ (ofBlocks s.body ++ ofBlocks (s.proof.getD []))
  | .list l => .source .list :: l.items.flatMap fun item => ofBlocks item.content
  | .table t =>
    someText t.caption ++ (t.headerRows.getD [] ++ (t.bodyRows ++ t.footerRows.getD [])).flatMap
      TableRow.pieces
  | .code c => someText c.caption
  | .image i => .source (.image i.width i.height) :: someText i.caption
  | .diagram d => someText d.caption
  | .collapsible c => .text c.summary :: ofBlocks c.content
  | .grid g => .source (.grid g.columns g.rows g.gap) ::
      g.items.flatMap fun item => .source (.gridItem item.column item.row) :: ofBlocks item.content
  | .columns c =>
    .source (.columns c.columns c.gap) :: c.columns.flatMap fun c => ofBlocks c.content
  | .quote q => ofBlocks q.content ++ someText q.attribution
  | .alert a => someText a.title ++ ofBlocks a.content
  | .component c => if (r.components.get? c.name).isSome then [] else ofBlocks (c.fallback.getD [])
  | .sideBySide s => .source (.sideBySide s.widths) :: (s.left.pieces ++ s.right.pieces)
  | .panels l => l.arrangement.pieces ++ l.shown.flatMap Panel.pieces
  | .overlay o => .source .overlay :: (ofBlocks o.base ++ o.annotations.flatMap OverlayNote.pieces)
  | _ => []


/-! ## Other values -/

namespace Piece

variable (f : String → String)

@[simp] theorem map_someText (content : Option (List Inline)) :
    (someText content).map (revalued f) = someText (content.map (Inline.revaluedList f)) := by
  cases content <;> rfl

@[simp] theorem map_ofBlocks (content : List Block) :
    (ofBlocks content).map (revalued f) = ofBlocks (content.map (Block.revalued f)) := by
  simp [ofBlocks, revalued, Layout.Leaf.revalued]

@[simp] theorem map_alignment (a : Option TextAlignment) :
    (alignment a).map (revalued f) = alignment a := by
  cases a <;> rfl

@[simp] theorem revalued_text (content : List Inline) :
    revalued f (text content) = text (Inline.revaluedList f content) :=
  rfl

@[simp] theorem revalued_source (s : StyleSource) : revalued f (source s) = source (s.revalued f) :=
  rfl

end Piece

section Revalued

variable (f : String → String)

theorem TableRow.pieces_revalued (row : TableRow) :
    (row.revalued f).pieces = row.pieces.map (Piece.revalued f) := by
  simp [TableRow.pieces, TableRow.revalued_eq, List.flatMap_map, List.map_flatMap,
    TableCell.revalued_eq]

theorem Panel.pieces_revalued (p : Panel) : (p.revalued f).pieces = p.pieces.map
    (Piece.revalued f) := by
  simp [Panel.pieces, Panel.revalued_eq]

theorem PanelArrangement.pieces_revalued (a : PanelArrangement) :
    a.pieces.map (Piece.revalued f) = a.pieces := by
  cases a <;> rfl

theorem OverlayNote.pieces_revalued (a : OverlayNote) :
    (a.revalued f).pieces = a.pieces.map (Piece.revalued f) := by
  cases h : a.position <;>
    simp [OverlayNote.pieces, OverlayNote.revalued_eq, h, StyleSource.revalued,
      AnnotationPosition.revalued]

theorem PanelLayout.shown_revalued (l : PanelLayout) :
    (l.revalued f).shown = l.shown.map (Panel.revalued f) := by
  obtain ⟨id, panels, arrangement⟩ := l
  have hmain : ∀ name, Scope.mainPanel name (panels.map (Panel.revalued f)) =
      Scope.mainPanel name panels := by
    intro name
    simp [Scope.mainPanel, List.findIdx?_map, Function.comp_def, Panel.revalued_eq]
  cases arrangement <;>
    simp [PanelLayout.revalued, PanelLayout.shown, hmain, List.eraseIdx_map, Option.toList_map]

theorem Block.isSimple_revalued (b : Block) : (b.revalued f).isSimple = b.isSimple := by
  cases b <;> rfl

/-- A block with other values has the same pieces, with other values. -/
theorem Block.pieces_revalued (r : Renderer) (b : Block) :
    (b.revalued f).pieces r = (b.pieces r).map (Piece.revalued f) := by
  cases b with
  | paragraph p =>
    obtain ⟨segments, alignment⟩ := p
    simp [Block.revalued, Paragraph.revalued, Block.pieces]
  | equation e =>
    obtain ⟨formula, label, caption⟩ := e
    simp [Block.revalued, Equation.revalued, Block.pieces]
  | statement s =>
    obtain ⟨kind, number, title, body, proof⟩ := s
    cases proof <;> simp [Block.revalued, Statement.revalued, Block.pieces]
  | list l =>
    obtain ⟨items, style, startIndex⟩ := l
    simp [Block.revalued, Listing.revalued, Block.pieces, List.flatMap_map, List.map_flatMap,
      ListItem.revalued_eq, StyleSource.revalued]
  | table t =>
    obtain ⟨caption, headerRows, bodyRows, footerRows⟩ := t
    cases headerRows <;> cases footerRows <;>
      simp [Block.revalued, Table.revalued, Block.pieces, List.flatMap_map, List.map_flatMap,
        TableRow.pieces_revalued]
  | code c =>
    obtain ⟨code, language, showLineNumbers, caption⟩ := c
    simp [Block.revalued, CodeBlock.revalued, Block.pieces]
  | image i =>
    obtain ⟨src, alt, caption, width, height⟩ := i
    simp [Block.revalued, Image.revalued, Block.pieces, StyleSource.revalued]
  | diagram d =>
    obtain ⟨id, kind, data, caption⟩ := d
    simp [Block.revalued, Diagram.revalued, Block.pieces]
  | collapsible c =>
    obtain ⟨id, summary, content, initiallyCollapsed⟩ := c
    simp [Block.revalued, Collapsible.revalued, Block.pieces]
  | grid g =>
    obtain ⟨items, columns, rows, gap⟩ := g
    simp [Block.revalued, Grid.revalued, Block.pieces, List.flatMap_map, List.map_flatMap,
      GridItem.revalued_eq, StyleSource.revalued]
  | columns c =>
    obtain ⟨columns, gap⟩ := c
    simp [Block.revalued, Columns.revalued, Block.pieces, List.flatMap_map, List.map_flatMap,
      Column.revalued_eq, StyleSource.revalued]
  | quote q =>
    obtain ⟨content, attribution⟩ := q
    simp [Block.revalued, Quote.revalued, Block.pieces]
  | alert a =>
    obtain ⟨kind, title, content⟩ := a
    simp [Block.revalued, Alert.revalued, Block.pieces]
  | component c =>
    obtain ⟨name, props, fallback⟩ := c
    cases hdrawn : (r.components.get? name).isSome <;> cases fallback <;>
      simp [Block.revalued, Component.revalued, Block.pieces, hdrawn]
  | sideBySide s =>
    obtain ⟨left, right, widths⟩ := s
    simp [Block.revalued, SideBySide.revalued, Block.pieces, Panel.pieces_revalued,
      StyleSource.revalued]
  | panels l =>
    have harrangement : (l.revalued f).arrangement = l.arrangement := by cases l; rfl
    simp [Block.revalued, Block.pieces, PanelLayout.shown_revalued, List.flatMap_map,
      List.map_flatMap, Panel.pieces_revalued, PanelArrangement.pieces_revalued, harrangement]
  | overlay o =>
    obtain ⟨id, base, annotations⟩ := o
    simp [Block.revalued, Overlay.revalued, Block.pieces, List.flatMap_map, List.map_flatMap,
      OverlayNote.pieces_revalued, StyleSource.revalued]
  | _ => rfl

end Revalued

/-! ## Sources -/

mutual

def Inline.sources : Inline → List StyleSource
  | .styled _ styles => [.text styles]
  | .link content _ _ => Inline.sourcesList content
  | _ => []

def Inline.sourcesList : List Inline → List StyleSource
  | [] => []
  | i :: rest => Inline.sources i ++ Inline.sourcesList rest

end

mutual

theorem Inline.sources_revalued (f : String → String) : ∀ i : Inline,
    (i.revalued f).sources = i.sources.map (StyleSource.revalued f)
  | .styled s styles => by simp [Inline.revalued, Inline.sources, StyleSource.revalued]
  | .link content target tooltip => Inline.sourcesList_revalued f content
  | .text _ | .math _ | .footnote _ | .code _ | .unknown _ => rfl

theorem Inline.sourcesList_revalued (f : String → String) : ∀ content : List Inline,
    Inline.sourcesList (Inline.revaluedList f content) =
      (Inline.sourcesList content).map (StyleSource.revalued f)
  | [] => rfl
  | i :: rest => by
    rw [Inline.revaluedList, Inline.sourcesList, Inline.sourcesList, List.map_append,
      Inline.sources_revalued f i, Inline.sourcesList_revalued f rest]

end

def StyleSource.styles (sources : List StyleSource) : List String :=
  sources.filterMap style?

@[simp] theorem StyleSource.styles_nil : styles [] = [] := by
  simp [styles]

@[simp] theorem StyleSource.styles_append (l m : List StyleSource) :
    styles (l ++ m) = styles l ++ styles m := by
  simp [styles]

@[simp] theorem StyleSource.styles_cons (source : StyleSource) (rest : List StyleSource) :
    styles (source :: rest) = source.style?.toList ++ styles rest := by
  cases h : source.style? <;> simp [styles, h]

open StyleSource (styles)

/-! ## The styles of markup -/

namespace Markup

def styleValues (attrs : List Attr) : List String :=
  (attrs.filter fun a => a.1 == "style").map Prod.snd

def ownStyles (m : Markup) : List String :=
  m.head?.toList.flatMap fun head => styleValues head.2

def stylesIn (ms : List Markup) : List String :=
  (nodesList ms).flatMap ownStyles

@[simp] theorem styleValues_nil : styleValues [] = [] := by
  simp [styleValues]

@[simp] theorem styleValues_style (value : String) (rest : List Attr) :
    styleValues (("style", value) :: rest) = value :: styleValues rest := by
  simp [styleValues]

@[simp] theorem styleValues_other {name : String} (hname : name ≠ "style") (value : String)
    (rest : List Attr) : styleValues ((name, value) :: rest) = styleValues rest := by
  rw [styleValues, List.filter_cons_of_neg (by simpa using hname), styleValues]

@[simp] theorem styleValues_append (a b : List Attr) :
    styleValues (a ++ b) = styleValues a ++ styleValues b := by
  rw [styleValues, List.filter_append, List.map_append, styleValues, styleValues]

theorem styleValues_styleAttr (source : StyleSource) :
    styleValues (Scope.styleAttr source.declarations) = source.style?.toList := by
  unfold Scope.styleAttr StyleSource.style?
  split <;> simp

@[simp] theorem stylesIn_nil : stylesIn [] = [] := by
  simp [stylesIn, nodesList]

@[simp] theorem stylesIn_append (l m : List Markup) :
    stylesIn (l ++ m) = stylesIn l ++ stylesIn m := by
  simp [stylesIn]

theorem stylesIn_cons (m : Markup) (rest : List Markup) :
    stylesIn (m :: rest) = stylesIn [m] ++ stylesIn rest :=
  stylesIn_append [m] rest

@[simp] theorem stylesIn_element (tag : String) (attrs : List Attr) (flags : List String)
    (content rest : List Markup) : stylesIn (.element tag attrs flags content :: rest) =
      styleValues attrs ++ stylesIn content ++ stylesIn rest := by
  simp [stylesIn, nodesList, nodes, ownStyles, head?]

@[simp] theorem stylesIn_node (tag : String) (attrs : List Attr) (content rest : List Markup) :
    stylesIn (.node tag attrs content :: rest) =
      styleValues attrs ++ stylesIn content ++ stylesIn rest := by
  rw [node, stylesIn_element]

@[simp] theorem stylesIn_void (tag : String) (attrs : List Attr) (flags : List String)
    (rest : List Markup) : stylesIn (.void tag attrs flags :: rest) =
      styleValues attrs ++ stylesIn rest := by
  simp [stylesIn, nodesList, nodes, ownStyles, head?]

@[simp] theorem stylesIn_text (s : String) (rest : List Markup) :
    stylesIn (.text s :: rest) = stylesIn rest := by
  simp [stylesIn, nodesList, nodes, ownStyles, head?]

@[simp] theorem stylesIn_leaf (tag : String) (attrs : List Attr) (s : String) (rest : List Markup) :
    stylesIn (.leaf tag attrs s :: rest) = styleValues attrs ++ stylesIn rest := by
  simp [leaf]

@[simp] theorem stylesIn_classed (tag cssClass : String) (content rest : List Markup) :
    stylesIn (.classed tag cssClass content :: rest) = stylesIn content ++ stylesIn rest := by
  simp [classed]

@[simp] theorem stylesIn_script (json : List Char) (rest : List Markup) :
    stylesIn (.script json :: rest) = stylesIn rest := by
  simp [stylesIn, nodesList, nodes, ownStyles, head?]

@[simp] theorem stylesIn_raw (html : String) (rest : List Markup) :
    stylesIn (.raw html :: rest) = stylesIn rest := by
  simp [stylesIn, nodesList, nodes, ownStyles, head?]

theorem stylesIn_map_nil {α : Type} {f : α → Markup} (h : ∀ a, stylesIn [f a] = []) (l : List α) :
    stylesIn (l.map f) = [] := by
  induction l with
  | nil => simp
  | cons a rest ih => rw [List.map_cons, stylesIn_cons, h a, ih, List.append_nil]

end Markup

open Markup

/-! ## Inline text -/

namespace Scope

theorem stylesIn_styled (s : String) (textStyles : List TextStyle) :
    stylesIn [styled s textStyles] = (StyleSource.text textStyles).style?.toList := by
  have hinner : ∀ tags : List String,
      stylesIn [tags.foldr (fun tag m => Markup.node tag [] [m]) (.text s)] = [] := by
    intro tags
    induction tags with
    | nil => simp
    | cons tag rest ih => simp [ih]
  rw [← styleValues_styleAttr, StyleSource.declarations, styleAttr]
  unfold styled
  split
  · next hnone => simp [hinner, hnone]
  · next hsome =>
    rw [if_neg (by simpa using hsome)]
    simp [hinner]

/-- A link has no style of its own. -/
theorem stylesIn_link {content : Scope → Rendered} {sources : List StyleSource}
    (h : ∀ inner noted, stylesIn ((content inner).run noted).1 = styles sources) (scope : Scope)
    (target : LinkTarget) (tooltip : Option String) (noted : List Document) :
    stylesIn ((scope.link target tooltip content).run noted).1 = styles sources := by
  have hother : ∀ name ∈ linkNames, ¬(name == "style") = true := by decide
  have hattrs : styleValues (scope.linkAttrs target tooltip) = [] := by
    rw [styleValues, List.map_eq_nil_iff, List.filter_eq_nil_iff]
    exact forall_linkAttrs (fun name hname _ => hother name hname) scope target tooltip
  refine forall_link (Q := fun ms => stylesIn ms = styles sources) (h scope) (fun noted => ?_) noted
  simp [hattrs, h]

mutual

theorem stylesIn_inlinePiece : ∀ (i : Inline) (scope : Scope) (noted : List Document),
    stylesIn ((scope.inlinePiece i).run noted).1 = styles i.sources
  | .text s, _, _ => by
    show stylesIn [.text s] = _
    simp [Inline.sources]
  | .styled s textStyles, _, _ => by
    show stylesIn [styled s textStyles] = _
    simp [Inline.sources, stylesIn_styled]
  | .math f, _, _ => by
    show stylesIn [formula f] = _
    unfold formula displayFormula
    split <;> simp [Inline.sources]
  | .link content target tooltip, scope, noted => by
    rw [Inline.sources, inlinePiece]
    exact stylesIn_link (stylesIn_inlines content) scope target tooltip noted
  | .footnote id, scope, _ => by
    show stylesIn [scope.footnoteRef id] = _
    unfold footnoteRef
    split <;> simp [Inline.sources]
  | .code s, _, _ => by
    show stylesIn [leaf "code" [] s] = _
    simp [Inline.sources]
  | .unknown u, scope, _ => by
    show stylesIn (scope.unknownInline u) = _
    unfold unknownInline
    split <;> simp [Inline.sources]

/-- Inline text is written with the styles of its sources in every scope. -/
theorem stylesIn_inlines : ∀ (content : List Inline) (scope : Scope) (noted : List Document),
    stylesIn ((scope.inlines content).run noted).1 = styles (Inline.sourcesList content)
  | [], _, _ => by
    rw [Inline.sourcesList, inlines]
    exact stylesIn_nil
  | i :: rest, scope, noted => by
    rw [Inline.sourcesList, StyleSource.styles_append, ← stylesIn_inlinePiece i scope noted,
      ← stylesIn_inlines rest scope ((scope.inlinePiece i).run noted).2, ← stylesIn_append, inlines]
    rfl

end

end Scope

/-! ## Layouts -/

def Piece.written : Piece → List (String ⊕ Layout.Leaf)
  | source s => s.style?.toList.map .inl
  | leaf l => [.inr l]

namespace Layout

open Scope Piece

@[simp] def styledLeaf : Layout → List (String ⊕ Leaf)
  | fixed m => (stylesIn [m]).map .inl
  | .text content => [.inr (.text content)]
  | .block number b => [.inr (.block number b)]
  | division number s => [.inr (.division number s)]
  | element _ attrs _ _ => (styleValues attrs).map .inl

/-- The styles and the leaves of layouts, in the order of the page. -/
abbrev styledLeaves : List Layout → List (String ⊕ Leaf) := collectAll styledLeaf

@[simp] theorem styledLeaves_fixed (ms : List Markup) :
    styledLeaves (ms.map fixed) = (stylesIn ms).map .inl := by
  induction ms with
  | nil => simp
  | cons m rest ih => simp [ih, stylesIn_cons m rest]

@[simp] theorem styledLeaves_blocks (content : List Block) :
    styledLeaves (Layout.blocks content) = (ofBlocks content).flatMap written := by
  simp [Layout.blocks, ofBlocks, collectAll_map, List.flatMap_map, written]

@[simp] theorem styledLeaves_textIn (tag : String) {attrs : List Attr}
    (hattrs : styleValues attrs = []) (content : Option (List Inline)) :
    styledLeaves (textIn tag attrs content) = (someText content).flatMap written := by
  cases content <;> simp [textIn, hattrs, someText, Piece.text, written]

/-! ## Blocks -/

theorem styleValues_alignmentAttr (a : Option TextAlignment) :
    (styleValues (alignmentAttr a)).map Sum.inl = (alignment a).flatMap written := by
  unfold alignmentAttr alignment
  cases a with
  | none => simp
  | some a =>
    cases a <;> simp [TextAlignment.css?, StyleSource.style?, StyleSource.declarations, written]

theorem styledLeaf_rowGroup (tag : String) (inHeader : Bool) (rows : List TableRow) :
    collect styledLeaf (rowGroup tag inHeader rows) =
      (rows.flatMap TableRow.pieces).flatMap written := by
  have hspan : ∀ {name : String}, name ≠ "style" →
      ∀ span, styleValues (spanAttr name span) = [] := by
    intro name hname span
    cases span <;> simp [spanAttr, hname]
  simp [rowGroup, collectAll_map, tableCell, hspan, styleValues_alignmentAttr, TableRow.pieces,
    List.flatMap_assoc]

theorem styledLeaf_panel (cssClass : String) (visible : Bool) {extra : List Attr}
    (hextra : styleValues extra = []) (p : Panel) :
    collect styledLeaf (panel cssClass visible extra p) = p.pieces.flatMap written := by
  simp [panel, hextra, Panel.pieces]

theorem styledLeaf_overlayNote (a : OverlayNote) :
    collect styledLeaf (overlayNote a) = a.pieces.flatMap written := by
  have htarget : ∀ target : Option String,
      styleValues (target.toList.map fun id => ("data-target-id", id)) = [] := by
    intro target
    cases target <;> simp
  unfold overlayNote OverlayNote.pieces
  cases a.position with
  | none => simp [htarget, Piece.text, written]
  | some position =>
    simp [htarget, Piece.text, written, StyleSource.style?, StyleSource.declarations]

theorem styledLeaf_panelLayout (scope : Scope) (l : PanelLayout) :
    collect styledLeaf (panelLayout scope l) =
      (l.arrangement.pieces ++ l.shown.flatMap Panel.pieces).flatMap written := by
  unfold panelLayout PanelLayout.shown PanelArrangement.pieces
  cases l.arrangement with
  | tabs =>
    have hbuttons : stylesIn (l.panels.map (tabButton (scope.view.panelState l))) = [] :=
      stylesIn_map_nil (fun p => by simp [tabButton, panelLabel]) _
    simp [tabs, collectAll_map, hbuttons, styledLeaf_panel, List.flatMap_assoc]
  | accordion =>
    simp [accordionItem, panelLabel, collectAll_map, styledLeaf_panel, List.flatMap_assoc]
  | grid columns =>
    simp [collectAll_map, styledLeaf_panel, List.flatMap_assoc, written, StyleSource.style?,
      StyleSource.declarations, natAttr]
  | sidebar name =>
    cases hmain : l.panels[mainPanel name l.panels]? <;>
      simp [sidebar, hmain, collectAll_map, styledLeaf_panel, List.flatMap_assoc, written,
        StyleSource.style?, StyleSource.declarations]
  | floating | unknown u => simp [collectAll_map, styledLeaf_panel, List.flatMap_assoc]

theorem stylesIn_unknownMarker (scope : Scope) (typeName : String) :
    stylesIn (scope.unknownMarker typeName) = [] := by
  unfold unknownMarker marker
  split <;> simp

theorem stylesIn_controls (scope : Scope) (g : ControlGroup) :
    stylesIn [scope.controls g] = [] := by
  have hbound : ∀ {name : String}, name ≠ "style" →
      ∀ bound, styleValues (boundAttr name bound) = [] := by
    intro name hname bound
    cases bound <;> simp [boundAttr, hname]
  have hinput : ∀ inputId c value, stylesIn (scope.controlInput inputId c value) = [] := by
    intro inputId c value
    have hdropdown : ∀ options : List SelectOption,
        stylesIn (options.map (dropdownOption value.toAttr)) = [] :=
      stylesIn_map_nil fun o => by simp [dropdownOption]
    have hradios : ∀ options : List SelectOption,
        stylesIn (options.map (radioOption inputId value.toAttr)) = [] :=
      stylesIn_map_nil fun o => by simp [radioOption]
    unfold controlInput inputLabel
    cases c.kind with
    | numberInput min max step => simp [hbound]
    | unknown u => exact stylesIn_unknownMarker scope _
    | _ => simp [hdropdown, hradios]
  have hcontrols : stylesIn (g.controls.map (scope.control g)) = [] :=
    stylesIn_map_nil (fun c => by simp [Scope.control, hinput]) _
  simp [controls, hcontrols]

/-- The layout of a simple block has the styles and the leaves of its pieces. -/
theorem styledLeaves_ofBlock (scope : Scope) (b : Block) :
    styledLeaves (ofBlock scope b) = (b.pieces scope.renderer).flatMap written := by
  cases b with
  | paragraph p =>
    simp [ofBlock, paragraph, Block.pieces, styleValues_alignmentAttr, Piece.text, written]
  | equation e =>
    cases hlabel : e.label with
    | none => simp [ofBlock, equation, displayFormula, caption, hlabel, Block.pieces]
    | some label =>
      by_cases h : scope.references = 0 <;>
        simp [ofBlock, equation, displayFormula, caption, hlabel, h, Block.pieces]
  | statement s =>
    obtain ⟨kind, number, title, body, proof⟩ := s
    cases title <;> cases proof <;>
      simp [ofBlock, statement, Block.pieces, someText, Piece.text, ofBlocks, written]
  | list l =>
    have hstart : styleValues (startAttr l) = [] := by
      unfold startAttr
      split <;> simp
    have hitems : ((l.items.zipIdx 0).flatMap fun e => (ofBlocks e.1.content).flatMap written) =
        l.items.flatMap fun item => (ofBlocks item.content).flatMap written := by
      rw [List.flatMap_def, map_zipIdx
        (fun item : ListItem => (ofBlocks item.content).flatMap written), ← List.flatMap_def]
    simp [ofBlock, listing, Block.pieces, hstart, collectAll_eachFrom, hitems, List.flatMap_assoc,
      written, StyleSource.style?, StyleSource.declarations]
  | table t =>
    obtain ⟨content, headerRows, bodyRows, footerRows⟩ := t
    cases headerRows <;> cases footerRows <;>
      simp [ofBlock, table, Block.pieces, styledLeaf_rowGroup]
  | code c =>
    have hlines : ∀ n lines, stylesIn (codeLines n lines) = [] := by
      intro n lines
      induction lines generalizing n with
      | nil => simp [codeLines]
      | cons line rest ih => simp [codeLines, ih (n + 1)]
    cases hlanguage : c.language <;> cases hnumbers : c.showLineNumbers <;>
      simp [ofBlock, codeBlock, caption, Block.pieces, hlanguage, hnumbers, hlines]
  | image i =>
    have hstyle := styleValues_styleAttr (.image i.width i.height)
    rw [StyleSource.declarations] at hstyle
    simp [ofBlock, image, caption, Block.pieces, hstyle, written]
  | grid g =>
    have hitem : ∀ item, collect styledLeaf (gridItem item) =
        written (.source (.gridItem item.column item.row)) ++
          (ofBlocks item.content).flatMap written := by
      intro item
      have hstyle := styleValues_styleAttr (.gridItem item.column item.row)
      rw [StyleSource.declarations] at hstyle
      simp [gridItem, hstyle, written]
    simp [ofBlock, grid, Block.pieces, collectAll_map, hitem, List.flatMap_assoc, written,
      StyleSource.style?, StyleSource.declarations]
  | columns c =>
    simp [ofBlock, columns, Block.pieces, collectAll_map, List.flatMap_assoc, written,
      StyleSource.style?, StyleSource.declarations]
  | component c =>
    show styledLeaves (component scope c) = List.flatMap written
      (if (scope.renderer.components.get? c.name).isSome then [] else ofBlocks (c.fallback.getD []))
    unfold component
    cases scope.renderer.components.get? c.name <;> cases c.fallback <;>
      simp [stylesIn_unknownMarker, ofBlocks]
  | sideBySide s =>
    simp [ofBlock, sideBySide, Block.pieces, styledLeaf_panel, written, StyleSource.style?,
      StyleSource.declarations]
  | panels l => simpa [ofBlock, Block.pieces] using styledLeaf_panelLayout scope l
  | overlay o =>
    simp [ofBlock, overlay, Block.pieces, collectAll_map, styledLeaf_overlayNote,
      List.flatMap_assoc, written, StyleSource.style?, StyleSource.declarations]
  | controls g => simp [ofBlock, Block.pieces, stylesIn_controls]
  | unknown u => simp [ofBlock, Block.pieces, stylesIn_unknownMarker]
  | _ =>
    simp [ofBlock, Block.pieces, caption, diagram, collapsible, quote, alert, Piece.text, written]

end Layout

end Compendium
