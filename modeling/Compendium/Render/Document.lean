import Compendium.Document.Parts
import Compendium.Render.Control
import Compendium.Render.Section

/-!
# Rendering documents

A document is an article. The outermost article ends with the tooltip documents that its links ask
for; a document that is open already is not opened again. Blocks are rendered on a budget of
nesting: where it is used up, a stand-in takes the block's place.
-/

namespace Compendium

namespace LayoutStyle

/-- The class and the declarations of a layout. -/
def css? : LayoutStyle → Option (String × List String)
  | singleColumn => some ("layout-single-column", ["max-width: 48rem", "margin: 0 auto"])
  | twoColumn =>
    some ("layout-two-column", ["display: grid", "grid-template-columns: 1fr 1fr", "gap: 2rem"])
  | sidebar =>
    some ("layout-sidebar", ["display: grid", "grid-template-columns: 3fr 1fr", "gap: 2rem"])
  | grid =>
    some ("layout-grid", ["display: grid",
      "grid-template-columns: repeat(auto-fill, minmax(20rem, 1fr))", "gap: 1.5rem"])
  | magazine => some ("layout-magazine", ["column-count: 2", "column-gap: 2rem"])
  | slides => some ("layout-slides", ["display: flex", "flex-direction: column"])
  | notebook => some ("layout-notebook", ["max-width: 60rem", "margin: 0 auto"])
  | unknown => none

end LayoutStyle

namespace Scope

def classWord (name : String) : String :=
  String.ofList (Text.className name.toList)

/-- The attributes that an animation adds. -/
def animationAttrs (a : Animation) : List Attr :=
  if a.enabled then
    (match a.duration with
      | some duration => [("data-animation-duration", natAttr duration)]
      | none => []) ++
    (match a.easing with
      | some easing => [("data-animation-easing", easing)]
      | none => [])
  else []

/-- The attributes that the presentation of a document adds. -/
def presentationAttrs (p : Presentation) : List Attr :=
  [("data-audience", classWord p.audience.name), ("data-formality", classWord p.formality.name)] ++
  (if p.features.isEmpty then []
    else [("data-features", " ".intercalate (p.features.map Feature.word))]) ++
  (match p.animation with
    | some a => animationAttrs a
    | none => [])

/-- The attributes of a document's article. -/
def articleAttrs (d : Document) : List Attr :=
  [("class", "document doc-" ++ classWord d.kind.name), ("data-document-type", d.kind.name),
    ("data-document-id", d.id)] ++
  (if d.kind.laysItselfOut then [("style", Css.style ["width: 100%"])] else []) ++
  (match d.presentation with
    | some p => presentationAttrs p
    | none => [])

def timeMark (cssClass time : String) : Markup :=
  .leaf "time" [("datetime", time), ("class", cssClass)] time

def dates (created updated : Option String) : List Markup :=
  match created, updated with
  | none, none => []
  | some c, none => [.classed "p" "document-dates" [timeMark "created" c]]
  | none, some u => [.classed "p" "document-dates" [.text "Updated ", timeMark "updated" u]]
  | some c, some u =>
    [.classed "p" "document-dates"
      [timeMark "created" c, .text " · ", .text "Updated ", timeMark "updated" u]]

/-- The title, authors and dates of a document. -/
def documentHeader (d : Document) : Markup :=
  let authors := if d.authors.isEmpty then []
    else [Markup.leaf "p" [("class", "document-authors")] (", ".intercalate d.authors)]
  .classed "header" "document-header"
    (.leaf "h1" [("class", "document-title")] d.title :: (authors ++ dates d.createdAt d.updatedAt))

/-- The summary of a document. -/
def documentAbstract (scope : Scope) (d : Document) : Rendered :=
  .optional (fun summary => .classed "section" "document-abstract" do
    let content ← Rendered.inside "p" [] (scope.inlines summary)
    return .leaf "h2" [] "Abstract" :: content) d.abstract

mutual

/-- An entry of a table of contents. -/
def tocEntry : TocEntry → Markup
  | .mk id title children =>
    .node "li" [] (.leaf "a" [("href", "#" ++ id)] title :: tocSublist children)

/-- Entries of a table of contents. -/
def tocItems : List TocEntry → List Markup
  | [] => []
  | e :: rest => tocEntry e :: tocItems rest

/-- A list of entries, unless it is empty. -/
def tocSublist : List TocEntry → List Markup
  | [] => []
  | e :: rest => [.node "ol" [] (tocEntry e :: tocItems rest)]

end

/-- The entries of a document's table of contents. -/
def tocEntries (d : Document) : List TocEntry :=
  match d.contents with
  | none => []
  | some contents => if contents.autoGenerate then d.generatedToc else contents.entries

/-- The table of contents of a document, unless it is empty. -/
def documentContents (d : Document) : List Markup :=
  match tocSublist (tocEntries d) with
  | [] => []
  | items => [.classed "nav" "table-of-contents" (.leaf "h2" [] "Contents" :: items)]

def resourceLink (s : Section) : Markup :=
  .node "li" [] [.leaf "a" [("href", "#" ++ s.id)] (s.titleText?.getD s.id)]

def resourceNav (body : List Section) : List Markup :=
  if body.isEmpty then []
  else [.classed "nav" "resource-nav" [.node "ul" [] (body.map resourceLink)]]

/-- The class of a document's body and its declarations. -/
def bodyLayout (scope : Scope) (d : Document) : String × List String :=
  match d.kind with
  | .comparisonPage =>
    ("document-body comparison-grid", ["display: grid",
      "grid-template-columns: repeat(" ++ natAttr (max d.body.length 1) ++ ", 1fr)", "gap: 1.5rem"])
  | .typeMappingDisplay | .transformationMapping =>
    ("document-body mapping-grid",
      ["display: grid", "grid-template-columns: 1fr auto 1fr", "gap: 1rem"])
  | kind =>
    let style := match d.presentation with
      | some p => p.layout
      | none => scope.renderer.settings.defaultLayout
    match kind.laysItselfOut, style.css? with
    | false, some (name, declarations) => ("document-body " ++ name, declarations)
    | _, _ => ("document-body", [])

def bodySection (block : BlockRenderer) (scope : Scope) (number : Option String) (s : Section) :
    Rendered :=
  renderSection block scope .anchored number s

/-- Sections in pairs, with an arrow from the first to the second. -/
def mappingPairs (block : BlockRenderer) (scope : Scope) : List Section → Rendered
  | [] => pure []
  | [source] => do
    let first ← Rendered.classed "div" "mapping-source" (bodySection block scope none source)
    return first ++
      [.leaf "span" [("class", "mapping-arrow")] "→", .classed "div" "mapping-target" []]
  | source :: target :: rest => do
    let first ← Rendered.classed "div" "mapping-source" (bodySection block scope none source)
    let second ← Rendered.classed "div" "mapping-target" (bodySection block scope none target)
    let others ← mappingPairs block scope rest
    return first ++ [.leaf "span" [("class", "mapping-arrow")] "→"] ++ second ++ others

/-- The sections of a body, as the kind of the document arranges them. -/
def bodySections (block : BlockRenderer) (scope : Scope) (d : Document) : Rendered :=
  match d.kind with
  | .textbook =>
    .eachFrom (fun i s => bodySection block scope (some (natAttr (i + 1))) s) 0 d.body
  | .comparisonPage =>
    .each (fun s => .classed "div" "comparison-column" (bodySection block scope none s)) d.body
  | .animatedPresentation =>
    .eachFrom (fun i s => .inside "div"
      [("class", if i = 0 then "slide slide-current" else "slide"), ("data-slide-index", natAttr i)]
      (bodySection block scope none s)) 0 d.body
  | .typeMappingDisplay | .transformationMapping => mappingPairs block scope d.body
  | _ => .each (bodySection block scope none) d.body

def documentBody (block : BlockRenderer) (scope : Scope) (d : Document) : Rendered :=
  let (name, declarations) := scope.bodyLayout d
  .inside "main" (("class", name) :: styleAttr declarations) (bodySections block scope d)

def documentFootnotes (scope : Scope) (d : Document) : Rendered :=
  if d.footnotes.isEmpty then pure []
  else .classed "section" "footnotes" (.inside "ol" [] (.each (fun note =>
    .inside "li" [("id", "footnote-" ++ note.id)] (scope.inlines note.content)) d.footnotes))

def glossaryEntry (scope : Scope) (entry : GlossaryEntry) : Rendered := do
  let definition ← Rendered.inside "dd" [] (scope.inlines entry.definition)
  return .leaf "dt" [("id", glossaryAnchor entry.term)] entry.term :: definition

def documentGlossary (scope : Scope) (d : Document) : Rendered :=
  if d.glossary.isEmpty then pure []
  else .classed "section" "glossary" do
    let entries ← Rendered.inside "dl" [] (.each scope.glossaryEntry d.glossary)
    return .leaf "h2" [] "Glossary" :: entries

def bibliographyEntry (e : BibEntry) : Markup :=
  let authors := if e.authors.isEmpty then []
    else [Markup.text (", ".intercalate e.authors ++ ". ")]
  let venue := match e.venue with
    | some venue => [Markup.text (" " ++ venue ++ ".")]
    | none => []
  let year := match e.year with
    | some year => [Markup.text (" " ++ natAttr year ++ ".")]
    | none => []
  let url := match e.url with
    | some url => [Markup.text " ", Markup.leaf "a" [("href", url)] url]
    | none => []
  .node "li" [("id", "bib-" ++ e.key)]
    (authors ++ [Markup.leaf "cite" [] e.title, Markup.text "."] ++ venue ++ year ++ url)

def documentBibliography (d : Document) : List Markup :=
  if d.bibliography.isEmpty then []
  else [.classed "section" "bibliography"
    [.leaf "h2" [] "References", .node "ol" [] (d.bibliography.map bibliographyEntry)]]

/-- The stand-in for a document that is open already. -/
def documentCycle (id : String) : Markup :=
  marker "document-cycle" [("data-document-id", id)]
    ("Document " ++ id ++ " is already being displayed")

def insideDocument (scope : Scope) (d : Document) : Scope :=
  { scope with documents := d :: scope.documents, level := 0 }

/-- What stands in a document's article before its closing. -/
def articleFront (block : BlockRenderer) (inner : Scope) (d : Document) : List Rendered :=
  [pure [documentHeader d], inner.documentAbstract d, pure (documentContents d),
    if d.kind == .glossary then inner.documentGlossary d else pure [],
    if d.kind == .resourcePanel then pure (resourceNav d.body) else pure [],
    documentBody block inner d, inner.documentFootnotes d,
    if d.kind == .glossary then pure [] else inner.documentGlossary d,
    pure (documentBibliography d)]

/-- A document as an article; `closing` comes last in it. -/
def articleWith (block : BlockRenderer) (closing : Scope → Rendered) (scope : Scope)
    (d : Document) :
    Rendered :=
  if scope.documents.any (fun other => other.id == d.id) then pure [documentCycle d.id]
  else
    let inner := scope.insideDocument d
    .inside "article" (articleAttrs d) (.sequence (articleFront block inner d ++ [closing inner]))

/-- An article inside another one. -/
def innerArticle (block : BlockRenderer) (scope : Scope) (d : Document) : Rendered :=
  articleWith block (fun _ => pure []) scope d

def tooltipDocument (block : BlockRenderer) (scope : Scope) (d : Document) : Rendered :=
  .inside "div" [("class", "tooltip-document"), ("id", "tooltip-" ++ d.id)]
    (innerArticle block scope d)

/-- The noted tooltip documents from a position on, including those noted on the way. The first
argument bounds their number. -/
def tooltipsFrom (block : BlockRenderer) (scope : Scope) : Nat → Nat → Rendered
  | 0, _ => pure []
  | limit + 1, position => do
    match (← get)[position]? with
    | none => return []
    | some d =>
      let first ← tooltipDocument block scope d
      let others ← tooltipsFrom block scope limit (position + 1)
      return first ++ others

/-- The tooltip documents that links have asked for. -/
def tooltipDocuments (block : BlockRenderer) (scope : Scope) : Rendered := do
  let noted ← get
  if noted.isEmpty then return []
  else
    let content ← tooltipsFrom block scope scope.tooltipLimit 0
    return [.element "aside" [("class", "tooltip-documents")] ["hidden"] content]

/-- A document: the outermost one has the tooltip documents at its end. -/
def article (block : BlockRenderer) (scope : Scope) (d : Document) : Rendered :=
  if scope.documents.isEmpty then articleWith block (tooltipDocuments block) scope d
  else innerArticle block scope d

def blockWith (block : BlockRenderer) (scope : Scope) (number : Option String) : Block → Rendered
  | .paragraph p => scope.paragraph p
  | .equation e => scope.equation e
  | .statement s => scope.statement (blocks block scope) s
  | .list l => listing (blocks block scope) l
  | .table t => scope.table (blocks block scope) t
  | .code c => scope.codeBlock c
  | .image i => scope.image i
  | .diagram d => scope.diagram d
  | .collapsible c => scope.collapsible (blocks block scope) c
  | .grid g => grid (blocks block scope) g
  | .columns c => columns (blocks block scope) c
  | .thematicBreak => pure [.void "hr" [] []]
  | .quote q => scope.quote (blocks block scope) q
  | .alert a => scope.alert (blocks block scope) a
  | .component c => scope.component (blocks block scope) c
  | .sectionRef r => sectionRef block scope r
  | .subsection s => subsection block scope number s
  | .sideBySide s => scope.sideBySide (blocks block scope) s
  | .panels p => scope.panelLayout (blocks block scope) p
  | .overlay o => scope.overlay (blocks block scope) o
  | .controls g => pure [scope.controls g]
  | .document d => .classed "div" "embedded-document" (article block scope d)
  | .unknown u => pure (scope.unknownMarker u.displayName)

/-- A block on a budget of nesting. Entering it takes one level of the budget, which is back when it
is left. -/
def renderBlock : Nat → BlockRenderer
  | 0, _, _, _ => pure [depthMarker]
  | budget + 1, scope, some number, .subsection s =>
    numberedSubsection (renderBlock budget) scope number s
  | budget + 1, scope, number, b => blockWith (renderBlock budget) scope number b

end Scope

namespace Renderer

/-- The rendering of a block on the whole budget. -/
def block (r : Renderer) : Scope.BlockRenderer :=
  Scope.renderBlock r.settings.maxDepth

/-- The outermost scope. -/
def scope (r : Renderer) (view : View) (parts : List Part) : Scope :=
  { renderer := r, view := view, tooltipLimit := (Part.tooltips parts).length }

def document (r : Renderer) (view : View) (d : Document) : List Markup :=
  ((Scope.article r.block (r.scope view d.parts) d).run []).1

def sectionOf (r : Renderer) (view : View) (d : Document) (s : Section) : List Markup :=
  let scope := { r.scope view d.parts with documents := [d] }
  ((Scope.renderSection r.block scope .anchored none s).run []).1

def blockAlone (r : Renderer) (view : View) (b : Block) : List Markup :=
  ((r.block (r.scope view b.parts) none b).run []).1

end Renderer

end Compendium
