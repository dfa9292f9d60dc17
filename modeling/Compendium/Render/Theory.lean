import Compendium.Loading.Provenance
import Compendium.Markdown.Printer
import Compendium.Markup
import Compendium.Record
import Compendium.Text.Slug

/-!
# Rendering theories

A theory is shown as its definitions and theorems. Their names are anchors, and their texts are
formatted.
-/

namespace Compendium

def Definition.anchor (d : Definition) : String :=
  "definition-" ++ slugOf d.name

def Theorem.anchor (t : Theorem) : String :=
  "theorem-" ++ slugOf t.name

/-- A formatted text in an element, unless it is empty. -/
def formattedIn (cssClass text : String) : List Markup :=
  if text = "" then [] else [.classed "div" cssClass [.raw (Markdown.html text)]]

/-- A list, unless it is empty. -/
def listIn (tag cssClass : String) (item : String → Markup) (texts : List String) : List Markup :=
  if texts.isEmpty then [] else [.classed tag cssClass (texts.map item)]

/-- A text as code in a list item. -/
def codeItem (s : String) : Markup :=
  .node "li" [] [.leaf "code" [] s]

def Definition.markup (d : Definition) : Markup :=
  .node "article" [("class", "definition"), ("id", d.anchor), ("data-kind", d.kind)]
    (.node "h3" [] [.text d.name, .text " ", .leaf "span" [("class", "definition-kind")] d.kind] ::
      (formattedIn "docs" d.docs ++ listIn "ul" "members" codeItem d.members))

def Theorem.markup (t : Theorem) : Markup :=
  .node "article" [("class", "theorem"), ("id", t.anchor)]
    (.leaf "h3" [] t.name ::
      (formattedIn "statement" t.statement ++ formattedIn "description" t.description ++
        listIn "ol" "proof-steps" (fun s => .node "li" [] [.raw (Markdown.html s)]) t.proofSteps ++
        listIn "ul" "tags" (fun s => .leaf "li" [("class", "tag")] s) t.tags))

/-- A section of records, with a note if there is none. -/
def recordSection (cssClass title nothing : String) (records : List Markup) : Markup :=
  .classed "section" cssClass
    (.leaf "h2" [] title ::
      (if records.isEmpty then [.leaf "p" [("class", "empty")] nothing] else records))

/-- The paths that were tried for a theory that was not found. -/
def triedPaths : Provenance → List Markup
  | .notFound (path :: rest) =>
    [.classed "details" "tried-paths"
      [.leaf "summary" [] "Paths tried", .node "ul" [] ((path :: rest).map codeItem)]]
  | _ => []

/-- A theory and where it comes from. -/
def Theory.markup (outcome : Outcome Theory) : Markup :=
  let t := outcome.value
  .node "div"
    [("class", "math-content"), ("data-theory", t.name),
      ("data-provenance", outcome.provenance.label)]
    (.leaf "h1" [("class", "theory-title")] t.name :: (triedPaths outcome.provenance ++
      [recordSection "definitions" "Definitions" "No definitions." (t.definitions.map (·.markup)),
        recordSection "theorems" "Theorems" "No theorems." (t.theorems.map (·.markup))]))

end Compendium
