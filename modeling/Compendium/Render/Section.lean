import Compendium.Render.Block

/-!
# Rendering sections

A section of the body is an anchor; a copy that a reference pulls in is not, nor is anything inside
it, so anchors stay unique. A section that is open already is not opened again.
-/

namespace Compendium

/-- Why a section is shown: as part of the body, or as a copy. -/
inductive SectionMode where
  | anchored
  | copy (showTitle : Bool)
  deriving DecidableEq, Repr

namespace SectionMode

def isCopy : SectionMode → Bool
  | anchored => false
  | copy _ => true

end SectionMode

namespace Scope

/-- The rendering of a block inside a scope. A number is given to numbered subsections. -/
abbrev BlockRenderer := Scope → Option String → Block → Rendered

/-- The blocks of a scope, none of them numbered. -/
def blocks (block : BlockRenderer) (scope : Scope) : BlocksRenderer :=
  Rendered.each (block scope none)

/-- Subsections of a copy are copies too. -/
def nestedMode (scope : Scope) (s : Section) : SectionMode :=
  if scope.references = 0 then .anchored
  else .copy (match s.display with
    | some options => options.showTitle
    | none => true)

def showsTitle (mode : SectionMode) (s : Section) : Bool :=
  match mode, s.display with
  | .anchored, none => true
  | .anchored, some options => options.showTitle
  | .copy showTitle, _ => showTitle

def sectionClass (scope : Scope) (mode : SectionMode) (numbered : Bool) (s : Section) : String :=
  let level := "section level-" ++ natAttr (scope.level + 1)
  let options := s.display
  let byOption := match options with
    | some options => options.numbered
    | none => false
  let own := match options.bind (·.cssClass) with
    | some name => " " ++ name
    | none => ""
  level ++ (if byOption || numbered then " numbered" else "") ++
    (if mode.isCopy then " section-ref" else "") ++ own

/-- The attributes of a section. -/
def sectionAttrs (scope : Scope) (mode : SectionMode) (numbered : Bool) (s : Section) : List Attr :=
  (if mode.isCopy then [] else [("id", s.id)]) ++
    [("data-section-id", s.id), ("class", scope.sectionClass mode numbered s)]

/-- The element of a section's title. -/
def headingTag (scope : Scope) : String :=
  "h" ++ natAttr (min (scope.level + 2) 6)

/-- The number in front of a title. -/
def numberLabel : Option String → List Markup
  | some number => [.leaf "span" [("class", "section-number")] number, .text " "]
  | none => []

def sectionTitle (scope : Scope) (mode : SectionMode) (number : Option String) (s : Section) :
    Rendered :=
  if showsTitle mode s then
    .optional (fun title => do
      let content ← scope.inlines title
      return [.node scope.headingTag [("class", "section-title")] (numberLabel number ++ content)])
      s.title
  else pure []

def sectionMetadata (s : Section) : List Markup :=
  match s.metadata with
  | some (entry :: rest) =>
    [.classed "dl" "section-metadata" ((entry :: rest).flatMap fun (key, value) =>
      [.leaf "dt" [] key, .leaf "dd" [] value])]
  | _ => []

/-- The blocks of a section. In a section with a number the subsections are numbered in turn;
everything else is shown as a block of any other place. -/
def sectionContent (block : BlockRenderer) (scope : Scope) (number : Option String) :
    Nat → List Block → Rendered
  | _, [] => pure []
  | k, b :: rest =>
    match b, number with
    | .subsection s, some parent => do
      let first ← block scope (some (parent ++ "." ++ natAttr (k + 1))) (.subsection s)
      let others ← sectionContent block scope number (k + 1) rest
      return first ++ others
    | b, _ => do
      let first ← block scope none b
      let others ← sectionContent block scope number k rest
      return first ++ others

/-- The stand-in for a section that is open already. -/
def sectionCycle (id : String) : Markup :=
  marker "section-cycle" [("data-section-id", id)]
    ("Section " ++ id ++ " is already being displayed")

def insideSection (scope : Scope) (mode : SectionMode) (s : Section) : Scope :=
  { scope with
    sections := s.id :: scope.sections
    references := if mode.isCopy then scope.references + 1 else scope.references }

def renderSection (block : BlockRenderer) (scope : Scope) (mode : SectionMode)
    (number : Option String) (s : Section) : Rendered :=
  if scope.sections.contains s.id then pure [sectionCycle s.id]
  else
    let inner := scope.insideSection mode s
    .inside "section" (scope.sectionAttrs mode number.isSome s)
      (.sequence [inner.sectionTitle mode number s, pure (sectionMetadata s),
        sectionContent block inner number 0 s.content])

/-- A subsection, one level below. -/
def subsection (block : BlockRenderer) (scope : Scope) (number : Option String) (s : Section) :
    Rendered :=
  renderSection block { scope with level := scope.level + 1 } (scope.nestedMode s) number s

/-- A subsection of a numbered section, as the loop over the section's content shows it: one level
below, in the mode of its surroundings, and with its number. -/
def numberedSubsection (block : BlockRenderer) (scope : Scope) (number : String) (s : Section) :
    Rendered :=
  let mode := scope.nestedMode s
  let deeper := { scope with level := scope.level + 1 }
  renderSection block deeper mode (some number) s

/-- The section of the innermost document that a reference leads to. -/
def referenced? (scope : Scope) (r : SectionRef) : Option Section :=
  scope.document?.bind fun d => d.findSection? r.sectionId

/-- The stand-in for a section that is not found. -/
def missingSection (id : String) : Markup :=
  marker "unresolved-ref" [("data-section-id", id)] ("Missing section: " ++ id)

def sectionRef (block : BlockRenderer) (scope : Scope) (r : SectionRef) : Rendered :=
  match scope.referenced? r with
  | some s => renderSection block scope (.copy r.showTitle) none s
  | none => pure [missingSection r.sectionId]

end Scope

end Compendium
