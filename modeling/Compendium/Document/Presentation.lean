import Compendium.Json.Decoder

/-!
# How a document is presented

The kind of a document, its layout, and the settings that are passed on to the page.
-/

namespace Compendium

open Json

inductive DocumentKind where
  | documentation
  | tutorial
  | reference
  | article
  | blogPost
  | mathematicalContent
  | lecture
  | interactiveDemo
  | glossary
  | textbook
  | resourcePanel
  | animatedPresentation
  | comparisonPage
  | typeMappingDisplay
  | transformationMapping
  | unknown
  deriving DecidableEq, Repr

namespace DocumentKind

def name : DocumentKind → String
  | documentation => "Documentation"
  | tutorial => "Tutorial"
  | reference => "Reference"
  | article => "Article"
  | blogPost => "BlogPost"
  | mathematicalContent => "MathematicalContent"
  | lecture => "Lecture"
  | interactiveDemo => "InteractiveDemo"
  | glossary => "Glossary"
  | textbook => "Textbook"
  | resourcePanel => "ResourcePanel"
  | animatedPresentation => "AnimatedPresentation"
  | comparisonPage => "ComparisonPage"
  | typeMappingDisplay => "TypeMappingDisplay"
  | transformationMapping => "TransformationMapping"
  | unknown => "Unknown"

/-- Whether documents of this kind lay themselves out, whatever layout they ask for. -/
def laysItselfOut : DocumentKind → Bool
  | textbook => true
  | resourcePanel => true
  | animatedPresentation => true
  | comparisonPage => true
  | typeMappingDisplay => true
  | transformationMapping => true
  | _ => false

def vocabulary : Vocabulary DocumentKind :=
  ⟨[documentation, tutorial, reference, article, blogPost, mathematicalContent, lecture,
      interactiveDemo, glossary, textbook, resourcePanel, animatedPresentation, comparisonPage,
      typeMappingDisplay, transformationMapping, unknown], name, some unknown⟩

end DocumentKind

/-- The layout of a document's body. -/
inductive LayoutStyle where
  | singleColumn
  | twoColumn
  | sidebar
  | grid
  | magazine
  | slides
  | notebook
  | unknown
  deriving DecidableEq, Repr

namespace LayoutStyle

def name : LayoutStyle → String
  | singleColumn => "SingleColumn"
  | twoColumn => "TwoColumn"
  | sidebar => "Sidebar"
  | grid => "Grid"
  | magazine => "Magazine"
  | slides => "Slides"
  | notebook => "Notebook"
  | unknown => "Unknown"

def vocabulary : Vocabulary LayoutStyle :=
  ⟨[singleColumn, twoColumn, sidebar, grid, magazine, slides, notebook, unknown],
    name, some unknown⟩

end LayoutStyle

/-- Something a reader can do with a document. -/
inductive Feature where
  | hover
  | click
  | expand
  | search
  | filter
  | copy
  | bookmark
  | annotate
  deriving DecidableEq, Repr

namespace Feature

def name : Feature → String
  | hover => "Hover"
  | click => "Click"
  | expand => "Expand"
  | search => "Search"
  | filter => "Filter"
  | copy => "Copy"
  | bookmark => "Bookmark"
  | annotate => "Annotate"

def word : Feature → String
  | hover => "hover"
  | click => "click"
  | expand => "expand"
  | search => "search"
  | filter => "filter"
  | copy => "copy"
  | bookmark => "bookmark"
  | annotate => "annotate"

def vocabulary : Vocabulary Feature :=
  ⟨[hover, click, expand, search, filter, copy, bookmark, annotate], name, none⟩

end Feature

/-- Whom a document is written for. -/
inductive Audience where
  | general
  | beginner
  | intermediate
  | advanced
  | expert
  | student
  | researcher
  deriving DecidableEq, Repr

namespace Audience

def name : Audience → String
  | general => "General"
  | beginner => "Beginner"
  | intermediate => "Intermediate"
  | advanced => "Advanced"
  | expert => "Expert"
  | student => "Student"
  | researcher => "Researcher"

def vocabulary : Vocabulary Audience :=
  ⟨[general, beginner, intermediate, advanced, expert, student, researcher], name, none⟩

end Audience

/-- How formal a document is. -/
inductive Formality where
  | casual
  | informal
  | standard
  | formal
  | rigorous
  deriving DecidableEq, Repr

namespace Formality

def name : Formality → String
  | casual => "Casual"
  | informal => "Informal"
  | standard => "Standard"
  | formal => "Formal"
  | rigorous => "Rigorous"

def vocabulary : Vocabulary Formality :=
  ⟨[casual, informal, standard, formal, rigorous], name, none⟩

end Formality

/-- How transitions are animated. -/
structure Animation where
  enabled : Bool
  duration : Option Nat
  easing : Option String
  deriving DecidableEq, Repr

namespace Animation

def decode : Decoder Animation := fun m j => do
  let f ← fields? 3 m j
  let enabled ← f.defaulted 0 "enabled" Decode.boolean false
  let duration ← f.optional 1 "duration_ms" Decode.word32
  let easing ← f.optional 2 "easing" Decode.string
  return ⟨enabled, duration, easing⟩

def encode (a : Animation) : Json :=
  .obj (fieldIf "duration_ms" (a.duration.map nat) ++ fieldIf "easing" (a.easing.map .str) ++
    field "enabled" (.bool a.enabled))

end Animation

structure Presentation where
  layout : LayoutStyle
  features : List Feature
  audience : Audience
  formality : Formality
  animation : Option Animation
  deriving DecidableEq, Repr

namespace Presentation

def decode : Decoder Presentation := fun m j => do
  let f ← fields? 5 m j
  let layout ← f.required 0 "layout_style" LayoutStyle.vocabulary.decode
  let features ← f.defaulted 1 "interaction_features" (Decode.list Feature.vocabulary.decode) []
  let audience ← f.defaulted 2 "target_audience" Audience.vocabulary.decode .general
  let formality ← f.defaulted 3 "formality_level" Formality.vocabulary.decode .standard
  let animation ← f.optional 4 "animation_config" Animation.decode
  return ⟨layout, features, audience, formality, animation⟩

def encode (p : Presentation) : Json :=
  .obj (fieldIf "animation_config" (p.animation.map Animation.encode) ++
    field "formality_level" (Formality.vocabulary.encode p.formality) ++
    field "interaction_features" (.arr (p.features.map Feature.vocabulary.encode)) ++
    field "layout_style" (LayoutStyle.vocabulary.encode p.layout) ++
    field "target_audience" (Audience.vocabulary.encode p.audience))

end Presentation

/-- How a section is displayed. -/
structure DisplayOptions where
  showTitle : Bool
  numbered : Bool
  cssClass : Option String
  deriving DecidableEq, Repr

namespace DisplayOptions

def decode : Decoder DisplayOptions := fun m j => do
  let f ← fields? 3 m j
  let showTitle ← f.defaulted 0 "show_title" Decode.boolean true
  let numbered ← f.defaulted 1 "numbered" Decode.boolean false
  let cssClass ← f.optional 2 "css_class" Decode.string
  return ⟨showTitle, numbered, cssClass⟩

def encode (o : DisplayOptions) : Json :=
  .obj (fieldIf "css_class" (o.cssClass.map .str) ++ field "numbered" (.bool o.numbered) ++
    field "show_title" (.bool o.showTitle))

end DisplayOptions

/-- The widths of two panels side by side, and the gap between them. -/
structure SideWidths where
  left : String
  right : String
  gap : Option String
  deriving DecidableEq, Repr

namespace SideWidths

/-- Two equal panels. -/
def equal : SideWidths := ⟨"1fr", "1fr", none⟩

def decode : Decoder SideWidths := fun m j => do
  let f ← fields? 3 m j
  let left ← f.defaulted 0 "left_width" Decode.string "1fr"
  let right ← f.defaulted 1 "right_width" Decode.string "1fr"
  let gap ← f.optional 2 "gap" Decode.string
  return ⟨left, right, gap⟩

def encode (w : SideWidths) : Json :=
  .obj (fieldIf "gap" (w.gap.map .str) ++ field "left_width" (.str w.left) ++
    field "right_width" (.str w.right))

end SideWidths

/-- Where an annotation stands on its base. -/
structure AnnotationPosition where
  x : String
  y : String
  deriving DecidableEq, Repr

namespace AnnotationPosition

def decode : Decoder AnnotationPosition := fun m j => do
  let f ← fields? 2 m j
  let x ← f.required 0 "x" Decode.string
  let y ← f.required 1 "y" Decode.string
  return ⟨x, y⟩

def encode (p : AnnotationPosition) : Json :=
  .obj (field "x" (.str p.x) ++ field "y" (.str p.y))

end AnnotationPosition

/-- A block that shows a section of the document in another place. -/
structure SectionRef where
  sectionId : String
  showTitle : Bool
  deriving DecidableEq, Repr

namespace SectionRef

def decode : Decoder SectionRef := fun m j => do
  let f ← fields? 2 m j
  let sectionId ← f.required 0 "section_id" Decode.string
  let showTitle ← f.defaulted 1 "show_title" Decode.boolean false
  return ⟨sectionId, showTitle⟩

def encode (r : SectionRef) : Json :=
  .obj (field "section_id" (.str r.sectionId) ++ field "show_title" (.bool r.showTitle))

end SectionRef

end Compendium
