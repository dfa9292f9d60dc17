import Compendium.Proofs.Document.Revalued
import Compendium.Proofs.Markup.Declarations
import Compendium.Render.Document

/-!
# What goes into styles

Each style of a page is put together from single declarations. The sources of styles are listed here
with the values that go into them. A source gives one declaration for each of its properties, and
which properties these are depends on which values are given and on the kinds of text styles, not on
any text.
-/

namespace Compendium

open Css (IsDeclaration)

/-- What a style is made of. -/
inductive StyleSource where
  | text (styles : List TextStyle)
  | alignment (a : TextAlignment)
  | list
  | image (width height : Option String)
  | gridItem (column row : Option String)
  | grid (columns rows gap : Option String)
  | columns (columns : List Column) (gap : Option String)
  | sideBySide (widths : Option SideWidths)
  | panels (columns : Nat)
  | sidebar
  | position (x y : String)
  | overlay
  | article
  | comparison (sections : Nat)
  | mapping
  | body (layout : LayoutStyle)

/-- The property of a declaration for a value that may be missing. -/
def propertyIf (property : String) (value : Option String) : List String :=
  value.toList.map fun _ => property

def TextStyle.property? : TextStyle → Option String
  | color _ => some "color"
  | backgroundColor _ => some "background-color"
  | fontSize _ => some "font-size"
  | fontFamily _ => some "font-family"
  | _ => none

def LayoutStyle.properties : LayoutStyle → List String
  | singleColumn | notebook => ["max-width", "margin"]
  | twoColumn | sidebar | grid => ["display", "grid-template-columns", "gap"]
  | magazine => ["column-count", "column-gap"]
  | slides => ["display", "flex-direction"]
  | unknown => []

namespace StyleSource

open Scope (declarationIf columnWidth natAttr)

def declarations : StyleSource → List String
  | text styles => styles.filterMap TextStyle.declaration?
  | alignment a => a.css?.toList.map fun word => "text-align: " ++ word
  | list => ["list-style: none"]
  | image width height => declarationIf "width" width ++ declarationIf "height" height
  | gridItem column row => declarationIf "grid-column" column ++ declarationIf "grid-row" row
  | grid template rows gap => "display: grid" :: (declarationIf "grid-template-columns" template ++
      declarationIf "grid-template-rows" rows ++ declarationIf "gap" gap)
  | columns widths gap =>
    ["display: grid", "grid-template-columns: " ++ " ".intercalate (widths.map columnWidth)] ++
      declarationIf "gap" gap
  | sideBySide widths =>
    let w := widths.getD SideWidths.equal
    ["display: grid", "grid-template-columns: " ++ Css.value w.left ++ " " ++ Css.value w.right] ++
      declarationIf "gap" w.gap
  | panels n => ["display: grid", "grid-template-columns: repeat(" ++ natAttr n ++ ", 1fr)"]
  | sidebar => ["display: grid", "grid-template-columns: 3fr 1fr"]
  | position x y => ["position: absolute", Css.declaration "left" x, Css.declaration "top" y]
  | overlay => ["position: relative"]
  | article => ["width: 100%"]
  | comparison n =>
    ["display: grid", "grid-template-columns: repeat(" ++ natAttr n ++ ", 1fr)", "gap: 1.5rem"]
  | mapping => ["display: grid", "grid-template-columns: 1fr auto 1fr", "gap: 1rem"]
  | body layout => layout.css?.toList.flatMap Prod.snd

def properties : StyleSource → List String
  | text styles => styles.filterMap TextStyle.property?
  | alignment a => propertyIf "text-align" a.css?
  | list => ["list-style"]
  | image width height => propertyIf "width" width ++ propertyIf "height" height
  | gridItem column row => propertyIf "grid-column" column ++ propertyIf "grid-row" row
  | grid template rows gap => "display" :: (propertyIf "grid-template-columns" template ++
      propertyIf "grid-template-rows" rows ++ propertyIf "gap" gap)
  | columns _ gap => ["display", "grid-template-columns"] ++ propertyIf "gap" gap
  | sideBySide widths =>
    ["display", "grid-template-columns"] ++ propertyIf "gap" (widths.bind (·.gap))
  | panels _ | sidebar => ["display", "grid-template-columns"]
  | position _ _ => ["position", "left", "top"]
  | overlay => ["position"]
  | article => ["width"]
  | comparison _ | mapping => ["display", "grid-template-columns", "gap"]
  | body layout => layout.properties

/-! ## One declaration for each property -/

theorem declarationIf_declares {property : String} (hproperty : Css.IsProperty property)
    (value : Option String) :
    List.Forall₂ IsDeclaration (propertyIf property value) (declarationIf property value) := by
  cases value with
  | none => exact .nil
  | some s => exact .cons (Css.isDeclaration_declaration hproperty s) .nil

theorem text_declares (styles : List TextStyle) :
    List.Forall₂ IsDeclaration (text styles).properties (text styles).declarations := by
  induction styles with
  | nil => exact .nil
  | cons style rest ih =>
    cases style with
    | color value => exact .cons (Css.isDeclaration_declaration (by decide) value) ih
    | backgroundColor value =>
      exact .cons (Css.isDeclaration_declaration (by decide) value) ih
    | fontSize value | fontFamily value =>
      exact .cons (Css.isDeclaration_declaration (by decide) value) ih
    | _ => exact ih

theorem display_grid : IsDeclaration "display" "display: grid" := by
  decide

/-- A template of columns is one declaration, whatever widths it lists. -/
theorem template_isDeclaration {template : String} (h : ';' ∉ template.toList) :
    IsDeclaration "grid-template-columns" ("grid-template-columns: " ++ template) :=
  Css.isDeclaration_append (by decide) rfl h

theorem semicolon_notMem_columnWidth (c : Column) : ';' ∉ (columnWidth c).toList := by
  unfold columnWidth
  split
  · exact Css.semicolon_notMem_value _
  · decide

theorem semicolon_notMem_widths (columns : List Column) :
    ';' ∉ (" ".intercalate (columns.map columnWidth)).toList := by
  induction columns with
  | nil => decide
  | cons c rest ih =>
    cases rest with
    | nil => simpa using semicolon_notMem_columnWidth c
    | cons next rest =>
      rw [List.map_cons, List.map_cons, String.intercalate_cons_cons, ← List.map_cons,
        String.toList_append, String.toList_append, List.mem_append, List.mem_append]
      rintro ((h | h) | h)
      · exact semicolon_notMem_columnWidth c h
      · exact absurd h (by decide)
      · exact ih h

theorem repeat_isDeclaration (n : Nat) : IsDeclaration "grid-template-columns"
    ("grid-template-columns: repeat(" ++ natAttr n ++ ", 1fr)") := by
  have hdigits : ';' ∉ (natAttr n).toList := by
    intro h
    rw [natAttr, String.toList_ofList] at h
    exact absurd (Nat.isDigit_of_mem_toDigits (by decide) (by decide) h)
      (by decide)
  have hfront : "grid-template-columns: repeat(" = "grid-template-columns: " ++ "repeat(" := rfl
  rw [hfront, String.append_assoc, String.append_assoc]
  exact template_isDeclaration (by simp [hdigits])

theorem body_declares (layout : LayoutStyle) :
    List.Forall₂ IsDeclaration (body layout).properties (body layout).declarations := by
  have htwo : ∀ {a b x y : String}, IsDeclaration a x → IsDeclaration b y →
      List.Forall₂ IsDeclaration [a, b] [x, y] := fun ha hb => .cons ha (.cons hb .nil)
  have hgrid : ∀ {x y : String}, IsDeclaration "grid-template-columns" x → IsDeclaration "gap" y →
      List.Forall₂ IsDeclaration ["display", "grid-template-columns", "gap"]
        ["display: grid", x, y] :=
    fun hx hy => .cons display_grid (htwo hx hy)
  cases layout with
  | twoColumn | sidebar | grid => exact hgrid (by decide) (by decide)
  | unknown => exact .nil
  | _ => exact htwo (by decide) (by decide)

/-- A source gives one declaration for each of its properties, in order. -/
theorem declares (source : StyleSource) :
    List.Forall₂ IsDeclaration source.properties source.declarations := by
  have hgap : ∀ value, List.Forall₂ IsDeclaration (propertyIf "gap" value)
      (declarationIf "gap" value) :=
    declarationIf_declares (by decide)
  cases source with
  | text styles => exact text_declares styles
  | alignment a => cases a <;> first | exact .nil | exact .cons (by decide) .nil
  | list => exact .cons (by decide) .nil
  | image width height =>
    exact List.rel_append (declarationIf_declares (by decide) width)
      (declarationIf_declares (by decide) height)
  | gridItem column row =>
    exact List.rel_append (declarationIf_declares (by decide) column)
      (declarationIf_declares (by decide) row)
  | grid columns rows gap =>
    exact .cons display_grid (List.rel_append (List.rel_append
      (declarationIf_declares (by decide) columns)
      (declarationIf_declares (by decide) rows)) (hgap gap))
  | columns columns gap =>
    exact .cons display_grid
      (.cons (template_isDeclaration (semicolon_notMem_widths columns)) (hgap gap))
  | sideBySide widths =>
    have htemplate : ∀ w : SideWidths, IsDeclaration "grid-template-columns"
        ("grid-template-columns: " ++ Css.value w.left ++ " " ++ Css.value w.right) := by
      intro w
      rw [String.append_assoc, String.append_assoc]
      exact template_isDeclaration (by simp [Css.semicolon_notMem_value])
    cases widths with
    | none => exact .cons display_grid (.cons (htemplate SideWidths.equal) .nil)
    | some w => exact .cons display_grid (.cons (htemplate w) (hgap w.gap))
  | panels n => exact .cons display_grid (.cons (repeat_isDeclaration n) .nil)
  | sidebar => exact .cons display_grid (.cons (by decide) .nil)
  | position x y =>
    exact .cons (by decide) (.cons (Css.isDeclaration_declaration (by decide) x)
      (.cons (Css.isDeclaration_declaration (by decide) y) .nil))
  | overlay => exact .cons (by decide) .nil
  | article => exact .cons (by decide) .nil
  | comparison n =>
    exact .cons display_grid (.cons (repeat_isDeclaration n) (.cons (by decide) .nil))
  | mapping => exact .cons display_grid (.cons (by decide) (.cons (by decide) .nil))
  | body layout => exact body_declares layout

/-! ## Styles -/

/-- The style of a source. It is left out if nothing is declared. -/
def style? (source : StyleSource) : Option String :=
  if source.declarations.isEmpty then none else some (Css.style source.declarations)

/-- A style is cut into one declaration for each property of its source, in order. -/
theorem exists_declares {source : StyleSource} {style : String} (h : source.style? = some style) :
    ∃ written, written.map Prod.fst = source.properties ∧ Css.Declares style written := by
  unfold style? at h
  split at h
  · cases h
  · next hsome =>
    cases h
    exact Css.exists_declares source.declares (by simpa using hsome)

/-! ## Other values -/

/-- The source with other texts for the values in it. -/
def revalued (f : String → String) : StyleSource → StyleSource
  | text styles => text (styles.map (·.revalued f))
  | image width height => image (width.map f) (height.map f)
  | gridItem column row => gridItem (column.map f) (row.map f)
  | grid template rows gap => grid (template.map f) (rows.map f) (gap.map f)
  | columns widths gap => columns (widths.map (Column.revalued f)) (gap.map f)
  | sideBySide widths => sideBySide (widths.map (·.revalued f))
  | position x y => position (f x) (f y)
  | source => source

/-- What stands in the body of a document has a style that depends on the kind of document and on
the layout, and on no value. -/
theorem exists_bodyLayout (scope : Scope) (d : Document) : ∃ source : StyleSource,
    (scope.bodyLayout d).2 = source.declarations ∧ ∀ f, source.revalued f = source := by
  unfold Scope.bodyLayout
  split
  · exact ⟨.comparison (max d.body.length 1), rfl, fun _ => rfl⟩
  · exact ⟨.mapping, rfl, fun _ => rfl⟩
  · exact ⟨.mapping, rfl, fun _ => rfl⟩
  · dsimp only
    split
    · next layout _ name declarations h =>
      exact ⟨.body _, by rw [StyleSource.declarations, h]; simp, fun _ => rfl⟩
    · exact ⟨.body .unknown, rfl, fun _ => rfl⟩

/-- No text decides on the properties. -/
theorem properties_revalued (f : String → String) (source : StyleSource) :
    (source.revalued f).properties = source.properties := by
  have hvalue : ∀ property value, propertyIf property (value.map f) =
      propertyIf property value := by
    intro property value
    cases value <;> rfl
  cases source with
  | text styles =>
    show (styles.map (·.revalued f)).filterMap TextStyle.property? =
      styles.filterMap TextStyle.property?
    rw [List.filterMap_map]
    refine congrArg (styles.filterMap ·) (funext fun style => ?_)
    cases style <;> rfl
  | image width height | gridItem column row | grid template rows gap | columns widths gap =>
    simp only [revalued, properties, hvalue]
  | sideBySide widths =>
    cases widths with
    | none => rfl
    | some w => exact congrArg (["display", "grid-template-columns"] ++ ·) (hvalue "gap" w.gap)
  | _ => rfl

end StyleSource

/-- The text is the style of a source. -/
def IsStyle (style : String) : Prop :=
  ∃ source : StyleSource, source.style? = some style

theorem StyleSource.isStyle (source : StyleSource) (hsome : source.declarations ≠ []) :
    IsStyle (Css.style source.declarations) :=
  ⟨source, if_neg (by simpa using hsome)⟩

theorem isStyle_alignment {a : TextAlignment} {word : String} (h : a.css? = some word) :
    IsStyle (Css.style ["text-align: " ++ word]) :=
  ⟨.alignment a, by simp [StyleSource.style?, StyleSource.declarations, h]⟩

namespace Scope

/-- The elements of styles. -/
def styleTags : List String :=
  ["strong", "em", "u", "s", "sup", "sub"]

/-- A styled text is a text in elements of styles, with or without a span around it. -/
theorem styled_induction {Q : Markup → Prop} {s : String} (htext : Q (.text s))
    (helement : ∀ tag ∈ styleTags, ∀ m, Q m → Q (.node tag [] [m]))
    (hspan : ∀ style, IsStyle style → ∀ m, Q m → Q (.node "span" [("style", style)] [m]))
    (styles : List TextStyle) :
    Q (styled s styles) := by
  have hinner : ∀ tags : List String, tags ⊆ styleTags →
      Q (tags.foldr (fun tag m => Markup.node tag [] [m]) (.text s)) := by
    intro tags htags
    induction tags with
    | nil => exact htext
    | cons tag rest ih =>
      obtain ⟨htag, hrest⟩ := List.cons_subset.mp htags
      exact helement tag htag _ (ih hrest)
  have htags : styles.filterMap TextStyle.tag? ⊆ styleTags := by
    intro tag htag
    obtain ⟨style, -, hstyle⟩ := List.mem_filterMap.mp htag
    cases style <;> cases hstyle <;> decide
  unfold styled
  split
  · exact hinner _ htags
  · next hsome =>
    exact hspan _ ((StyleSource.text styles).isStyle hsome) _ (hinner _ htags)

end Scope

end Compendium
