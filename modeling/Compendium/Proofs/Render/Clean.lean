import Compendium.Proofs.Markup.Trees
import Compendium.Render.Document

/-!
# The names of documents

Every rendering function picks its tags and attributes from `documentNames`, and what a document
stores becomes text or values only. Trees of these names are clean, and so is what is written of
them.
-/

namespace Compendium

open Markup (CleanList)

def documentNames : Markup.Names where
  elements := ["a", "article", "aside", "blockquote", "button", "caption", "cite", "code", "dd",
    "details", "div", "dl", "dt", "em", "fieldset", "figcaption", "figure", "footer", "form", "h1",
    "h2", "h3", "h4", "h5", "h6", "header", "label", "legend", "li", "main", "nav", "ol", "option",
    "p", "pre", "s", "section", "select", "span", "strong", "sub", "summary", "sup", "table",
    "tbody", "td", "tfoot", "th", "thead", "time", "tr", "u", "ul"]
  voids := ["hr", "img", "input"]
  attrs := ["alt", "aria-expanded", "aria-selected", "class", "colspan", "data-action",
    "data-animation-duration", "data-animation-easing", "data-annotation-id", "data-audience",
    "data-collapsible-id", "data-component", "data-content-type", "data-control-id",
    "data-controls-id", "data-diagram-type", "data-document-id", "data-document-type",
    "data-features", "data-footnote-id", "data-formality", "data-kind", "data-label",
    "data-language", "data-layout-id", "data-layout-type", "data-line", "data-link-kind",
    "data-link-target", "data-math", "data-open", "data-overlay-id", "data-panel-id",
    "data-section-id", "data-slide-index", "data-target-id", "data-targets", "datetime", "for",
    "href", "id", "max", "min", "name", "role", "rowspan", "src", "start", "step", "style", "title",
    "type", "value"]
  flags := ["checked", "hidden", "open", "selected"]
  areNames := by decide +kernel
  apart := by decide
  noScript := by decide

/-- Attributes with known names. -/
def CleanAttrs (attrs : List Attr) : Prop :=
  ∀ a ∈ attrs, a.1 ∈ documentNames.attrs

@[simp] theorem cleanAttrs_nil : CleanAttrs [] := by
  simp [CleanAttrs]

@[simp] theorem cleanAttrs_cons (name value : String) (rest : List Attr) :
    CleanAttrs ((name, value) :: rest) ↔ name ∈ documentNames.attrs ∧ CleanAttrs rest := by
  simp [CleanAttrs]

/-- Trees made of the names of documents. -/
def CleanTree (m : Markup) : Prop :=
  Markup.Clean documentNames m

/-- Lists of such trees. -/
def CleanTrees (ms : List Markup) : Prop :=
  CleanList documentNames ms

@[simp] theorem cleanTrees_nil : CleanTrees [] :=
  trivial

@[simp] theorem cleanTrees_cons (m : Markup) (rest : List Markup) :
    CleanTrees (m :: rest) ↔ CleanTree m ∧ CleanTrees rest :=
  Iff.rfl

theorem cleanTrees_map {α : Type} {f : α → Markup} {l : List α} (h : ∀ a ∈ l, CleanTree (f a)) :
    CleanTrees (l.map f) := by
  apply Markup.cleanList_of_forall
  intro m hm
  obtain ⟨a, ha, rfl⟩ := List.mem_map.mp hm
  exact h a ha

@[simp] theorem cleanTree_text (s : String) : CleanTree (.text s) :=
  trivial

@[simp] theorem cleanTree_element (tag : String) (attrs : List Attr) (flags : List String)
    (children : List Markup) :
    CleanTree (.element tag attrs flags children) ↔
      tag ∈ documentNames.elements ∧ CleanAttrs attrs ∧ (∀ f ∈ flags, f ∈ documentNames.flags) ∧
        CleanTrees children :=
  Iff.rfl

@[simp] theorem cleanTree_node (tag : String) (attrs : List Attr) (children : List Markup) :
    CleanTree (.node tag attrs children) ↔
      tag ∈ documentNames.elements ∧ CleanAttrs attrs ∧ CleanTrees children := by
  simp [Markup.node]

@[simp] theorem cleanTree_leaf (tag : String) (attrs : List Attr) (s : String) :
    CleanTree (.leaf tag attrs s) ↔ tag ∈ documentNames.elements ∧ CleanAttrs attrs := by
  simp [Markup.leaf]

@[simp] theorem cleanTree_classed (tag cssClass : String) (children : List Markup) :
    CleanTree (.classed tag cssClass children) ↔
      tag ∈ documentNames.elements ∧ CleanTrees children := by
  have hclass : "class" ∈ documentNames.attrs := by decide
  simp [Markup.classed, hclass]

/-- A step whose markup is clean, whatever was noted before it. -/
def Rendered.Clean (x : Rendered) : Prop :=
  ∀ noted, CleanTrees (x.run noted).1

/-- No end tag starts in the text of a script. -/
theorem Scope.hasClose_scriptSafe (cs : List Char) :
    Markup.hasClose (Scope.scriptSafe cs) = false := by
  fun_induction Scope.scriptSafe cs with
  | case1 rest ih => simpa [Markup.hasClose] using ih
  | case2 c rest hc ih =>
    rw [Markup.hasClose.eq_2]
    · exact ih
    · intro tail hlt hslash
      subst hlt
      -- the rest starts with a slash only if it did so before
      cases rest with
      | nil => cases hslash
      | cons d more =>
        have hd : d = '/' := by
          unfold Scope.scriptSafe at hslash
          split at hslash
          · cases hslash
          · rename_i heq
            cases heq
            cases hslash
            rfl
          · rename_i he
            cases he
        exact hc more rfl (by rw [hd])
  | case3 => rfl

end Compendium
