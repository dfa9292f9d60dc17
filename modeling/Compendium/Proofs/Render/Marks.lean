import Compendium.Proofs.Markup.Frames
import Compendium.Proofs.Render.Kept

/-!
# Marks on a page

Elements of some kinds are known by their attributes alone: the elements with such a mark can be
listed in the order of the page. Plain markup has no marks. Inside of a document nothing but a
stand-in for what is open already has one of the classes below, so a page has them only where a
document closes or refuses.
-/

namespace Compendium

/-! ## Attributes -/

namespace Scope

theorem sectionClass_plain (scope : Scope) (mode : SectionMode) (numbered : Bool) (s : Section) :
    scope.sectionClass mode numbered s ∉ markClasses := by
  unfold sectionClass
  simp [String.append_assoc]

theorem lookup_sectionAttrs (scope : Scope) (mode : SectionMode) (numbered : Bool) (s : Section) :
    (scope.sectionAttrs mode numbered s).lookup "class" =
      some (scope.sectionClass mode numbered s) ∧
      (scope.sectionAttrs mode numbered s).lookup "data-section-id" = some s.id ∧
      (scope.sectionAttrs mode numbered s).lookup "data-link-kind" = none := by
  unfold sectionAttrs
  cases mode.isCopy <;> exact ⟨rfl, rfl, rfl⟩

theorem plain_presentationAttrs (p : Presentation) : PlainAttrs (presentationAttrs p) := by
  have hanimation : ∀ a : Animation, PlainAttrs (animationAttrs a) := by
    intro a
    unfold animationAttrs
    cases a.enabled <;> cases a.duration <;> cases a.easing <;> simp +decide
  unfold presentationAttrs
  cases p.animation <;> cases p.features.isEmpty <;> simp +decide [hanimation]

theorem lookup_articleAttrs (d : Document) :
    (∃ word, (articleAttrs d).lookup "class" = some word ∧ word ∉ markClasses) ∧
      (articleAttrs d).lookup "data-document-id" = some d.id ∧
      (articleAttrs d).lookup "data-link-kind" = none := by
  refine ⟨⟨_, rfl, by simp⟩, rfl, ?_⟩
  unfold articleAttrs
  rw [List.lookup_append, List.lookup_append]
  cases d.presentation with
  | none => cases d.kind.laysItselfOut <;> rfl
  | some p =>
    have hmore : (presentationAttrs p).lookup "data-link-kind" = none :=
      (plain_presentationAttrs p).lookup_name (by decide)
    cases d.kind.laysItselfOut <;> exact hmore

end Scope

/-! ## Elements with a mark -/

namespace Markup

theorem nodesList_element (tag : String) (attrs : List Attr) (flags : List String)
    (content : List Markup) :
    nodesList [element tag attrs flags content] =
      element tag attrs flags content :: nodesList content := by
  rw [nodesList, nodesList, nodes, List.append_nil]

/-- The elements whose attributes pass a test, in the order of the page. -/
def marked (test : List Attr → Bool) (content : List Markup) : List Markup :=
  (nodesList content).filter fun m => m.head?.any fun head => test head.2

/-- The element has one of the classes. -/
def classIn (words : List String) (attrs : List Attr) : Bool :=
  (attrs.lookup "class").any fun word => word ∈ words

/-- Plain elements do not pass the test. -/
def Telling (test : List Attr → Bool) : Prop :=
  ∀ attrs, PlainAttrs attrs → test attrs = false

section Marked

variable {test : List Attr → Bool}

@[simp] theorem marked_append (l m : List Markup) :
    marked test (l ++ m) = marked test l ++ marked test m := by
  rw [marked, nodesList_append, List.filter_append]
  rfl

theorem marked_cons (m : Markup) (rest : List Markup) :
    marked test (m :: rest) = marked test [m] ++ marked test rest :=
  marked_append [m] rest

theorem marked_element (tag : String) (attrs : List Attr) (flags : List String)
    (content : List Markup) :
    marked test [.element tag attrs flags content] =
      (if test attrs then [Markup.element tag attrs flags content] else []) ++
        marked test content := by
  rw [marked, nodesList_element, List.filter_cons]
  cases htest : test attrs with
  | false => simp [marked, head?, htest]
  | true => simp [marked, head?, htest]

/-- An element that does not pass has the marks of its content. -/
theorem marked_inside {attrs : List Attr} (htest : test attrs = false) (tag : String)
    (flags : List String) (content : List Markup) :
    marked test [.element tag attrs flags content] = marked test content := by
  rw [marked_element, htest]
  rfl

theorem marked_leaf {attrs : List Attr} (htest : test attrs = false) (tag s : String) :
    marked test [.leaf tag attrs s] = [] :=
  marked_inside htest tag [] [.text s]

/-- Everything inside of plain markup is plain. -/
theorem PlainListIn.nodes {drawn : Prop} {ms : List Markup} (h : PlainListIn drawn ms) :
    ∀ n ∈ nodesList ms, n.PlainIn drawn := by
  induction ms using forest_induction with
  | nil => exact List.forall_mem_nil _
  | append l m hl hm =>
    rw [plainList_append] at h
    rw [nodesList_append]
    exact List.forall_mem_append.mpr ⟨hl h.1, hm h.2⟩
  | element tag attrs flags content ih =>
    rw [nodesList_element]
    exact List.forall_mem_cons.mpr ⟨h.1, ih h.1.2.2.2⟩
  | _ => exact List.forall_mem_singleton.mpr h.1

theorem PlainIn.nodes {drawn : Prop} {m : Markup} (h : m.PlainIn drawn) :
    ∀ n ∈ nodesList [m], n.PlainIn drawn :=
  PlainListIn.nodes ((plainList_cons m []).mpr ⟨h, trivial⟩)

theorem marked_plain (htest : Telling test) {m : Markup} (h : m.Plain) : marked test [m] = [] := by
  refine List.filter_eq_nil_iff.mpr fun n hn => ?_
  have hnode := h.nodes n hn
  cases n with
  | element tag attrs flags content => simp [head?, htest attrs hnode.2.1]
  | void tag attrs flags => simp [head?, htest attrs hnode.2]
  | _ => simp [head?]

end Marked

theorem classIn_of_lookup {words : List String} {attrs : List Attr} {word : String}
    (h : attrs.lookup "class" = some word) (hword : word ∉ words) :
      classIn words attrs = false := by
  rw [classIn, h]
  exact decide_eq_false hword

theorem telling_classIn {words : List String} (hwords : words ⊆ markClasses) :
    Telling (classIn words) := by
  intro attrs hattrs
  cases hclass : attrs.lookup "class" with
  | none => rw [classIn, hclass]; rfl
  | some word => exact classIn_of_lookup hclass fun hmem => hattrs.lookup_class hclass (hwords hmem)

end Markup

namespace Scope

open Markup

theorem classIn_sectionAttrs {words : List String} (hwords : words ⊆ markClasses) (scope : Scope)
    (mode : SectionMode) (numbered : Bool) (s : Section) :
    classIn words (scope.sectionAttrs mode numbered s) = false := by
  have hclass := (lookup_sectionAttrs scope mode numbered s).1
  exact classIn_of_lookup hclass fun hmem => sectionClass_plain scope mode numbered s (hwords hmem)

theorem classIn_articleAttrs {words : List String} (hwords : words ⊆ markClasses) (d : Document) :
    classIn words (articleAttrs d) = false := by
  obtain ⟨⟨word, hclass, hword⟩, -⟩ := lookup_articleAttrs d
  exact classIn_of_lookup hclass fun hmem => hword (hwords hmem)

/-- The step makes no element that passes the test. -/
def Unmarked (test : List Attr → Bool) (x : Rendered) : Prop :=
  ∀ noted, marked test (x.run noted).1 = []

section Unmarked

variable {test : List Attr → Bool} {x y : Rendered}

theorem unmarked_pure {ms : List Markup} (h : marked test ms = []) : Unmarked test (pure ms) :=
  fun _ => h

theorem Unmarked.element (hx : Unmarked test x) (tag : String) {attrs : List Attr}
    (htest : test attrs = false) (flags : List String) :
    Unmarked test (do
      let content ← x
      return [.element tag attrs flags content]) :=
  fun noted => (marked_inside htest tag flags _).trans (hx noted)

/-- A reference to a footnote does not pass a test that looks for marks of another kind. -/
theorem marked_footnoteRef (hclass : test [("class", "footnote-ref")] = false)
    (hother : ∀ attrs : List Attr,
      (∀ name, name ≠ "href" → name ≠ "data-footnote-id" → attrs.lookup name = none) →
        test attrs = false)
    (scope : Scope) (id : String) : marked test [scope.footnoteRef id] = [] := by
  obtain ⟨tag, -, attrs, heq, -, hattrs⟩ := footnoteRef_eq scope id
  rw [heq, classed, marked_inside hclass, marked_leaf (hother attrs hattrs)]

theorem Unmarked.noting (hx : Unmarked test x) (target : LinkTarget) :
    Unmarked test (Scope.noting target x) :=
  forall_noting (Q := fun ms => marked test ms = []) hx target

theorem closed_unmarked (htest : Telling test) : Rendered.Closed (Unmarked test) where
  nil := fun _ => rfl
  append := fun {x y} hx hy noted => by
    have hfirst : marked test (x.run noted).1 = [] := hx noted
    have hothers : marked test (y.run (x.run noted).2).1 = [] := hy _
    show marked test ((x.run noted).1 ++ (y.run (x.run noted).2).1) = []
    rw [marked_append, hfirst, hothers]
    rfl
  fixed := fun hplain => unmarked_pure (marked_plain htest hplain)
  element := fun _ _ hattrs hx => hx.element _ (htest _ hattrs) _

end Unmarked

/-- The classes that only the closing of a document and refusals have. -/
def closingClasses : List String :=
  ["tooltip-document", "tooltip-documents", "render-marker section-cycle",
    "render-marker document-cycle"]

/-- Rendering keeps away from these classes. -/
theorem unmarked_kept {words : List String} (hwords : words ⊆ closingClasses) :
    Kept fun _ => Unmarked (classIn words) := by
  have hmarks : words ⊆ markClasses := List.Subset.trans hwords (by decide)
  have hother : ∀ {attrs : List Attr} {word : String}, attrs.lookup "class" = some word →
      word ∉ closingClasses → classIn words attrs = false := by
    intro attrs word hclass hword
    exact classIn_of_lookup hclass fun hmem => hword (hwords hmem)
  have hclosed : ∀ _ : Scope, Rendered.Closed (Unmarked (classIn words)) := fun _ =>
    closed_unmarked (telling_classIn hmarks)
  have hlink : ∀ more : List Attr, classIn words (("class", "link") :: more) = false := fun _ =>
    hother rfl (by decide)
  have hfootnote : ∀ (scope : Scope) id, Unmarked (classIn words) (pure [scope.footnoteRef id]) :=
    fun scope id => unmarked_pure (marked_footnoteRef (hother rfl (by decide))
      (fun attrs hattrs => by rw [classIn, hattrs "class" (by decide) (by decide)]; rfl) scope id)
  have hinline : InlineKept fun _ => Unmarked (classIn words) :=
    inlineKept_of_elements (fun scope => (hclosed scope).within) hfootnote fun hx tag _ more =>
      (hx.element tag (hlink more) []).noting _
  exact
    { closed := fun scope => (hclosed scope).within
      texts := inlineKept_inlines hinline
      depth := fun _ => unmarked_pure (marked_leaf (hother rfl (by decide)) _ _)
      missing := fun _ _ => unmarked_pure (marked_leaf (hother rfl (by decide)) _ _)
      deeper := fun hx => hx
      opened := fun {scope mode s _} numbered _ hx =>
        hx.element "section" (classIn_sectionAttrs hmarks scope mode numbered s) []
      article := fun {_ d _} _ hx => hx.element "article" (classIn_articleAttrs hmarks d) [] }

end Scope

end Compendium
