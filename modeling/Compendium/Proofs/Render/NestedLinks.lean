import Compendium.Proofs.Render.LinkKeys
import Compendium.Proofs.Render.Marks

/-!
# Links inside of links

The links of a text are listed in its order, each with the targets of the links around it. The
elements of the rendered text that have a link's target are those of the listed links whose key is
none of the keys around them, in the same order. A link that leads elsewhere than all links around
it is among them, unless it is a definition, or an aspect of one, whose key does not tell it from
another one.
-/

namespace Compendium

/-- A link of a text: its target, and the targets of the links around it, innermost first. -/
structure LinkPlace where
  target : LinkTarget
  around : List LinkTarget

namespace LinkPlace

def isShown (p : LinkPlace) : Bool :=
  !(p.around.map LinkTarget.key).contains p.target.key

/-- No link around it has the address of the link. -/
def LeadsElsewhere (p : LinkPlace) : Prop :=
  ∀ t ∈ p.around, t.href? ≠ p.target.href?

theorem isShown_iff (p : LinkPlace) : p.isShown = true ↔ ∀ t ∈ p.around, t.key ≠ p.target.key := by
  simp [isShown]

/-- A link that leads elsewhere is shown, unless its key is one that does not tell all parts. -/
theorem LeadsElsewhere.isShown {p : LinkPlace} (h : p.LeadsElsewhere)
    (htold : p.target.isConcept = false ∨ (p.target.Legible ∧ ∀ t ∈ p.around, t.Legible)) :
    p.isShown = true := by
  rw [isShown_iff]
  intro t ht hkey
  obtain ⟨-, hconcept, haddress⟩ := LinkTarget.same_key hkey
  obtain hfree | ⟨hlegible, haround⟩ := htold
  · exact h t ht (haddress.mpr (.inl (hconcept.trans hfree)))
  · exact h t ht ((haround t ht).href?_eq hlegible hkey)

end LinkPlace

mutual

/-- The links of a piece of text that stands in other links. -/
def Inline.linkPlaces (around : List LinkTarget) : Inline → List LinkPlace
  | .link content target _ => ⟨target, around⟩ :: Inline.linkPlacesList (target :: around) content
  | _ => []

/-- The links of a text that stands in other links, in its order. -/
def Inline.linkPlacesList (around : List LinkTarget) : List Inline → List LinkPlace
  | [] => []
  | i :: rest => i.linkPlaces around ++ Inline.linkPlacesList around rest

end

def shownKeys (places : List LinkPlace) : List (Option String) :=
  (places.filter (·.isShown)).map fun p => some p.target.key

theorem shownKeys_append (l m : List LinkPlace) :
    shownKeys (l ++ m) = shownKeys l ++ shownKeys m := by
  rw [shownKeys, List.filter_append, List.map_append]
  rfl

theorem shownKeys_cons (p : LinkPlace) (rest : List LinkPlace) :
    shownKeys (p :: rest) = (if p.isShown then [some p.target.key] else []) ++ shownKeys rest := by
  rw [shownKeys, List.filter_cons]
  cases p.isShown <;> rfl

namespace Markup

def isLink (attrs : List Attr) : Bool :=
  (attrs.lookup "data-link-kind").isSome

/-- The target that an element carries. -/
def linkTarget? (m : Markup) : Option String :=
  m.head?.bind fun head => head.2.lookup "data-link-target"

/-- The targets that the links carry, in the order of the page. -/
def linkTargets (content : List Markup) : List (Option String) :=
  (marked isLink content).map linkTarget?

theorem telling_isLink : Telling isLink := by
  intro attrs hattrs
  rw [isLink, hattrs.lookup_name (by decide)]
  rfl

theorem linkTargets_append (l m : List Markup) :
    linkTargets (l ++ m) = linkTargets l ++ linkTargets m := by
  rw [linkTargets, marked_append, List.map_append]
  rfl

theorem linkTargets_plain {m : Markup} (h : m.Plain) : linkTargets [m] = [] := by
  rw [linkTargets, marked_plain telling_isLink h]
  rfl

theorem linkTargets_link {tag key : String} {attrs : List Attr} (hlink : isLink attrs = true)
    (hkey : attrs.lookup "data-link-target" = some key) (content : List Markup) :
    linkTargets [.node tag attrs content] = some key :: linkTargets content := by
  have htarget : linkTarget? (.element tag attrs [] content) = some key := hkey
  rw [linkTargets, Markup.node, marked_element, if_pos hlink, List.map_append,
    List.map_singleton, htarget]
  rfl

end Markup

namespace Scope

open Markup

/-- The element of a link that is not open carries its key. -/
theorem linkTargets_link_of_new {scope : Scope} {target : LinkTarget}
    (hnew : target.key ∉ scope.links)
    (tooltip : Option String) (content : Scope → Rendered) (noted : List Document) :
    ∃ others, linkTargets ((scope.link target tooltip content).run noted).1 =
      some target.key :: linkTargets ((content (scope.insideLink target)).run others).1 := by
  have hlink : isLink (scope.linkAttrs target tooltip) = true := by
    rw [isLink, lookup_linkAttrs_kind]
    rfl
  have htarget : (scope.linkAttrs target tooltip).lookup "data-link-target" = some target.key := by
    unfold linkAttrs
    cases scope.linkHref? target <;> rfl
  rw [link_of_new hnew]
  refine forall_noting (Q := fun ms => ∃ others, linkTargets ms = some target.key ::
    linkTargets ((content (scope.insideLink target)).run others).1) (fun noted => ?_) target noted
  exact ⟨noted, linkTargets_link hlink htarget _⟩

theorem linkTargets_footnoteRef (scope : Scope) (id : String) :
    linkTargets [scope.footnoteRef id] = [] := by
  rw [linkTargets, marked_footnoteRef rfl fun attrs hattrs => by
    rw [isLink, hattrs "data-link-kind" (by decide) (by decide)]
    rfl]
  rfl

mutual

/-- The links of a piece of text are shown unless their key is open. A link that is left out opens
nothing, but its key is open already; so the open keys are always those of the links around, as a
set. -/
theorem linkTargets_inlinePiece : ∀ (scope : Scope) (around : List LinkTarget)
    (_ : ∀ key, key ∈ scope.links ↔ key ∈ around.map LinkTarget.key) (i : Inline)
    (noted : List Document),
    linkTargets ((scope.inlinePiece i).run noted).1 = shownKeys (i.linkPlaces around)
  | scope, around, hlinks, .link content target tooltip, noted => by
    rw [inlinePiece, Inline.linkPlaces, shownKeys_cons]
    by_cases hopen : target.key ∈ scope.links
    · have hkeys : ∀ key, key ∈ scope.links ↔ key ∈ (target :: around).map LinkTarget.key := by
        intro key
        rw [hlinks, List.map_cons, List.mem_cons, iff_or_self]
        rintro rfl
        exact (hlinks _).mp hopen
      have hhidden : LinkPlace.isShown ⟨target, around⟩ = false := by
        rw [LinkPlace.isShown, List.contains_iff_mem.mpr ((hlinks _).mp hopen)]
        rfl
      rw [link_of_open hopen, hhidden]
      exact linkTargets_inlines scope (target :: around) hkeys content noted
    · have hkeys : ∀ key, key ∈ (scope.insideLink target).links ↔
          key ∈ (target :: around).map LinkTarget.key := by
        intro key
        show key ∈ target.key :: scope.links ↔ _
        rw [List.mem_cons, hlinks, List.map_cons, List.mem_cons]
      have hshown : LinkPlace.isShown ⟨target, around⟩ = true := by
        rw [LinkPlace.isShown, Bool.not_eq_true', ← Bool.not_eq_true,
          List.contains_iff_mem, ← hlinks]
        exact hopen
      obtain ⟨others, htargets⟩ :=
        linkTargets_link_of_new hopen tooltip (fun inner => inner.inlines content)
        noted
      rw [htargets, hshown, linkTargets_inlines (scope.insideLink target)
        (target :: around) hkeys content]
      rfl
  | _, _, _, .text s, _ => linkTargets_plain trivial
  | _, _, _, .styled s styles, _ => linkTargets_plain (plain_styled s styles)
  | _, _, _, .math f, _ => linkTargets_plain (plain_formula f)
  | scope, _, _, .footnote id, _ => linkTargets_footnoteRef scope id
  | _, _, _, .code s, _ => linkTargets_plain (by simp +decide)
  | scope, _, _, .unknown u, _ => by
    rw [inlinePiece, unknownInline]
    split
    · exact linkTargets_plain (plain_unknownInline u)
    · rfl

theorem linkTargets_inlines : ∀ (scope : Scope) (around : List LinkTarget)
    (_ : ∀ key, key ∈ scope.links ↔ key ∈ around.map LinkTarget.key) (text : List Inline)
    (noted : List Document),
    linkTargets ((scope.inlines text).run noted).1 = shownKeys (Inline.linkPlacesList around text)
  | scope, around, _, [], noted => by
    rw [inlines, Inline.linkPlacesList]
    rfl
  | scope, around, hlinks, i :: rest, noted => by
    rw [inlines, Inline.linkPlacesList, shownKeys_append,
      ← linkTargets_inlinePiece scope around hlinks i noted,
      ← linkTargets_inlines scope around hlinks rest ((scope.inlinePiece i).run noted).2,
      ← linkTargets_append]
    rfl

end

/-- Targets with one key are of one kind, and they have the same address exactly if they are equal
or neither definitions nor aspects. Of a text that stands in any links, the rendering has an element
for every link that has none of the keys around it, with its target, and no others. That is every
link that leads elsewhere than the links around it, unless it is a definition or an aspect and not
all of the keys are legible. -/
theorem nested_links_shown (scope : Scope) (around : List LinkTarget) (text : List Inline)
    (noted : List Document) :
    (∀ t t' : LinkTarget, t.key = t'.key →
      t.kindWord = t'.kindWord ∧ (t.href? = t'.href? ↔ t.isConcept = false ∨ t = t')) ∧
    (∀ t t' : LinkTarget, t.Legible → t'.Legible → t.key = t'.key → t.href? = t'.href?) ∧
    linkTargets (({ scope with links := around.map LinkTarget.key }.inlines text).run noted).1 =
      ((Inline.linkPlacesList around text).filter (·.isShown)).map (fun p => some p.target.key) ∧
    ∀ p ∈ Inline.linkPlacesList around text, p.LeadsElsewhere →
      (p.target.isConcept = false ∨ (p.target.Legible ∧ ∀ t ∈ p.around, t.Legible)) →
        p.isShown = true := by
  refine ⟨fun t t' hkey => ?_, fun t t' ht ht' hkey => ht.href?_eq ht' hkey,
    linkTargets_inlines _ around (fun _ => Iff.rfl) text noted, fun p _ helsewhere htold =>
      helsewhere.isShown htold⟩
  obtain ⟨hkind, -, haddress⟩ := LinkTarget.same_key hkey
  exact ⟨hkind, haddress⟩

/-! ## A link that is left out -/

def orderOfSubgroup : LinkTarget :=
  .definition "subgroup:order" (some "group")

/-- The order, in a theory with a colon. -/
def orderInSubgroups : LinkTarget :=
  .definition "order" (some "group:subgroup")

/-- Two definitions of different theories have one key, so that a link to one of them inside a link
to the other one is left out, though it leads elsewhere. -/
theorem colon_in_ids_hides_link :
    orderOfSubgroup.key = orderInSubgroups.key ∧
      orderOfSubgroup.href? = some "/math/group#definition-subgroup:order" ∧
      orderInSubgroups.href? = some "/math/group:subgroup#definition-order" ∧
      Markup.render (({} : Renderer).blockAlone .empty (.paragraph ⟨[.link
          [.text "see ", .link [.text "order"] orderInSubgroups none] orderOfSubgroup
            none], none⟩)) =
        "<p><a class=\"link\" href=\"/math/group#definition-subgroup:order\" " ++
          "data-link-kind=\"definition\" " ++
          "data-link-target=\"definition:group:subgroup:order\">see order</a></p>" := by
  decide +kernel

end Scope

end Compendium
