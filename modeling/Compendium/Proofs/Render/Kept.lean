import Compendium.Proofs.Render.Plain
import Compendium.Proofs.Render.Walk

/-!
# What rendering keeps

A property of the markup of a scope is kept by rendering if plain markup has it, inline text has it,
and the elements of sections and articles pass it on from the scope inside them. Then every block
has it, by induction on the budget: a simple block by its layout, a section or a document by the
blocks of its sections. What a section or document that is open already leaves behind has to be
looked at by itself.
-/

namespace Compendium

namespace Scope

open Rendered

/-! ## Inline text -/

section Plain

variable {drawn : Prop}

theorem plain_styled (s : String) (styles : List TextStyle) : (styled s styles).PlainIn drawn := by
  refine styled_induction (Markup.plain_text s) (fun tag htag m hm => ?_)
    (fun style hstyle m hm => ?_) styles
  · have hother : ∀ tag ∈ styleTags, tag ≠ "a" ∧ tag ≠ "article" ∧
      tag ∈ documentNames.elements := by decide
    obtain ⟨ha, harticle, hknown⟩ := hother tag htag
    exact (Markup.plain_node ha [] _).mpr ⟨⟨harticle, hknown, List.forall_mem_nil _,
      fun _ => List.not_mem_nil⟩, plainAttrs_nil, hm, trivial⟩
  · simp +decide [hm, hstyle]

theorem plain_formula (f : Formula) : (formula f).PlainIn drawn := by
  unfold formula displayFormula
  split <;> simp +decide

theorem plain_unknownInline (u : Unrecognized) : (Markup.leaf "span"
    [("class", "render-marker unknown-content"), ("data-content-type", u.displayName)]
    ("[" ++ u.displayName ++ "]")).PlainIn drawn := by
  simp +decide

end Plain

/-- A reference to a footnote is a text in an anchor or a span, which has the id and no mark of
another kind. -/
theorem footnoteRef_eq (scope : Scope) (id : String) : ∃ tag ∈ ["a", "span"], ∃ attrs : List Attr,
    scope.footnoteRef id = .classed "sup" "footnote-ref"
      [.leaf tag attrs (scope.footnoteLabel id)] ∧ attrs.lookup "data-footnote-id" = some id ∧
      ∀ name, name ≠ "href" → name ≠ "data-footnote-id" → attrs.lookup name = none := by
  unfold footnoteRef
  split
  · refine ⟨"a", by decide, _, rfl, rfl, fun name hhref hid => ?_⟩
    rw [List.lookup_cons, beq_eq_false_iff_ne.mpr hhref, List.lookup_cons,
      beq_eq_false_iff_ne.mpr hid]
    rfl
  · refine ⟨"span", by decide, _, rfl, rfl, fun name _ hid => ?_⟩
    rw [List.lookup_cons, beq_eq_false_iff_ne.mpr hid]
    rfl

def linkData (target : LinkTarget) (tooltip : Option String) : List Attr :=
  [("data-link-kind", target.kindWord), ("data-link-target", target.key)] ++
    tooltip.toList.map fun s => ("title", s)

def insideLink (scope : Scope) (target : LinkTarget) : Scope :=
  { scope with links := target.key :: scope.links }

def noting (target : LinkTarget) (x : Rendered) : Rendered :=
  target.tooltipDocument?.elim x fun d => noteTooltip d >>= fun _ => x

/-- What a step makes whatever is noted, it makes after a tooltip is noted. -/
theorem forall_noting {Q : List Markup → Prop} {x : Rendered} (h : ∀ noted, Q (x.run noted).1)
    (target : LinkTarget) (noted : List Document) : Q ((noting target x).run noted).1 := by
  unfold noting
  cases target.tooltipDocument? with
  | none => exact h noted
  | some d => exact h (note noted d)

/-- The address of a link. Inside of another link it has none. -/
def linkHref? (scope : Scope) (target : LinkTarget) : Option String :=
  if scope.links.isEmpty then target.href? else none

/-- A link with an address is an anchor, and any other one is a span. -/
def linkTag (scope : Scope) (target : LinkTarget) : String :=
  if (scope.linkHref? target).isSome then "a" else "span"

def linkAttrs (scope : Scope) (target : LinkTarget) (tooltip : Option String) : List Attr :=
  ("class", "link") ::
    ((scope.linkHref? target).toList.map (fun href => ("href", href)) ++ linkData target tooltip)

theorem linkTag_mem (scope : Scope) (target : LinkTarget) :
    scope.linkTag target ∈ ["a", "span"] := by
  unfold linkTag
  split <;> decide

def linkNames : List String :=
  ["class", "href", "data-link-kind", "data-link-target", "title"]

/-- What holds of all attributes with such a name holds of those of a link. -/
theorem forall_linkAttrs {Q : Attr → Prop} (h : ∀ name ∈ linkNames, ∀ value, Q (name, value))
    (scope : Scope) (target : LinkTarget) (tooltip : Option String) :
    ∀ attr ∈ scope.linkAttrs target tooltip, Q attr := by
  unfold linkNames at h
  unfold linkAttrs linkData
  cases scope.linkHref? target <;> cases tooltip <;> simp_all

theorem lookup_linkAttrs {name : String} (h : name ∉ linkNames) (scope : Scope)
    (target : LinkTarget)
    (tooltip : Option String) : (scope.linkAttrs target tooltip).lookup name = none := by
  refine List.lookup_eq_none_iff.mpr ?_
  refine forall_linkAttrs (fun other hother _ => ?_) scope target tooltip
  simpa using (ne_of_mem_of_not_mem hother h).symm

theorem lookup_linkAttrs_kind (scope : Scope) (target : LinkTarget) (tooltip : Option String) :
    (scope.linkAttrs target tooltip).lookup "data-link-kind" = some target.kindWord := by
  unfold linkAttrs
  cases scope.linkHref? target <;> rfl

theorem link_of_open {scope : Scope} {target : LinkTarget} (hopen : target.key ∈ scope.links)
    (tooltip : Option String) (content : Scope → Rendered) :
    scope.link target tooltip content = content scope := by
  unfold link
  rw [if_pos (List.contains_iff_mem.mpr hopen)]

/-- A link that is not inside of one to the same target. -/
theorem link_of_new {scope : Scope} {target : LinkTarget} (hnew : target.key ∉ scope.links)
    (tooltip : Option String) (content : Scope → Rendered) :
    scope.link target tooltip content = noting target (Rendered.inside (scope.linkTag target)
      (scope.linkAttrs target tooltip) (content (scope.insideLink target))) := by
  unfold link noting linkTag linkAttrs linkHref? linkData insideLink
  rw [if_neg (by simpa using hnew)]
  cases scope.links <;> cases target.href? <;> cases tooltip <;>
    cases target.tooltipDocument? <;> simp

/-- A link makes what its content makes, alone or in an element of its own. -/
theorem forall_link {Q : List Markup → Prop} {scope : Scope} {target : LinkTarget}
    {tooltip : Option String}
    {content : Scope → Rendered} (hopen : ∀ noted, Q ((content scope).run noted).1)
    (hnew : ∀ noted, Q [.node (scope.linkTag target) (scope.linkAttrs target tooltip)
      ((content (scope.insideLink target)).run noted).1]) (noted : List Document) :
    Q ((scope.link target tooltip content).run noted).1 := by
  by_cases hkey : target.key ∈ scope.links
  · rw [link_of_open hkey]
    exact hopen noted
  · rw [link_of_new hkey]
    exact forall_noting hnew target noted

/-- A property of markup in a scope that inline text has, since plain markup and references to
footnotes have it and links keep it. -/
structure InlineKept (P : Scope → Rendered → Prop) : Prop where
  closed : ∀ scope, Rendered.ClosedIn False (P scope)
  footnote : ∀ scope id, P scope (pure [footnoteRef scope id])
  link : ∀ {content : Scope → Rendered}, (∀ inner, P inner (content inner)) →
    ∀ scope target tooltip, P scope (link scope target tooltip content)

/-- It is enough to look at the elements of references and links. -/
theorem inlineKept_of_elements {P : Scope → Rendered → Prop}
    (hclosed : ∀ scope, Rendered.ClosedIn False (P scope))
    (hfootnote : ∀ scope id, P scope (pure [footnoteRef scope id]))
    (hlink : ∀ {scope : Scope} {target : LinkTarget} {x : Rendered}, P (scope.insideLink target) x →
      ∀ tag ∈ ["a", "span"], ∀ more,
        P scope (noting target (Rendered.inside tag (("class", "link") :: more) x))) :
          InlineKept P where
  closed := hclosed
  footnote := hfootnote
  link := fun {content} hcontent scope target tooltip => by
    by_cases hkey : target.key ∈ scope.links
    · rw [link_of_open hkey]
      exact hcontent scope
    · rw [link_of_new hkey]
      exact hlink (hcontent (scope.insideLink target)) _ (linkTag_mem scope target) _

mutual

theorem inlineKept_inlinePiece {P : Scope → Rendered → Prop} (hP : InlineKept P) :
    ∀ (scope : Scope) (i : Inline), P scope (scope.inlinePiece i)
  | scope, .text s => (hP.closed scope).fixed trivial
  | scope, .styled s styles => (hP.closed scope).fixed (plain_styled s styles)
  | scope, .math f => (hP.closed scope).fixed (plain_formula f)
  | scope, .link content target tooltip =>
    hP.link (fun inner => inlineKept_inlines hP inner content) scope target tooltip
  | scope, .footnote id => hP.footnote scope id
  | scope, .code s => (hP.closed scope).fixed (by simp +decide)
  | scope, .unknown u => by
    rw [inlinePiece]
    unfold unknownInline
    split
    · exact (hP.closed scope).fixed (plain_unknownInline u)
    · exact (hP.closed scope).nil

/-- Inline text has a property that its pieces keep. -/
theorem inlineKept_inlines {P : Scope → Rendered → Prop} (hP : InlineKept P) :
    ∀ (scope : Scope) (content : List Inline), P scope (scope.inlines content)
  | scope, [] => (hP.closed scope).nil
  | scope, i :: rest => by
    rw [inlines]
    exact (hP.closed scope).append (inlineKept_inlinePiece hP scope i)
      (inlineKept_inlines hP scope rest)

end

/-! ## Blocks, sections and documents -/

/-- A property of markup in a scope that rendering keeps as long as it enters no document. -/
structure KeptInside (P : Scope → Rendered → Prop) : Prop where
  closed : ∀ scope, Rendered.ClosedIn (scope.renderer.components ≠ []) (P scope)
  texts : ∀ (scope : Scope) content, P scope (scope.inlines content)
  depth : ∀ scope, P scope (pure [depthMarker])
  missing : ∀ scope id, P scope (pure [missingSection id])
  deeper : ∀ {scope : Scope} {x : Rendered}, P { scope with level := scope.level + 1 } x → P scope x
  opened : ∀ {scope : Scope} {mode : SectionMode} {s : Section} {x : Rendered} (numbered : Bool),
    s.id ∉ scope.sections → P (scope.insideSection mode s) x →
      P scope (Rendered.inside "section" (scope.sectionAttrs mode numbered s) x)

/-- A property of markup in a scope that rendering keeps. -/
structure Kept (P : Scope → Rendered → Prop) : Prop extends KeptInside P where
  article : ∀ {scope : Scope} {d : Document} {x : Rendered}, d.id ∉ scope.documents.map (·.id) →
    P (scope.insideDocument d) x → P scope (Rendered.inside "article" (articleAttrs d) x)

section KeptInside

variable {P : Scope → Rendered → Prop} (hP : KeptInside P) {block : BlockRenderer} {scope : Scope}

include hP

/-- One section: what holds of its blocks holds of it. -/
theorem kept_renderSection {mode : SectionMode} {s : Section} (number : Option String)
    (hcycle : s.id ∈ scope.sections → P scope (pure [sectionCycle s.id]))
    (hblock : s.id ∉ scope.sections → ∀ b ∈ s.content, ∀ number,
      P (scope.insideSection mode s) (block (scope.insideSection mode s) number b)) :
    P scope (renderSection block scope mode number s) := by
  by_cases hopen : s.id ∈ scope.sections
  · rw [renderSection_opened block mode number hopen]
    exact hcycle hopen
  · rw [Layout.renderSection_eq block scope number hopen]
    exact hP.opened _ hopen (Layout.closed_ofSection (hP.closed _) mode number
      (fun content _ => hP.texts _ content) (hblock hopen))

theorem kept_articleFront {d : Document}
    (hsection : ∀ s ∈ d.body, ∀ number, P scope (bodySection block scope number s)) :
    P scope (Rendered.sequence (articleFront block scope d)) := by
  rw [Layout.sequence_articleFront]
  exact Layout.closed_ofDocument (hP.closed scope) (hP.texts scope) hsection

/-- One level of blocks. -/
theorem kept_blockWith {b : Block} (number : Option String)
    (hinner : b.isSimple = true → ∀ b' ∈ b.inner scope.renderer, ∀ number,
      P scope (block scope number b'))
    (hsubsection : ∀ s, b = .subsection s → P { scope with level := scope.level + 1 }
      (renderSection block { scope with level := scope.level + 1 } (scope.nestedMode s) number s))
    (hreference : ∀ r s, b = .sectionRef r → scope.referenced? r = some s →
      P scope (renderSection block scope (.copy r.showTitle) none s))
    (hdocument : ∀ d, b = .document d → P scope (article block scope d)) :
    P scope (blockWith block scope number b) := by
  by_cases hsimple : b.isSimple = true
  · exact Layout.closed_ofBlock (hP.closed scope) id
      (fun content _ => hP.texts scope content) hsimple
      (hinner hsimple) number
  · cases b with
    | subsection s => exact hP.deeper (hsubsection s rfl)
    | sectionRef r =>
      show P scope (sectionRef block scope r)
      unfold sectionRef
      split
      · next s hs => exact hreference r s rfl hs
      · exact hP.missing scope r.sectionId
    | document d =>
      have hclass : PlainAttrs [("class", "embedded-document")] :=
        (plainAttrs_class _).mpr (by decide)
      exact (hP.closed scope).element (by decide) (by simp +decide) hclass (hdocument d rfl)
    | _ => exact absurd rfl hsimple

/-- Inside of a document: what is called for has the property, if the documents that are called for
have it as soon as their sections have it, and if what is not opened again has it. -/
theorem keptInside_renderBlock {tooltips : List Document} {R : Scope × Block → Prop}
    (hcalls : ∀ c c', R c → Calls tooltips c c' → R c')
    (hsections : ∀ c outer mode s, R c → Opens tooltips c.1 c.2 outer mode s →
      s.id ∈ outer.sections → P outer (pure [sectionCycle s.id]))
    (hdocuments : ∀ budget scope d, R (scope, .document d) →
      (d.id ∉ scope.documents.map (·.id) → ∀ s ∈ d.body, ∀ number,
        P (scope.insideDocument d)
          (bodySection (renderBlock budget) (scope.insideDocument d) number s)) →
      P scope (innerArticle (renderBlock budget) scope d))
    (budget : Nat) {scope : Scope} {b : Block} (hinside : scope.documents ≠ []) (hb : R (scope, b))
    (number : Option String) : P scope (renderBlock budget scope number b) := by
  induction budget generalizing scope b number with
  | zero => exact hP.depth scope
  | succ budget ih =>
    have hsection : ∀ {outer mode s}, Opens tooltips scope b outer mode s → ∀ number,
        P outer (renderSection (renderBlock budget) outer mode number s) := by
      intro outer mode s hopens number
      refine kept_renderSection hP number (hsections _ outer mode s hb hopens)
        fun hnew b' hb' number => ?_
      have hcall : Calls tooltips (scope, b) (outer.insideSection mode s, b') :=
        .opened hopens hnew hb'
      exact ih (hcall.isInside (.inl hinside)) (hcalls _ _ hb hcall) number
    rw [renderBlock_succ]
    refine kept_blockWith hP number (fun hsimple b' hb' number => ?_) (fun s hs => ?_)
      (fun r s hr hs => ?_)
      fun d hd => ?_
    · exact ih hinside (hcalls _ _ hb (.inside hsimple hb')) number
    · subst hs
      exact hsection (.subsection scope s) number
    · subst hr
      exact hsection (.reference hs) none
    · subst hd
      rw [article_of_inside _ hinside]
      exact hdocuments budget scope d hb fun hnew s hs number => hsection (.body hnew hs) number

end KeptInside

section Kept

variable {P : Scope → Rendered → Prop} (hP : Kept P) {block : BlockRenderer} {scope : Scope}

include hP

/-- One article: what holds of its sections holds of it. -/
theorem kept_articleWith {closing : Scope → Rendered} {d : Document}
    (hcycle : d.id ∈ scope.documents.map (·.id) → P scope (pure [documentCycle d.id]))
    (hsection : d.id ∉ scope.documents.map (·.id) → ∀ s ∈ d.body, ∀ number,
      P (scope.insideDocument d) (bodySection block (scope.insideDocument d) number s))
    (hclosing : P (scope.insideDocument d) (closing (scope.insideDocument d))) :
    P scope (articleWith block closing scope d) := by
  by_cases hopen : d.id ∈ scope.documents.map (·.id)
  · rw [articleWith_opened block closing (any_id_iff.mpr hopen)]
    exact hcycle hopen
  · rw [Layout.articleWith_eq_layout block scope closing hopen]
    refine hP.article hopen ((hP.closed _).append ?_ hclosing)
    exact Layout.closed_ofDocument (hP.closed _) (hP.texts _) (hsection hopen)

theorem kept_innerArticle {d : Document}
    (hcycle : d.id ∈ scope.documents.map (·.id) → P scope (pure [documentCycle d.id]))
    (hsection : d.id ∉ scope.documents.map (·.id) → ∀ s ∈ d.body, ∀ number,
      P (scope.insideDocument d) (bodySection block (scope.insideDocument d) number s)) :
    P scope (innerArticle block scope d) :=
  kept_articleWith hP hcycle hsection (hP.closed _).nil

/-- Inside of a document: what is called for has the property, if what is not opened again has
it. -/
theorem kept_renderBlock {tooltips : List Document} {R : Scope × Block → Prop}
    (hcalls : ∀ c c', R c → Calls tooltips c c' → R c')
    (hsections : ∀ c outer mode s, R c → Opens tooltips c.1 c.2 outer mode s →
      s.id ∈ outer.sections → P outer (pure [sectionCycle s.id]))
    (hdocuments : ∀ scope d, R (scope, .document d) → d.id ∈ scope.documents.map (·.id) →
      P scope (pure [documentCycle d.id]))
    (budget : Nat) {scope : Scope} {b : Block} (hinside : scope.documents ≠ []) (hb : R (scope, b))
    (number : Option String) : P scope (renderBlock budget scope number b) :=
  keptInside_renderBlock hP.toKeptInside hcalls hsections
    (fun _ scope d hd hsection => kept_innerArticle hP (hdocuments scope d hd) hsection)
      budget hinside hb
    number

/-- Inside of a document, every section has the property if stand-ins for what is open have it. -/
theorem kept_sectionInside (hsections : ∀ scope id, P scope (pure [sectionCycle id]))
    (hdocuments : ∀ scope id, P scope (pure [documentCycle id])) (budget : Nat)
    (hinside : scope.documents ≠ []) (mode : SectionMode) (number : Option String) (s : Section) :
    P scope (renderSection (renderBlock budget) scope mode number s) := by
  refine kept_renderSection hP.toKeptInside number
    (fun _ => hsections scope s.id) fun _ b _ number => ?_
  have hinner : (scope.insideSection mode s).documents ≠ [] := hinside
  exact kept_renderBlock hP (R := fun _ => True) (fun c c' _ (_ : Calls [] c c') => trivial)
    (fun _ outer _ s _ _ _ => hsections outer s.id)
      (fun scope d _ _ => hdocuments scope d.id) budget hinner
    trivial number

end Kept

/-! ## The outermost document -/

/-- A property that rendering keeps outside of documents too: it does not depend on what is noted,
and the elements of tooltips and the stand-ins for open sections and documents have it. -/
structure KeptOutside (P : Scope → Rendered → Prop) : Prop extends Kept P where
  ask : ∀ {scope : Scope} {next : List Document → Rendered}, (∀ noted, P scope (next noted)) →
    P scope (get >>= next)
  tooltip : ∀ {scope : Scope} {x : Rendered} (id : String), P scope x →
    P scope (Rendered.inside "div" [("class", "tooltip-document"), ("id", "tooltip-" ++ id)] x)
  aside : ∀ {scope : Scope} {x : Rendered}, P scope x → P scope (do
    let content ← x
    return [.element "aside" [("class", "tooltip-documents")] ["hidden"] content])
  sectionCycle : ∀ {scope : Scope} {id : String}, id ∈ scope.sections →
    P scope (pure [Scope.sectionCycle id])
  documentCycle : ∀ {scope : Scope} {id : String}, id ∈ scope.documents.map (·.id) →
    P scope (pure [Scope.documentCycle id])

section KeptOutside

variable {P : Scope → Rendered → Prop} (hP : KeptOutside P) {block : BlockRenderer}
variable (hblock : ∀ scope number b, P scope (block scope number b))

include hP hblock

theorem keptOutside_renderSection (scope : Scope) (mode : SectionMode) (number : Option String)
    (s : Section) : P scope (renderSection block scope mode number s) :=
  kept_renderSection hP.toKeptInside number hP.sectionCycle fun _ b _ number => hblock _ number b

theorem keptOutside_articleWith {closing : Scope → Rendered} (scope : Scope) (d : Document)
    (hclosing : P (scope.insideDocument d) (closing (scope.insideDocument d))) :
    P scope (articleWith block closing scope d) :=
  kept_articleWith hP.toKept hP.documentCycle
    (fun _ s _ number => keptOutside_renderSection hP hblock _ .anchored number s) hclosing

theorem keptOutside_tooltipsFrom (scope : Scope) (limit position : Nat) :
    P scope (tooltipsFrom block scope limit position) := by
  induction limit generalizing position with
  | zero => exact (hP.closed scope).nil
  | succ limit ih =>
    rw [tooltipsFrom]
    refine hP.ask fun noted => ?_
    split
    · exact (hP.closed scope).nil
    · next d _ =>
      have harticle : P scope (innerArticle block scope d) :=
        keptOutside_articleWith hP hblock scope d (hP.closed _).nil
      exact (hP.closed scope).append (hP.tooltip d.id harticle) (ih (position + 1))

theorem keptOutside_article (scope : Scope) (d : Document) : P scope (article block scope d) := by
  unfold article
  split
  · refine keptOutside_articleWith hP hblock scope d ?_
    refine hP.ask fun noted => ?_
    split
    · exact (hP.closed _).nil
    · exact hP.aside (keptOutside_tooltipsFrom hP hblock _ _ 0)
  · exact keptOutside_articleWith hP hblock scope d (hP.closed _).nil

omit hblock in
/-- Every block has the property, wherever it stands. -/
theorem keptOutside_renderBlock (budget : Nat) (scope : Scope)
    (number : Option String) (b : Block) :
    P scope (renderBlock budget scope number b) := by
  induction budget generalizing scope b number with
  | zero => exact hP.depth scope
  | succ budget ih =>
    rw [renderBlock_succ]
    exact kept_blockWith hP.toKeptInside number (fun _ b' _ number => ih scope number b')
      (fun s _ => keptOutside_renderSection hP ih _ _ number s)
      (fun r s _ _ => keptOutside_renderSection hP ih scope _ none s)
      fun d _ => keptOutside_article hP ih scope d

end KeptOutside

end Scope

end Compendium
