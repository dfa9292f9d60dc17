import Compendium.Proofs.Render.Articles

/-!
# Rendered documents are well formed

Every element of a page has the names of documents, and its styles are put together from
declarations: plain markup has them, and so have references, links, tooltips, stand-ins, sections
and articles. So documents, sections and blocks are well-formed text, for every view and every
settings. The renderer has no component registered: a registered component writes its own text,
which nothing here looks at.
-/

namespace Compendium

/-! ## Named markup -/

/-- Attributes that documents are rendered with. -/
def NamedAttrs (attrs : List Attr) : Prop :=
  ∀ a ∈ attrs, a.1 ∈ documentNames.attrs ∧ (a.1 = "style" → IsStyle a.2)

@[simp] theorem namedAttrs_nil : NamedAttrs [] := by
  simp [NamedAttrs]

@[simp] theorem namedAttrs_cons (name value : String) (rest : List Attr) :
    NamedAttrs ((name, value) :: rest) ↔
      (name ∈ documentNames.attrs ∧ (name = "style" → IsStyle value)) ∧ NamedAttrs rest := by
  simp [NamedAttrs]

theorem PlainAttrs.named {attrs : List Attr} (h : PlainAttrs attrs) : NamedAttrs attrs :=
  fun a ha => (h a ha).2.2

namespace Markup

/-- The names and styles of one element, whatever stands in it. Raw text may stand there if
something is drawn. -/
def Named (drawn : Prop) : Markup → Prop
  | element tag attrs flags _ =>
    tag ∈ documentNames.elements ∧ NamedAttrs attrs ∧ ∀ flag ∈ flags, flag ∈ documentNames.flags
  | void tag attrs flags =>
    tag ∈ documentNames.voids ∧ NamedAttrs attrs ∧ ∀ flag ∈ flags, flag ∈ documentNames.flags
  | text _ => True
  | script json => hasClose json = false
  | raw _ => drawn

theorem Named.mono {drawn drawn' : Prop} (hdrawn : drawn → drawn') : ∀ {m : Markup}, m.Named drawn →
    m.Named drawn'
  | .text _, _ => trivial
  | .script _, h => h
  | .raw _, h => hdrawn h
  | .void _ _ _, h => h
  | .element _ _ _ _, h => h

theorem PlainIn.named {drawn : Prop} {m : Markup} (h : m.PlainIn drawn) : m.Named drawn := by
  cases m with
  | text s => trivial
  | script json => exact h
  | raw html => exact h
  | void tag attrs flags => exact ⟨h.1.1, h.2.named, h.1.2⟩
  | element tag attrs flags content => exact ⟨h.1.known, h.2.1.named, h.1.flagged⟩

/-- The names of one element are those of documents, whatever stands in it. -/
def CleanNode : Markup → Prop
  | element tag attrs flags _ =>
    tag ∈ documentNames.elements ∧ CleanAttrs attrs ∧ ∀ flag ∈ flags, flag ∈ documentNames.flags
  | m => CleanTree m

theorem Named.clean : ∀ {m : Markup}, m.Named False → m.CleanNode
  | .text _, _ => trivial
  | .script _, h => h
  | .raw _, h => False.elim h
  | .void _ _ _, h | .element _ _ _ _, h => ⟨h.1, fun a ha => (h.2.1 a ha).1, h.2.2⟩

/-- Markup is clean if everything in it is. -/
theorem cleanTrees_iff_nodes (ms : List Markup) :
    CleanTrees ms ↔ ∀ n ∈ nodesList ms, n.CleanNode := by
  induction ms using forest_induction with
  | nil => exact iff_of_true trivial (List.forall_mem_nil _)
  | append l m hl hm =>
    rw [nodesList_append, List.forall_mem_append, ← hl, ← hm]
    exact and_of_append l m trivial fun _ _ => .rfl
  | element tag attrs flags content ih =>
    rw [nodesList_element, List.forall_mem_cons, ← ih, cleanTrees_cons, cleanTree_element,
      CleanNode]
    simp only [and_assoc, cleanTrees_nil, and_true]
  | _ => simp [nodesList, nodes, CleanNode]

end Markup

namespace Scope

open Markup

/-! ## Steps -/

/-- Whatever is noted, every piece of the step's markup has the property. -/
def NodesHave (own : Markup → Prop) (x : Rendered) : Prop :=
  ∀ noted, ∀ n ∈ nodesList (x.run noted).1, own n

section Steps

variable {drawn : Prop} {own : Markup → Prop} (hown : ∀ n : Markup, n.Named drawn → own n)

include hown

theorem NodesHave.element {x : Rendered} (hx : NodesHave own x) {tag : String}
    (htag : tag ∈ documentNames.elements) {attrs : List Attr} (hattrs : NamedAttrs attrs)
    {flags : List String} (hflags : ∀ flag ∈ flags, flag ∈ documentNames.flags) : NodesHave own (do
      let content ← x
      return [.element tag attrs flags content]) := by
  intro noted
  show ∀ n ∈ nodesList [.element tag attrs flags (x.run noted).1], own n
  rw [nodesList_element]
  exact List.forall_mem_cons.mpr ⟨hown _ ⟨htag, hattrs, hflags⟩, hx noted⟩

theorem NodesHave.inside {x : Rendered} (hx : NodesHave own x) {tag : String}
    (htag : tag ∈ documentNames.elements) {attrs : List Attr} (hattrs : NamedAttrs attrs) :
    NodesHave own (Rendered.inside tag attrs x) :=
  hx.element hown htag hattrs (List.forall_mem_nil _)

theorem nodesHave_closed : Rendered.ClosedIn drawn (NodesHave own) where
  nil := fun _ => List.forall_mem_nil _
  append := fun {x y} hx hy noted => by
    show ∀ n ∈ nodesList ((x.run noted).1 ++ (y.run (x.run noted).2).1), own n
    rw [nodesList_append]
    exact List.forall_mem_append.mpr ⟨hx noted, hy _⟩
  fixed := fun hplain _ n hn => hown n (hplain.nodes n hn).named
  element := fun _ htag hattrs hx => hx.element hown htag.known hattrs.named htag.flagged

theorem nodesHave_leaf {tag : String} (htag : tag ∈ documentNames.elements) {attrs : List Attr}
    (hattrs : NamedAttrs attrs) (s : String) : NodesHave own (pure [.leaf tag attrs s]) :=
  ((nodesHave_closed hown).fixed (plain_text s)).inside hown htag hattrs

theorem nodesHave_inlines (scope : Scope) (content : List Inline) :
    NodesHave own (scope.inlines content) := by
  have htags : ∀ tag ∈ ["a", "span"], tag ∈ documentNames.elements := by decide
  have hnames : ∀ name ∈ linkNames, name ∈ documentNames.attrs ∧ name ≠ "style" := by decide
  have hkept : InlineKept fun _ => NodesHave own :=
    { closed := fun _ => (nodesHave_closed hown).mono False.elim
      footnote := fun scope id => by
        unfold footnoteRef
        split
        · exact (nodesHave_leaf hown (by decide) (by simp +decide) _).inside hown (by decide)
            (by simp +decide)
        · exact (nodesHave_leaf hown (by decide) (by simp +decide) _).inside hown (by decide)
            (by simp +decide)
      link := fun hcontent scope target tooltip =>
        forall_link (Q := fun ms => ∀ n ∈ nodesList ms, own n) (hcontent scope)
          ((hcontent (scope.insideLink target)).inside hown (htags _ (linkTag_mem scope target))
            (forall_linkAttrs (fun name hname _ =>
              ⟨(hnames name hname).1, fun h => absurd h (hnames name hname).2⟩) scope
                target tooltip)) }
  exact inlineKept_inlines hkept scope content

end Steps

theorem namedAttrs_sectionAttrs (scope : Scope) (mode : SectionMode) (numbered : Bool)
    (s : Section) :
    NamedAttrs (scope.sectionAttrs mode numbered s) := by
  unfold sectionAttrs
  split <;> simp +decide

theorem namedAttrs_articleAttrs (d : Document) : NamedAttrs (articleAttrs d) := by
  have hstyle : IsStyle (Css.style ["width: 100%"]) := ⟨.article, rfl⟩
  unfold articleAttrs
  cases d.kind.laysItselfOut <;> cases d.presentation <;>
    simp +decide [(plain_presentationAttrs _).named, hstyle]

/-- Rendering keeps to the names of documents. -/
theorem nodesHave_kept {own : Renderer → Markup → Prop}
    (hown : ∀ (r : Renderer) (n : Markup), n.Named (r.components ≠ []) → own r n) :
    KeptOutside fun scope => NodesHave (own scope.renderer) where
  closed scope := nodesHave_closed (hown scope.renderer)
  texts scope content := nodesHave_inlines (hown scope.renderer) scope content
  depth scope := nodesHave_leaf (hown scope.renderer) (by decide) (by simp +decide) _
  missing scope id := nodesHave_leaf (hown scope.renderer) (by decide) (by simp +decide) _
  deeper hx := hx
  opened := fun {scope mode s _} numbered _ hx =>
    NodesHave.inside (hown scope.renderer) hx (by decide)
      (namedAttrs_sectionAttrs scope mode numbered s)
  article := fun {scope d _} _ hx =>
    NodesHave.inside (hown scope.renderer) hx (by decide) (namedAttrs_articleAttrs d)
  ask hnext noted := hnext noted noted
  tooltip := fun {scope _} _ hx => hx.inside (hown scope.renderer) (by decide) (by simp +decide)
  aside := fun {scope _} hx =>
    hx.element (hown scope.renderer) (by decide) (by simp +decide) (by decide)
  sectionCycle := fun {scope _} _ =>
    nodesHave_leaf (hown scope.renderer) (by decide) (by simp +decide) _
  documentCycle := fun {scope _} _ =>
    nodesHave_leaf (hown scope.renderer) (by decide) (by simp +decide) _

/-! ## Clean markup -/

theorem clean_iff_nodesHave {x : Rendered} : x.Clean ↔ NodesHave CleanNode x :=
  forall_congr' fun noted => cleanTrees_iff_nodes (x.run noted).1

theorem clean_inlines (scope : Scope) (content : List Inline) : (scope.inlines content).Clean :=
  clean_iff_nodesHave.mpr (nodesHave_inlines (fun _ h => h.clean) scope content)

/-- Rendering makes clean trees in every scope without registered components. -/
theorem clean_kept :
    KeptOutside fun scope => NodesHave fun n => scope.renderer.components = [] → n.CleanNode :=
  @nodesHave_kept (fun r n => r.components = [] → n.CleanNode) fun _ _ h hbare =>
    (h.mono fun hsome => hsome hbare).clean

/-- A renderer of blocks that makes clean trees in every scope without registered components. -/
def CleanBlocks (block : BlockRenderer) : Prop :=
  ∀ scope : Scope, scope.renderer.components = [] → ∀ number b, (block scope number b).Clean

section Clean

variable {block : BlockRenderer} (hblock : CleanBlocks block)
variable {scope : Scope} (hbare : scope.renderer.components = [])

include hblock

theorem CleanBlocks.nodes (scope : Scope) (number : Option String) (b : Block) :
    NodesHave (fun n => scope.renderer.components = [] → n.CleanNode) (block scope number b) :=
  fun noted n hn hbare => clean_iff_nodesHave.mp (hblock scope hbare number b) noted n hn

include hbare

theorem clean_renderSection (mode : SectionMode) (number : Option String) (s : Section) :
    (renderSection block scope mode number s).Clean :=
  clean_iff_nodesHave.mpr fun noted n hn =>
    keptOutside_renderSection clean_kept hblock.nodes scope mode number s noted n hn hbare

theorem clean_article (d : Document) : (article block scope d).Clean :=
  clean_iff_nodesHave.mpr fun noted n hn =>
    keptOutside_article clean_kept hblock.nodes scope d noted n hn hbare

end Clean

theorem clean_renderBlock (budget : Nat) : CleanBlocks (renderBlock budget) :=
  fun scope hbare number b => clean_iff_nodesHave.mpr fun noted n hn =>
    keptOutside_renderBlock clean_kept budget scope number b noted n hn hbare

end Scope

namespace Renderer

/-- Documents, sections and blocks are well-formed text, with `hr`, `img` and `input` as the
elements without an end tag, and their tags do not depend on the texts stored in them. -/
theorem rendered_wellWritten (settings : RenderSettings) (view : View) :
    let r : Renderer := { settings := settings }
    (∀ d, Markup.WellWritten documentNames (r.document view d)) ∧
    (∀ d s, Markup.WellWritten documentNames (r.sectionOf view d s)) ∧
    (∀ b, Markup.WellWritten documentNames (r.blockAlone view b)) := by
  intro r
  have hblock : Scope.CleanBlocks r.block := Scope.clean_renderBlock settings.maxDepth
  have hbare : ∀ parts, (r.scope view parts).renderer.components = [] := fun _ => rfl
  refine ⟨fun d => ?_, fun d s => ?_, fun b => ?_⟩
  · exact Markup.wellWritten_of_clean (Scope.clean_article hblock (hbare d.parts) d [])
  · exact Markup.wellWritten_of_clean (Scope.clean_renderSection hblock
      (show { r.scope view d.parts with documents := [d] }.renderer.components = [] from rfl)
      .anchored none s [])
  · exact Markup.wellWritten_of_clean (hblock _ (hbare b.parts) none b [])

end Renderer

end Compendium
