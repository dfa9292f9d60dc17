import Compendium.Proofs.Render.Anchors
import Compendium.Proofs.Render.Marks

/-!
# What is refused

A section or a document that is open already is not shown again: a stand-in takes its place. On the
page, such a stand-in stands inside of the section or the article that it names. Sections are known
by their ids alone, whatever document they are of, so a section is refused as well if a section
around the document it is in has the same id. Nothing is refused if no section is inside of one with
its id, through documents too, no document is inside of one with its id, and there are no
references.
-/

namespace Compendium

/-- The class of what stands in for an open section or document. -/
def FrameKind.refusal : FrameKind → String
  | division => "render-marker section-cycle"
  | article => "render-marker document-cycle"

/-- The classes of all stand-ins for what is open. -/
def refusalClasses : List String :=
  [FrameKind.division.refusal, FrameKind.article.refusal]

theorem refusal_mem (kind : FrameKind) : kind.refusal ∈ refusalClasses := by
  cases kind <;> decide

theorem refusalClasses_subset : refusalClasses ⊆ markClasses := by
  decide

namespace Markup

/-- The attributes refuse nothing but what is open. -/
def RefusesOpen (opened : List (FrameKind × String)) (attrs : List Attr) : Prop :=
  ∀ kind : FrameKind, attrs.lookup "class" = some kind.refusal →
    ∃ id, attrs.lookup kind.label = some id ∧ (kind, id) ∈ opened

/-- The section or the document that an element opens. -/
def opening (tag : String) (attrs : List Attr) : List (FrameKind × String) :=
  ((FrameKind.ofTag? tag).bind fun kind => (attrs.lookup kind.label).map fun id =>
    (kind, id)).toList

mutual

/-- Whatever the markup refuses is open around the stand-in. -/
def Enclosed (opened : List (FrameKind × String)) : Markup → Prop
  | element tag attrs _ content =>
    RefusesOpen opened attrs ∧ EnclosedList (opening tag attrs ++ opened) content
  | void _ attrs _ => RefusesOpen opened attrs
  | text _ => True
  | script _ => True
  | raw _ => True

def EnclosedList (opened : List (FrameKind × String)) : List Markup → Prop
  | [] => True
  | m :: rest => Enclosed opened m ∧ EnclosedList opened rest

end

theorem enclosedList_append (opened : List (FrameKind × String)) (l m : List Markup) :
    EnclosedList opened (l ++ m) ↔ EnclosedList opened l ∧ EnclosedList opened m :=
  and_of_append l m trivial fun _ _ => .rfl

section Opened

variable {opened : List (FrameKind × String)}

theorem refusesOpen_of_class {attrs : List Attr} {word : String}
    (hclass : attrs.lookup "class" = some word)
    (hword : word ∉ refusalClasses) : RefusesOpen opened attrs := by
  intro kind hrefusal
  rw [hclass] at hrefusal
  cases hrefusal
  exact absurd (refusal_mem kind) hword

theorem refusesOpen_plain {attrs : List Attr} (h : PlainAttrs attrs) :
    RefusesOpen opened attrs := by
  intro kind hrefusal
  exact absurd (refusalClasses_subset (refusal_mem kind)) (h.lookup_class hrefusal)

theorem opening_plain (tag : String) {attrs : List Attr} (h : PlainAttrs attrs) :
    opening tag attrs = [] := by
  have hlabel : ∀ kind : FrameKind, attrs.lookup kind.label = none := by
    intro kind
    exact h.lookup_name (by cases kind <;> decide)
  unfold opening
  cases FrameKind.ofTag? tag with
  | none => rfl
  | some kind => simp [hlabel kind]

mutual

theorem enclosed_plain : ∀ {m : Markup}, m.Plain → Enclosed opened m
  | .text _, _ | .script _, _ | .raw _, _ => trivial
  | .void _ _ _, h => refusesOpen_plain h.2
  | .element tag attrs _ _, h => by
    obtain ⟨-, hattrs, -, hcontent⟩ := h
    refine ⟨refusesOpen_plain hattrs, ?_⟩
    rw [opening_plain tag hattrs]
    exact enclosedList_plain hcontent

theorem enclosedList_plain : ∀ {ms : List Markup}, PlainList ms → EnclosedList opened ms
  | [], _ => trivial
  | _ :: _, h => ⟨enclosed_plain h.1, enclosedList_plain h.2⟩

end

end Opened

end Markup

namespace Scope

open Markup

/-! ## Stand-ins are inside of what they name -/

/-- What is open in the scope is open on the page. -/
structure CoveredBy (scope : Scope) (opened : List (FrameKind × String)) : Prop where
  sections : ∀ id ∈ scope.sections, (FrameKind.division, id) ∈ opened
  documents : ∀ id ∈ scope.documents.map (·.id), (FrameKind.article, id) ∈ opened

/-- The step refuses nothing but what is open around it. -/
def RefusesEnclosed (scope : Scope) (x : Rendered) : Prop :=
  ∀ opened, scope.CoveredBy opened → ∀ noted, EnclosedList opened (x.run noted).1

section Steps

variable {scope : Scope} {x y : Rendered}

theorem refusesEnclosed_pure {m : Markup}
    (h : ∀ opened, scope.CoveredBy opened → Enclosed opened m) :
    RefusesEnclosed scope (pure [m]) :=
  fun opened hcovered _ => ⟨h opened hcovered, trivial⟩

/-- An element that opens nothing. -/
theorem RefusesEnclosed.element (hx : RefusesEnclosed scope x) {tag : String} {attrs : List Attr}
    (hattrs : ∀ opened, RefusesOpen opened attrs) (hopening : opening tag attrs = [])
    (flags : List String) : RefusesEnclosed scope (do
      let content ← x
      return [.element tag attrs flags content]) := by
  intro opened hcovered noted
  refine ⟨⟨hattrs opened, ?_⟩, trivial⟩
  rw [hopening]
  exact hx opened hcovered noted

/-- An element that opens a section or a document. -/
theorem RefusesEnclosed.opened {inner : Scope} (hx : RefusesEnclosed inner x) {tag : String}
    {attrs : List Attr} (hattrs : ∀ opened, RefusesOpen opened attrs)
    (hcovers : ∀ opened, scope.CoveredBy opened → inner.CoveredBy (opening tag attrs ++ opened)) :
    RefusesEnclosed scope (Rendered.inside tag attrs x) :=
  fun opened hcovered noted => ⟨⟨hattrs opened, hx _ (hcovers opened hcovered) noted⟩, trivial⟩

theorem RefusesEnclosed.noting (hx : RefusesEnclosed scope x) (target : LinkTarget) :
    RefusesEnclosed scope (Scope.noting target x) :=
  fun opened hcovered => forall_noting (hx opened hcovered) target

theorem closed_refusesEnclosed (scope : Scope) : Rendered.Closed (RefusesEnclosed scope) where
  nil := fun _ _ _ => trivial
  append := fun hx hy opened hcovered noted =>
    (enclosedList_append opened _ _).mpr ⟨hx opened hcovered noted, hy opened hcovered _⟩
  fixed := fun hplain => refusesEnclosed_pure fun _ _ => enclosed_plain hplain
  element := fun _ _ hattrs hx =>
    hx.element (fun _ => refusesOpen_plain hattrs) (opening_plain _ hattrs) _

end Steps

theorem CoveredBy.insideSection {scope : Scope} {opened : List (FrameKind × String)}
    (h : scope.CoveredBy opened) (mode : SectionMode) (s : Section) :
    (scope.insideSection mode s).CoveredBy ((.division, s.id) :: opened) := by
  refine ⟨fun id hid => ?_, fun id hid => List.mem_cons_of_mem _ (h.documents id hid)⟩
  rcases List.mem_cons.mp hid with rfl | hid
  · exact List.mem_cons_self
  · exact List.mem_cons_of_mem _ (h.sections id hid)

theorem CoveredBy.insideDocument {scope : Scope} {opened : List (FrameKind × String)}
    (h : scope.CoveredBy opened) (d : Document) :
    (scope.insideDocument d).CoveredBy ((.article, d.id) :: opened) := by
  refine ⟨fun id hid => List.mem_cons_of_mem _ (h.sections id hid), fun id hid => ?_⟩
  rcases List.mem_cons.mp hid with rfl | hid
  · exact List.mem_cons_self
  · exact List.mem_cons_of_mem _ (h.documents id hid)

/-- Rendering refuses nothing but what is open. -/
theorem refusesEnclosed_kept : KeptOutside RefusesEnclosed := by
  have hmarker : ∀ (scope : Scope) (cssClass : String) attrs message,
      "render-marker " ++ cssClass ∉ refusalClasses →
        RefusesEnclosed scope (pure [marker cssClass attrs message]) :=
    fun _ _ _ _ hclass => refusesEnclosed_pure fun _ _ =>
      ⟨refusesOpen_of_class rfl hclass, trivial, trivial⟩
  have hopening : ∀ tag ∈ ["a", "span"], ∀ attrs, opening tag attrs = [] := by
    intro tag htag attrs
    have hother : ∀ tag ∈ ["a", "span"], FrameKind.ofTag? tag = none := by decide
    rw [opening, hother tag htag]
    rfl
  have hfootnote : ∀ (scope : Scope) id, RefusesEnclosed scope (pure [scope.footnoteRef id]) := by
    intro scope id
    obtain ⟨tag, htag, attrs, heq, -, hattrs⟩ := footnoteRef_eq scope id
    have hclass : ∀ opened, RefusesOpen opened attrs := fun _ kind hkind => by
      rw [hattrs "class" (by decide) (by decide)] at hkind
      cases hkind
    rw [heq]
    refine refusesEnclosed_pure fun opened _ => ⟨refusesOpen_of_class rfl (by decide), ?_, trivial⟩
    exact ⟨hclass _, by rw [hopening tag htag]; exact ⟨trivial, trivial⟩⟩
  have hinline : InlineKept RefusesEnclosed :=
    inlineKept_of_elements (fun scope => (closed_refusesEnclosed scope).within) hfootnote
      fun {scope _ x} hx tag htag more => by
      have hinside : RefusesEnclosed scope x :=
        fun opened hcovered => hx opened ⟨hcovered.1, hcovered.2⟩
      have hclass : ∀ opened, RefusesOpen opened (("class", "link") :: more) :=
        fun _ => refusesOpen_of_class rfl (by decide)
      exact (hinside.element hclass (hopening tag htag _) []).noting _
  exact
    { closed := fun scope => (closed_refusesEnclosed scope).within
      texts := inlineKept_inlines hinline
      depth := fun scope => hmarker scope _ _ _ (by decide)
      missing := fun scope _ => hmarker scope _ _ _ (by decide)
      deeper := fun hx opened hcovered => hx opened ⟨hcovered.1, hcovered.2⟩
      opened := fun {scope mode s _} numbered _ hx => by
        obtain ⟨hclass, hname, -⟩ := lookup_sectionAttrs scope mode numbered s
        refine hx.opened (fun _ => refusesOpen_of_class hclass fun hmem =>
            sectionClass_plain scope mode numbered s (refusalClasses_subset hmem))
          fun opened hcovered => ?_
        have hopening : opening "section" (scope.sectionAttrs mode numbered s) =
            [(.division, s.id)] := by
          show ((List.lookup "data-section-id" _).map _).toList = _
          rw [hname]
          rfl
        rw [hopening]
        exact hcovered.insideSection mode s
      article := fun {scope d _} _ hx => by
        obtain ⟨⟨word, hclass, hword⟩, hname, -⟩ := lookup_articleAttrs d
        refine hx.opened (fun _ => refusesOpen_of_class hclass fun hmem =>
            hword (refusalClasses_subset hmem))
          fun opened hcovered => ?_
        have hopening : opening "article" (articleAttrs d) = [(.article, d.id)] := rfl
        rw [hopening]
        exact hcovered.insideDocument d
      ask := fun hnext opened hcovered noted => hnext noted opened hcovered noted
      tooltip := fun _ hx => hx.element (fun _ => refusesOpen_of_class rfl (by decide)) rfl []
      aside := fun hx => hx.element (fun _ => refusesOpen_of_class rfl (by decide)) rfl _
      sectionCycle := fun {scope id} hopen => refusesEnclosed_pure fun opened hcovered => by
        refine ⟨fun kind hkind => ?_, trivial, trivial⟩
        cases kind with
        | division => exact ⟨id, rfl, hcovered.sections id hopen⟩
        | article => exact absurd hkind (by simp [FrameKind.refusal])
      documentCycle := fun {scope id} hopen => refusesEnclosed_pure fun opened hcovered => by
        refine ⟨fun kind hkind => ?_, trivial, trivial⟩
        cases kind with
        | division => exact absurd hkind (by simp [FrameKind.refusal])
        | article => exact ⟨id, rfl, hcovered.documents id hopen⟩ }

end Scope

/-! ## What is inside of what -/

/-- The second block is shown inside the first, or in a document inside it. -/
inductive Block.Holds (r : Renderer) : Block → Block → Prop
  | refl (b : Block) : Holds r b b
  | inside {b b' held : Block} (hb : b' ∈ b.inner r) (h : Holds r b' held) : Holds r b held
  | subsection {s : Section} {b' held : Block} (hb : b' ∈ s.content) (h : Holds r b' held) :
    Holds r (.subsection s) held
  | document {d : Document} {s : Section} {b' held : Block} (hs : s ∈ d.body) (hb : b' ∈ s.content)
    (h : Holds r b' held) : Holds r (.document d) held

def Block.sections : Block → List Section
  | .subsection s => [s]
  | .document d => d.body
  | _ => []

/-- The section is shown inside the block, or in a document inside it. -/
def Block.HoldsSection (r : Renderer) (b : Block) (s : Section) : Prop :=
  ∃ held, b.Holds r held ∧ s ∈ held.sections

/-- Nothing is inside of something with its id, and there are no references. -/
structure Block.Unrepeated (r : Renderer) (b : Block) : Prop where
  references : ∀ ref, ¬ b.Holds r (.sectionRef ref)
  -- also for sections of different documents, since only ids are compared
  sections : ∀ s, b.HoldsSection r s → ∀ b' ∈ s.content, ∀ s', b'.HoldsSection r s' → s'.id ≠ s.id
  documents : ∀ d, b.Holds r (.document d) → ∀ s ∈ d.body, ∀ b' ∈ s.content,
    ∀ e, b'.Holds r (.document e) → e.id ≠ d.id

namespace Block

variable {r : Renderer} {a b c : Block}

theorem Holds.trans (hab : a.Holds r b) (hbc : b.Holds r c) : a.Holds r c := by
  induction hab with
  | refl => exact hbc
  | inside hb _ ih => exact .inside hb (ih hbc)
  | subsection hb _ ih => exact .subsection hb (ih hbc)
  | document hs hb _ ih => exact .document hs hb (ih hbc)

theorem Holds.holdsSection (hab : a.Holds r b) {s : Section} (hs : b.HoldsSection r s) :
    a.HoldsSection r s := by
  obtain ⟨held, hheld, hmem⟩ := hs
  exact ⟨held, hab.trans hheld, hmem⟩

/-- A block holds what is in its sections. -/
theorem holds_of_mem_sections {s : Section} (hs : s ∈ b.sections) {b' : Block}
    (hb : b' ∈ s.content) :
    b.Holds r b' := by
  cases b with
  | subsection s' =>
    cases List.mem_singleton.mp hs
    exact .subsection hb (.refl b')
  | document d => exact .document hs hb (.refl b')
  | _ => cases hs

/-- A block holds itself, what the blocks inside it hold, and what those of its sections hold. -/
theorem holds_iff : a.Holds r c ↔ c = a ∨ (∃ b ∈ a.inner r, b.Holds r c) ∨
    ∃ s ∈ a.sections, ∃ b ∈ s.content, b.Holds r c := by
  constructor
  · intro h
    cases h with
    | refl => exact .inl rfl
    | inside hb h => exact .inr (.inl ⟨_, hb, h⟩)
    | subsection hb h => exact .inr (.inr ⟨_, List.mem_cons_self, _, hb, h⟩)
    | document hs hb h => exact .inr (.inr ⟨_, hs, _, hb, h⟩)
  · rintro (rfl | ⟨b, hb, h⟩ | ⟨s, hs, b, hb, h⟩)
    · exact .refl c
    · exact .inside hb h
    · exact (holds_of_mem_sections hs hb).trans h

theorem Unrepeated.mono (h : a.Unrepeated r) (hab : a.Holds r b) : b.Unrepeated r where
  references ref hb := h.references ref (hab.trans hb)
  sections s hs := h.sections s (hab.holdsSection hs)
  documents d hd := h.documents d (hab.trans hd)

end Block

namespace Scope

open Markup

/-- Nothing inside of the block repeats what it is inside of or what is open. -/
structure Fits (r : Renderer) (scope : Scope) (b : Block) : Prop where
  renderer : scope.renderer = r
  unrepeated : b.Unrepeated r
  sections : ∀ s, b.HoldsSection r s → s.id ∉ scope.sections
  documents : ∀ d, b.Holds r (.document d) → d.id ∉ scope.documents.map (·.id)

section Fits

variable {r : Renderer} {scope outer : Scope} {b b' : Block} {mode : SectionMode} {s : Section}

theorem Fits.inside (h : scope.Fits r b) (hb : b' ∈ b.inner r) : scope.Fits r b' := by
  have hholds : b.Holds r b' := .inside hb (.refl b')
  exact ⟨h.renderer, h.unrepeated.mono hholds, fun s hs => h.sections s (hholds.holdsSection hs),
    fun d hd => h.documents d (hholds.trans hd)⟩

/-- What a block opens is new, and what is inside of it fits there. -/
theorem Fits.opens (h : scope.Fits r b) (hopens : Opens [] scope b outer mode s) :
    s.id ∉ outer.sections ∧ ∀ b' ∈ s.content, (outer.insideSection mode s).Fits r b' := by
  -- a section of the block itself, in a scope with the same sections and perhaps one document more
  have hown : s ∈ b.sections → outer.renderer = scope.renderer → outer.sections = scope.sections →
      (∀ b' ∈ s.content, ∀ e, b'.Holds r (.document e) → e.id ∉ outer.documents.map (·.id)) →
      s.id ∉ outer.sections ∧ ∀ b' ∈ s.content, (outer.insideSection mode s).Fits r b' := by
    intro hs hrenderer hsections hdocuments
    have hheld : b.HoldsSection r s := ⟨b, .refl b, hs⟩
    refine ⟨by rw [hsections]; exact h.sections s hheld, fun b' hb => ?_⟩
    have hholds : b.Holds r b' := Block.holds_of_mem_sections hs hb
    refine ⟨hrenderer.trans h.renderer, h.unrepeated.mono hholds, fun s' hs' hmem =>
      ?_, hdocuments b' hb⟩
    rcases List.mem_cons.mp hmem with hid | hmem
    · exact h.unrepeated.sections s hheld b' hb s' hs' hid
    · rw [hsections] at hmem
      exact h.sections s' (hholds.holdsSection hs') hmem
  cases hopens with
  | subsection =>
    refine hown List.mem_cons_self rfl rfl fun b' hb e he => ?_
    exact h.documents e (.subsection hb he)
  | reference hs => exact absurd (.refl _) (h.unrepeated.references _)
  | body hnew hs =>
    refine hown hs rfl rfl fun b' hb e he hmem => ?_
    rcases List.mem_cons.mp hmem with hid | hmem
    · exact h.unrepeated.documents _ (.refl _) s hs b' hb e he hid
    · exact h.documents e (.document hs hb he) hmem
  | tooltip _ ht => cases ht

theorem Fits.calls {c c' : Scope × Block} (h : c.1.Fits r c.2) (hcalls : Calls [] c c') :
    c'.1.Fits r c'.2 := by
  cases hcalls with
  | inside _ hb => exact h.inside (h.renderer ▸ hb)
  | opened hopens _ hb => exact (h.opens hopens).2 _ hb

end Fits

/-! ## The page of a document -/

section Page

variable (budget : Nat) {r : Renderer} {scope : Scope} {d : Document}

theorem unrefused_kept : Kept fun _ => Unmarked (classIn refusalClasses) :=
  unmarked_kept (by decide)

/-- The sections of a document that fits refuse nothing. -/
theorem unrefused_bodySection (h : scope.Fits r (.document d)) {s : Section} (hs : s ∈ d.body)
    (number : Option String) : Unmarked (classIn refusalClasses)
      (bodySection (renderBlock budget) (scope.insideDocument d) number s) := by
  have hnew : d.id ∉ scope.documents.map (·.id) := h.documents d (.refl _)
  obtain ⟨hfresh, hfits⟩ := h.opens (.body hnew hs)
  refine kept_renderSection unrefused_kept.toKeptInside number
    (fun hopen => absurd hopen hfresh) fun _ b hb number => ?_
  refine kept_renderBlock unrefused_kept (R := fun c => c.1.Fits r c.2)
    (fun _ _ hc hcalls => hc.calls hcalls) (fun c outer mode s hc hopens hopen => ?_)
    (fun scope e he hopen => ?_) budget (List.cons_ne_nil _ _) (hfits b hb) number
  · exact absurd hopen (hc.opens hopens).1
  · exact absurd hopen (he.documents e (.refl _))

theorem unrefused_innerArticle (h : scope.Fits r (.document d)) :
    Unmarked (classIn refusalClasses) (innerArticle (renderBlock budget) scope d) :=
  kept_innerArticle unrefused_kept (fun hopen => absurd hopen (h.documents d (.refl _)))
    fun _ _ hs number => unrefused_bodySection budget h hs number

theorem unrefused_frontMarkup (h : scope.Fits r (.document d)) :
    marked (classIn refusalClasses) (frontMarkup (renderBlock budget) scope d) = [] :=
  kept_articleFront unrefused_kept.toKeptInside
    (fun _ hs number => unrefused_bodySection budget h hs number) []

theorem unrefused_tooltipAside {queue : List Document}
    (h : ∀ t ∈ queue, scope.Fits r (.document t)) :
    marked (classIn refusalClasses) (tooltipAside (renderBlock budget) scope queue) = [] := by
  have hdivs : marked (classIn refusalClasses)
      (queue.flatMap (tooltipMarkup (renderBlock budget) scope)) = [] := by
    induction queue with
    | nil => rfl
    | cons t rest ih =>
      obtain ⟨ht, hrest⟩ := List.forall_mem_cons.mp h
      have harticle : marked (classIn refusalClasses)
          ((innerArticle (renderBlock budget) scope t).run []).1 = [] :=
            unrefused_innerArticle budget ht []
      have hdiv : marked (classIn refusalClasses) (tooltipMarkup (renderBlock budget) scope t) =
          [] :=
        (marked_inside (classIn_of_lookup rfl (by decide)) "div" [] _).trans harticle
      rw [List.flatMap_cons, marked_append, hdiv, ih hrest]
      rfl
  unfold tooltipAside
  split
  · rfl
  · rw [marked_inside (classIn_of_lookup rfl (by decide))]
    exact hdivs

end Page

end Scope

namespace Renderer

open Markup Scope

/-- A stand-in for an open section or document stands inside of one with its id. If nothing in a
document and its tooltip documents is inside of something with its id, and there are no references,
the page has no stand-ins. -/
theorem document_refusals (r : Renderer) (view : View) (d : Document) :
    EnclosedList [] (r.document view d) ∧
      ((Block.document d).Unrepeated r →
        (∀ t ∈ Part.tooltips d.parts, (Block.document t).Unrepeated r ∧
          ∀ e, (Block.document t).Holds r (.document e) → e.id ≠ d.id) →
        marked (classIn refusalClasses) (r.document view d) = []) := by
  refine ⟨?_, fun hdocument htooltips => ?_⟩
  · exact keptOutside_article refusesEnclosed_kept
      (keptOutside_renderBlock refusesEnclosed_kept r.settings.maxDepth) (r.scope view d.parts) d []
      ⟨List.forall_mem_nil _, List.forall_mem_nil _⟩ []
  · have hfits : (r.scope view d.parts).Fits r (.document d) :=
      ⟨rfl, hdocument, fun _ _ => List.not_mem_nil, fun _ _ => List.not_mem_nil⟩
    obtain ⟨queue, hqueue, hrun, -⟩ := article_run (emits_renderBlock d.parts r.settings.maxDepth)
      (rfl : (r.scope view d.parts).documents = []) (Nat.le_refl _)
    have hqueued : ∀ t ∈ queue, ((r.scope view d.parts).insideDocument d).Fits r (.document t) := by
      intro t ht
      obtain ⟨hunrepeated, hother⟩ := htooltips t (hqueue.subset ht)
      exact ⟨rfl, hunrepeated, fun _ _ => List.not_mem_nil, fun e he hmem =>
        hother e he (List.mem_singleton.mp hmem)⟩
    have hpage : r.document view d = _ := congrArg Prod.fst hrun
    rw [hpage, node, marked_inside (classIn_articleAttrs refusalClasses_subset d), marked_append,
      unrefused_frontMarkup _ hfits, unrefused_tooltipAside _ hqueued]
    rfl

/-! ## Documents that use ids again -/

theorem body_untitled (id : String) (sections : List (String × List Block)) :
    (untitled id sections).body = sections.map fun s => ⟨s.1, none, s.2, none, none⟩ :=
  rfl

theorem id_untitled (id : String) (sections : List (String × List Block)) :
    (untitled id sections).id = id :=
  rfl

theorem holds_untitled {r : Renderer} {id : String}
    {sections : List (String × List Block)} {c : Block} :
    (Block.document (untitled id sections)).Holds r c ↔
      c = .document (untitled id sections) ∨ ∃ s ∈ sections, ∃ b ∈ s.2, b.Holds r c := by
  rw [Block.holds_iff]
  simp [Block.inner, Block.sections, body_untitled]

theorem holds_paragraph {r : Renderer} {p : Paragraph} {c : Block} :
    (Block.paragraph p).Holds r c ↔ c = .paragraph p := by
  rw [Block.holds_iff]
  simp [Block.inner, Block.sections]

/-- A tooltip document with a section. -/
def tip : Document :=
  untitled "tip" [("b", [])]

/-- A section that links to the tooltip document has the id of a section there, and of a section in
a document that is embedded elsewhere. -/
def reusing : Document :=
  untitled "outer" [("a", [.document (untitled "inner" [("b", [])])]),
    ("b", [.paragraph ⟨[.link [] (.tooltip tip) none], none⟩])]

theorem document_refusals_reusing :
    (Block.document reusing).Unrepeated {} ∧ Part.tooltips reusing.parts = [tip] ∧
      (Block.document tip).Unrepeated {} ∧
      marked (classIn refusalClasses) (({} : Renderer).document .empty reusing) = [] := by
  have hdocument : (Block.document reusing).Unrepeated {} := by
    constructor <;>
      simp [reusing, Block.HoldsSection, Block.sections, holds_untitled, holds_paragraph,
      body_untitled, id_untitled, or_and_right, exists_or, or_imp, forall_and]
  have htip : (Block.document tip).Unrepeated {} := by
    constructor <;> simp [tip, Block.HoldsSection, Block.sections, holds_untitled, body_untitled]
  have htooltips : Part.tooltips reusing.parts = [tip] := rfl
  refine ⟨hdocument, htooltips, htip, ?_⟩
  refine (document_refusals {} .empty reusing).2 hdocument fun t ht => ?_
  rw [htooltips, List.mem_singleton] at ht
  subst ht
  refine ⟨htip, fun e he => ?_⟩
  have hself : e = tip := by simpa [tip, holds_untitled] using he
  rw [hself]
  decide

/-- A document in a section, with a section of the same id: the ids of the sections of each document
are distinct, and so are those of the documents, but the inner section is refused. -/
theorem embedded_section_refused :
    let inner := untitled "inner" [("a", [])]
    let outer := untitled "outer" [("a", [.document inner])]
    (outer.body.map (·.id)).Nodup ∧ (inner.body.map (·.id)).Nodup ∧ inner.id ≠ outer.id ∧
      (∀ ref, ¬ (Block.document outer).Holds {} (.sectionRef ref)) ∧
      (marked (classIn refusalClasses) (({} : Renderer).document .empty outer)).map
        (valueOf? "div" "data-section-id") = [some "a"] := by
  refine ⟨by decide, by decide, by decide, fun ref => ?_, by decide +kernel⟩
  simp [holds_untitled]

end Renderer

end Compendium
