import Compendium.Proofs.Render.Anchors
import Compendium.Proofs.Render.Marks

/-!
# Links to tooltip documents

A link to a tooltip document notes the document before its content is rendered, so the links of a
page, in the order of the page, ask for the documents in the order in which they are noted. The
outermost document shows every noted document once. Together: the tooltip documents of a page are
those that its links lead to, each of them once, in the order of the first links to them.
-/

namespace Compendium

/-! ## Reading links and tooltips off a page -/

def after? (start s : String) : Option String :=
  if start.toList <+: s.toList then some
    (String.ofList (s.toList.drop start.toList.length)) else none

theorem after?_append (start s : String) : after? start (start ++ s) = some s := by
  rw [after?, String.toList_append, if_pos (List.prefix_append _ _), List.drop_left,
    String.ofList_toList]

namespace Markup

def isTooltipLink (attrs : List Attr) : Bool :=
  attrs.lookup "data-link-kind" == some "tooltip"

/-- The id of the tooltip document that a link leads to: an anchor by its address, a span by its
target. -/
def linkedId? (m : Markup) : Option String :=
  ((m.valueOf? "a" "href").bind (after? "#tooltip-")).or
    ((m.valueOf? "span" "data-link-target").bind (after? "tooltip:"))

/-- The ids that the links to tooltip documents lead to, in the order of the page. -/
def linkedTooltips (content : List Markup) : List (Option String) :=
  (marked isTooltipLink content).map linkedId?

/-- The id of the tooltip document that an element holds. -/
def tooltipId? (m : Markup) : Option String :=
  (m.valueOf? "div" "id").bind (after? "tooltip-")

/-- The ids of the tooltip documents, in the order of the page. -/
def shownTooltips (content : List Markup) : List (Option String) :=
  (marked (classIn ["tooltip-document"]) content).map tooltipId?

theorem telling_isTooltipLink : Telling isTooltipLink := by
  intro attrs hattrs
  rw [isTooltipLink, hattrs.lookup_name (by decide)]
  rfl

theorem linkedTooltips_append (l m : List Markup) :
    linkedTooltips (l ++ m) = linkedTooltips l ++ linkedTooltips m := by
  rw [linkedTooltips, marked_append, List.map_append]
  rfl

end Markup

/-! ## What links ask for -/

/-- The ids of noted documents: those of the documents asked for, each where it first occurs. -/
theorem ids_noteAll (noted asked : List Document) :
    (noteAll noted asked).map (·.id) =
      noted.map (·.id) ++ ((asked.map (·.id)).filter (· ∉ noted.map (·.id))).eraseDups := by
  induction asked generalizing noted with
  | nil => simp [noteAll]
  | cons d rest ih =>
    have hany : noted.any (fun other => other.id == d.id) = decide (d.id ∈ noted.map (·.id)) := by
      rw [Bool.eq_iff_iff, List.any_eq_true, decide_eq_true_iff, List.mem_map]
      simp only [beq_iff_eq]
    show (noteAll (note noted d) rest).map (·.id) = _
    rw [ih, List.map_cons, List.filter_cons, note, hany]
    by_cases hnoted : d.id ∈ noted.map (·.id)
    · rw [if_pos (decide_eq_true hnoted), if_neg (by simpa using hnoted)]
    · have hrest : (rest.map (·.id)).filter (· ∉ noted.map (·.id) ++ [d.id]) =
          (rest.map (·.id)).filter fun id => !id == d.id && decide (id ∉ noted.map (·.id)) := by
        refine List.filter_congr fun id _ => ?_
        rw [Bool.eq_iff_iff]
        simp only [decide_eq_true_iff, Bool.and_eq_true, Bool.not_eq_true', beq_eq_false_iff_ne,
          List.mem_append, List.mem_singleton]
        tauto
      rw [if_neg (by simpa using hnoted), if_pos (by simpa using hnoted), List.eraseDups_cons,
        List.filter_filter, List.map_append, List.append_assoc, List.map_singleton, hrest,
        List.singleton_append]

namespace Scope

open Markup

/-- The links of the step ask for the documents that they lead to. -/
def AsksForLinked (x : Rendered) : Prop :=
  ∀ noted, ∃ (m : List Markup) (asked : List Document),
    x.run noted = (m, noteAll noted asked) ∧ linkedTooltips m = asked.map fun d => some d.id

section Steps

variable {x y : Rendered}

theorem asks_pure {ms : List Markup} (h : linkedTooltips ms = []) : AsksForLinked (pure ms) :=
  fun _ => ⟨ms, [], rfl, h⟩

theorem AsksForLinked.append (hx : AsksForLinked x) (hy : AsksForLinked y) :
    AsksForLinked (do
      let first ← x
      let others ← y
      return first ++ others) := by
  intro noted
  obtain ⟨first, asked, hfirst, hlinked⟩ := hx noted
  obtain ⟨others, more, hothers, hmore⟩ := hy (noteAll noted asked)
  refine ⟨first ++ others, asked ++ more, ?_, ?_⟩
  · rw [StateT.run_bind, hfirst]
    show (y >>= fun others => pure (first ++ others)).run (noteAll noted asked) = _
    rw [StateT.run_bind, hothers, noteAll_append]
    rfl
  · rw [linkedTooltips_append, hlinked, hmore, List.map_append]

/-- An element that is no link to a tooltip document. -/
theorem AsksForLinked.element (hx : AsksForLinked x) (tag : String) {attrs : List Attr}
    (hattrs : isTooltipLink attrs = false) (flags : List String) :
    AsksForLinked (do
      let content ← x
      return [.element tag attrs flags content]) := by
  intro noted
  obtain ⟨content, asked, hrun, hlinked⟩ := hx noted
  refine ⟨[.element tag attrs flags content], asked, ?_, ?_⟩
  · rw [StateT.run_bind, hrun]
    rfl
  · rw [linkedTooltips, marked_inside hattrs]
    exact hlinked

/-- A link asks for its document before those of its content. -/
theorem AsksForLinked.link (hx : AsksForLinked x) {tag : String} {attrs : List Attr} {d : Document}
    (hattrs : isTooltipLink attrs = true)
    (hlinked : ∀ content, (Markup.node tag attrs content).linkedId? = some d.id) :
    AsksForLinked (noteTooltip d >>= fun _ => Rendered.inside tag attrs x) := by
  intro noted
  obtain ⟨content, asked, hrun, hcontent⟩ := hx (note noted d)
  refine ⟨[.node tag attrs content], d :: asked, ?_, ?_⟩
  · rw [StateT.run_bind]
    show (Rendered.inside tag attrs x).run (note noted d) = _
    rw [Rendered.inside, StateT.run_bind, hrun]
    rfl
  · rw [linkedTooltips, Markup.node, marked_element, hattrs, if_pos rfl, List.map_append]
    rw [linkedTooltips] at hcontent
    rw [hcontent, List.map_singleton]
    exact congrArg (· :: _) (hlinked content)

end Steps

theorem asksForLinked_tooltip (scope : Scope) (d : Document) (tooltip : Option String)
    {content : Scope → Rendered} (h : ∀ inner, AsksForLinked (content inner)) :
    AsksForLinked (scope.link (.tooltip d) tooltip content) := by
  have hinside := h (scope.insideLink (.tooltip d))
  by_cases hopen : LinkTarget.key (.tooltip d) ∈ scope.links
  · rw [link_of_open hopen]
    exact h scope
  · rw [link_of_new hopen]
    refine hinside.link ?_ fun content => ?_
    · rw [isTooltipLink, lookup_linkAttrs_kind]
      rfl
    · unfold linkTag linkAttrs linkHref?
      cases scope.links.isEmpty with
      | true =>
        show ((after? "#tooltip-" ("#tooltip-" ++ d.id)).or _) = _
        rw [after?_append]
        rfl
      | false => exact after?_append "tooltip:" d.id

/-- A link to anything else asks for nothing itself. -/
theorem asksForLinked_other (scope : Scope) {target : LinkTarget}
    (hnone : target.tooltipDocument? = none)
    (hkind : target.kindWord ≠ "tooltip") (tooltip : Option String) {content : Scope → Rendered}
    (h : ∀ inner, AsksForLinked (content inner)) :
      AsksForLinked (scope.link target tooltip content) := by
  by_cases hopen : target.key ∈ scope.links
  · rw [link_of_open hopen]
    exact h scope
  · rw [link_of_new hopen, noting, hnone]
    refine (h (scope.insideLink target)).element _ ?_ []
    rw [isTooltipLink, lookup_linkAttrs_kind]
    simpa using hkind

theorem asksForLinked_link {content : Scope → Rendered} (h : ∀ inner, AsksForLinked (content inner))
    (scope : Scope) (target : LinkTarget) (tooltip : Option String) :
    AsksForLinked (scope.link target tooltip content) := by
  cases target with
  | tooltip d => exact asksForLinked_tooltip scope d tooltip h
  | _ => exact asksForLinked_other scope rfl (by simp [LinkTarget.kindWord]) tooltip h

theorem asks_marker {cssClass message : String} {attrs : List Attr}
    (h : attrs.lookup "data-link-kind" = none) :
      AsksForLinked (pure [marker cssClass attrs message]) := by
  refine asks_pure ?_
  have hattrs : isTooltipLink (("class", "render-marker " ++ cssClass) :: attrs) = false := by
    rw [isTooltipLink, List.lookup_cons, h]
    rfl
  rw [linkedTooltips, marker, marked_leaf hattrs]
  rfl

/-- Rendering asks for the documents that its links lead to, in their order. -/
theorem asksForLinked_kept : KeptOutside fun _ => AsksForLinked := by
  have hclosed : ∀ _ : Scope, Rendered.Closed AsksForLinked := fun _ =>
    { nil := asks_pure rfl
      append := fun hx hy => hx.append hy
      fixed := fun hplain => asks_pure (by
        rw [linkedTooltips, marked_plain telling_isTooltipLink hplain]
        rfl)
      element := fun _ _ hattrs hx => hx.element _ (telling_isTooltipLink _ hattrs) _ }
  have hfootnote : ∀ (scope : Scope) id, AsksForLinked (pure [scope.footnoteRef id]) :=
    fun scope id =>
    asks_pure (by
      rw [linkedTooltips, marked_footnoteRef rfl fun attrs hattrs => by
        rw [isTooltipLink, hattrs "data-link-kind" (by decide) (by decide)]
        rfl]
      rfl)
  exact
    { closed := fun scope => (hclosed scope).within
      texts := inlineKept_inlines
        { closed := fun scope => (hclosed scope).within, footnote := hfootnote, link :=
          asksForLinked_link }
      depth := fun _ => asks_marker rfl
      missing := fun _ _ => asks_marker rfl
      deeper := fun hx => hx
      opened := fun {scope mode s _} numbered _ hx => by
        have hkind := (lookup_sectionAttrs scope mode numbered s).2.2
        exact hx.element "section" (by rw [isTooltipLink, hkind]; rfl) []
      article := fun {_ d _} _ hx => by
        have hkind := (lookup_articleAttrs d).2.2
        exact hx.element "article" (by rw [isTooltipLink, hkind]; rfl) []
      ask := fun hnext noted => hnext noted noted
      tooltip := fun _ hx => hx.element "div" rfl []
      aside := fun hx => hx.element "aside" rfl _
      sectionCycle := fun _ => asks_marker rfl
      documentCycle := fun _ => asks_marker rfl }

/-! ## The page of a document -/

/-- The classes of tooltip documents and of the element around them. -/
def tooltipClasses : List String :=
  ["tooltip-document", "tooltip-documents"]

/-- The hidden element around tooltip documents, if there are any. -/
def hiddenAside (tooltips : List Markup) : List Markup :=
  if tooltips.isEmpty then []
    else [.element "aside" [("class", "tooltip-documents")] ["hidden"] tooltips]

/-- The element around a tooltip document. -/
def tooltipDiv (id : String) (content : List Markup) : Markup :=
  .node "div" [("class", "tooltip-document"), ("id", "tooltip-" ++ id)] content

theorem hiddenAside_map (block : BlockRenderer) (scope : Scope) (queue : List Document) :
    tooltipAside block scope queue =
      hiddenAside (queue.map fun t => tooltipDiv t.id ((innerArticle block scope t).run []).1) := by
  have hmarkup : queue.flatMap (tooltipMarkup block scope) =
      queue.map fun t => tooltipDiv t.id ((innerArticle block scope t).run []).1 :=
    List.map_eq_flatMap.symm
  unfold tooltipAside hiddenAside
  rw [List.isEmpty_map, hmarkup]

section Inside

variable {words : List String} (hwords : words ⊆ tooltipClasses) (budget : Nat)

include hwords

theorem unmarked_refusal {cssClass : String}
    (hclass : "render-marker " ++ cssClass ∉ tooltipClasses)
    (attrs : List Attr) (message : String) :
    Unmarked (classIn words) (pure [marker cssClass attrs message]) :=
  unmarked_pure (marked_leaf (classIn_of_lookup rfl fun hmem => hclass (hwords hmem)) _ _)

theorem tooltipClasses_kept : Kept fun _ => Unmarked (classIn words) :=
  unmarked_kept (List.Subset.trans hwords (by decide))

/-- Inside of a document, sections show no tooltip documents. -/
theorem unmarked_bodySection (scope : Scope) (d : Document) (number : Option String) (s : Section) :
    Unmarked (classIn words) (bodySection (renderBlock budget) (scope.insideDocument d) number s) :=
  kept_sectionInside (tooltipClasses_kept hwords)
    (fun _ _ => unmarked_refusal hwords (by decide) _ _)
    (fun _ _ => unmarked_refusal hwords (by decide) _ _) budget
      (List.cons_ne_nil _ _) .anchored number s

theorem marked_frontMarkup (scope : Scope) (d : Document) :
    marked (classIn words) (frontMarkup (renderBlock budget) scope d) = [] :=
  kept_articleFront (tooltipClasses_kept hwords).toKeptInside
    (fun s _ number => unmarked_bodySection hwords budget scope d number s) []

theorem unmarked_innerArticle (scope : Scope) (t : Document) :
    Unmarked (classIn words) (innerArticle (renderBlock budget) scope t) :=
  kept_innerArticle (tooltipClasses_kept hwords)
    (fun _ => unmarked_refusal hwords (by decide) _ _)
    fun _ s _ number => unmarked_bodySection hwords budget scope t number s

end Inside

theorem tooltipId?_tooltipDiv (id : String) (content : List Markup) :
    (tooltipDiv id content).tooltipId? = some id :=
  after?_append "tooltip-" id

/-- The tooltip documents of the hidden element, if none of them holds another one. -/
theorem shownTooltips_hiddenAside {α : Type} {id : α → String} {content : α → List Markup}
    {l : List α} (h : ∀ a ∈ l, marked (classIn ["tooltip-document"]) (content a) = []) :
    shownTooltips (hiddenAside (l.map fun a => tooltipDiv (id a) (content a))) =
      l.map fun a => some (id a) := by
  have hdivs : marked (classIn ["tooltip-document"])
    (l.map fun a => tooltipDiv (id a) (content a)) =
      l.map fun a => tooltipDiv (id a) (content a) := by
    induction l with
    | nil => rfl
    | cons a rest ih =>
      obtain ⟨ha, hrest⟩ := List.forall_mem_cons.mp h
      rw [List.map_cons, marked_cons, ih hrest, tooltipDiv, node, marked_element, ha]
      rfl
  unfold hiddenAside
  cases l with
  | nil => rfl
  | cons a rest =>
    rw [if_neg (by simp), shownTooltips, marked_inside (classIn_of_lookup rfl (by decide)), hdivs,
      List.map_map]
    exact List.map_congr_left fun a _ => tooltipId?_tooltipDiv (id a) (content a)

end Scope

namespace Renderer

open Markup Scope

/-- The tooltip documents of a page are those that its links lead to, each of them once, in the
order of the first links. They stand in one hidden element at the end of the outermost article. -/
theorem document_tooltips (r : Renderer) (view : View) (d : Document) :
    ∃ (linked : List String) (front tooltips : List Markup),
      linkedTooltips (r.document view d) = linked.map some ∧
      shownTooltips (r.document view d) = linked.eraseDups.map some ∧
      r.document view d = [.node "article" (articleAttrs d) (front ++ hiddenAside tooltips)] ∧
      marked (classIn tooltipClasses) front = [] ∧
      ∀ m ∈ tooltips, ∃ id content, m = tooltipDiv id content ∧
        marked (classIn tooltipClasses) content = [] := by
  let block : BlockRenderer := renderBlock r.settings.maxDepth
  let outer := r.scope view d.parts
  have hasks : ∀ scope number b, AsksForLinked (block scope number b) :=
    keptOutside_renderBlock asksForLinked_kept r.settings.maxDepth
  obtain ⟨m, asked, hasked, hlinked⟩ := keptOutside_article asksForLinked_kept hasks outer d []
  obtain ⟨queue, -, hrun, -⟩ := article_run (emits_renderBlock d.parts r.settings.maxDepth)
    (rfl : outer.documents = []) (Nat.le_refl _)
  have hpage : r.document view d = m := congrArg Prod.fst hasked
  have hqueue : queue = noteAll [] asked := congrArg Prod.snd (hrun.symm.trans hasked)
  have hshape : r.document view d = [.node "article" (articleAttrs d) (frontMarkup block outer d ++
      hiddenAside (queue.map fun t =>
        tooltipDiv t.id ((innerArticle block (outer.insideDocument d) t).run []).1))] := by
    rw [← hiddenAside_map]
    exact congrArg Prod.fst hrun
  have hids : queue.map (·.id) = (asked.map (·.id)).eraseDups := by
    rw [hqueue, ids_noteAll]
    simp
  refine ⟨asked.map (·.id), frontMarkup block outer d, _, ?_, ?_, hshape,
    marked_frontMarkup (List.Subset.refl _) _ outer d, fun div hdiv => ?_⟩
  · rw [hpage, hlinked, List.map_map]
    rfl
  · have hone : ["tooltip-document"] ⊆ tooltipClasses := by decide
    rw [hshape, shownTooltips, node, marked_inside (classIn_articleAttrs (by decide) d),
      marked_append, marked_frontMarkup hone _ outer d, List.nil_append]
    refine (shownTooltips_hiddenAside fun t _ => unmarked_innerArticle hone _ _ t []).trans ?_
    rw [← hids, List.map_map]
    rfl
  · obtain ⟨t, -, rfl⟩ := List.mem_map.mp hdiv
    exact ⟨t.id, _, rfl, unmarked_innerArticle (List.Subset.refl _) _ _ t []⟩

-- a tooltip document that is first linked to in another one comes after those linked to on the page
example :
    let linking : String → List Document → Document := fun id tooltips => untitled id
      [("a", [.paragraph ⟨tooltips.map fun t => .link [.text t.id] (.tooltip t) none, none⟩])]
    let page := ({} : Renderer).document .empty (linking "outer"
      [linking "first" [linking "inner" [], linking "second" []], linking "second" []])
    linkedTooltips page = [some "first", some "second", some "inner", some "second"] ∧
      shownTooltips page = [some "first", some "second", some "inner"] := by
  decide +kernel

end Renderer

end Compendium
