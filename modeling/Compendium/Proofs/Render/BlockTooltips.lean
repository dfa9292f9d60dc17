import Compendium.Proofs.Render.Articles
import Compendium.Proofs.Render.TooltipLinks

/-!
# The tooltip documents of a block

A block that stands in no document may hold several documents, and each of them closes with the
tooltip documents that are noted by then. Nothing that is noted is ever forgotten. So every article
that stands in no other one shows what links up to its end lead to, each document once; but the next
such article shows all of it again. A page of a block has no tooltip document twice just if none but
its last outermost article shows any.
-/

namespace Compendium

namespace Markup

/-! ## Reading links and articles off a page -/

/-- What a page does about tooltip documents: it links to one, or it shows some at the end of an
article that stands in no other one. -/
inductive TooltipEvent where
  | linked (id : Option String)
  | shown (ids : List (Option String))
  deriving DecidableEq

namespace TooltipEvent

def linkedIds : TooltipEvent → List (Option String)
  | linked id => [id]
  | shown _ => []

def shownIds : TooltipEvent → List (Option String)
  | linked _ => []
  | shown ids => ids

@[simp] theorem linkedIds_linked (ids : List (Option String)) :
    (ids.map linked).flatMap linkedIds = ids := by
  induction ids with
  | nil => rfl
  | cons id rest ih => exact congrArg (id :: ·) ih

@[simp] theorem shownIds_linked (ids : List (Option String)) :
    (ids.map linked).flatMap shownIds = [] := by
  induction ids with
  | nil => rfl
  | cons id rest ih => exact ih

end TooltipEvent

mutual

/-- The links to tooltip documents and the outermost articles, in the order in which they end. -/
def tooltipEvents : Markup → List TooltipEvent
  | element tag attrs flags content =>
    if tag = "article" then
      (linkedTooltips [element tag attrs flags content]).map .linked ++
        [.shown (shownTooltips content)]
    else
      (if isTooltipLink attrs then [.linked (element tag attrs flags content).linkedId?] else []) ++
        tooltipEventsList content
  | m => (linkedTooltips [m]).map .linked

def tooltipEventsList : List Markup → List TooltipEvent
  | [] => []
  | m :: rest => tooltipEvents m ++ tooltipEventsList rest

end

theorem tooltipEventsList_singleton (m : Markup) : tooltipEventsList [m] = tooltipEvents m := by
  rw [tooltipEventsList, tooltipEventsList, List.append_nil]

theorem tooltipEventsList_append (l m : List Markup) :
    tooltipEventsList (l ++ m) = tooltipEventsList l ++ tooltipEventsList m :=
  append_of_cons l m rfl fun _ _ => rfl

theorem tooltipEvents_other {m : Markup}
    (h : ∀ tag attrs flags content, m ≠ .element tag attrs flags content) :
    tooltipEvents m = (linkedTooltips [m]).map .linked := by
  rw [tooltipEvents]
  exact h

theorem linkedTooltips_cons (m : Markup) (rest : List Markup) :
    linkedTooltips (m :: rest) = linkedTooltips [m] ++ linkedTooltips rest :=
  linkedTooltips_append [m] rest

theorem linkedTooltips_element (tag : String) (attrs : List Attr) (flags : List String)
    (content : List Markup) :
    linkedTooltips [element tag attrs flags content] =
      (if isTooltipLink attrs then [(element tag attrs flags content).linkedId?] else []) ++
        linkedTooltips content := by
  rw [linkedTooltips, marked_element, List.map_append]
  cases isTooltipLink attrs <;> rfl

mutual

theorem linkedIds_tooltipEvents : ∀ m : Markup,
    (tooltipEvents m).flatMap TooltipEvent.linkedIds = linkedTooltips [m]
  | .element tag attrs flags content => by
    rw [tooltipEvents]
    split
    · rw [List.flatMap_append, TooltipEvent.linkedIds_linked]
      exact List.append_nil _
    · rw [List.flatMap_append, linkedIds_tooltipEventsList content, linkedTooltips_element]
      cases isTooltipLink attrs <;> rfl
  | .text _ | .void _ _ _ | .script _ | .raw _ =>
    by rw [tooltipEvents_other (by simp), TooltipEvent.linkedIds_linked]

/-- The links of the events are the links of the page. -/
theorem linkedIds_tooltipEventsList : ∀ ms : List Markup,
    (tooltipEventsList ms).flatMap TooltipEvent.linkedIds = linkedTooltips ms
  | [] => by
    rw [tooltipEventsList]
    rfl
  | m :: rest => by
    rw [tooltipEventsList, List.flatMap_append, linkedIds_tooltipEvents m,
      linkedIds_tooltipEventsList rest, ← linkedTooltips_cons]

end

/-- Markup without articles. -/
def Articleless (ms : List Markup) : Prop :=
  ArticlesHave (fun _ _ => False) ms

theorem Articleless.tag_ne {tag : String} {attrs : List Attr} {flags : List String}
    {content : List Markup} (h : Articleless [element tag attrs flags content]) :
      tag ≠ "article" := by
  rintro rfl
  exact h _ (by rw [nodesList_element]; exact List.mem_cons_self) attrs flags content rfl

mutual

theorem Articleless.tooltipEvents_eq : ∀ {m : Markup}, Articleless [m] →
    tooltipEvents m = (linkedTooltips [m]).map .linked
  | .element tag attrs flags content, h => by
    have hcontent : Articleless content := fun n hn =>
      h n (by rw [nodesList_element]; exact List.mem_cons_of_mem _ hn)
    rw [tooltipEvents, if_neg h.tag_ne, hcontent.tooltipEventsList_eq, linkedTooltips_element,
      List.map_append]
    cases isTooltipLink attrs <;> rfl
  | .text _, _ | .void _ _ _, _ | .script _, _ | .raw _, _ => tooltipEvents_other (by simp)

/-- Without articles, a page only links. -/
theorem Articleless.tooltipEventsList_eq : ∀ {ms : List Markup}, Articleless ms →
    tooltipEventsList ms = (linkedTooltips ms).map .linked
  | [], _ => by
    rw [tooltipEventsList]
    rfl
  | m :: rest, h => by
    have hfirst : Articleless [m] := fun n hn =>
      h n (by rw [← List.singleton_append, nodesList_append]; exact List.mem_append_left _ hn)
    have hrest : Articleless rest := fun n hn =>
      h n (by rw [← List.singleton_append, nodesList_append]; exact List.mem_append_right _ hn)
    rw [tooltipEventsList, hfirst.tooltipEvents_eq, hrest.tooltipEventsList_eq,
      linkedTooltips_cons m rest, List.map_append]

end

/-! ## Articles that show what is linked to -/

/-- Given the links before, each article shows what is linked to by its end: every document once, in
the order of the first links. -/
def ShowsLinked (before : List (Option String)) (events : List TooltipEvent) : Prop :=
  ∀ early ids late, events = early ++ TooltipEvent.shown ids :: late →
    ids = (before ++ early.flatMap TooltipEvent.linkedIds).eraseDups

theorem showsLinked_linked (before ids : List (Option String)) :
    ShowsLinked before (ids.map .linked) := by
  intro early shown late heq
  have hmem : TooltipEvent.shown shown ∈ ids.map .linked := by
    rw [heq]
    exact List.mem_append_right _ List.mem_cons_self
  obtain ⟨id, -, hid⟩ := List.mem_map.mp hmem
  cases hid

theorem showsLinked_shown (before : List (Option String)) :
    ShowsLinked before [.shown before.eraseDups] := by
  intro early ids late heq
  obtain ⟨rfl, hrest⟩ | ⟨more, -, hmore⟩ := List.append_eq_cons_iff.mp heq.symm
  · obtain ⟨hshown, -⟩ := List.cons.inj hrest
    cases hshown
    exact congrArg List.eraseDups (List.append_nil before).symm
  · cases more <;> cases hmore

theorem ShowsLinked.append {before : List (Option String)} {a b : List TooltipEvent}
    (ha : ShowsLinked before a) (hb : ShowsLinked (before ++ a.flatMap TooltipEvent.linkedIds) b) :
    ShowsLinked before (a ++ b) := by
  intro early ids late heq
  obtain ⟨more, rfl, hmore⟩ | ⟨more, rfl, hmore⟩ := List.append_eq_append_iff.mp heq
  · rw [List.flatMap_append, ← List.append_assoc]
    exact hb more ids late hmore
  · obtain ⟨rfl, hlate⟩ | ⟨rest, rfl, -⟩ := List.append_eq_cons_iff.mp hmore.symm
    · have hshown := hb [] ids late hlate
      rwa [List.append_nil, List.flatMap_nil, List.append_nil] at hshown
    · exact ha early ids rest rfl

end Markup

/-! ## Noted documents -/

def readIds (documents : List Document) : List (Option String) :=
  documents.map fun d => some d.id

theorem eraseDups_concat {α : Type} [BEq α] [LawfulBEq α] (l : List α) (a : α) :
    (l ++ [a]).eraseDups = if l.contains a then l.eraseDups else l.eraseDups ++ [a] := by
  rw [List.eraseDups_append, List.removeAll, List.filter_cons, List.elem_eq_contains]
  cases l.contains a with
  | true => exact List.append_nil _
  | false => rfl

/-- Noting a document adds it to what is linked to. -/
theorem readIds_note {noted : List Document} {before : List (Option String)}
    (h : readIds noted = before.eraseDups) (d : Document) :
    readIds (note noted d) = (before ++ [some d.id]).eraseDups := by
  have hany : noted.any (fun other => other.id == d.id) = before.contains (some d.id) := by
    rw [Bool.eq_iff_iff, any_id_iff, List.contains_iff_mem, ← List.mem_eraseDups (l := before), ← h]
    simp [readIds]
  rw [eraseDups_concat, note, hany, ← h]
  cases before.contains (some d.id) with
  | true => rfl
  | false => exact List.map_append

theorem readIds_noteAll {noted : List Document} {before : List (Option String)}
    (h : readIds noted = before.eraseDups) (asked : List Document) :
    readIds (noteAll noted asked) = (before ++ readIds asked).eraseDups := by
  induction asked generalizing noted before with
  | nil => exact h.trans (congrArg List.eraseDups (List.append_nil before).symm)
  | cons d rest ih =>
    have hrest := ih (readIds_note h d)
    rwa [List.append_assoc] at hrest

namespace Scope

open Markup

/-! ## Steps outside of documents -/

variable {W : List Part}

/-- Markup after some links, and the documents that are noted at its end: these are the linked ones,
and every tooltip document is shown by an article that shows all that is linked to by its end. -/
structure Settled (W : List Part) (before : List (Option String)) (m : List Markup)
    (queue : List Document) : Prop where
  isQueue : IsQueue W queue
  noted : readIds queue = (before ++ linkedTooltips m).eraseDups
  articles : ShowsLinked before (tooltipEventsList m)
  shown : shownTooltips m = (tooltipEventsList m).flatMap TooltipEvent.shownIds

/-- Whatever is linked to before the step, and noted for it. -/
def Settles (W : List Part) (x : Rendered) : Prop :=
  ∀ noted before, IsQueue W noted → readIds noted = before.eraseDups →
    Settled W before (x.run noted).1 (x.run noted).2

theorem Settled.append {before : List (Option String)} {l m : List Markup}
    {first second : List Document}
    (hl : Settled W before l first) (hm : Settled W (before ++ linkedTooltips l) m second) :
    Settled W before (l ++ m) second where
  isQueue := hm.isQueue
  noted := by rw [linkedTooltips_append, ← List.append_assoc, hm.noted]
  articles := by
    rw [tooltipEventsList_append]
    exact hl.articles.append (by rw [linkedIds_tooltipEventsList]; exact hm.articles)
  shown := by
    rw [tooltipEventsList_append, List.flatMap_append, ← hl.shown, ← hm.shown, shownTooltips,
      marked_append, List.map_append]
    rfl

/-- An element that is no article, no link to a tooltip document and no tooltip document. -/
theorem Settled.element {before : List (Option String)} {content : List Markup}
    {queue : List Document}
    (h : Settled W before content queue) {tag : String} (htag : tag ≠ "article") {attrs : List Attr}
    (hlink : isTooltipLink attrs = false) (htooltip : classIn ["tooltip-document"] attrs = false)
    (flags : List String) : Settled W before [.element tag attrs flags content] queue := by
  have hlinked : linkedTooltips [.element tag attrs flags content] = linkedTooltips content := by
    rw [linkedTooltips_element, hlink]
    rfl
  have hevents : tooltipEventsList [.element tag attrs flags content] =
      tooltipEventsList content := by
    rw [tooltipEventsList_singleton, tooltipEvents, if_neg htag, hlink]
    rfl
  refine ⟨h.isQueue, ?_, ?_, ?_⟩
  · rw [hlinked]
    exact h.noted
  · rw [hevents]
    exact h.articles
  · rw [hevents, shownTooltips, marked_inside htooltip]
    exact h.shown

theorem AsksForLinked.readIds_run {x : Rendered} (h : AsksForLinked x) {noted : List Document}
    {before : List (Option String)} (hbefore : readIds noted = before.eraseDups) :
    readIds (x.run noted).2 = (before ++ linkedTooltips (x.run noted).1).eraseDups := by
  obtain ⟨m, asked, hrun, hlinked⟩ := h noted
  rw [hrun, readIds_noteAll hbefore, hlinked]
  rfl

/-- A step that makes no articles and no tooltip documents. -/
theorem settles_articleless {x : Rendered}
    (hqueue : ∀ noted, IsQueue W noted → IsQueue W (x.run noted).2)
    (hasks : AsksForLinked x) (harticles : MakesArticles (fun _ _ => False) x)
    (hshown : Unmarked (classIn ["tooltip-document"]) x) : Settles W x := by
  intro noted before hnoted hbefore
  have hevents := (show Articleless (x.run noted).1 from harticles noted).tooltipEventsList_eq
  refine ⟨hqueue noted hnoted, hasks.readIds_run hbefore, ?_, ?_⟩
  · rw [hevents]
    exact showsLinked_linked before _
  · rw [hevents, TooltipEvent.shownIds_linked, shownTooltips, hshown noted]
    rfl

theorem settles_plain {m : Markup} (h : m.Plain) : Settles W (pure [m]) := by
  have hlinked : linkedTooltips [m] = [] := by
    rw [linkedTooltips, marked_plain telling_isTooltipLink h]
    rfl
  exact settles_articleless (fun _ hnoted => hnoted) (asks_pure hlinked)
    (makesArticles_closed.fixed h) ((closed_unmarked (telling_classIn (by decide))).fixed h)

theorem settles_closed : Rendered.Closed (Settles W) where
  nil := settles_articleless (fun _ hnoted => hnoted) (asks_pure rfl) makesArticles_closed.nil
    (unmarked_pure rfl)
  append := fun {x y} hx hy noted before hnoted hbefore => by
    have hfirst := hx noted before hnoted hbefore
    exact hfirst.append (hy _ _ hfirst.isQueue hfirst.noted)
  fixed := settles_plain
  element := fun _ htag hattrs hx noted before hnoted hbefore =>
    (hx noted before hnoted hbefore).element htag.other (telling_isTooltipLink _ hattrs)
      (telling_classIn (by decide) _ hattrs) _

theorem settles_inlines (scope : Scope) {content : List Inline} (h : Inline.partsList content ⊆ W) :
    Settles W (scope.inlines content) := by
  obtain ⟨m, asked, -, hasked, hrun⟩ := emits_inlines scope content h
  refine settles_articleless (fun noted hnoted => ?_) (asksForLinked_kept.texts scope content)
    (makesArticles_inlines scope content)
    ((tooltipClasses_kept (by decide)).texts scope content)
  rw [hrun]
  exact hnoted.noteAll hasked

theorem settles_marker {cssClass message : String} {attrs : List Attr}
    (hclass : "render-marker " ++ cssClass ∉ tooltipClasses)
    (hlink : attrs.lookup "data-link-kind" = none) :
      Settles W (pure [marker cssClass attrs message]) :=
  settles_articleless (fun _ hnoted => hnoted) (asks_marker hlink) (makesArticles_marker _ _ _)
    (unmarked_refusal (by decide) hclass attrs message)

/-! ## Blocks outside of documents -/

section Blocks

variable {block : BlockRenderer} {scope : Scope}

/-- A section with a title and blocks of the parts. -/
theorem settles_renderSection (mode : SectionMode) (number : Option String) {s : Section}
    (hs : s.parts ⊆ W) (hblock : ∀ b ∈ s.content, ∀ number,
      Settles W (block (scope.insideSection mode s) number b)) :
    Settles W (renderSection block scope mode number s) := by
  by_cases hopen : s.id ∈ scope.sections
  · rw [renderSection_opened block mode number hopen]
    exact settles_marker (by decide) rfl
  · rw [Section.parts_eq, List.cons_subset, List.append_subset] at hs
    have htitle : ∀ content ∈ s.title.toList, Inline.partsList content ⊆ W :=
      fun content hcontent part hpart => hs.2.1 (List.mem_flatMap.mpr ⟨content, hcontent, hpart⟩)
    have hinner : Settles W (Layout.renderAll block (scope.insideSection mode s)
        (Layout.ofSection (scope.insideSection mode s) mode number s)) :=
      Layout.closed_ofSection settles_closed mode number
        (fun content hcontent => settles_inlines _ (htitle content hcontent)) hblock
    rw [Layout.renderSection_eq block scope number hopen]
    intro noted before hnoted hbefore
    have hkind := (lookup_sectionAttrs scope mode number.isSome s).2.2
    exact (hinner noted before hnoted hbefore).element (by decide)
      (by rw [isTooltipLink, hkind]; rfl)
      (classIn_sectionAttrs (by decide) scope mode number.isSome s) []

/-- A document that stands in no other one shows all that is noted at its end. -/
theorem settles_article {budget : Nat} (hclosed : Part.Closed W) (hscope : scope.documents = [])
    (hlimit : (Part.tooltips W).length ≤ scope.tooltipLimit) {d : Document} (hd : d.parts ⊆ W) :
    Settles W (article (renderBlock budget) scope d) := by
  intro noted before hnoted hbefore
  have hasks : AsksForLinked (article (renderBlock budget) scope d) :=
    keptOutside_article asksForLinked_kept
      (keptOutside_renderBlock asksForLinked_kept budget) scope d
  have hnoted' := hasks.readIds_run hbefore
  obtain ⟨queue, hqueue, hrun, -⟩ :=
    article_run_noted (emits_renderBlock W budget) hclosed hscope hlimit hd hnoted
  rw [hiddenAside_map] at hrun
  rw [hrun] at hnoted' ⊢
  have hone : ["tooltip-document"] ⊆ tooltipClasses := by decide
  have hshown :
      shownTooltips (frontMarkup (renderBlock budget) scope d ++ hiddenAside (queue.map fun t =>
      tooltipDiv t.id ((innerArticle (renderBlock budget) (scope.insideDocument d) t).run []).1)) =
      readIds queue := by
    rw [shownTooltips, marked_append, marked_frontMarkup hone budget scope d, List.nil_append]
    exact shownTooltips_hiddenAside fun t _ => unmarked_innerArticle hone budget _ t []
  have hevents := hshown.trans hnoted'
  refine ⟨hqueue, hnoted', ?_, ?_⟩
  · rw [tooltipEventsList_singleton, node, tooltipEvents, if_pos rfl, hevents]
    refine (showsLinked_linked before _).append ?_
    rw [TooltipEvent.linkedIds_linked]
    exact showsLinked_shown _
  · rw [tooltipEventsList_singleton, node, tooltipEvents, if_pos rfl, List.flatMap_append,
      TooltipEvent.shownIds_linked, shownTooltips,
        marked_inside (classIn_articleAttrs (by decide) d)]
    exact (List.append_nil _).symm

/-- By induction on the budget: what stands outside of documents is settled, document after
document. -/
theorem settles_renderBlock (hclosed : Part.Closed W) (budget : Nat) {scope : Scope}
    (hscope : scope.documents = []) (hlimit : (Part.tooltips W).length ≤ scope.tooltipLimit)
    (number : Option String) {b : Block} (hb : b.parts ⊆ W) :
    Settles W (renderBlock budget scope number b) := by
  induction budget generalizing scope number b with
  | zero => exact settles_marker (by decide) rfl
  | succ budget ih =>
    rw [renderBlock_succ]
    by_cases hsimple : b.isSimple = true
    · refine Layout.closed_ofBlock settles_closed (fun _ => trivial)
        (fun content hcontent => ?_) hsimple
        (fun b' hb' number => ih hscope hlimit number ?_) number
      · exact settles_inlines scope
          (List.Subset.trans (Block.partsList_subset_of_mem_texts hsimple hcontent) hb)
      · have hparts := (Block.parts_subperm_of_mem_inner hsimple hb').subset
        exact List.Subset.trans (List.cons_subset.mp hparts).2 hb
    · cases b with
      | subsection s =>
        rw [Block.parts, List.cons_subset] at hb
        let inner := insideSection { scope with level := scope.level + 1 } (scope.nestedMode s) s
        have hinner : inner.documents = [] := hscope
        exact settles_renderSection _ number hb.2 fun b' hb' number => ih hinner hlimit number
          (List.Subset.trans (Section.parts_sublist_of_mem_content hb').subset hb.2)
      | sectionRef r =>
        -- there is no document to look for the section in
        show Settles W (sectionRef (renderBlock budget) scope r)
        unfold sectionRef referenced? document?
        rw [hscope]
        exact settles_marker (by decide) rfl
      | document d =>
        rw [Block.parts, List.cons_subset] at hb
        exact settles_closed.element (by decide) (by simp +decide)
          ((plainAttrs_class _).mpr (by decide))
          (settles_article hclosed hscope hlimit hb.2)
      | _ => exact absurd rfl hsimple

end Blocks

end Scope

namespace Markup

/-! ## Repeated tooltip documents -/

theorem nodup_eraseDups {α : Type} [BEq α] [LawfulBEq α] (l : List α) : l.eraseDups.Nodup := by
  induction hlength : l.length using Nat.strongRecOn generalizing l with
  | ind n ih =>
    cases l with
    | nil => exact List.nodup_nil
    | cons a rest =>
      rw [List.eraseDups_cons]
      have hle := List.length_filter_le (fun b => !b == a) rest
      rw [List.length_cons] at hlength
      refine List.nodup_cons.mpr ⟨?_, ih _ (by omega) _ rfl⟩
      rw [List.mem_eraseDups]
      simp

theorem ShowsLinked.tail {before : List (Option String)} {event : TooltipEvent}
    {rest : List TooltipEvent} (h : ShowsLinked before (event :: rest)) :
    ShowsLinked (before ++ event.linkedIds) rest := by
  rintro early ids late rfl
  rw [h (event :: early) ids late rfl, List.flatMap_cons, List.append_assoc]

theorem shownIds_eq_nil {events : List TooltipEvent} (h : ∀ ids, .shown ids ∉ events) :
    events.flatMap TooltipEvent.shownIds = [] := by
  refine List.flatMap_eq_nil_iff.mpr fun event hevent => ?_
  cases event with
  | linked id => rfl
  | shown ids => exact absurd hevent (h ids)

/-- No document is shown twice just if none is shown by an article that is followed by another
one. -/
theorem ShowsLinked.nodup_iff {before : List (Option String)} {events : List TooltipEvent}
    (h : ShowsLinked before events) :
    (events.flatMap TooltipEvent.shownIds).Nodup ↔
      ∀ early ids late, events = early ++ TooltipEvent.shown ids :: late → ids ≠ [] →
        ∀ more, TooltipEvent.shown more ∉ late := by
  constructor
  · rintro hnodup early ids late rfl hsome more hmore
    obtain ⟨id, hid⟩ := List.exists_mem_of_ne_nil ids hsome
    obtain ⟨middle, rest, rfl⟩ := List.append_of_mem hmore
    -- what an article shows is linked to before it, and so before every later one
    have hagain : id ∈ more := by
      rw [h early ids _ rfl, List.mem_eraseDups] at hid
      rw [h (early ++ .shown ids :: middle) more rest (by simp), List.mem_eraseDups,
        List.flatMap_append, ← List.append_assoc]
      exact List.mem_append_left _ hid
    have hlater : id ∈ (middle ++ .shown more :: rest).flatMap TooltipEvent.shownIds :=
      List.mem_flatMap.mpr ⟨.shown more, List.mem_append_right _ List.mem_cons_self, hagain⟩
    rw [List.flatMap_append, List.flatMap_cons] at hnodup
    have hapart := (List.nodup_append.mp (List.nodup_append.mp hnodup).2.1).2.2
    exact hapart id hid id hlater rfl
  · intro hlast
    induction events generalizing before with
    | nil => exact List.nodup_nil
    | cons event rest ih =>
      have hrest : (rest.flatMap TooltipEvent.shownIds).Nodup := ih h.tail fun early ids late heq =>
        hlast (event :: early) ids late (by rw [heq]; rfl)
      cases event with
      | linked id => exact hrest
      | shown ids =>
        by_cases hnone : ids = []
        · subst hnone
          exact hrest
        · rw [List.flatMap_cons, shownIds_eq_nil (hlast [] ids rest rfl hnone), List.append_nil]
          show ids.Nodup
          rw [h [] ids rest rfl]
          exact nodup_eraseDups _

end Markup

namespace Renderer

open Markup Scope

/-- The page of a block shows tooltip documents in its outermost articles only. Each of these shows
what links of the page up to its end lead to, every document once, in the order of the first links.
So no tooltip document stands twice on the page just if an outermost article that shows any is the
last one. -/
theorem blockAlone_tooltips (r : Renderer) (view : View) (b : Block) :
    let page := r.blockAlone view b
    let events := tooltipEventsList page
    linkedTooltips page = events.flatMap TooltipEvent.linkedIds ∧
    shownTooltips page = events.flatMap TooltipEvent.shownIds ∧
    (∀ early ids late, events = early ++ TooltipEvent.shown ids :: late →
      ids = (early.flatMap TooltipEvent.linkedIds).eraseDups) ∧
    ((shownTooltips page).Nodup ↔
      ∀ early ids late, events = early ++ TooltipEvent.shown ids :: late → ids ≠ [] →
        ∀ more, TooltipEvent.shown more ∉ late) := by
  have hsettled : Settled b.parts [] (r.blockAlone view b) _ :=
    settles_renderBlock b.parts_closed r.settings.maxDepth
      (rfl : (r.scope view b.parts).documents = [])
      (Nat.le_refl _) none (List.Subset.refl _) [] [] isQueue_nil rfl
  refine ⟨(linkedIds_tooltipEventsList _).symm, hsettled.shown, hsettled.articles, ?_⟩
  rw [hsettled.shown]
  exact hsettled.articles.nodup_iff

/-- A paragraph that links to an empty tooltip document. -/
def tooltipParagraph (id : String) : Block :=
  .paragraph ⟨[.link [.text id] (.tooltip (untitled id [])) none], none⟩

/-- A quotation that links to a tooltip document before its only document, which links to another
one. -/
def linkedQuotation : Block :=
  .quote ⟨[tooltipParagraph "u", .document (untitled "a" [("s", [tooltipParagraph "t"])])], none⟩

theorem linkedQuotation_tooltips :
    shownTooltips (({} : Renderer).blockAlone .empty linkedQuotation) = [some "u", some "t"] ∧
      (shownTooltips (({} : Renderer).blockAlone .empty linkedQuotation)).Nodup := by
  have hevents : tooltipEventsList (({} : Renderer).blockAlone .empty linkedQuotation) =
      [.linked (some "u"), .linked (some "t"), .shown [some "u", some "t"]] := by
    decide +kernel
  obtain ⟨-, hshown, -, hnodup⟩ := blockAlone_tooltips {} .empty linkedQuotation
  rw [hevents] at hshown hnodup
  refine ⟨hshown, hnodup.mpr fun early ids late heq _ more hmore => ?_⟩
  -- the only article is the last event
  have hlength := congrArg List.length heq
  rw [List.length_append, List.length_cons] at hlength
  have hpositive := List.length_pos_of_mem hmore
  rcases early with _ | ⟨first, _ | ⟨second, early⟩⟩
  · cases heq
  · cases heq
  · simp at hlength
    omega

/-- Two documents in a quotation, of which the first one links to a tooltip document. -/
def quotedDocuments : Block :=
  .quote
    ⟨[.document (untitled "a" [("s", [tooltipParagraph "t"])]), .document (untitled "b" [])], none⟩

/-- The second document links to nothing, and shows the tooltip document of the first one again. -/
theorem next_document_repeats_tooltip :
    shownTooltips (({} : Renderer).blockAlone .empty quotedDocuments) = [some "t", some "t"] ∧
      ¬(shownTooltips (({} : Renderer).blockAlone .empty quotedDocuments)).Nodup := by
  decide +kernel

end Renderer

end Compendium
