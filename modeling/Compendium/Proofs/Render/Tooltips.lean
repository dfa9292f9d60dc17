import Compendium.Proofs.Render.Outline
import Mathlib.Data.List.Nodup

/-!
# The tooltip documents of a page

The outermost document ends with the tooltip documents that links have asked for. They are taken
from a work list that grows while they are rendered, since their own links may ask for more. A
document is entered only if none with its id is there, and all of them are tooltips of links in the
outermost document, so the work list comes to an end, and the bound on its length is never reached
before.
-/

namespace Compendium

namespace Scope

open Markup Rendered

/-- The markup of a tooltip document. It does not depend on what is noted. -/
def tooltipMarkup (block : BlockRenderer) (scope : Scope) (t : Document) : List Markup :=
  ((tooltipDocument block scope t).run []).1

def tooltipAside (block : BlockRenderer) (scope : Scope) (queue : List Document) : List Markup :=
  if queue.isEmpty then []
  else [.element "aside" [("class", "tooltip-documents")] ["hidden"]
    (queue.flatMap (tooltipMarkup block scope))]

/-- A work list: no id twice, and every document is a tooltip of the parts. -/
structure IsQueue (W : List Part) (queue : List Document) : Prop where
  nodup : (queue.map (·.id)).Nodup
  subset : queue ⊆ Part.tooltips W

variable {W : List Part}

/-- Noting what is asked for keeps a queue. -/
theorem IsQueue.noteAll {noted asked : List Document} (h : IsQueue W noted)
    (hasked : asked ⊆ Part.tooltips W) : IsQueue W (noteAll noted asked) :=
  ⟨noteAll_nodup h.nodup asked, noteAll_subset h.subset hasked⟩

theorem isQueue_nil : IsQueue W [] :=
  ⟨List.nodup_nil, List.nil_subset _⟩

theorem IsQueue.length_le {noted : List Document} (h : IsQueue W noted) :
    noted.length ≤ (Part.tooltips W).length :=
  ((List.Nodup.of_map _ h.nodup).subperm h.subset).length_le

/-- One step through the work list. -/
theorem tooltipsFrom_run_succ (block : BlockRenderer) (scope : Scope) (limit position : Nat)
    (noted : List Document) :
    (tooltipsFrom block scope (limit + 1) position).run noted =
      noted[position]?.elim ([], noted) fun t =>
        let first := (tooltipDocument block scope t).run noted
        let others := (tooltipsFrom block scope limit (position + 1)).run first.2
        (first.1 ++ others.1, others.2) := by
  rw [tooltipsFrom, StateT.run_bind, StateT.run_get, pure_bind]
  cases noted[position]? with
  | none => rfl
  | some t => rfl

theorem tooltipDocuments_run_nil (block : BlockRenderer) (scope : Scope) :
    (tooltipDocuments block scope).run [] = ([], []) :=
  rfl

theorem tooltipDocuments_run_cons (block : BlockRenderer) (scope : Scope) (first : Document)
    (rest : List Document) :
    (tooltipDocuments block scope).run (first :: rest) =
      let content := (tooltipsFrom block scope scope.tooltipLimit 0).run (first :: rest)
      ([.element "aside" [("class", "tooltip-documents")] ["hidden"] content.1], content.2) :=
  rfl

section Queue

variable {block : BlockRenderer} {walk : Scope → Block → List Frame}
variable (hblock : BlockEmits W block walk) (hclosed : Part.Closed W) {scope : Scope}
variable (hscope : ∀ d ∈ scope.documents, d.parts ⊆ W)

include hblock hclosed hscope

theorem emits_tooltipDocument {t : Document} (ht : t ∈ Part.tooltips W) :
    (tooltipDocument block scope t).Emits W (articleFrames walk scope t) :=
  (emits_innerArticle hblock hscope (hclosed t ht).subset).inside (by decide) _

theorem framesList_tooltipMarkup {t : Document} (ht : t ∈ Part.tooltips W) :
    framesList (tooltipMarkup block scope t) = articleFrames walk scope t := by
  obtain ⟨m, asked, hm, -, hrun⟩ := emits_tooltipDocument hblock hclosed hscope ht
  rw [tooltipMarkup, hrun]
  exact hm

/-- From a position on, every document of the work list is rendered once, including those that are
entered on the way. -/
theorem tooltipsFrom_run (limit position : Nat) {noted : List Document} (hnoted : IsQueue W noted)
    (hlimit : (Part.tooltips W).length ≤ position + limit) :
    ∃ queue, noted <+: queue ∧ IsQueue W queue ∧
      (tooltipsFrom block scope limit position).run noted =
        ((queue.drop position).flatMap (tooltipMarkup block scope), queue) := by
  induction limit generalizing position noted with
  | zero =>
    -- the work list is never longer than the tooltips, so nothing is left at this position
    have hlength := hnoted.length_le
    refine ⟨noted, List.prefix_refl _, hnoted, ?_⟩
    rw [List.drop_eq_nil_of_le (by omega)]
    rfl
  | succ limit ih =>
    cases hnext : noted[position]? with
    | none =>
      refine ⟨noted, List.prefix_refl _, hnoted, ?_⟩
      rw [List.drop_eq_nil_of_le (List.getElem?_eq_none_iff.mp hnext), tooltipsFrom_run_succ, hnext]
      rfl
    | some t =>
      have ht : t ∈ Part.tooltips W := hnoted.subset (List.mem_of_getElem? hnext)
      obtain ⟨m, asked, -, hasked, hrun⟩ := emits_tooltipDocument hblock hclosed hscope ht
      have hgrown := hnoted.noteAll hasked
      obtain ⟨queue, hprefix, hqueue, hrest⟩ := ih (position + 1) hgrown (by omega)
      -- the work list only grows at its end, so the document at the position stays there
      have hall := (noteAll_extends noted asked).trans hprefix
      refine ⟨queue, hall, hqueue, ?_⟩
      have hmarkup : tooltipMarkup block scope t = m := by rw [tooltipMarkup, hrun]
      have hposition : queue[position]? = some t := by
        obtain ⟨more, rfl⟩ := hall
        rw [List.getElem?_append_left (List.getElem?_eq_some_iff.mp hnext).1, hnext]
      have hdrop : queue.drop position = t :: queue.drop (position + 1) := by
        obtain ⟨hlt, hget⟩ := List.getElem?_eq_some_iff.mp hposition
        rw [List.drop_eq_getElem_cons hlt, hget]
      rw [tooltipsFrom_run_succ, hnext, hdrop, List.flatMap_cons, hmarkup, Option.elim_some, hrun]
      dsimp only
      rw [hrest]

/-- The tooltips of a page are those of a work list, which is all that is noted in the end. -/
theorem tooltipDocuments_run {noted : List Document} (hnoted : IsQueue W noted)
    (hlimit : (Part.tooltips W).length ≤ scope.tooltipLimit) :
    ∃ queue, IsQueue W queue ∧
      (tooltipDocuments block scope).run noted = (tooltipAside block scope queue, queue) := by
  cases noted with
  | nil => exact ⟨[], isQueue_nil, tooltipDocuments_run_nil block scope⟩
  | cons first rest =>
    obtain ⟨queue, hprefix, hqueue, hrun⟩ := tooltipsFrom_run hblock hclosed hscope
      scope.tooltipLimit 0 hnoted (by omega)
    have hsome : queue.isEmpty = false := by
      obtain ⟨more, rfl⟩ := hprefix
      rfl
    refine ⟨queue, hqueue, ?_⟩
    rw [tooltipDocuments_run_cons, hrun, tooltipAside, hsome]
    rfl

theorem framesList_tooltipAside {queue : List Document} (hqueue : IsQueue W queue) :
    framesList (tooltipAside block scope queue) = queue.flatMap (articleFrames walk scope) := by
  have hall : ∀ l : List Document, l ⊆ Part.tooltips W →
      framesList (l.flatMap (tooltipMarkup block scope)) =
        l.flatMap (articleFrames walk scope) := by
    intro l hl
    induction l with
    | nil => rfl
    | cons t rest ih =>
      obtain ⟨ht, hrest⟩ := List.cons_subset.mp hl
      rw [List.flatMap_cons, framesList_append, List.flatMap_cons, ih hrest,
        framesList_tooltipMarkup hblock hclosed hscope ht]
  unfold tooltipAside
  split
  · next hempty =>
    rw [List.isEmpty_iff.mp hempty]
    rfl
  · rw [framesList_cons, frames_element (by decide), hall queue hqueue.subset, framesList_nil,
      List.append_nil]

end Queue

/-! ## The outermost document -/

variable {d : Document} {block : BlockRenderer} {walk : Scope → Block → List Frame}

/-- What stands in the article of a document, before the tooltip documents. -/
def frontMarkup (block : BlockRenderer) (scope : Scope) (d : Document) : List Markup :=
  ((Rendered.sequence (articleFront block (scope.insideDocument d) d)).run []).1

theorem article_run_eq (block : BlockRenderer) {scope : Scope} (hscope : scope.documents = [])
    (d : Document) (noted : List Document) :
    (article block scope d).run noted =
      let front := (Rendered.sequence (articleFront block (scope.insideDocument d) d)).run noted
      let closing := (tooltipDocuments block (scope.insideDocument d)).run front.2
      ([.node "article" (articleAttrs d) (front.1 ++ closing.1)], closing.2) := by
  have hopen : scope.documents.any (fun other => other.id == d.id) = false := by rw [hscope]; rfl
  have harticle : article block scope d = articleWith block (tooltipDocuments block) scope d := by
    unfold article
    rw [hscope]
    rfl
  rw [harticle, articleWith_eq block _ hopen, sequence_append_singleton]
  rfl

/-- A document that stands in no other one, after some documents are noted: its own content, then
every document that is noted at its end once. -/
theorem article_run_noted (hblock : BlockEmits W block walk) (hclosed : Part.Closed W)
    {scope : Scope}
    (hscope : scope.documents = []) (hlimit : (Part.tooltips W).length ≤ scope.tooltipLimit)
    (hd : d.parts ⊆ W) {noted : List Document} (hnoted : IsQueue W noted) :
    ∃ queue, IsQueue W queue ∧
      (article block scope d).run noted =
        ([.node "article" (articleAttrs d) (frontMarkup block scope d ++
          tooltipAside block (scope.insideDocument d) queue)], queue) ∧
      framesList (frontMarkup block scope d ++ tooltipAside block (scope.insideDocument d) queue) =
        d.body.flatMap (sectionFrames walk (scope.insideDocument d) .anchored) ++
          queue.flatMap (articleFrames walk (scope.insideDocument d)) := by
  have hinside : (scope.insideDocument d).IsInside W :=
    isInside_insideDocument (by rw [hscope]; exact List.forall_mem_nil _) hd
  obtain ⟨front, asked, hfront, hasked, hrun⟩ := emits_articleFront hblock hinside hd
  have hmarkup : frontMarkup block scope d = front := by rw [frontMarkup, hrun]
  obtain ⟨queue, hqueue, hclosing⟩ := tooltipDocuments_run hblock hclosed hinside.parts
    (hnoted.noteAll hasked) hlimit
  refine ⟨queue, hqueue, ?_, ?_⟩
  · rw [article_run_eq block hscope, hrun, hmarkup]
    dsimp only
    rw [hclosing]
  · rw [framesList_append, hmarkup, hfront, framesList_tooltipAside hblock hclosed
      hinside.parts hqueue]

/-- The outermost document: its own content, then every tooltip document once. -/
theorem article_run (hblock : BlockEmits d.parts block walk) {scope : Scope}
    (hscope : scope.documents = []) (hlimit : (Part.tooltips d.parts).length ≤ scope.tooltipLimit) :
    ∃ queue, IsQueue d.parts queue ∧
      (article block scope d).run [] =
        ([.node "article" (articleAttrs d) (frontMarkup block scope d ++
          tooltipAside block (scope.insideDocument d) queue)], queue) ∧
      framesList (frontMarkup block scope d ++ tooltipAside block (scope.insideDocument d) queue) =
        d.body.flatMap (sectionFrames walk (scope.insideDocument d) .anchored) ++
          queue.flatMap (articleFrames walk (scope.insideDocument d)) :=
  article_run_noted hblock d.parts_closed hscope hlimit (List.Subset.refl _) isQueue_nil

end Scope

end Compendium
