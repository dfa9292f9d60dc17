import Compendium.Proofs.Render.SectionNumbers

/-!
# The numbers of documents

A page holds documents inside of documents: in blocks, and as tooltips. Each of them is an article,
and the numbers in an article are those of its own document, whatever the numbers around it are.
-/

namespace Compendium

open Markup Scope

/-- The sections of a page are those of the document, in order, and show their numbers. The sections
that have a number are those of a textbook that uncut chains of subsections lead to: it is made of
the positions on the way. In the order of the page the positions ascend, and no number is shown
twice. -/
structure Document.NumbersAre (d : Document) (budget : Nat) (scope : Scope)
    (marks : List SectionMark) :
    Prop where
  shown : marks = (d.visits budget scope).map Visit.mark
  numbered : ∀ path last, (∃ v ∈ d.visits budget scope, v.path = some path ∧ v.own = last) ↔
    d.kind = .textbook ∧ ∃ through, d.Leads path through last ∧
      Uncut (budget + 1) scope.sections (through ++ [last])
  ascending : ((d.visits budget scope).filterMap (·.path)).Pairwise (· < ·)
  distinct : (marks.flatMap (·.numbers)).Nodup

namespace Visit

/-- Numbers are shown for positions only. -/
theorem numbers_sublist (visits : List Visit) :
    ((visits.map mark).flatMap (·.numbers)).Sublist
      ((visits.filterMap (·.path)).map dottedText) := by
  induction visits with
  | nil => exact List.Sublist.slnil
  | cons v rest ih =>
    obtain ⟨own, mode, path⟩ := v
    have hown : (titleNumbers mode (path.map dottedText) own).Sublist
        (path.map dottedText).toList := by
      unfold titleNumbers
      split
      · exact List.Sublist.refl _
      · exact List.nil_sublist _
    rw [List.map_cons, List.flatMap_cons]
    cases path with
    | none => exact hown.append ih
    | some path => exact hown.append ih

theorem anchor_of_numbers {v : Visit} (hmode : v.path ≠ none → v.mode.isCopy = false)
    (h : v.mark.numbers ≠ []) : v.mark.anchor = some v.mark.name := by
  refine if_neg (Bool.eq_false_iff.mp (hmode fun hpath => h ?_))
  show titleNumbers v.mode (v.path.map dottedText) v.own = []
  rw [hpath]
  exact ite_self _

end Visit

theorem Document.numbersAre_of_shown {d : Document} {budget : Nat} {scope : Scope}
    {marks : List SectionMark}
    (h : marks = (d.visits budget scope).map Visit.mark) : d.NumbersAre budget scope marks where
  shown := h
  numbered := d.numbered_visit_iff budget scope
  ascending := d.ascending_visits budget scope
  distinct := by
    have hpaths : ((d.visits budget scope).filterMap (·.path)).Nodup := by
      refine (d.ascending_visits budget scope).imp ?_
      rintro path other hlt rfl
      exact List.lt_irrefl path hlt
    rw [h]
    exact (hpaths.map dottedText_injective).sublist (Visit.numbers_sublist _)

namespace Renderer

/-- The sections in an article are those of its document, wherever it stands. -/
theorem frontsHave_numbersAre : FrontsHave fun d content =>
    ∃ (budget : Nat) (scope : Scope), d.NumbersAre budget (scope.insideDocument d)
      (sectionMarks content) :=
  fun budget scope d noted => ⟨budget, scope, Document.numbersAre_of_shown
    (shows_ofDocument (blockShows_renderBlock budget) (scope.insideDocument d) d noted)⟩

/-- The page of a document shows its sections with their numbers: outside of the documents in it
those of the document itself, where no copy has a number, and in each document in it those of that
one. -/
theorem page_shows_numbers (r : Renderer) (view : View) (d : Document) :
    ∃ content, r.document view d = [.element "article" (articleAttrs d) [] content] ∧
      d.NumbersAre r.settings.maxDepth ((r.scope view d.parts).insideDocument d)
        (sectionMarks content) ∧
      (∀ mark ∈ sectionMarks content, mark.numbers ≠ [] → mark.anchor = some mark.name) ∧
      ∀ attrs flags inner, .element "article" attrs flags inner ∈ nodesList content →
        ∃ other, .document other ∈ d.parts ∧ attrs = articleAttrs other ∧
          ∃ (budget : Nat) (scope : Scope),
            other.NumbersAre budget (scope.insideDocument other) (sectionMarks inner) := by
  obtain ⟨content, queue, hpage, hcontent, harticles⟩ :=
    document_articles frontsHave_numbersAre r view d
  let inner := (r.scope view d.parts).insideDocument d
  have haside : sectionMarks (tooltipAside r.block inner queue) = [] :=
    outsideList_tooltipAside (fun _ => shows_marker _ _ _ []) (fun _ _ => rfl)
      (fun _ => rfl) _ inner queue
  have hshown : sectionMarks content = (d.visits r.settings.maxDepth inner).map Visit.mark := by
    rw [hcontent, sectionMarks_append, haside, List.append_nil]
    exact shows_ofDocument (blockShows_renderBlock r.settings.maxDepth) inner d []
  refine ⟨content, hpage, Document.numbersAre_of_shown hshown, fun mark hmark => ?_,
    fun attrs flags inner hmem => harticles _ hmem attrs flags inner rfl⟩
  rw [hshown] at hmark
  obtain ⟨v, hv, rfl⟩ := List.mem_map.mp hmark
  exact Visit.anchor_of_numbers (d.anchored_of_numbered r.settings.maxDepth inner rfl v hv)

/-- A textbook with an article inside of a section, and with a copy of a subsection. -/
def anthology : Document :=
  { untitled "anthology" [] with
    kind := .textbook
    body := [titledSection "poems" "Poems"
      [.document { untitled "sonnet" [] with body := [titledSection "form" "Form" []] },
      .subsection (titledSection "odes" "Odes" []), .sectionRef ⟨"odes", true⟩]] }

theorem page_shows_numbers_anthology :
    ∃ content attrs flags inner,
      ({} : Renderer).document .empty anthology =
        [.element "article" (articleAttrs anthology) [] content] ∧
      sectionMarks content = [⟨"poems", some "poems", ["1"]⟩, ⟨"odes", some "odes", ["1.1"]⟩,
        ⟨"odes", none, []⟩] ∧
      ((sectionMarks content).flatMap (·.numbers)).Nodup ∧
      .element "article" attrs flags inner ∈ nodesList content ∧
      sectionMarks inner = [⟨"form", some "form", []⟩] ∧
      ∃ other, .document other ∈ anthology.parts ∧ attrs = articleAttrs other ∧
        ∃ (budget : Nat) (scope : Scope),
            other.NumbersAre budget (scope.insideDocument other) (sectionMarks inner) := by
  obtain ⟨content, hpage, hnumbers, -, harticles⟩ := page_shows_numbers {} .empty anthology
  have hcontent : content = contentOf "article" (({} : Renderer).document .empty anthology) := by
    rw [hpage]
    rfl
  have hshown : sectionMarks content =
      [⟨"poems", some "poems", ["1"]⟩, ⟨"odes", some "odes", ["1.1"]⟩, ⟨"odes", none, []⟩] := by
    rw [hcontent]
    decide +kernel
  have hany : (nodesList content).any (fun m => hasTag "article" m &&
      decide (sectionMarks m.children = [⟨"form", some "form", []⟩])) = true := by
    rw [hcontent]
    decide +kernel
  obtain ⟨m, hmem, hm⟩ := List.any_eq_true.mp hany
  obtain ⟨htag, hform⟩ := Bool.and_eq_true_iff.mp hm
  cases m with
  | element tag attrs flags inner =>
    obtain rfl : tag = "article" := eq_of_beq htag
    exact ⟨content, attrs, flags, inner, hpage, hshown, hnumbers.distinct, hmem,
      of_decide_eq_true hform, harticles attrs flags inner hmem⟩
  | void tag attrs flags => cases of_decide_eq_true hform
  | _ => cases htag

end Renderer

end Compendium
