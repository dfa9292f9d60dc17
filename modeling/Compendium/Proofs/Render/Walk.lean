import Compendium.Proofs.Render.Calls
import Mathlib.Logic.Relation

/-!
# Rendering ends without a limit on nesting

The blocks that rendering a document calls for have a height: how many sections of the document are
not open yet, and then how many parts the block has. Every call lowers it, because a call either
stays in its scope and goes to a smaller block, or opens a section that was not open. So rendering
ends by itself, the limit on nesting is never reached if it is at least `Document.nesting`, and
rendering without any limit is a total function. Nothing that is open is opened again: neither along
the calls nor in the page.
-/

namespace Compendium

namespace Part

def sectionId? : Part → Option String
  | division s => some s.id
  | _ => none

def sectionIds (parts : List Part) : List String :=
  parts.filterMap sectionId?

end Part

namespace Scope

open Rendered Markup

/-! ## The outermost document -/

section Outermost

variable {W : List Part} {f g : BlockRenderer} {walk : Scope → Block → List Frame}

theorem tooltipsFrom_congr (hf : BlockEmits W f walk) (hclosed : Part.Closed W) {scope : Scope}
    (hscope : ∀ d ∈ scope.documents, d.parts ⊆ W)
    (h : ∀ t ∈ Part.tooltips W, innerArticle f scope t = innerArticle g scope t)
    (limit position : Nat) {noted : List Document} (hnoted : noted ⊆ Part.tooltips W) :
    (tooltipsFrom f scope limit position).run noted =
      (tooltipsFrom g scope limit position).run noted := by
  induction limit generalizing position noted with
  | zero => rw [tooltipsFrom, tooltipsFrom]
  | succ limit ih =>
    rw [tooltipsFrom_run_succ, tooltipsFrom_run_succ]
    cases hnext : noted[position]? with
    | none => rw [Option.elim_none, Option.elim_none]
    | some t =>
      have ht : t ∈ Part.tooltips W := hnoted (List.mem_of_getElem? hnext)
      obtain ⟨m, asked, -, hasked, hrun⟩ := emits_tooltipDocument hf hclosed hscope ht
      have hsame : tooltipDocument f scope t = tooltipDocument g scope t := by
        rw [tooltipDocument, h t ht, ← tooltipDocument]
      rw [Option.elim_some, Option.elim_some, ← hsame, hrun]
      dsimp only
      rw [ih (position + 1) (noteAll_subset hnoted hasked)]

/-- The outermost document depends on its calls only. -/
theorem article_congr {d : Document} (hf : BlockEmits d.parts f walk) {scope : Scope}
    (hscope : scope.documents = [])
    (h : AgreeOnCalls (Part.tooltips d.parts) f g (scope, .document d)) :
    (article f scope d).run [] = (article g scope d).run [] := by
  have hself : d.parts ⊆ d.parts := List.Subset.refl _
  have hinside : (scope.insideDocument d).IsInside d.parts :=
    isInside_insideDocument (by rw [hscope]; exact List.forall_mem_nil _) hself
  have hsection : ∀ {outer mode s}, Opens (Part.tooltips d.parts) scope (.document d) outer mode s →
      ∀ number, renderSection f outer mode number s = renderSection g outer mode number s :=
    fun hopens number => renderSection_congr _ number fun hnew b hb => h _ (.opened hopens hnew hb)
  have hbody : ∀ s ∈ d.body, ∀ number, bodySection f (scope.insideDocument d) number s =
      bodySection g (scope.insideDocument d) number s := fun s hs number =>
    hsection (.body (by rw [hscope]; exact List.not_mem_nil) hs) number
  have hfront : Rendered.sequence (articleFront f (scope.insideDocument d) d) =
      Rendered.sequence (articleFront g (scope.insideDocument d) d) := articleFront_congr hbody
  have htooltips : ∀ t ∈ Part.tooltips d.parts, innerArticle f (scope.insideDocument d) t =
      innerArticle g (scope.insideDocument d) t := by
    intro t ht
    refine innerArticle_congr fun hnew s hs number => hsection (.tooltip hscope ht ?_ hs) number
    exact fun hid => hnew (List.mem_cons.mpr (.inl hid))
  obtain ⟨front, asked, -, hasked, hrun⟩ := emits_articleFront hf hinside hself
  have hclosing : ∀ noted ⊆ Part.tooltips d.parts,
      (tooltipDocuments f (scope.insideDocument d)).run noted =
        (tooltipDocuments g (scope.insideDocument d)).run noted := by
    intro noted hnoted
    cases noted with
    | nil => rw [tooltipDocuments_run_nil, tooltipDocuments_run_nil]
    | cons first rest =>
      rw [tooltipDocuments_run_cons, tooltipDocuments_run_cons,
        tooltipsFrom_congr hf d.parts_closed hinside.parts htooltips _ 0 hnoted]
  rw [article_run_eq f hscope, article_run_eq g hscope, ← hfront, hrun]
  dsimp only
  rw [hclosing _ (noteAll_subset (List.nil_subset _) hasked)]

end Outermost

/-! ## The height of a call -/

/-- The block and the open documents are made of the parts. -/
structure Keeps (W : List Part) (c : Scope × Block) : Prop where
  documents : ∀ d ∈ c.1.documents, d.parts.Subperm W
  block : c.2.parts.Subperm W

/-- How many sections of the parts are not open. -/
def unopened (W : List Part) (scope : Scope) : Nat :=
  ((Part.sectionIds W).filter fun id => !scope.sections.contains id).length

/-- The height of a block in a scope: sections that are not open, then parts of the block. -/
def height (W : List Part) (c : Scope × Block) : Nat :=
  unopened W c.1 * (W.length + 1) + c.2.parts.length

section Height

variable {W : List Part}

theorem Opens.sections {tooltips : List Document} {scope outer : Scope} {b : Block}
    {mode : SectionMode} {s : Section} (h : Opens tooltips scope b outer mode s) :
    outer.sections = scope.sections := by
  cases h <;> rfl

/-- A section that is opened has its parts among those of the document. -/
theorem Opens.keeps (hclosed : Part.Closed W) {scope outer : Scope} {b : Block} {mode : SectionMode}
    {s : Section} (hc : Keeps W (scope, b)) (h : Opens (Part.tooltips W) scope b outer mode s) :
    s.parts.Subperm W ∧ ∀ d ∈ outer.documents, d.parts.Subperm W := by
  have htail : ∀ {part : Part} {l : List Part}, b.parts = part :: l → l.Subperm W := by
    intro part l heq
    have hblock := hc.block
    rw [show (scope, b).2.parts = part :: l from heq] at hblock
    exact (List.sublist_cons_self _ _).subperm.trans hblock
  cases h with
  | subsection => exact ⟨htail (by rw [Block.parts]), hc.documents⟩
  | reference hs =>
    obtain ⟨d, hd, hfound⟩ := Option.bind_eq_some_iff.mp hs
    have hopen := hc.documents d (List.mem_of_head? hd)
    exact ⟨(Document.parts_subperm_of_findSection? hfound).trans hopen, hc.documents⟩
  | body hnew hs =>
    have hd := htail (by rw [Block.parts])
    exact ⟨(Document.parts_subperm_of_mem_body hs).trans hd,
      List.forall_mem_cons.mpr ⟨hd, hc.documents⟩⟩
  | tooltip houter ht hnew hs =>
    have hd := htail (by rw [Block.parts])
    have ht' := hclosed _ ht
    exact ⟨(Document.parts_subperm_of_mem_body hs).trans ht',
      List.forall_mem_cons.mpr ⟨ht', List.forall_mem_cons.mpr ⟨hd, hc.documents⟩⟩⟩

/-- One call keeps the parts among those of the document. -/
theorem Keeps.calls (hclosed : Part.Closed W) {c c' : Scope × Block} (hc : Keeps W c)
    (h : Calls (Part.tooltips W) c c') : Keeps W c' := by
  cases h with
  | inside hsimple hb =>
    have hparts := Block.parts_subperm_of_mem_inner hsimple hb
    exact ⟨hc.documents, ((List.sublist_cons_self _ _).subperm.trans hparts).trans hc.block⟩
  | opened hopens hnew hb =>
    obtain ⟨hs, hdocuments⟩ := hopens.keeps hclosed hc
    exact ⟨hdocuments, (Section.parts_sublist_of_mem_content hb).subperm.trans hs⟩

/-- Entering a section that is not open leaves fewer that may still be opened. -/
theorem unopened_insideSection_lt {scope : Scope} {s : Section} (mode : SectionMode)
    (hs : s.id ∈ Part.sectionIds W) (hnew : s.id ∉ scope.sections) :
    unopened W (scope.insideSection mode s) < unopened W scope := by
  have hsplit : (Part.sectionIds W).filter
        (fun id => !(scope.insideSection mode s).sections.contains id) =
      ((Part.sectionIds W).filter fun id => !scope.sections.contains id).filter fun id =>
        !(id == s.id) := by
    rw [List.filter_filter]
    refine List.filter_congr fun id _ => ?_
    show (!(s.id :: scope.sections).contains id) = _
    rw [List.contains_cons, Bool.not_or]
  rw [unopened, hsplit, unopened]
  refine List.length_filter_lt_length_iff_exists.mpr ⟨s.id, ?_, by simp⟩
  exact List.mem_filter.mpr ⟨hs, by simpa using hnew⟩

theorem mem_sectionIds {s : Section} (h : s.parts.Subperm W) : s.id ∈ Part.sectionIds W := by
  refine List.mem_filterMap.mpr ⟨.division s, h.subset ?_, rfl⟩
  rw [Section.parts_eq]
  exact List.mem_cons_self

/-- Every call lowers the height. -/
theorem Calls.height_lt (hclosed : Part.Closed W) {c c' : Scope × Block} (hc : Keeps W c)
    (h : Calls (Part.tooltips W) c c') : height W c' < height W c := by
  have hc' := hc.calls hclosed h
  cases h with
  | inside hsimple hb =>
    have hparts := (Block.parts_subperm_of_mem_inner hsimple hb).length_le
    rw [List.length_cons] at hparts
    simp only [height]
    omega
  | @opened scope outer mode s b b' hopens hnew hb =>
    -- one more section is open, which outweighs any number of parts
    obtain ⟨hs, -⟩ := hopens.keeps hclosed hc
    have hlt := unopened_insideSection_lt mode (mem_sectionIds hs) hnew
    have hsame : unopened W outer = unopened W scope := by rw [unopened, hopens.sections, unopened]
    have hmul := Nat.mul_le_mul_right (W.length + 1) (Nat.succ_le_of_lt hlt)
    have hparts : b'.parts.length ≤ W.length := hc'.block.length_le
    rw [Nat.succ_eq_add_one, Nat.add_one_mul, hsame] at hmul
    simp only [height]
    omega

theorem Calls.isInside {tooltips : List Document} {c c' : Scope × Block}
    (h : Calls tooltips c c') (hc : c.1.documents ≠ [] ∨ ∃ d, c.2 = .document d) :
    c'.1.documents ≠ [] := by
  cases h with
  | inside hsimple hb =>
    rcases hc with hc | ⟨d, rfl⟩
    · exact hc
    · cases hsimple
  | opened hopens hnew hb =>
    cases hopens with
    | body => exact List.cons_ne_nil _ _
    | tooltip => exact List.cons_ne_nil _ _
    | subsection =>
      rcases hc with hc | ⟨d, hd⟩
      · exact hc
      · cases hd
    | reference =>
      rcases hc with hc | ⟨d, hd⟩
      · exact hc
      · cases hd

/-! ## Rendering without a limit -/

/-- Budgets above the height give the same markup. -/
theorem renderBlock_stable (hclosed : Part.Closed W) {n m : Nat} {c : Scope × Block}
    (hc : Keeps W c) (hinside : c.1.documents ≠ []) (hn : height W c < n) (hm : height W c < m)
    (number : Option String) : renderBlock n c.1 number c.2 = renderBlock m c.1 number c.2 := by
  induction n generalizing m c number with
  | zero => omega
  | succ n ih =>
    cases m with
    | zero => omega
    | succ m =>
      have hagree : AgreeOnCalls (Part.tooltips W) (renderBlock n) (renderBlock m) c := by
        intro c' hcalls number
        have hlt := hcalls.height_lt hclosed hc
        exact ih (hc.calls hclosed hcalls) (hcalls.isInside (.inl hinside)) (by omega)
          (by omega) number
      rw [renderBlock_succ, renderBlock_succ]
      exact blockWith_congr hinside hagree number

/-- Rendering without a limit: the budget is the height of the block. -/
def unlimited (W : List Part) : BlockRenderer :=
  fun scope number b => renderBlock (height W (scope, b) + 1) scope number b

theorem renderBlock_eq_unlimited (hclosed : Part.Closed W) {n : Nat} {c : Scope × Block}
    (hc : Keeps W c) (hinside : c.1.documents ≠ []) (hn : height W c < n) (number : Option String) :
    renderBlock n c.1 number c.2 = unlimited W c.1 number c.2 :=
  renderBlock_stable hclosed hc hinside hn (Nat.lt_succ_self _) number

/-- Without a limit, a block is rendered from its calls. -/
theorem unlimited_eq (hclosed : Part.Closed W) {c : Scope × Block} (hc : Keeps W c)
    (hinside : c.1.documents ≠ []) (number : Option String) :
    unlimited W c.1 number c.2 = blockWith (unlimited W) c.1 number c.2 := by
  have hagree : AgreeOnCalls (Part.tooltips W) (renderBlock (height W c)) (unlimited W) c :=
    fun c' hcalls number => renderBlock_eq_unlimited hclosed (hc.calls hclosed hcalls)
      (hcalls.isInside (.inl hinside)) (hcalls.height_lt hclosed hc) number
  rw [unlimited, renderBlock_succ]
  exact blockWith_congr hinside hagree number

/-- There is one way only to render without a limit. -/
theorem eq_unlimited (hclosed : Part.Closed W) {other : BlockRenderer} {R : Scope × Block → Prop}
    (hcalls : ∀ c c', R c → Calls (Part.tooltips W) c c' → R c')
    (hkeeps : ∀ c, R c → Keeps W c ∧ c.1.documents ≠ [])
    (hother : ∀ c, R c → ∀ number, other c.1 number c.2 = blockWith other c.1 number c.2)
    {c : Scope × Block} (hc : R c) (number : Option String) :
    other c.1 number c.2 = unlimited W c.1 number c.2 := by
  induction hn : height W c using Nat.strongRecOn generalizing c number with
  | ind n ih =>
    obtain ⟨hkeep, hinside⟩ := hkeeps c hc
    rw [hother c hc, unlimited_eq hclosed hkeep hinside]
    have hagree : AgreeOnCalls (Part.tooltips W) other (unlimited W) c := by
      intro c' hc' number
      have hlt := hc'.height_lt hclosed hkeep
      exact ih (height W c') (hn ▸ hlt) (hcalls c c' hc hc') number rfl
    exact blockWith_congr hinside hagree number

end Height

/-! ## Open sections and documents -/

/-- No section and no document is open twice. -/
structure OpenOnce (scope : Scope) : Prop where
  sections : scope.sections.Nodup
  documents : (scope.documents.map (·.id)).Nodup

/-- One call keeps the open sections and documents distinct. -/
theorem OpenOnce.calls {tooltips : List Document} {c c' : Scope × Block} (hc : c.1.OpenOnce)
    (h : Calls tooltips c c') : c'.1.OpenOnce := by
  cases h with
  | inside => exact hc
  | opened hopens hnew hb =>
    cases hopens with
    | subsection | reference => exact ⟨List.nodup_cons.mpr ⟨hnew, hc.sections⟩, hc.documents⟩
    | body hdocument =>
      exact ⟨List.nodup_cons.mpr ⟨hnew, hc.sections⟩,
        List.nodup_cons.mpr ⟨hdocument, hc.documents⟩⟩
    | tooltip houter ht hdocument =>
      -- a tooltip is rendered inside of the outermost document, so that one is open too
      refine ⟨List.nodup_cons.mpr ⟨hnew, hc.sections⟩, ?_⟩
      simp [insideSection, insideDocument, houter, hdocument]

/-! ## Nesting in the page -/

/-- The names that are open in the frames are open in the scope. -/
structure Covers (scope : Scope) (opened : List (FrameKind × String)) : Prop where
  sections : ∀ id, (FrameKind.division, id) ∈ opened → id ∈ scope.sections
  documents : ∀ id, (FrameKind.article, id) ∈ opened → id ∈ scope.documents.map (·.id)

/-- The frames have no name that is open in their scope. -/
def WalksGuarded (walk : Scope → Block → List Frame) : Prop :=
  ∀ (scope : Scope) (b : Block) (opened : List (FrameKind × String)), scope.Covers opened →
    Frame.GuardedList opened (walk scope b)

section Nesting

variable {walk : Scope → Block → List Frame} (hwalk : WalksGuarded walk) {scope : Scope}
variable {opened : List (FrameKind × String)} (hopened : scope.Covers opened)

include hwalk hopened

theorem sectionFrames_guarded (mode : SectionMode) (s : Section) :
    Frame.GuardedList opened (sectionFrames walk scope mode s) := by
  unfold sectionFrames
  split
  · trivial
  · next hnew =>
    refine ⟨⟨fun id hid hmem => ?_, Frame.guardedList_flatMap fun b _ =>
      hwalk _ b _ ⟨?_, ?_⟩⟩, trivial⟩
    · cases hid
      exact hnew (List.contains_iff_mem.mpr (hopened.sections s.id hmem))
    · intro id hid
      rcases List.mem_cons.mp hid with hid | hid
      · cases hid
        exact List.mem_cons_self
      · exact List.mem_cons_of_mem _ (hopened.sections id hid)
    · intro id hid
      rcases List.mem_cons.mp hid with hid | hid
      · cases hid
      · exact hopened.documents id hid

theorem articleFrames_guarded (d : Document) :
    Frame.GuardedList opened (articleFrames walk scope d) := by
  unfold articleFrames
  split
  · trivial
  · next hnew =>
    have hcovers : (scope.insideDocument d).Covers ((.article, d.id) :: opened) := by
      refine ⟨fun id hid => ?_, fun id hid => ?_⟩
      · rcases List.mem_cons.mp hid with hid | hid
        · cases hid
        · exact hopened.sections id hid
      · rcases List.mem_cons.mp hid with hid | hid
        · cases hid
          exact List.mem_cons_self
        · exact List.mem_cons_of_mem _ (hopened.documents id hid)
    refine ⟨⟨fun id hid hmem => ?_, Frame.guardedList_flatMap fun s _ =>
      sectionFrames_guarded hwalk hcovers .anchored s⟩, trivial⟩
    cases hid
    exact hnew (any_id_iff.mpr (hopened.documents d.id hmem))

omit hopened in
theorem outlineWith_guarded : WalksGuarded (outlineWith walk) := by
  intro scope b opened hopened
  by_cases hsimple : b.isSimple = true
  · rw [outlineWith_simple walk scope hsimple]
    exact Frame.guardedList_flatMap fun b' _ => hwalk scope b' opened hopened
  · cases b with
    | subsection s =>
      have hdeeper : Covers { scope with level := scope.level + 1 } opened :=
        ⟨hopened.sections, hopened.documents⟩
      exact sectionFrames_guarded hwalk hdeeper _ s
    | sectionRef r =>
      exact Frame.guardedList_flatMap fun s _ => sectionFrames_guarded hwalk hopened _ s
    | document d => exact articleFrames_guarded hwalk hopened d
    | _ => exact absurd rfl hsimple

omit hwalk hopened in
theorem outline_guarded (budget : Nat) : WalksGuarded (outline budget) := by
  induction budget with
  | zero => exact fun _ _ _ _ => trivial
  | succ budget ih => exact outlineWith_guarded ih

end Nesting

/-- The frames of a page: the sections of the body, then the tooltip documents. -/
def pageFrames (budget : Nat) (scope : Scope) (d : Document) (queue : List Document) : List Frame :=
  [.mk .article (some d.id) none
    (d.body.flatMap (sectionFrames (outline budget) (scope.insideDocument d) .anchored) ++
      queue.flatMap (articleFrames (outline budget) (scope.insideDocument d)))]

end Scope

/-! ## Documents -/

/-- A limit on nesting that rendering the document does not reach. -/
def Document.nesting (d : Document) : Nat :=
  ((Part.sectionIds d.parts).length + 1) * (d.parts.length + 2)

namespace Renderer

open Scope Markup

/-- The blocks, with their scopes, that rendering a document calls for, directly or through
others. -/
def Called (r : Renderer) (view : View) (d : Document) : Scope × Block → Prop :=
  Relation.TransGen (Calls (Part.tooltips d.parts)) (r.scope view d.parts, .document d)

/-- What is said of rendering a document: it depends on its calls only, without a limit it is the
total function `walk`, and nothing is opened inside itself. -/
structure EndsByItself (r : Renderer) (view : View) (d : Document)
    (walk : BlockRenderer) : Prop where
  /-- The document depends on the blocks it calls for. -/
  ofCalls : ∀ other, AgreeOnCalls (Part.tooltips d.parts) r.block other
      (r.scope view d.parts, .document d) →
    r.document view d = ((article other (r.scope view d.parts) d).run []).1
  /-- So does every block that is called for. -/
  blockOfCalls : ∀ c, r.Called view d c → ∀ f g, AgreeOnCalls (Part.tooltips d.parts) f g c →
    ∀ number, blockWith f c.1 number c.2 = blockWith g c.1 number c.2
  /-- Without a limit, every block is rendered from its calls. -/
  total : ∀ c, r.Called view d c → ∀ number,
    walk c.1 number c.2 = blockWith walk c.1 number c.2
  /-- This determines the markup of every block. -/
  unique : ∀ other : BlockRenderer,
    (∀ c, r.Called view d c → ∀ number, other c.1 number c.2 = blockWith other c.1 number c.2) →
    ∀ c, r.Called view d c → ∀ number, other c.1 number c.2 = walk c.1 number c.2
  /-- A limit above the nesting of the document changes nothing. -/
  unlimited : d.nesting ≤ r.settings.maxDepth →
    r.document view d = ((article walk (r.scope view d.parts) d).run []).1
  /-- No section is open twice, and no document. -/
  openOnce : ∀ c, r.Called view d c →
    c.1.sections.Nodup ∧ (c.1.documents.map (·.id)).Nodup
  /-- Every tooltip document that is asked for is rendered once, and none with the same id again. -/
  tooltipsOnce : ∃ queue : List Document, (queue.map (·.id)).Nodup ∧ queue ⊆ Part.tooltips d.parts ∧
    (article r.block (r.scope view d.parts) d).run [] =
      ([.node "article" (articleAttrs d) (frontMarkup r.block (r.scope view d.parts) d ++
        tooltipAside r.block ((r.scope view d.parts).insideDocument d) queue)], queue)
  /-- No section stands inside another one of its name, and no article. -/
  neverNested : NeverNested "section" "data-section-id" (r.document view d) ∧
    NeverNested "article" "data-document-id" (r.document view d)

variable {r : Renderer} {view : View} {d : Document}

theorem tooltips_document (d : Document) :
    Part.tooltips (Block.document d).parts = Part.tooltips d.parts := by
  rw [Block.parts]
  rfl

theorem closed_document (d : Document) : Part.Closed (Block.document d).parts := by
  rw [Block.parts]
  exact d.parts_closed.cons rfl

/-- The call that a page starts with. -/
theorem keeps_start (r : Renderer) (view : View) (d : Document) :
    Keeps (Block.document d).parts (r.scope view d.parts, .document d) :=
  ⟨List.forall_mem_nil _, List.Subperm.refl _⟩

theorem Called.keeps {c : Scope × Block} (h : r.Called view d c) :
    Keeps (Block.document d).parts c ∧ c.1.documents ≠ [] := by
  have hstep : ∀ c c', Calls (Part.tooltips d.parts) c c' → Keeps (Block.document d).parts c →
      Keeps (Block.document d).parts c' := by
    intro c c' hcalls hc
    rw [← tooltips_document] at hcalls
    exact hc.calls (closed_document d) hcalls
  induction h with
  | single hcalls =>
    exact ⟨hstep _ _ hcalls (keeps_start r view d), hcalls.isInside (.inr ⟨d, rfl⟩)⟩
  | tail _ hcalls ih => exact ⟨hstep _ _ hcalls ih.1, hcalls.isInside (.inl ih.2)⟩

theorem Called.openOnce {c : Scope × Block} (h : r.Called view d c) : c.1.OpenOnce := by
  have hstart : (r.scope view d.parts).OpenOnce := ⟨List.nodup_nil, List.nodup_nil⟩
  induction h with
  | single hcalls => exact OpenOnce.calls hstart hcalls
  | tail _ hcalls ih => exact OpenOnce.calls ih hcalls

theorem height_start_le (r : Renderer) (view : View) (d : Document) :
    height (Block.document d).parts (r.scope view d.parts, .document d) ≤ d.nesting := by
  have hlength : (Block.document d).parts.length = d.parts.length + 1 := by
    rw [Block.parts, List.length_cons]
  have hids : Part.sectionIds (Block.document d).parts = Part.sectionIds d.parts := by
    rw [Block.parts]
    rfl
  have hunopened : unopened (Block.document d).parts (r.scope view d.parts) ≤
      (Part.sectionIds d.parts).length := by
    rw [unopened, hids]
    exact List.length_filter_le _ _
  have hmul := Nat.mul_le_mul_right (d.parts.length + 2) hunopened
  show unopened _ _ * ((Block.document d).parts.length + 1) + (Block.document d).parts.length ≤ _
  rw [hlength, Document.nesting, Nat.add_one_mul]
  exact Nat.add_le_add hmul (Nat.le_succ _)

theorem framesList_document (r : Renderer) (view : View) (d : Document) :
    ∃ queue, IsQueue d.parts queue ∧ framesList (r.document view d) =
      pageFrames r.settings.maxDepth (r.scope view d.parts) d queue := by
  obtain ⟨queue, hqueue, hrun, hframes⟩ :=
    article_run (emits_renderBlock d.parts r.settings.maxDepth)
    (rfl : (r.scope view d.parts).documents = []) (Nat.le_refl _)
  have hdocument : r.document view d = _ := congrArg Prod.fst hrun
  refine ⟨queue, hqueue, ?_⟩
  rw [hdocument, framesList_cons, node, frames, framed_articleAttrs, hframes]
  rfl

/-- The frames of a document have nothing inside itself. -/
theorem document_guarded (r : Renderer) (view : View) (d : Document) :
    Frame.GuardedList [] (framesList (r.document view d)) := by
  obtain ⟨queue, -, hframes⟩ := r.framesList_document view d
  have hcovers : ((r.scope view d.parts).insideDocument d).Covers [(.article, d.id)] := by
    refine ⟨fun id hid => ?_, fun id hid => ?_⟩
    · cases List.mem_singleton.mp hid
    · cases List.mem_singleton.mp hid
      exact List.mem_cons_self
  have hwalk := outline_guarded r.settings.maxDepth
  rw [hframes]
  refine ⟨⟨fun _ _ => List.not_mem_nil, (Frame.guardedList_append _ _ _).mpr ⟨?_, ?_⟩⟩, trivial⟩
  · exact Frame.guardedList_flatMap fun s _ => sectionFrames_guarded hwalk hcovers .anchored s
  · exact Frame.guardedList_flatMap fun t _ => articleFrames_guarded hwalk hcovers t

/-- Rendering a document ends by itself, for every renderer and every view. -/
theorem document_endsByItself (d : Document) :
    ∃ walk : BlockRenderer, ∀ (r : Renderer) (view : View), r.EndsByItself view d walk := by
  refine ⟨Scope.unlimited (Block.document d).parts, fun r view => ?_⟩
  have hemits := emits_renderBlock d.parts r.settings.maxDepth
  have hclosed := closed_document d
  have hcalls : ∀ other, AgreeOnCalls (Part.tooltips d.parts) r.block other
      (r.scope view d.parts, .document d) →
      r.document view d = ((article other (r.scope view d.parts) d).run []).1 :=
    fun other h => congrArg Prod.fst (article_congr hemits rfl h)
  obtain ⟨queue, hqueue, hrun, -⟩ := article_run hemits
    (rfl : (r.scope view d.parts).documents = []) (Nat.le_refl _)
  refine
    { ofCalls := hcalls
      blockOfCalls := fun c hc f g h number => blockWith_congr hc.keeps.2 h number
      total := fun c hc number => unlimited_eq hclosed hc.keeps.1 hc.keeps.2 number
      unique := fun other hother c hc number => ?_
      unlimited := fun hlimit => hcalls _ fun c hc number => ?_
      openOnce := fun c hc => ⟨hc.openOnce.sections, hc.openOnce.documents⟩
      tooltipsOnce := ⟨queue, hqueue.nodup, hqueue.subset, hrun⟩
      neverNested := ⟨neverNested_of_guarded (document_guarded r view d) .division,
        neverNested_of_guarded (document_guarded r view d) .article⟩ }
  · refine eq_unlimited hclosed (fun c c' hc hcalls => ?_) (fun c hc => hc.keeps) hother hc number
    rw [tooltips_document] at hcalls
    exact hc.tail hcalls
  · have hcalled : r.Called view d c := .single hc
    have hbound := height_start_le r view d
    have hlt : height (Block.document d).parts c <
        height (Block.document d).parts (r.scope view d.parts, .document d) := by
      rw [← tooltips_document] at hc
      exact hc.height_lt hclosed (keeps_start r view d)
    exact renderBlock_eq_unlimited hclosed hcalled.keeps.1 hcalled.keeps.2 (by omega) number

end Renderer

end Compendium
