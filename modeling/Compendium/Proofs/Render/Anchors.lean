import Compendium.Proofs.Render.Walk
import Mathlib.Data.List.Count
import Mathlib.Data.List.Flatten

/-!
# Ids of sections

A section of the body carries its id; a copy that a reference pulls in does not, and neither do the
sections inside the copy. The body of an embedded document is the exception: its sections carry
their ids even if the document stands in a copy, so a section that holds an embedded document and
that is also referenced puts the ids of that document on the page twice. Apart from the documents in
copies every id is on the page at most once, since the ids there are counted by the sections among
the parts of the document. If no reference leads to an embedded document with sections, nothing has
to be set apart.
-/

namespace Compendium

namespace Scope

open Compendium.Frame

/-! ## Copies -/

theorem anchorsList_flatMap_nil {α : Type} {l : List α} {f : α → List Frame}
    (h : ∀ a ∈ l, anchorsList (f a) = []) : anchorsList (l.flatMap f) = [] := by
  rw [anchorsList_flatMap]
  exact List.flatMap_eq_nil_iff.mpr h

mutual

theorem quiet_of_anchors_nil : ∀ f : Frame, anchors f = [] → Quiet f
  | .mk kind name anchor inner, h => by
    rw [anchors, List.append_eq_nil_iff] at h
    exact ⟨fun _ _ => h.2, quietList_of_anchorsList_nil inner h.2⟩

theorem quietList_of_anchorsList_nil : ∀ fs : List Frame, anchorsList fs = [] → QuietList fs
  | [], _ => trivial
  | f :: rest, h => by
    rw [anchorsList, List.append_eq_nil_iff] at h
    exact ⟨quiet_of_anchors_nil f h.1, quietList_of_anchorsList_nil rest h.2⟩

end

theorem emptiedList_sectionFrames (inCopy : Bool) (walk : Scope → Block → List Frame)
    (scope : Scope) (mode : SectionMode) (s : Section) :
    emptiedList inCopy (sectionFrames walk scope mode s) =
      sectionFrames (fun inner b => emptiedList (inCopy || mode.isCopy) (walk inner b))
        scope mode s := by
  unfold sectionFrames
  split
  · rfl
  · have hcopy : (if mode.isCopy then none else some s.id).isNone = mode.isCopy := by
      cases mode.isCopy <;> rfl
    rw [emptiedList, emptiedList, emptied_division, hcopy, emptiedList_flatMap]

theorem emptiedList_articleFrames (walk : Scope → Block → List Frame) (scope : Scope)
    (e : Document) :
    emptiedList false (articleFrames walk scope e) =
      articleFrames (fun inner b => emptiedList false (walk inner b)) scope e := by
  unfold articleFrames
  split
  · rfl
  · rw [emptiedList, emptiedList, emptied_article, if_neg Bool.false_ne_true, emptiedList_flatMap]
    simp only [emptiedList_sectionFrames]
    rfl

theorem anchorsList_copy {walk : Scope → Block → List Frame} {scope : Scope} {showTitle : Bool}
    {s : Section}
    (h : ∀ b ∈ s.content, anchorsList (walk (scope.insideSection (.copy showTitle) s) b) = []) :
    anchorsList (sectionFrames walk scope (.copy showTitle) s) = [] := by
  unfold sectionFrames
  split
  · rfl
  · rw [anchorsList, anchors, anchorsList_flatMap_nil h]
    rfl

/-- There are no ids in a copy, apart from its documents. -/
theorem anchorsList_outline_copy (budget : Nat) {scope : Scope} (hcopy : scope.references ≠ 0)
    (b : Block) : anchorsList (emptiedList true (outline budget scope b)) = [] := by
  induction budget generalizing scope b with
  | zero => rfl
  | succ budget ih =>
    rw [outline]
    by_cases hsimple : b.isSimple = true
    · rw [outlineWith_simple _ _ hsimple, emptiedList_flatMap]
      exact anchorsList_flatMap_nil fun b' _ => ih hcopy b'
    · cases b with
      | subsection s =>
        have hmode : ∃ showTitle, scope.nestedMode s = .copy showTitle := ⟨_, if_neg hcopy⟩
        obtain ⟨showTitle, hmode⟩ := hmode
        rw [outlineWith, hmode, emptiedList_sectionFrames]
        exact anchorsList_copy fun b' _ => ih (Nat.succ_ne_zero _) b'
      | sectionRef ref =>
        rw [outlineWith, emptiedList_flatMap]
        refine anchorsList_flatMap_nil fun s _ => ?_
        rw [emptiedList_sectionFrames]
        exact anchorsList_copy fun b' _ => ih (Nat.succ_ne_zero _) b'
      | document e =>
        -- all that is left of a document is its frame
        rw [outlineWith]
        unfold articleFrames
        split <;> rfl
      | _ => exact absurd rfl hsimple

/-- A reference puts no ids on the page, apart from its documents. -/
theorem anchorsList_reference (budget : Nat) (scope : Scope) (ref : SectionRef) :
    anchorsList
      (emptiedList false (outlineWith (outline budget) scope (.sectionRef ref))) = [] := by
  rw [outlineWith, emptiedList_flatMap]
  refine anchorsList_flatMap_nil fun s _ => ?_
  rw [emptiedList_sectionFrames]
  exact anchorsList_copy fun b _ => anchorsList_outline_copy budget (Nat.succ_ne_zero _) b

theorem sectionFrames_quiet {walk : Scope → Block → List Frame} {scope : Scope} {s : Section}
    (h : ∀ b ∈ s.content, QuietList (walk (scope.insideSection .anchored s) b)) :
    QuietList (sectionFrames walk scope .anchored s) := by
  unfold sectionFrames
  split
  · trivial
  · exact ⟨⟨fun _ hnone => (nomatch hnone), quietList_flatMap h⟩, trivial⟩

theorem articleFrames_quiet {walk : Scope → Block → List Frame} {scope : Scope}
    (hreferences : scope.references = 0)
    (h : ∀ inner : Scope, inner.references = 0 → ∀ b, QuietList (walk inner b)) (e : Document) :
    QuietList (articleFrames walk scope e) := by
  unfold articleFrames
  split
  · trivial
  · refine ⟨⟨nofun, quietList_flatMap fun s _ => ?_⟩, trivial⟩
    exact sectionFrames_quiet fun b _ =>
      h (insideSection (insideDocument scope e) .anchored s) hreferences b

/-- Outside of copies, there are ids only outside of copies. -/
theorem outline_quiet (budget : Nat) (scope : Scope)
    (hreferences : scope.references = 0) (b : Block) :
    QuietList (emptiedList false (outline budget scope b)) := by
  induction budget generalizing scope b with
  | zero => trivial
  | succ budget ih =>
    rw [outline]
    by_cases hsimple : b.isSimple = true
    · rw [outlineWith_simple _ _ hsimple, emptiedList_flatMap]
      exact quietList_flatMap fun b' _ => ih scope hreferences b'
    · cases b with
      | subsection s =>
        have hmode : scope.nestedMode s = .anchored := if_pos hreferences
        rw [outlineWith, hmode, emptiedList_sectionFrames]
        refine sectionFrames_quiet fun b' _ => ?_
        exact ih (insideSection { scope with level := scope.level + 1 } .anchored s) hreferences b'
      | sectionRef ref =>
        exact quietList_of_anchorsList_nil _ (anchorsList_reference budget scope ref)
      | document e =>
        rw [outlineWith, emptiedList_articleFrames]
        exact articleFrames_quiet hreferences ih e
      | _ => exact absurd rfl hsimple

/-! ## Accounting for ids

`shown` are ids on the page, and `A t` the ids that the tooltip document `t` puts on the page. Both
together are accounted for by the sections of the parts, the tooltips being those of the parts. -/

/-- Ids, and the ids of all tooltips of the parts, are no more than the sections of the parts. -/
def Accounted (A : Document → List String) (shown : List String) (parts : List Part) : Prop :=
  ∀ id, shown.count id + ((Part.tooltips parts).flatMap A).count id ≤
    (Part.sectionIds parts).count id

section Accounted

variable {A : Document → List String} {shown more : List String} {l m : List Part}

theorem accounted_nil : Accounted A [] [] :=
  fun _ => Nat.le_refl _

theorem Accounted.append (hl : Accounted A shown l) (hm : Accounted A more m) :
    Accounted A (shown ++ more) (l ++ m) := by
  intro id
  have hl := hl id
  have hm := hm id
  have hids : Part.sectionIds (l ++ m) = Part.sectionIds l ++ Part.sectionIds m :=
    List.filterMap_append
  rw [Part.tooltips_append, hids, List.flatMap_append, List.count_append, List.count_append,
    List.count_append]
  omega

theorem Accounted.perm (h : Accounted A shown l) (hperm : l.Perm m) : Accounted A shown m := by
  intro id
  have htooltips : (Part.tooltips l).Perm (Part.tooltips m) := hperm.filterMap _
  have hids : (Part.sectionIds l).Perm (Part.sectionIds m) := hperm.filterMap _
  rw [← hids.count_eq, ← (htooltips.flatMap_right A).count_eq]
  exact h id

theorem Accounted.cons {part : Part} (htooltip : part.tooltip? = none) (h : Accounted A shown l) :
    Accounted A shown (part :: l) := by
  intro id
  have hmore : (Part.sectionIds l).Sublist (Part.sectionIds (part :: l)) :=
    (List.sublist_cons_self part l).filterMap _
  have hl := h id
  have hcount := hmore.count_le id
  rw [Part.tooltips, List.filterMap_cons_none htooltip]
  exact Nat.le_trans hl hcount

theorem Accounted.cons_division (s : Section) (h : Accounted A shown l) :
    Accounted A (s.id :: shown) (.division s :: l) := by
  intro id
  have h := h id
  have hids : Part.sectionIds (.division s :: l) = s.id :: Part.sectionIds l := rfl
  have htooltips : Part.tooltips (.division s :: l) = Part.tooltips l := rfl
  rw [hids, htooltips, List.count_cons, List.count_cons]
  omega

/-- Fewer ids are accounted for as well. -/
theorem Accounted.mono (h : Accounted A shown l) (hsub : more.Sublist shown) :
    Accounted A more l := by
  intro id
  have h := h id
  have hcount := hsub.count_le id
  omega

theorem accounted_flatMap {α : Type} {ids : α → List String} {f : α → List Part} {items : List α}
    (h : ∀ a ∈ items, Accounted A (ids a) (f a)) :
    Accounted A (items.flatMap ids) (items.flatMap f) := by
  induction items with
  | nil => exact accounted_nil
  | cons a rest ih =>
    obtain ⟨ha, hrest⟩ := List.forall_mem_cons.mp h
    rw [List.flatMap_cons, List.flatMap_cons]
    exact ha.append (ih hrest)

/-- What is not shown puts no ids on the page. A link to a tooltip document stands with the sections
of that document. -/
theorem accounted_laws (A : Document → List String) :
    Part.Laws (Accounted A []) fun t => Accounted A (A t) t.parts where
  nil := accounted_nil
  append := Accounted.append
  perm := Accounted.perm
  cons := Accounted.cons
  link := by
    intro content t tooltip hcontent hdocument id
    have hshown := hcontent.append hdocument id
    have htooltips : Part.tooltips (Inline.link content (.tooltip t) tooltip).parts =
        t :: Part.tooltips (Inline.partsList content ++ t.parts) := by
      rw [Inline.parts, LinkTarget.parts]
      rfl
    have hids : Part.sectionIds (Inline.link content (.tooltip t) tooltip).parts =
        Part.sectionIds (Inline.partsList content ++ t.parts) := by
      rw [Inline.parts, LinkTarget.parts]
      rfl
    rw [htooltips, hids, List.flatMap_cons, List.count_append]
    rw [List.nil_append] at hshown
    rw [List.count_nil]
    omega
  document := fun h => h.mono (List.nil_sublist _)

end Accounted

theorem anchorsList_sectionFrames (walk : Scope → Block → List Frame) (scope : Scope)
    (s : Section) :
    (anchorsList (sectionFrames walk scope .anchored s)).Sublist
      (s.id :: s.content.flatMap fun b =>
        anchorsList (walk (scope.insideSection .anchored s) b)) := by
  unfold sectionFrames
  split
  · exact List.nil_sublist _
  · rw [anchorsList, anchors, anchorsList_flatMap, anchorsList, List.append_nil]
    exact .refl _

theorem anchorsList_articleFrames (walk : Scope → Block → List Frame) (scope : Scope)
    (e : Document) :
    (anchorsList (articleFrames walk scope e)).Sublist
      (e.body.flatMap fun s =>
        anchorsList (sectionFrames walk (scope.insideDocument e) .anchored s)) := by
  unfold articleFrames
  split
  · exact List.nil_sublist _
  · rw [anchorsList_article, anchorsList_flatMap]

theorem length_parts_pos (b : Block) : 0 < b.parts.length := by
  cases b <;> rw [Block.parts] <;> exact Nat.succ_pos _

def tooltipIds (budget : Nat) (outer : Scope) (t : Document) : List String :=
  anchorsList (emptiedList false (articleFrames (outline budget) outer t))

/-- Outside of copies, everything that has at most `n` parts is accounted for. -/
structure AccountedUpTo (A : Document → List String) (n : Nat) : Prop where
  blocks : ∀ b : Block, b.parts.length ≤ n → ∀ budget (scope : Scope), scope.references = 0 →
    Accounted A (anchorsList (emptiedList false (outline budget scope b))) b.parts
  documents : ∀ e : Document, e.parts.length ≤ n → ∀ budget (scope : Scope), scope.references = 0 →
    Accounted A (anchorsList (emptiedList false (articleFrames (outline budget) scope e))) e.parts

section AccountedUpTo

variable {n budget : Nat} {outer : Scope} (houter : outer.references = 0)

include houter

theorem AccountedUpTo.tooltip (ih : AccountedUpTo (tooltipIds budget outer) n) (t : Document)
    (ht : t.parts.length < n + 1) :
    Accounted (tooltipIds budget outer) (tooltipIds budget outer t) t.parts :=
  ih.documents t (Nat.le_of_lt_succ ht) budget outer houter

theorem AccountedUpTo.division (ih : AccountedUpTo (tooltipIds budget outer) n) {s : Section}
    (hn : s.parts.length ≤ n + 1) {ids : Block → List String}
    (hids : ∀ b : Block, b.parts.length ≤ n → Accounted (tooltipIds budget outer) (ids b) b.parts) :
    Accounted (tooltipIds budget outer) (s.id :: s.content.flatMap ids) s.parts := by
  rw [Section.parts_eq, List.length_cons, List.length_append] at hn
  rw [Section.parts_eq]
  have htexts := (accounted_laws _).texts (ih.tooltip houter) s.title.toList (by omega)
  refine (htexts.append (accounted_flatMap fun b hb => ?_)).cons_division s
  have hle : b.parts.length ≤ _ := Part.length_le_flatMap hb
  exact hids b (by omega)

theorem AccountedUpTo.simple (ih : AccountedUpTo (tooltipIds budget outer) n) (r : Renderer)
    {b : Block} (hsimple : b.isSimple = true) (hn : b.parts.length ≤ n + 1)
    {ids : Block → List String}
    (hids : ∀ b : Block, b.parts.length ≤ n → Accounted (tooltipIds budget outer) (ids b) b.parts) :
    Accounted (tooltipIds budget outer) ((b.inner r).flatMap ids) b.parts := by
  have laws := accounted_laws (tooltipIds budget outer)
  have hperm := b.parts_perm r hsimple
  have hlength := hperm.length_eq
  rw [List.length_cons, List.length_append, List.length_append] at hlength
  have htexts := laws.texts (ih.tooltip houter) b.texts (by omega)
  have hhidden : Accounted (tooltipIds budget outer) [] ((b.hidden r).flatMap Block.parts) := by
    refine laws.flatMap fun b' hb' => ?_
    have hle : b'.parts.length ≤ _ := Part.length_le_flatMap hb'
    exact laws.block (ih.tooltip houter) n (Nat.le_succ n) b' (by omega)
  have hshown : Accounted (tooltipIds budget outer) ((b.inner r).flatMap ids)
      ((b.inner r).flatMap Block.parts) := by
    refine accounted_flatMap fun b' hb' => ?_
    have hle : b'.parts.length ≤ _ := Part.length_le_flatMap hb'
    exact hids b' (by omega)
  exact Accounted.perm (Accounted.cons rfl ((htexts.append hhidden).append hshown)) hperm.symm

theorem AccountedUpTo.blocks_succ (ih : AccountedUpTo (tooltipIds budget outer) n) (b : Block)
    (hn : b.parts.length ≤ n + 1) (steps : Nat) (scope : Scope) (hscope : scope.references = 0) :
    Accounted (tooltipIds budget outer) (anchorsList (emptiedList false (outline steps scope b)))
      b.parts := by
  cases steps with
  | zero => exact (accounted_laws _).block (ih.tooltip houter) (n + 1) (Nat.le_refl _) b hn
  | succ steps =>
    rw [outline]
    by_cases hsimple : b.isSimple = true
    · rw [outlineWith_simple _ _ hsimple, emptiedList_flatMap, anchorsList_flatMap]
      exact ih.simple houter scope.renderer hsimple hn fun b' hn' =>
        ih.blocks b' hn' steps scope hscope
    · cases b with
      | subsection s =>
        have hmode : scope.nestedMode s = .anchored := if_pos hscope
        rw [Block.parts, List.length_cons] at hn
        rw [outlineWith, hmode, emptiedList_sectionFrames, Block.parts]
        refine Accounted.cons rfl (Accounted.mono ?_ (anchorsList_sectionFrames _ _ s))
        exact ih.division houter (by omega) fun b' hn' => ih.blocks b' hn' steps
          (insideSection { scope with level := scope.level + 1 } .anchored s) hscope
      | sectionRef ref =>
        rw [anchorsList_reference]
        exact accounted_nil.cons rfl
      | document e =>
        rw [Block.parts, List.length_cons] at hn
        rw [outlineWith, Block.parts]
        exact (ih.documents e (by omega) steps scope hscope).cons rfl
      | _ => exact absurd rfl hsimple

theorem AccountedUpTo.documents_succ (ih : AccountedUpTo (tooltipIds budget outer) n) (e : Document)
    (hn : e.parts.length ≤ n + 1) (steps : Nat) (scope : Scope) (hscope : scope.references = 0) :
    Accounted (tooltipIds budget outer)
      (anchorsList (emptiedList false (articleFrames (outline steps) scope e))) e.parts := by
  have hlength := e.parts_perm.length_eq
  rw [List.length_cons, List.length_append] at hlength
  have htexts := (accounted_laws _).texts (ih.tooltip houter) e.texts (by omega)
  rw [emptiedList_articleFrames]
  refine Accounted.mono (Accounted.perm (Accounted.cons rfl ?_) e.parts_perm.symm)
    (anchorsList_articleFrames _ _ e)
  refine htexts.append (accounted_flatMap fun s hs => ?_)
  have hle : s.parts.length ≤ _ := Part.length_le_flatMap hs
  refine Accounted.mono ?_ (anchorsList_sectionFrames _ _ s)
  exact ih.division houter (by omega) fun b hn' => ih.blocks b hn' steps
    (insideSection (insideDocument scope e) .anchored s) hscope

omit houter in
theorem accountedUpTo (budget : Nat) {outer : Scope} (houter : outer.references = 0) (n : Nat) :
    AccountedUpTo (tooltipIds budget outer) n := by
  induction n with
  | zero =>
    refine ⟨fun b hn => ?_, fun e hn => ?_⟩
    · have hpos := length_parts_pos b
      omega
    · have hlength := e.parts_perm.length_eq
      rw [List.length_cons] at hlength
      omega
  | succ n ih => exact ⟨ih.blocks_succ houter, ih.documents_succ houter⟩

end AccountedUpTo

end Scope

/-! ## What a section shows -/

/-- The second block is shown inside the first, in the same document. -/
inductive Block.Shows (r : Renderer) : Block → Block → Prop
  | refl (b : Block) : Shows r b b
  | inside {b b' shown : Block} (hb : b' ∈ b.inner r) (h : Shows r b' shown) : Shows r b shown
  | subsection {s : Section} {b' shown : Block} (hb : b' ∈ s.content) (h : Shows r b' shown) :
    Shows r (.subsection s) shown

/-- The block is shown in the section. -/
def Section.Shows (r : Renderer) (s : Section) (shown : Block) : Prop :=
  ∃ b ∈ s.content, b.Shows r shown

/-- The block is shown in the document, and not in one inside it. -/
def Document.Shows (r : Renderer) (d : Document) (shown : Block) : Prop :=
  ∃ s ∈ d.body, s.Shows r shown

/-- No section that a reference of the document leads to shows an embedded document with
sections. -/
def Document.ReferencesPlain (r : Renderer) (d : Document) : Prop :=
  ∀ ref s, d.Shows r (.sectionRef ref) → d.findSection? ref.sectionId = some s →
    ∀ e, s.Shows r (.document e) → e.body = []

theorem Block.Shows.trans {r : Renderer} {a b c : Block} (hab : a.Shows r b) (hbc : b.Shows r c) :
    a.Shows r c := by
  induction hab with
  | refl => exact hbc
  | inside hb _ ih => exact .inside hb (ih hbc)
  | subsection hb _ ih => exact .subsection hb (ih hbc)

theorem Document.Shows.trans {r : Renderer} {d : Document} {b c : Block} (h : d.Shows r b)
    (hbc : b.Shows r c) : d.Shows r c := by
  obtain ⟨s, hs, b', hb', hshows⟩ := h
  exact ⟨s, hs, b', hb', hshows.trans hbc⟩

theorem Section.Encloses.shows {r : Renderer} {s t : Section} (h : s.Encloses t) {b : Block}
    (hb : b ∈ t.content) : s.Shows r b := by
  induction h with
  | refl s => exact ⟨b, hb, .refl b⟩
  | step hu _ ih =>
    obtain ⟨b', hb', hshows⟩ := ih hb
    exact ⟨_, hu, .subsection hb' hshows⟩

theorem Document.shows_of_findSection? {r : Renderer} {d : Document} {id : String} {t : Section}
    (h : d.findSection? id = some t) {b : Block} (hb : b ∈ t.content) : d.Shows r b := by
  obtain ⟨s, hs, hfound⟩ := Section.find?_of_findInList? h
  exact ⟨s, hs, (Section.encloses_of_find? hfound).shows hb⟩

/-- References of a document are plain if nothing in it shows an embedded document with sections. -/
theorem Document.referencesPlain_of_shows {r : Renderer} {d : Document}
    (h : ∀ e, d.Shows r (.document e) → e.body = []) : d.ReferencesPlain r := by
  intro ref s _ hfound e hshows
  obtain ⟨b, hb, hshown⟩ := hshows
  exact h e ((Document.shows_of_findSection? hfound hb).trans hshown)

namespace Scope

open Compendium.Frame

/-- The references of every document among the parts are plain. -/
def PlainParts (r : Renderer) (W : List Part) : Prop :=
  ∀ e, Part.document e ∈ W → e.ReferencesPlain r

def inCopy (scope : Scope) : Bool :=
  scope.references != 0

theorem inCopy_insideSection (scope : Scope) (mode : SectionMode) (s : Section) :
    (scope.insideSection mode s).inCopy = (scope.inCopy || mode.isCopy) := by
  unfold insideSection inCopy
  cases mode.isCopy <;> simp

theorem isCopy_nestedMode (scope : Scope) (s : Section) :
    (scope.nestedMode s).isCopy = scope.inCopy := by
  unfold nestedMode inCopy
  split
  · next hzero => rw [hzero]; rfl
  · next hcopy => exact (bne_iff_ne.mpr hcopy).symm

/-- The block is shown in the innermost document, whose references are plain, and if it stands in a
copy it shows no embedded document with sections. -/
structure Belongs (r : Renderer) (W : List Part) (scope : Scope) (b : Block) : Prop where
  renderer : scope.renderer = r
  document : ∃ d, scope.document? = some d ∧ d.ReferencesPlain r ∧ d.Shows r b
  outside : scope.inCopy = false → b.parts ⊆ W
  copied : scope.inCopy = true → ∀ e, b.Shows r (.document e) → e.body = []

section Belongs

variable {r : Renderer} {W : List Part} {scope : Scope} {b b' : Block}

theorem Belongs.inside (h : scope.Belongs r W b) (hsimple : b.isSimple = true)
    (hb : b' ∈ b.inner r) :
    scope.Belongs r W b' := by
  obtain ⟨d, hd, hplain, hshows⟩ := h.document
  have hinner := (Block.parts_subperm_of_mem_inner hsimple hb).subset
  exact
    { renderer := h.renderer
      document := ⟨d, hd, hplain, hshows.trans (.inside hb (.refl b'))⟩
      outside := fun hout => List.Subset.trans (List.cons_subset.mp hinner).2 (h.outside hout)
      copied := fun hin e he => h.copied hin e (.inside hb he) }

theorem Belongs.subsection {s : Section} (h : scope.Belongs r W (.subsection s))
    (hb : b ∈ s.content) :
    (insideSection { scope with level := scope.level + 1 }
      (scope.nestedMode s) s).Belongs r W b := by
  obtain ⟨d, hd, hplain, hshows⟩ := h.document
  have hcopy :
      (insideSection { scope with level := scope.level + 1 } (scope.nestedMode s) s).inCopy =
      scope.inCopy := by
    rw [inCopy_insideSection, isCopy_nestedMode]
    exact Bool.or_self _
  refine
    { renderer := h.renderer
      document := ⟨d, hd, hplain, hshows.trans (.subsection hb (.refl b))⟩
      outside := fun hout => ?_
      copied := fun hin e he => h.copied (hcopy.symm.trans hin) e (.subsection hb he) }
  have hparts := h.outside (hcopy.symm.trans hout)
  rw [Block.parts, List.cons_subset] at hparts
  exact List.Subset.trans (Section.parts_sublist_of_mem_content hb).subset hparts.2

/-- What a reference leads to belongs to the same document. -/
theorem Belongs.reference {ref : SectionRef} {s : Section} (h : scope.Belongs r W (.sectionRef ref))
    (hs : scope.referenced? ref = some s) (hb : b ∈ s.content) :
    (scope.insideSection (.copy ref.showTitle) s).Belongs r W b := by
  obtain ⟨d, hd, hplain, hshows⟩ := h.document
  have hcopy : (scope.insideSection (.copy ref.showTitle) s).inCopy = true := by
    rw [inCopy_insideSection]
    exact Bool.or_true _
  rw [referenced?, hd, Option.bind_some] at hs
  exact
    { renderer := h.renderer
      document := ⟨d, hd, hplain, Document.shows_of_findSection? hs hb⟩
      outside := fun hout => nomatch hcopy.symm.trans hout
      copied := fun _ e he => hplain ref s hshows hs e ⟨b, hb, he⟩ }

/-- The blocks of a body belong to its document. -/
theorem belongs_body (hplain : PlainParts r W) (hr : scope.renderer = r)
    (hout : scope.inCopy = false)
    {e : Document} (he : e.parts ⊆ W) {s : Section} (hs : s ∈ e.body) (hb : b ∈ s.content) :
    ((scope.insideDocument e).insideSection .anchored s).Belongs r W b := by
  have hself : Part.document e ∈ e.parts := e.parts_perm.symm.subset List.mem_cons_self
  have hsection : s.parts ⊆ W := List.Subset.trans (Document.parts_subperm_of_mem_body hs).subset he
  exact
    { renderer := hr
      document := ⟨e, rfl, hplain e (he hself), s, hs, b, hb, .refl b⟩
      outside :=
        fun _ => List.Subset.trans (Section.parts_sublist_of_mem_content hb).subset hsection
      copied := fun hin => nomatch hout.symm.trans hin }

end Belongs

theorem sectionFrames_congr {walk walk' : Scope → Block → List Frame} {scope : Scope}
    {mode : SectionMode} {s : Section}
    (h : ∀ b ∈ s.content, walk (scope.insideSection mode s) b =
      walk' (scope.insideSection mode s) b) :
    sectionFrames walk scope mode s = sectionFrames walk' scope mode s := by
  rw [sectionFrames, sectionFrames, List.flatMap_congr h]

theorem articleFrames_congr {walk walk' : Scope → Block → List Frame} {scope : Scope} {e : Document}
    (h : ∀ s ∈ e.body, sectionFrames walk (scope.insideDocument e) .anchored s =
      sectionFrames walk' (scope.insideDocument e) .anchored s) :
    articleFrames walk scope e = articleFrames walk' scope e := by
  rw [articleFrames, articleFrames, List.flatMap_congr h]

/-- Nothing is left out of a section if nothing is left out of its blocks. -/
theorem emptiedList_section {walk : Scope → Block → List Frame} {scope : Scope} {mode : SectionMode}
    {s : Section} (h : ∀ b ∈ s.content,
      emptiedList (scope.insideSection mode s).inCopy (walk (scope.insideSection mode s) b) =
        walk (scope.insideSection mode s) b) :
    emptiedList scope.inCopy (sectionFrames walk scope mode s) =
      sectionFrames walk scope mode s := by
  rw [emptiedList_sectionFrames]
  refine sectionFrames_congr fun b hb => ?_
  rw [← inCopy_insideSection scope mode s]
  exact h b hb

theorem emptiedList_document {walk : Scope → Block → List Frame} {scope : Scope}
    (hscope : scope.inCopy = false) {e : Document}
    (h : ∀ s ∈ e.body, ∀ b ∈ s.content,
      let inner := (scope.insideDocument e).insideSection .anchored s
      emptiedList inner.inCopy (walk inner b) = walk inner b) :
    emptiedList false (articleFrames walk scope e) = articleFrames walk scope e := by
  rw [emptiedList_articleFrames]
  refine articleFrames_congr fun s hs => sectionFrames_congr fun b hb => ?_
  have hcopy : ((scope.insideDocument e).insideSection .anchored s).inCopy = false := by
    rw [inCopy_insideSection, Bool.or_eq_false_iff]
    exact ⟨hscope, rfl⟩
  have hblock := h s hs b hb
  dsimp only at hblock
  rw [hcopy] at hblock
  exact hblock

/-- Nothing is left out of the outline if references are plain. -/
theorem emptiedList_outline {r : Renderer} {W : List Part} (hplain : PlainParts r W) (budget : Nat)
    {scope : Scope} {b : Block} (hb : scope.Belongs r W b) :
    emptiedList scope.inCopy (outline budget scope b) = outline budget scope b := by
  induction budget generalizing scope b with
  | zero => rfl
  | succ budget ih =>
    rw [outline]
    by_cases hsimple : b.isSimple = true
    · rw [outlineWith_simple _ _ hsimple, hb.renderer, emptiedList_flatMap]
      exact List.flatMap_congr fun b' hb' => ih (hb.inside hsimple hb')
    · cases b with
      | subsection s =>
        rw [outlineWith]
        exact emptiedList_section fun b' hb' => ih (hb.subsection hb')
      | sectionRef ref =>
        rw [outlineWith, emptiedList_flatMap]
        refine List.flatMap_congr fun s hs => emptiedList_section fun b' hb' => ?_
        exact ih (hb.reference (Option.mem_toList.mp hs) hb')
      | document e =>
        rw [outlineWith]
        cases hcopy : scope.inCopy with
        | false =>
          have hparts := hb.outside hcopy
          rw [Block.parts, List.cons_subset] at hparts
          exact emptiedList_document hcopy fun s hs b' hb' =>
            ih (belongs_body hplain hb.renderer hcopy hparts.2 hs hb')
        | true =>
          -- the frame of a document without sections is empty as it is
          have hbody : e.body = [] := hb.copied hcopy e (.refl _)
          unfold articleFrames
          rw [hbody]
          split <;> rfl
      | _ => exact absurd rfl hsimple

end Scope

/-! ## Pages -/

namespace Scope

open Compendium.Frame

section Page

variable (budget : Nat) {scope : Scope} (hreferences : scope.references = 0)

theorem emptiedList_pageFrames (scope : Scope) (d : Document) (queue : List Document) :
    emptiedList false (pageFrames budget scope d queue) =
      [.mk .article (some d.id) none
        (emptiedList false (d.body.flatMap
            (sectionFrames (outline budget) (scope.insideDocument d) .anchored)) ++
          queue.flatMap fun t =>
            emptiedList false (articleFrames (outline budget) (scope.insideDocument d) t))] := by
  rw [pageFrames, emptiedList, emptiedList, emptied_article, if_neg Bool.false_ne_true,
    emptiedList_append, emptiedList_flatMap false queue]

/-- The sections of the body carry their ids. -/
theorem body_sublist_pageFrames (hsections : scope.sections = []) (d : Document)
    (queue : List Document) :
    (d.body.map (·.id)).Sublist (anchorsList (pageFrames budget scope d queue)) := by
  have hnew : ∀ s : Section, (scope.insideDocument d).sections.contains s.id = false := by
    intro s
    show scope.sections.contains s.id = false
    rw [hsections]
    rfl
  rw [pageFrames, anchorsList_article, anchorsList_append, anchorsList_flatMap, List.map_eq_flatMap]
  refine List.Sublist.trans (List.Sublist.flatMap_right _ fun s _ => ?_)
    (List.sublist_append_left _ _)
  rw [sectionFrames, if_neg (Bool.not_eq_true _ ▸ hnew s), anchorsList, anchors]
  exact List.singleton_sublist.mpr List.mem_cons_self

include hreferences

theorem quiet_pageFrames (d : Document) (queue : List Document) :
    QuietList (emptiedList false (pageFrames budget scope d queue)) := by
  have hinner : (scope.insideDocument d).references = 0 := hreferences
  rw [emptiedList_pageFrames, emptiedList_flatMap]
  refine ⟨⟨nofun, (quietList_append _ _).mpr ⟨?_, ?_⟩⟩, trivial⟩
  · refine quietList_flatMap fun s _ => ?_
    rw [emptiedList_sectionFrames]
    exact sectionFrames_quiet fun b _ =>
      outline_quiet budget (insideSection (insideDocument scope d) .anchored s) hreferences b
  · refine quietList_flatMap fun t _ => ?_
    rw [emptiedList_articleFrames]
    exact articleFrames_quiet hinner (outline_quiet budget) t

variable {d : Document} {queue : List Document} (hqueue : IsQueue d.parts queue)

include hqueue

theorem pageFrames_nodup (hdocuments : scope.documents = [])
    (hids : (Part.sectionIds d.parts).Nodup) :
    (anchorsList (emptiedList false (pageFrames budget scope d queue))).Nodup := by
  have hinner : (scope.insideDocument d).references = 0 := hreferences
  have haccounted := (accountedUpTo budget hinner d.parts.length).documents d (Nat.le_refl _) budget
    scope hreferences
  have harticle : emptiedList false (articleFrames (outline budget) scope d) =
      [.mk .article (some d.id) none (emptiedList false (d.body.flatMap
        (sectionFrames (outline budget) (scope.insideDocument d) .anchored)))] := by
    rw [articleFrames, hdocuments]
    rfl
  have htooltips : (fun t => anchorsList (emptiedList false
      (articleFrames (outline budget) (scope.insideDocument d) t))) =
      tooltipIds budget (scope.insideDocument d) := rfl
  rw [harticle, anchorsList_article] at haccounted
  rw [emptiedList_pageFrames, anchorsList_article, anchorsList_append, anchorsList_flatMap,
    htooltips, List.nodup_iff_count_le_one]
  -- the work list is some of the tooltips, in another order
  obtain ⟨taken, hperm, hsub⟩ := (List.Nodup.of_map _ hqueue.nodup).subperm hqueue.subset
  intro id
  have hall := haccounted id
  have hone := List.nodup_iff_count_le_one.mp hids id
  have hqueued := (hperm.flatMap_right (tooltipIds budget (scope.insideDocument d))).count_eq id
  have htaken := (hsub.flatMap (tooltipIds budget (scope.insideDocument d))).count_le id
  rw [List.count_append]
  omega

theorem emptiedList_pageFrames_plain (hplain : PlainParts scope.renderer d.parts) :
    emptiedList false (pageFrames budget scope d queue) = pageFrames budget scope d queue := by
  have hinner : (scope.insideDocument d).inCopy = false := bne_eq_false_iff_eq.mpr hreferences
  rw [emptiedList_pageFrames, emptiedList_flatMap, pageFrames]
  congr 3
  · refine List.flatMap_congr fun s hs => ?_
    rw [← hinner]
    exact emptiedList_section fun b hb => emptiedList_outline hplain budget
      (belongs_body hplain rfl hinner (List.Subset.refl _) hs hb)
  · refine List.flatMap_congr fun t ht => emptiedList_document hinner fun s hs b hb => ?_
    have hrenderer : (scope.insideDocument d).renderer = scope.renderer := rfl
    exact emptiedList_outline hplain budget
      (belongs_body hplain hrenderer hinner (d.parts_closed t (hqueue.subset ht)).subset hs hb)

end Page

end Scope

namespace Renderer

open Scope Compendium.Frame Markup

/-- The sections of the body carry their ids. If the sections of a document have distinct ids, then,
apart from the documents in copies, no two sections of its page have the same id and nothing in a
copy has one. If no reference leads to an embedded document with sections, this holds of the page as
it is. -/
theorem document_anchorsUnique (r : Renderer) (view : View) (d : Document)
    (hids : (Part.sectionIds d.parts).Nodup) :
    (d.body.map (·.id)).Sublist (sectionIds (r.document view d)) ∧
      AnchorsUnique (Markup.emptiedList false (r.document view d)) ∧
      ((∀ e, Part.document e ∈ d.parts → e.ReferencesPlain r) →
        AnchorsUnique (r.document view d)) := by
  obtain ⟨queue, hqueue, hframes⟩ := r.framesList_document view d
  have hreferences : (r.scope view d.parts).references = 0 := rfl
  have hdistinct := pageFrames_nodup r.settings.maxDepth hreferences hqueue rfl hids
  have hquiet := quiet_pageFrames r.settings.maxDepth hreferences d queue
  have hbody := body_sublist_pageFrames r.settings.maxDepth
    (rfl : (r.scope view d.parts).sections = []) d queue
  rw [← hframes] at hdistinct hquiet hbody
  rw [← sectionIds_eq] at hbody
  refine ⟨hbody, anchorsUnique_of_frames ?_ ?_, fun hplain => ?_⟩
  · rw [framesList_emptied]
    exact hdistinct
  · rw [framesList_emptied]
    exact hquiet
  · have hall := emptiedList_pageFrames_plain r.settings.maxDepth hreferences hqueue hplain
    rw [← hframes] at hall
    rw [hall] at hdistinct hquiet
    exact anchorsUnique_of_frames hdistinct hquiet

def untitled (id : String) (sections : List (String × List Block)) : Document where
  id := id
  title := ""
  kind := .article
  presentation := none
  body := sections.map fun (name, content) => ⟨name, none, content, none, none⟩
  bibliography := []
  abstract := none
  contents := none
  footnotes := []
  glossary := []
  authors := []
  createdAt := none
  updatedAt := none

/-- A section with one block, and a reference to the section. -/
def copied (shown : Block) : Document :=
  untitled "outer" [("a", [shown]), ("b", [.sectionRef ⟨"a", false⟩])]

theorem document_anchorsUnique_copied :
    (Part.sectionIds (copied .thematicBreak).parts).Nodup ∧
      ["a", "b"].Sublist (sectionIds (({} : Renderer).document .empty (copied .thematicBreak))) ∧
      AnchorsUnique (({} : Renderer).document .empty (copied .thematicBreak)) := by
  have hids : (Part.sectionIds (copied .thematicBreak).parts).Nodup := by decide +kernel
  obtain ⟨hbody, -, hpage⟩ := document_anchorsUnique {} .empty (copied .thematicBreak) hids
  refine ⟨hids, hbody, hpage fun e he => ?_⟩
  have hself : e = copied .thematicBreak := by
    simpa [copied, untitled, Document.parts, Section.partsList, Section.parts, Block.partsList,
      Block.parts, Inline.partsOption, Footnote.partsList, GlossaryEntry.partsList] using he
  subst hself
  refine Document.referencesPlain_of_shows fun e' hshows => ?_
  obtain ⟨s, hs, b, hb, hshown⟩ := hshows
  rcases List.mem_cons.mp hs with rfl | hs
  · cases List.mem_singleton.mp hb
    cases hshown with
    | inside hb _ => cases hb
  · cases List.mem_singleton.mp hs
    cases List.mem_singleton.mp hb
    cases hshown with
    | inside hb _ => cases hb

/-- The section of an embedded document keeps its id in a copy. -/
theorem embedded_id_repeated :
    (Part.sectionIds (copied (.document (untitled "inner" [("e", [])]))).parts).Nodup ∧
      ¬ AnchorsUnique (({} : Renderer).document .empty
        (copied (.document (untitled "inner" [("e", [])])))) := by
  refine ⟨by decide +kernel, fun h => absurd h.distinct ?_⟩
  decide +kernel

end Renderer

end Compendium
