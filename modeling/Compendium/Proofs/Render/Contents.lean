import Compendium.Proofs.Render.Anchors
import Compendium.Proofs.Render.Layout
import Mathlib.Data.List.Flatten

/-!
# The table of contents and the anchors of a page

The sections of a document form a tree: the sections of the body, and in each section its
subsections. The generated table of contents lists the titled ones whose surrounding sections are
all titled. The body of the page is made by another walk, which passes through every kind of block
and refuses what is open already or nested too deeply. If ids are distinct and the tree is not too
deep, nothing of the tree is refused, and the page has an anchor for each of its sections, in the
same order.
-/

namespace Compendium

/-! ## The tree of sections -/

/-- A section of a tree, with the sections around it, innermost first. -/
structure TreeSection where
  own : Section
  around : List Section

mutual

/-- A section and its subsections, in order, given the sections around it. -/
def Section.tree (around : List Section) : Section → List TreeSection
  | ⟨id, title, content, metadata, display⟩ =>
    ⟨⟨id, title, content, metadata, display⟩, around⟩ ::
      Section.treeOfBlocks (⟨id, title, content, metadata, display⟩ :: around) content

def Section.treeOfBlocks (around : List Section) : List Block → List TreeSection
  | [] => []
  | .subsection s :: rest => Section.tree around s ++ Section.treeOfBlocks around rest
  | _ :: rest => Section.treeOfBlocks around rest

end

def Document.sectionTree (d : Document) : List TreeSection :=
  d.body.flatMap (Section.tree [])

/-- The id and the title of a section that is titled and inside of titled sections only. -/
def TreeSection.listed? (t : TreeSection) : Option (String × String) :=
  if t.around.all (·.titleText?.isSome) then t.own.titleText?.map (t.own.id, ·) else none

mutual

/-- The ids and titles of an entry and its children, in order. -/
def TocEntry.preorder : TocEntry → List (String × String)
  | .mk id title children => (id, title) :: TocEntry.preorderList children

def TocEntry.preorderList : List TocEntry → List (String × String)
  | [] => []
  | e :: rest => TocEntry.preorder e ++ TocEntry.preorderList rest

end

def Block.subsections : Block → List Section
  | .subsection s => [s]
  | _ => []

def Section.subsections (s : Section) : List Section :=
  s.content.flatMap Block.subsections

theorem Section.sizeOf_lt_of_mem_subsections {s t : Section} (h : t ∈ s.subsections) :
    sizeOf t < sizeOf s := by
  obtain ⟨b, hb, ht⟩ := List.mem_flatMap.mp h
  have hblock : sizeOf t < sizeOf b := by
    cases b with
    | subsection u =>
      cases List.mem_singleton.mp ht
      rw [Block.subsection.sizeOf_spec]
      omega
    | _ => cases ht
  have hcontent := List.sizeOf_lt_of_mem hb
  have hsection : sizeOf s.content < sizeOf s := by
    cases s
    rw [Section.mk.sizeOf_spec]
    dsimp only
    omega
  omega

/-- What holds of a section if it holds of its subsections holds of all sections. -/
theorem Section.tree_induction {P : Section → Prop} (h : ∀ s, (∀ t ∈ s.subsections, P t) → P s)
    (s : Section) : P s :=
  h s fun t _ => Section.tree_induction h t
termination_by sizeOf s
decreasing_by exact Section.sizeOf_lt_of_mem_subsections ‹_›

/-- A walk over blocks that only looks at subsections. -/
theorem Section.walk_eq_flatMap {β : Type} {walk : List Block → List β} {f : Section → List β}
    (hnil : walk [] = [])
    (hcons : ∀ b rest, walk (b :: rest) = b.subsections.flatMap f ++ walk rest) (s : Section) :
    walk s.content = s.subsections.flatMap f :=
  (eq_flatMap_of_cons s.content hnil hcons).trans List.flatMap_assoc.symm

theorem Section.tree_eq (around : List Section) (s : Section) :
    s.tree around = ⟨s, around⟩ :: s.subsections.flatMap (Section.tree (s :: around)) := by
  have hcons : ∀ b rest, Section.treeOfBlocks (s :: around) (b :: rest) =
      b.subsections.flatMap (Section.tree (s :: around)) ++
        Section.treeOfBlocks (s :: around) rest := by
    intro b rest
    cases b with
    | subsection t => rw [Section.treeOfBlocks, Block.subsections, List.flatMap_singleton]
    | _ =>
      rw [Section.treeOfBlocks]
      · rfl
      · nofun
  rw [← Section.walk_eq_flatMap (by rw [Section.treeOfBlocks]) hcons]
  cases s
  rw [Section.tree]

theorem Section.tocEntries_eq (s : Section) :
    s.tocEntries = s.titleText?.toList.map fun title =>
      .mk s.id title (s.subsections.flatMap Section.tocEntries) := by
  have hcons : ∀ b rest, Section.tocOfBlocks (b :: rest) =
      b.subsections.flatMap Section.tocEntries ++ Section.tocOfBlocks rest := by
    intro b rest
    cases b with
    | subsection t => rw [Section.tocOfBlocks, Block.subsections, List.flatMap_singleton]
    | _ =>
      rw [Section.tocOfBlocks]
      · rfl
      · nofun
  rw [← Section.walk_eq_flatMap (by rw [Section.tocOfBlocks]) hcons]
  obtain ⟨id, title, content, metadata, display⟩ := s
  cases title <;> rw [Section.tocEntries] <;> rfl

/-! ## The generated table of contents -/

theorem TocEntry.preorderList_append (l m : List TocEntry) :
    TocEntry.preorderList (l ++ m) = TocEntry.preorderList l ++ TocEntry.preorderList m :=
  append_of_cons l m rfl fun _ _ => rfl

theorem TocEntry.preorderList_flatMap {α : Type} (l : List α) (f : α → List TocEntry) :
    TocEntry.preorderList (l.flatMap f) = l.flatMap fun a => TocEntry.preorderList (f a) :=
  flatMap_of_cons l f rfl fun _ _ => rfl

/-- The sections around a tree are around each section of it. -/
theorem Section.around_of_mem_tree {s : Section} {around : List Section} {t : TreeSection}
    (h : t ∈ s.tree around) : around <:+ t.around := by
  induction s using Section.tree_induction generalizing around with
  | h s ih =>
    rw [Section.tree_eq] at h
    rcases List.mem_cons.mp h with rfl | h
    · exact List.suffix_refl _
    · obtain ⟨u, hu, ht⟩ := List.mem_flatMap.mp h
      exact (List.suffix_cons s around).trans (ih u hu ht)

theorem TreeSection.listed?_of_untitled {t : TreeSection} {s : Section} (hs : s ∈ t.around)
    (htitle : s.titleText? = none) : t.listed? = none := by
  have hnot : t.around.all (·.titleText?.isSome) = false := by
    rw [List.all_eq_false]
    exact ⟨s, hs, by simp [htitle]⟩
  rw [TreeSection.listed?, hnot]
  rfl

/-- Inside of titled sections, the entries of a section are those of its tree that are listed. -/
theorem Section.preorder_tocEntries (s : Section) {around : List Section}
    (haround : around.all (·.titleText?.isSome) = true) :
    TocEntry.preorderList s.tocEntries = (s.tree around).filterMap TreeSection.listed? := by
  induction s using Section.tree_induction generalizing around with
  | h s ih =>
    have hown : TreeSection.listed? ⟨s, around⟩ = s.titleText?.map (s.id, ·) := by
      rw [TreeSection.listed?, haround]
      rfl
    rw [Section.tocEntries_eq, Section.tree_eq, List.filterMap_cons, hown, List.filterMap_flatMap]
    cases htitle : s.titleText? with
    | none =>
      -- the entries below an untitled section are left out with it
      have hbelow : s.subsections.flatMap (fun u =>
          (u.tree (s :: around)).filterMap TreeSection.listed?) = [] := by
        refine List.flatMap_eq_nil_iff.mpr fun u _ => List.filterMap_eq_nil_iff.mpr fun t ht => ?_
        have hmem := (Section.around_of_mem_tree ht).subset List.mem_cons_self
        exact TreeSection.listed?_of_untitled hmem htitle
      simp only [Option.map_none, hbelow]
      rw [Option.toList_none, List.map_nil, TocEntry.preorderList]
    | some title =>
      have hinner : (s :: around).all (·.titleText?.isSome) = true := by
        rw [List.all_cons, htitle, haround]
        rfl
      have hbelow : TocEntry.preorderList (s.subsections.flatMap Section.tocEntries) =
          s.subsections.flatMap fun u => (u.tree (s :: around)).filterMap TreeSection.listed? := by
        rw [TocEntry.preorderList_flatMap]
        exact List.flatMap_congr fun u hu => ih u hu hinner
      simp only [Option.map_some, ← hbelow, Option.toList_some, List.map_cons, List.map_nil,
        TocEntry.preorderList, TocEntry.preorder, List.append_nil]

theorem Document.preorder_generatedToc (d : Document) :
    TocEntry.preorderList d.generatedToc = d.sectionTree.filterMap TreeSection.listed? := by
  unfold Document.generatedToc Document.sectionTree
  rw [TocEntry.preorderList_flatMap, List.filterMap_flatMap]
  exact List.flatMap_congr fun s _ => s.preorder_tocEntries rfl

/-! ## Anchors -/

theorem Document.body_sublist_sectionTree (d : Document) :
    (d.body.map (·.id)).Sublist (d.sectionTree.map (·.own.id)) := by
  have hsections : d.body.Sublist (d.sectionTree.map (·.own)) := by
    unfold Document.sectionTree
    rw [List.map_flatMap]
    nth_rewrite 1 [← List.flatMap_singleton' d.body]
    refine List.Sublist.flatMap_right _ fun s _ => ?_
    rw [Section.tree_eq, List.map_cons]
    exact (List.nil_sublist _).cons_cons s
  have hids := hsections.map (·.id)
  rwa [List.map_map] at hids

theorem TreeSection.listed?_eq_some {t : TreeSection} {entry : String × String}
    (h : t.listed? = some entry) : entry.1 = t.own.id := by
  unfold TreeSection.listed? at h
  split at h
  · obtain ⟨title, -, rfl⟩ := Option.map_eq_some_iff.mp h
    rfl
  · cases h

/-- What is listed keeps its order. -/
theorem TreeSection.listed_sublist (tree : List TreeSection) :
    ((tree.filterMap TreeSection.listed?).map (·.1)).Sublist (tree.map (·.own.id)) := by
  induction tree with
  | nil => exact List.Sublist.slnil
  | cons t rest ih =>
    rw [List.filterMap_cons, List.map_cons]
    cases hentry : t.listed? with
    | none => exact ih.cons _
    | some entry =>
      rw [List.map_cons, TreeSection.listed?_eq_some hentry]
      exact ih.cons_cons _

namespace Scope

open Markup Compendium.Frame

theorem anchorsList_newSection (walk : Scope → Block → List Frame) {scope : Scope} {s : Section}
    (hnew : s.id ∉ scope.sections) :
    anchorsList (sectionFrames walk scope .anchored s) =
      s.id :: s.content.flatMap fun b =>
        anchorsList (walk (scope.insideSection .anchored s) b) := by
  have hfresh : scope.sections.contains s.id = false := by simpa using hnew
  rw [sectionFrames, hfresh, if_neg Bool.false_ne_true, anchorsList, anchors, anchorsList,
    List.append_nil, anchorsList_flatMap]
  rfl

/-- A section has the anchors of its tree if each subsection has those of its own. -/
theorem tree_sublist_of_subsections {walk : Scope → Block → List Frame} {scope : Scope}
    {s : Section} {around : List Section} (hnew : s.id ∉ scope.sections)
    (h : ∀ u ∈ s.subsections, ((u.tree (s :: around)).map (·.own.id)).Sublist
      (anchorsList (walk (scope.insideSection .anchored s) (.subsection u)))) :
    ((s.tree around).map (·.own.id)).Sublist
      (anchorsList (sectionFrames walk scope .anchored s)) := by
  rw [Section.tree_eq, List.map_cons, List.map_flatMap, anchorsList_newSection walk hnew,
    Section.subsections, List.flatMap_assoc]
  refine (List.Sublist.flatMap_right _ fun b hb => ?_).cons_cons s.id
  cases b with
  | subsection u =>
    have hu : u ∈ s.subsections := List.mem_flatMap.mpr ⟨_, hb, List.mem_cons_self⟩
    rw [Block.subsections, List.flatMap_singleton]
    exact h u hu
  | _ => exact List.nil_sublist _

/-- A tree of sections with distinct ids, none of them open, and of no more levels than the budget,
has all its ids among the anchors of its outline. -/
theorem tree_sublist_anchors (budget : Nat) {scope : Scope} {s : Section} {around : List Section}
    (hreferences : scope.references = 0) (hdistinct : ((s.tree around).map (·.own.id)).Nodup)
    (hnew : ∀ t ∈ s.tree around, t.own.id ∉ scope.sections)
    (hdeep : ∀ t ∈ s.tree around, t.around.length ≤ around.length + budget) :
    ((s.tree around).map (·.own.id)).Sublist
      (anchorsList (sectionFrames (outline budget) scope .anchored s)) := by
  induction budget generalizing scope s around with
  | zero =>
    rw [Section.tree_eq, List.forall_mem_cons] at hnew hdeep
    refine tree_sublist_of_subsections hnew.1 fun u hu => ?_
    have hown : ⟨u, s :: around⟩ ∈ u.tree (s :: around) := by
      rw [Section.tree_eq]
      exact List.mem_cons_self
    -- a subsection would be nested more deeply than the budget allows
    have hlength := hdeep.2 _ (List.mem_flatMap.mpr ⟨u, hu, hown⟩)
    rw [List.length_cons] at hlength
    omega
  | succ budget ih =>
    rw [Section.tree_eq, List.map_cons, List.nodup_cons] at hdistinct
    rw [Section.tree_eq, List.forall_mem_cons] at hnew hdeep
    refine tree_sublist_of_subsections hnew.1 fun u hu => ?_
    have hinside : ∀ t ∈ u.tree (s :: around),
        t ∈ s.subsections.flatMap (Section.tree (s :: around)) :=
      fun t ht => List.mem_flatMap.mpr ⟨u, hu, ht⟩
    -- nothing of the tree is in a copy, so its subsections are anchors too
    have hmode : (scope.insideSection .anchored s).nestedMode u = .anchored := if_pos hreferences
    show ((u.tree (s :: around)).map (·.own.id)).Sublist
      (anchorsList (sectionFrames (outline budget)
      { scope.insideSection .anchored s with level := scope.level + 1 } _ u))
    rw [hmode]
    refine ih hreferences ?_ (fun t ht => ?_) fun t ht => ?_
    · have hsub :=
        ((List.singleton_sublist.mpr hu).flatMap (Section.tree (s :: around))).map (·.own.id)
      rw [List.flatMap_singleton] at hsub
      exact hdistinct.2.sublist hsub
    · have hother : t.own.id ≠ s.id :=
        fun heq => hdistinct.1 (heq ▸ List.mem_map_of_mem (hinside t ht))
      exact List.not_mem_cons_of_ne_of_not_mem hother (hnew.2 t (hinside t ht))
    · have hlength := hdeep.2 t (hinside t ht)
      rw [List.length_cons]
      omega

end Scope

/-! ## The body of a page -/

namespace Markup

def hasTag (tag : String) (m : Markup) : Bool :=
  m.head?.any fun head => head.1 == tag

/-- What is inside of the first element of a tag. -/
def contentOf (tag : String) (content : List Markup) : List Markup :=
  ((content.find? (hasTag tag)).map children).getD []

theorem contentOf_first {tag : String} {before : List Markup}
    (hbefore : ∀ m ∈ before, hasTag tag m = false)
    (attrs : List Attr) (flags : List String) (content after : List Markup) :
    contentOf tag (before ++ element tag attrs flags content :: after) = content := by
  have hown : hasTag tag (element tag attrs flags content) = true := beq_self_eq_true tag
  have hnone : before.find? (hasTag tag) = none := List.find?_eq_none.mpr fun m hm => by
    rw [hbefore m hm]
    exact Bool.false_ne_true
  rw [contentOf, List.find?_append, hnone, Option.none_or, List.find?_cons, hown]
  rfl

end Markup

namespace Layout

open Scope Markup

def tag? : Layout → Option String
  | fixed m => m.head?.map (·.1)
  | element tag _ _ _ => some tag
  | _ => none

/-- The layout is one, and of another tag. -/
def Unlike (tag : String) (l : Layout) : Prop :=
  ∃ other, l.tag? = some other ∧ other ≠ tag

theorem hasTag_renderAll (block : BlockRenderer) (scope : Scope) {tag : String} {ls : List Layout}
    (h : ∀ l ∈ ls, Unlike tag l) (noted : List Document) :
    ∀ m ∈ ((renderAll block scope ls).run noted).1, hasTag tag m = false := by
  induction ls generalizing noted with
  | nil => exact List.forall_mem_nil _
  | cons l rest ih =>
    obtain ⟨⟨other, htag, hother⟩, hrest⟩ := List.forall_mem_cons.mp h
    have hfirst : ∀ m ∈ ((render block scope l).run noted).1, hasTag tag m = false := by
      intro m hm
      cases l with
      | fixed n =>
        cases List.mem_singleton.mp hm
        obtain ⟨head, hhead, rfl⟩ := Option.map_eq_some_iff.mp htag
        rw [hasTag, hhead]
        exact beq_eq_false_iff_ne.mpr hother
      | element t attrs flags inner =>
        rw [render] at hm
        cases List.mem_singleton.mp hm
        cases htag
        exact beq_eq_false_iff_ne.mpr hother
      | text content => cases htag
      | block number b => cases htag
      | division number s => cases htag
    rw [renderAll]
    exact List.forall_mem_append.mpr ⟨hfirst, ih hrest _⟩

/-- In a layout, only layouts of other tags come before the body of a document. -/
theorem exists_ofDocument_eq (inner : Scope) (d : Document) :
    ∃ before after, ofDocument inner d = before ++ node "main" (("class", (inner.bodyLayout d).1) ::
        styleAttr (inner.bodyLayout d).2) (ofBody d) :: after ∧
      ∀ l ∈ before, Unlike "main" l := by
  have habstract : ∀ l ∈ d.abstract.toList.map fun summary => classed "section" "document-abstract"
      [.fixed (.leaf "h2" [] "Abstract"), node "p" [] [.text summary]], Unlike "main" l := by
    intro l hl
    obtain ⟨summary, -, rfl⟩ := List.mem_map.mp hl
    exact ⟨"section", rfl, by decide⟩
  have hcontents : ∀ l ∈ (documentContents d).map fixed, Unlike "main" l := by
    unfold documentContents
    split
    · exact List.forall_mem_nil _
    · exact List.forall_mem_singleton.mpr ⟨"nav", rfl, by decide⟩
  have hglossary : ∀ l ∈ (if d.kind == .glossary then glossary d else []), Unlike "main" l := by
    unfold glossary
    split
    · split
      · exact List.forall_mem_nil _
      · exact List.forall_mem_singleton.mpr ⟨"section", rfl, by decide⟩
    · exact List.forall_mem_nil _
  have hnav : ∀ l ∈ (if d.kind == .resourcePanel then (resourceNav d.body).map fixed else []),
      Unlike "main" l := by
    unfold resourceNav
    split
    · split
      · exact List.forall_mem_nil _
      · exact List.forall_mem_singleton.mpr ⟨"nav", rfl, by decide⟩
    · exact List.forall_mem_nil _
  refine ⟨.fixed (documentHeader d) :: (_ ++ (_ ++ (_ ++ _))),
    footnotes d ++ ((if d.kind == .glossary then []
    else glossary d) ++ (documentBibliography d).map fixed), ?_, List.forall_mem_cons.mpr
      ⟨⟨"header", rfl, by decide⟩, List.forall_mem_append.mpr ⟨habstract, List.forall_mem_append.mpr
        ⟨hcontents, List.forall_mem_append.mpr ⟨hglossary, hnav⟩⟩⟩⟩⟩
  simp only [ofDocument, List.cons_append, List.append_assoc]

/-- The body of a document is the first `main` of its article. -/
theorem exists_main_run (block : BlockRenderer) (scope : Scope) (d : Document)
    (noted : List Document) :
    ∃ before attrs after others, ((renderAll block scope (ofDocument scope d)).run noted).1 =
        before ++ Markup.element "main" attrs []
          ((bodySections block scope d).run others).1 :: after ∧
      ∀ m ∈ before, hasTag "main" m = false := by
  obtain ⟨before, after, hlayout, hbefore⟩ := exists_ofDocument_eq scope d
  have hfirst := hasTag_renderAll block scope hbefore noted
  rw [hlayout, renderAll_append, renderAll_cons, render_node, renderAll_ofBody]
  exact ⟨_, _, _, ((renderAll block scope before).run noted).2, rfl, hfirst⟩

end Layout

namespace Renderer

open Markup Scope Compendium.Frame

/-- What is in the body of a page: inside of the `main` of its article. -/
def bodyMarkup (r : Renderer) (view : View) (d : Document) : List Markup :=
  contentOf "main" (contentOf "article" (r.document view d))

theorem sectionIds_bodyMarkup (r : Renderer) (view : View) (d : Document) :
    sectionIds (r.bodyMarkup view d) = d.body.flatMap fun s => anchorsList
      (sectionFrames (outline r.settings.maxDepth)
        ((r.scope view d.parts).insideDocument d) .anchored s) := by
  have hself : d.parts ⊆ d.parts := List.Subset.refl _
  have hinside : ((r.scope view d.parts).insideDocument d).IsInside d.parts :=
    isInside_insideDocument (List.forall_mem_nil _) hself
  have hbody : d.body.flatMap Section.parts ⊆ d.parts := fun part hpart =>
    d.parts_perm.symm.subset (List.mem_cons_of_mem _ (List.mem_append_right _ hpart))
  obtain ⟨content, asked, hframes, -, hrun⟩ :=
    emits_bodySections (emits_renderBlock d.parts r.settings.maxDepth) hinside hbody
  obtain ⟨before, attrs, after, others, hfront, hbefore⟩ :=
    Layout.exists_main_run r.block ((r.scope view d.parts).insideDocument d) d []
  have hmarkup : r.bodyMarkup view d = content := by
    unfold bodyMarkup Renderer.document
    rw [article_run_eq r.block rfl, Layout.sequence_articleFront]
    dsimp only
    rw [hfront, Renderer.block, hrun]
    show contentOf "main" (_ ++ _) = content
    rw [List.append_assoc, List.cons_append, contentOf_first hbefore]
  rw [hmarkup, sectionIds_eq, hframes, anchorsList_flatMap]

/-- The generated table of contents lists the titled sections inside of titled sections. It and the
body of the document follow the anchors in the body of the page, which has one for every section of
the tree. -/
theorem generatedToc_resolves (r : Renderer) (view : View) (d : Document)
    (hdistinct : (d.sectionTree.map (·.own.id)).Nodup)
    (hdeep : ∀ t ∈ d.sectionTree, t.around.length ≤ r.settings.maxDepth) :
    TocEntry.preorderList d.generatedToc = d.sectionTree.filterMap TreeSection.listed? ∧
    ((TocEntry.preorderList d.generatedToc).map (·.1)).Sublist (sectionIds (r.bodyMarkup view d)) ∧
    (d.body.map (·.id)).Sublist (sectionIds (r.bodyMarkup view d)) ∧
    (d.sectionTree.map (·.own.id)).Sublist (sectionIds (r.bodyMarkup view d)) := by
  have hall : (d.sectionTree.map (·.own.id)).Sublist (sectionIds (r.bodyMarkup view d)) := by
    unfold Document.sectionTree
    rw [sectionIds_bodyMarkup, List.map_flatMap]
    refine List.Sublist.flatMap_right _ fun s hs => ?_
    have hinside : ∀ t ∈ s.tree [], t ∈ d.sectionTree :=
      fun t ht => List.mem_flatMap.mpr ⟨s, hs, ht⟩
    have hsub := ((List.singleton_sublist.mpr hs).flatMap (Section.tree [])).map (·.own.id)
    rw [List.flatMap_singleton] at hsub
    refine tree_sublist_anchors _ rfl (hdistinct.sublist hsub)
      (fun _ _ => List.not_mem_nil) fun t ht => ?_
    rw [List.length_nil, Nat.zero_add]
    exact hdeep t (hinside t ht)
  have hlisted := TreeSection.listed_sublist d.sectionTree
  rw [d.preorder_generatedToc]
  exact ⟨rfl, hlisted.trans hall, d.body_sublist_sectionTree.trans hall, hall⟩

def titledSection (id title : String) (content : List Block) : Section :=
  ⟨id, some [.text title], content, none, none⟩

/-- A textbook with a titled section in an untitled one, and with a copy of a chapter's section. -/
def primer : Document :=
  { untitled "primer" [] with
    kind := .textbook
    body := [titledSection "numbers" "Numbers"
      [.subsection (titledSection "primes" "Primes"
        [.subsection ⟨"sieve", none, [.subsection (titledSection "code" "Code" [])], none, none⟩]),
      .sectionRef ⟨"primes", true⟩, .subsection (titledSection "units" "Units" [])]] }

theorem generatedToc_resolves_primer :
    (primer.sectionTree.map (·.own.id)).Nodup ∧
      (∀ t ∈ primer.sectionTree, t.around.length ≤ ({} : Renderer).settings.maxDepth) ∧
      TocEntry.preorderList primer.generatedToc =
        [("numbers", "Numbers"), ("primes", "Primes"), ("units", "Units")] ∧
      ["numbers", "primes", "units"].Sublist
        (sectionIds (({} : Renderer).bodyMarkup .empty primer)) ∧
      ["numbers", "primes", "sieve", "code", "units"].Sublist
        (sectionIds (({} : Renderer).bodyMarkup .empty primer)) := by
  have hids : primer.sectionTree.map (·.own.id) =
    ["numbers", "primes", "sieve", "code", "units"] := rfl
  have hlengths : primer.sectionTree.map (·.around.length) = [0, 1, 2, 3, 1] := rfl
  have htoc : TocEntry.preorderList primer.generatedToc =
      [("numbers", "Numbers"), ("primes", "Primes"), ("units", "Units")] := rfl
  have hdistinct : (primer.sectionTree.map (·.own.id)).Nodup := by
    rw [hids]
    decide
  have hdeep : ∀ t ∈ primer.sectionTree, t.around.length ≤ ({} : Renderer).settings.maxDepth := by
    have hall : ∀ n ∈ [0, 1, 2, 3, 1], n ≤ ({} : Renderer).settings.maxDepth := by decide
    rw [← hlengths] at hall
    exact fun t ht => hall _ (List.mem_map_of_mem ht)
  obtain ⟨-, hlisted, -, hall⟩ := generatedToc_resolves {} .empty primer hdistinct hdeep
  rw [htoc] at hlisted
  rw [hids] at hall
  exact ⟨hdistinct, hdeep, htoc, hlisted, hall⟩

end Renderer

end Compendium
