import Compendium.Proofs.ItemByItem
import Compendium.Render.Document
import Mathlib.Data.List.Perm.Subperm

/-!
# The blocks inside a block

`Block.inner` lists the blocks that a block shows directly inside itself, in the order in which they
are shown. Up to order, the parts of a block are the block, the parts of its texts, the parts of the
blocks inside it, and the parts of blocks that are not shown since a component is drawn in their
place. Sections, references and documents show nothing in the scope they stand in.
-/

namespace Compendium

/-- Every block but a subsection, a reference or a document. -/
def Block.isSimple : Block → Bool
  | .subsection _ | .sectionRef _ | .document _ => false
  | _ => true

/-- The panels of a layout, as they are shown: the main panel of a sidebar comes first. -/
def PanelLayout.shown (p : PanelLayout) : List Panel :=
  match p.arrangement with
  | .sidebar name =>
    p.panels[Scope.mainPanel name p.panels]?.toList ++
      p.panels.eraseIdx (Scope.mainPanel name p.panels)
  | _ => p.panels

def TableRow.blocks (row : TableRow) : List Block :=
  row.cells.flatMap (·.content)

def Block.inner (r : Renderer) : Block → List Block
  | .statement s => s.body ++ s.proof.getD []
  | .list l => l.items.flatMap (·.content)
  | .table t =>
    (t.headerRows.getD []).flatMap TableRow.blocks ++ t.bodyRows.flatMap TableRow.blocks ++
      (t.footerRows.getD []).flatMap TableRow.blocks
  | .collapsible c => c.content
  | .grid g => g.items.flatMap (·.content)
  | .columns c => c.columns.flatMap (·.content)
  | .quote q => q.content
  | .alert a => a.content
  | .component c => if (r.components.get? c.name).isSome then [] else c.fallback.getD []
  | .sideBySide s => s.left.content ++ s.right.content
  | .panels p => p.shown.flatMap (·.content)
  | .overlay o => o.base
  | _ => []

/-- The blocks that are not shown since a component is drawn in their place. -/
def Block.hidden (r : Renderer) : Block → List Block
  | .component c => if (r.components.get? c.name).isSome then c.fallback.getD [] else []
  | _ => []

def Block.texts : Block → List (List Inline)
  | .paragraph p => [p.segments]
  | .equation e => e.caption.toList
  | .statement s => s.title.toList
  | .table t => t.caption.toList
  | .code c => c.caption.toList
  | .image i => i.caption.toList
  | .diagram d => d.caption.toList
  | .collapsible c => [c.summary]
  | .quote q => q.attribution.toList
  | .alert a => a.title.toList
  | .sideBySide s => s.left.title.toList ++ s.right.title.toList
  | .panels p => p.shown.flatMap fun panel => panel.title.toList
  | .overlay o => o.annotations.map (·.content)
  | _ => []

/-! ## Parts of lists -/

theorem Inline.partsList_eq_flatMap (l : List Inline) :
    Inline.partsList l = l.flatMap Inline.parts :=
  eq_flatMap_of_cons l rfl fun _ _ => rfl

theorem Inline.partsOption_eq_flatMap (o : Option (List Inline)) :
    Inline.partsOption o = o.toList.flatMap Inline.partsList := by
  cases o with
  | none => rfl
  | some content => rw [Inline.partsOption, Option.toList_some, List.flatMap_singleton]

theorem Block.partsList_eq_flatMap (l : List Block) : Block.partsList l = l.flatMap Block.parts :=
  eq_flatMap_of_cons l rfl fun _ _ => rfl

theorem Block.partsOption_eq_flatMap (o : Option (List Block)) :
    Block.partsOption o = (o.getD []).flatMap Block.parts := by
  cases o with
  | none => rfl
  | some content => rw [Block.partsOption, Block.partsList_eq_flatMap, Option.getD_some]

theorem ListItem.partsList_eq_flatMap (l : List ListItem) :
    ListItem.partsList l = (l.flatMap (·.content)).flatMap Block.parts := by
  rw [List.flatMap_assoc]
  refine eq_flatMap_of_cons l rfl fun item rest => ?_
  cases item
  rw [ListItem.partsList, ListItem.parts, Block.partsList_eq_flatMap]

theorem TableCell.partsList_eq_flatMap (l : List TableCell) :
    TableCell.partsList l = (l.flatMap (·.content)).flatMap Block.parts := by
  rw [List.flatMap_assoc]
  refine eq_flatMap_of_cons l rfl fun cell rest => ?_
  cases cell
  rw [TableCell.partsList, TableCell.parts, Block.partsList_eq_flatMap]

theorem TableRow.partsList_eq_flatMap (l : List TableRow) :
    TableRow.partsList l = (l.flatMap TableRow.blocks).flatMap Block.parts := by
  rw [List.flatMap_assoc]
  refine eq_flatMap_of_cons l rfl fun row rest => ?_
  cases row
  rw [TableRow.partsList, TableRow.parts, TableCell.partsList_eq_flatMap, TableRow.blocks]

theorem TableRow.partsOption_eq_flatMap (o : Option (List TableRow)) :
    TableRow.partsOption o = ((o.getD []).flatMap TableRow.blocks).flatMap Block.parts := by
  cases o with
  | none => rfl
  | some rows => rw [TableRow.partsOption, TableRow.partsList_eq_flatMap, Option.getD_some]

theorem GridItem.partsList_eq_flatMap (l : List GridItem) :
    GridItem.partsList l = (l.flatMap (·.content)).flatMap Block.parts := by
  rw [List.flatMap_assoc]
  refine eq_flatMap_of_cons l rfl fun item rest => ?_
  cases item
  rw [GridItem.partsList, GridItem.parts, Block.partsList_eq_flatMap]

theorem Column.partsList_eq_flatMap (l : List Column) :
    Column.partsList l = (l.flatMap (·.content)).flatMap Block.parts := by
  rw [List.flatMap_assoc]
  refine eq_flatMap_of_cons l rfl fun column rest => ?_
  cases column
  rw [Column.partsList, Column.parts, Block.partsList_eq_flatMap]

theorem OverlayNote.partsList_eq_flatMap (l : List OverlayNote) :
    OverlayNote.partsList l = (l.map (·.content)).flatMap Inline.partsList := by
  rw [List.flatMap_map]
  refine eq_flatMap_of_cons l rfl fun note rest => ?_
  cases note
  rw [OverlayNote.partsList, OverlayNote.parts]

theorem Section.partsList_eq_flatMap (l : List Section) :
    Section.partsList l = l.flatMap Section.parts :=
  eq_flatMap_of_cons l rfl fun _ _ => rfl

theorem Footnote.partsList_eq_flatMap (l : List Footnote) :
    Footnote.partsList l = (l.map (·.content)).flatMap Inline.partsList := by
  rw [List.flatMap_map]
  refine eq_flatMap_of_cons l rfl fun note rest => ?_
  cases note
  rw [Footnote.partsList, Footnote.parts]

theorem GlossaryEntry.partsList_eq_flatMap (l : List GlossaryEntry) :
    GlossaryEntry.partsList l = (l.map (·.definition)).flatMap Inline.partsList := by
  rw [List.flatMap_map]
  refine eq_flatMap_of_cons l rfl fun entry rest => ?_
  cases entry
  rw [GlossaryEntry.partsList, GlossaryEntry.parts]

theorem Panel.parts_eq (p : Panel) :
    p.parts = p.title.toList.flatMap Inline.partsList ++ p.content.flatMap Block.parts := by
  cases p
  rw [Panel.parts, Inline.partsOption_eq_flatMap, Block.partsList_eq_flatMap]

theorem Panel.partsList_perm (l : List Panel) :
    (Panel.partsList l).Perm
      ((l.flatMap fun p => p.title.toList).flatMap Inline.partsList ++
        (l.flatMap (·.content)).flatMap Block.parts) := by
  induction l with
  | nil => exact .refl _
  | cons p rest ih =>
    rw [Panel.partsList, Panel.parts_eq]
    simp only [List.flatMap_cons, List.flatMap_append, List.append_assoc]
    refine List.Perm.append_left _ ?_
    refine (List.Perm.append_left _ ih).trans ?_
    exact List.perm_append_comm_assoc _ _ _

theorem PanelLayout.shown_perm (p : PanelLayout) : p.shown.Perm p.panels := by
  unfold PanelLayout.shown
  split
  · next name _ =>
    by_cases hmain : Scope.mainPanel name p.panels < p.panels.length
    · rw [List.getElem?_eq_getElem hmain]
      exact List.getElem_cons_eraseIdx_perm hmain
    · have hle : p.panels.length ≤ Scope.mainPanel name p.panels := by omega
      rw [List.getElem?_eq_none hle, List.eraseIdx_of_length_le hle]
      exact .refl _
  · exact .refl _

/-! ## Parts of blocks, sections and documents -/

/-- The parts of a simple block: the block, its texts, blocks that are not shown, and blocks that
are. -/
theorem Block.parts_perm (r : Renderer) {b : Block} (hsimple : b.isSimple = true) :
    b.parts.Perm
      (.block b :: (b.texts.flatMap Inline.partsList ++ (b.hidden r).flatMap Block.parts ++
      (b.inner r).flatMap Block.parts)) := by
  cases b with
  | paragraph p =>
    obtain ⟨segments, _⟩ := p
    simp [Block.parts, Paragraph.parts, Block.inner, Block.hidden, Block.texts]
  | equation e =>
    obtain ⟨_, _, caption⟩ := e
    simp [Block.parts, Equation.parts, Block.inner, Block.hidden, Block.texts,
      Inline.partsOption_eq_flatMap]
  | statement s =>
    obtain ⟨_, _, title, body, proof⟩ := s
    simp [Block.parts, Statement.parts, Block.inner, Block.hidden, Block.texts,
      Inline.partsOption_eq_flatMap, Block.partsList_eq_flatMap, Block.partsOption_eq_flatMap]
  | list l =>
    obtain ⟨items, _, _⟩ := l
    rw [Block.parts, Listing.parts, ListItem.partsList_eq_flatMap]
    exact .refl _
  | table t =>
    obtain ⟨caption, headerRows, bodyRows, footerRows⟩ := t
    simp only [Block.parts, Table.parts, Block.inner, Block.hidden, Block.texts,
      Inline.partsOption_eq_flatMap, TableRow.partsOption_eq_flatMap, TableRow.partsList_eq_flatMap,
      List.flatMap_append, List.flatMap_nil, List.append_nil, List.append_assoc]
    exact .refl _
  | code c =>
    obtain ⟨_, _, _, caption⟩ := c
    simp [Block.parts, CodeBlock.parts, Block.inner, Block.hidden, Block.texts,
      Inline.partsOption_eq_flatMap]
  | image i =>
    obtain ⟨_, _, caption, _, _⟩ := i
    simp [Block.parts, Image.parts, Block.inner, Block.hidden, Block.texts,
      Inline.partsOption_eq_flatMap]
  | diagram d =>
    obtain ⟨_, _, _, caption⟩ := d
    simp [Block.parts, Diagram.parts, Block.inner, Block.hidden, Block.texts,
      Inline.partsOption_eq_flatMap]
  | collapsible c =>
    obtain ⟨_, summary, content, _⟩ := c
    simp [Block.parts, Collapsible.parts, Block.inner, Block.hidden, Block.texts,
      Block.partsList_eq_flatMap]
  | grid g =>
    obtain ⟨items, _, _, _⟩ := g
    rw [Block.parts, Grid.parts, GridItem.partsList_eq_flatMap]
    exact .refl _
  | columns c =>
    obtain ⟨columns, _⟩ := c
    rw [Block.parts, Columns.parts, Column.partsList_eq_flatMap]
    exact .refl _
  | thematicBreak => exact .refl _
  | quote q =>
    obtain ⟨content, attribution⟩ := q
    rw [Block.parts, Quote.parts, Inline.partsOption_eq_flatMap, Block.partsList_eq_flatMap,
      Block.hidden, List.flatMap_nil, List.append_nil]
    · exact List.Perm.cons _ List.perm_append_comm
    · nofun
  | alert a =>
    obtain ⟨_, title, content⟩ := a
    simp [Block.parts, Alert.parts, Block.inner, Block.hidden, Block.texts,
      Inline.partsOption_eq_flatMap, Block.partsList_eq_flatMap]
  | component c =>
    obtain ⟨name, _, fallback⟩ := c
    by_cases hdrawn : (r.components.get? name).isSome <;>
      simp [Block.parts, Component.parts, Block.inner, Block.hidden, Block.texts, hdrawn,
        Block.partsOption_eq_flatMap]
  | sideBySide s =>
    obtain ⟨left, right, _⟩ := s
    have hpanels := Panel.partsList_perm [left, right]
    rw [Panel.partsList, Panel.partsList, Panel.partsList, List.append_nil] at hpanels
    rw [Block.parts, SideBySide.parts]
    exact List.Perm.cons _ (by simpa [Block.inner, Block.hidden, Block.texts] using hpanels)
  | panels p =>
    have hlayout : (Block.panels p).parts = .block (.panels p) :: Panel.partsList p.panels := by
      cases p
      rw [Block.parts, PanelLayout.parts]
    have hshown := p.shown_perm.symm
    rw [hlayout, Block.hidden, List.flatMap_nil, List.append_nil]
    · exact List.Perm.cons _ ((Panel.partsList_perm p.panels).trans (List.Perm.append
        ((hshown.flatMap_right _).flatMap_right _) ((hshown.flatMap_right _).flatMap_right _)))
    · nofun
  | overlay o =>
    obtain ⟨_, base, annotations⟩ := o
    rw [Block.parts, Overlay.parts, OverlayNote.partsList_eq_flatMap, Block.partsList_eq_flatMap,
      Block.hidden, List.flatMap_nil, List.append_nil]
    · exact List.Perm.cons _ List.perm_append_comm
    · nofun
  | controls g => exact .refl _
  | unknown u => exact .refl _
  | sectionRef s | subsection s | document d => cases hsimple

theorem Block.mem_parts (b : Block) : .block b ∈ b.parts := by
  by_cases hsimple : b.isSimple = true
  · exact (b.parts_perm {} hsimple).mem_iff.mpr List.mem_cons_self
  · cases b with
    | subsection s | sectionRef r | document d => rw [Block.parts]; exact List.mem_cons_self
    | _ => exact absurd rfl hsimple

theorem Section.parts_eq (s : Section) :
    s.parts = .division s ::
      (s.title.toList.flatMap Inline.partsList ++ s.content.flatMap Block.parts) := by
  cases s
  rw [Section.parts, Inline.partsOption_eq_flatMap, Block.partsList_eq_flatMap]

def Document.texts (d : Document) : List (List Inline) :=
  d.abstract.toList ++ d.footnotes.map (·.content) ++ d.glossary.map (·.definition)

theorem Document.parts_perm (d : Document) :
    d.parts.Perm (.document d ::
      (d.texts.flatMap Inline.partsList ++ d.body.flatMap Section.parts)) := by
  cases d
  rw [Document.parts, Inline.partsOption_eq_flatMap, Section.partsList_eq_flatMap,
    Footnote.partsList_eq_flatMap, GlossaryEntry.partsList_eq_flatMap]
  simp only [Document.texts, List.flatMap_append, List.append_assoc]
  refine List.Perm.cons _ (List.Perm.append_left _ ?_)
  refine List.perm_append_comm.trans ?_
  rw [List.append_assoc]

/-! ## What stands inside -/

theorem Block.parts_sublist_flatMap {b : Block} {l : List Block} (h : b ∈ l) :
    b.parts.Sublist (l.flatMap Block.parts) := by
  rw [List.flatMap_def]
  exact List.sublist_flatten_of_mem (List.mem_map_of_mem h)

theorem Block.parts_subperm_of_mem_inner {r : Renderer} {b b' : Block} (hsimple : b.isSimple = true)
    (h : b' ∈ b.inner r) : (.block b :: b'.parts).Subperm b.parts := by
  have hparts := b.parts_perm r hsimple
  refine List.Subperm.trans ((List.subperm_cons _).mpr ?_) hparts.symm.subperm
  exact ((Block.parts_sublist_flatMap h).trans (List.sublist_append_right _ _)).subperm

theorem Block.partsList_subset_of_mem_texts {b : Block} (hsimple : b.isSimple = true)
    {content : List Inline} (h : content ∈ b.texts) : Inline.partsList content ⊆ b.parts := by
  have hparts := b.parts_perm {} hsimple
  intro part hpart
  have htexts : part ∈ b.texts.flatMap Inline.partsList := List.mem_flatMap.mpr ⟨content, h, hpart⟩
  exact hparts.symm.subset
    (List.mem_cons_of_mem _ (List.mem_append_left _ (List.mem_append_left _ htexts)))

theorem Section.parts_sublist_of_mem_content {s : Section} {b : Block} (h : b ∈ s.content) :
    b.parts.Sublist s.parts := by
  rw [Section.parts_eq]
  exact ((Block.parts_sublist_flatMap h).trans (List.sublist_append_right _ _)).trans
    (List.sublist_cons_self _ _)

theorem Document.parts_subperm_of_mem_body {d : Document} {s : Section} (h : s ∈ d.body) :
    s.parts.Subperm d.parts := by
  have hbody : s.parts.Sublist (d.body.flatMap Section.parts) := by
    rw [List.flatMap_def]
    exact List.sublist_flatten_of_mem (List.mem_map_of_mem h)
  refine List.Subperm.trans ?_ d.parts_perm.symm.subperm
  exact ((hbody.trans (List.sublist_append_right _ _)).trans (List.sublist_cons_self _ _)).subperm

/-- The section is the other one, or the other one is a subsection of it at some depth. -/
inductive Section.Encloses : Section → Section → Prop
  | refl (s : Section) : Section.Encloses s s
  | step {s u t : Section} (hu : Block.subsection u ∈ s.content) (ht : Section.Encloses u t) :
    Section.Encloses s t

mutual

theorem Section.encloses_of_find? {id : String} :
    ∀ {s t : Section}, s.find? id = some t → s.Encloses t
  | ⟨sectionId, title, content, metadata, display⟩, t, h => by
    rw [Section.find?] at h
    split at h
    · cases h
      exact .refl _
    · obtain ⟨u, hu, ht⟩ := Section.encloses_of_findInBlocks? h
      exact .step hu ht

theorem Section.encloses_of_findInBlocks? {id : String} : ∀ {content : List Block} {t : Section},
    Section.findInBlocks? id content = some t → ∃ u, Block.subsection u ∈ content ∧ u.Encloses t
  | [], t, h => by cases h
  | b :: rest, t, h => by
    have hrest : Section.findInBlocks? id rest = some t →
        ∃ u, Block.subsection u ∈ b :: rest ∧ u.Encloses t := by
      intro hfound
      obtain ⟨u, hu, ht⟩ := Section.encloses_of_findInBlocks? hfound
      exact ⟨u, List.mem_cons_of_mem _ hu, ht⟩
    cases b with
    | subsection s =>
      rw [Section.findInBlocks?, Option.or_eq_some_iff] at h
      rcases h with h | ⟨-, h⟩
      · exact ⟨s, List.mem_cons_self, Section.encloses_of_find? h⟩
      · exact hrest h
    | _ => exact hrest h

end

theorem Section.Encloses.parts_sublist {s t : Section} (h : s.Encloses t) :
    t.parts.Sublist s.parts := by
  induction h with
  | refl s => exact .refl _
  | step hu _ ih =>
    have hblock := Section.parts_sublist_of_mem_content hu
    rw [Block.parts] at hblock
    exact (ih.trans (List.sublist_cons_self _ _)).trans hblock

theorem Section.find?_of_findInList? {id : String} {body : List Section} {s : Section}
    (h : Section.findInList? id body = some s) : ∃ t ∈ body, t.find? id = some s := by
  induction body with
  | nil => cases h
  | cons t rest ih =>
    rw [Section.findInList?, Option.or_eq_some_iff] at h
    rcases h with h | ⟨-, h⟩
    · exact ⟨t, List.mem_cons_self, h⟩
    · obtain ⟨t', ht', hfound⟩ := ih h
      exact ⟨t', List.mem_cons_of_mem _ ht', hfound⟩

theorem Document.parts_subperm_of_findSection? {d : Document} {id : String} {s : Section}
    (h : d.findSection? id = some s) : s.parts.Subperm d.parts := by
  obtain ⟨t, ht, hfound⟩ := Section.find?_of_findInList? h
  exact (Section.encloses_of_find? hfound).parts_sublist.subperm.trans
    (Document.parts_subperm_of_mem_body ht)

/-! ## Properties of parts -/

namespace Part

theorem length_le_flatMap {α : Type} {f : α → List Part} {l : List α} {a : α} (h : a ∈ l) :
    (f a).length ≤ (l.flatMap f).length := by
  rw [List.flatMap_def]
  exact (List.sublist_flatten_of_mem (List.mem_map_of_mem h)).length_le

/-- A property of parts that is put together piece by piece, given another one of the documents that
stand in blocks and behind links. -/
structure Laws (P : List Part → Prop) (Q : Document → Prop) : Prop where
  nil : P []
  append : ∀ {l m : List Part}, P l → P m → P (l ++ m)
  perm : ∀ {l m : List Part}, P l → l.Perm m → P m
  cons : ∀ {part : Part} {l : List Part}, part.tooltip? = none → P l → P (part :: l)
  link : ∀ {content : List Inline} {t : Document} {tooltip : Option String},
    P (Inline.partsList content) → Q t → P (Inline.link content (.tooltip t) tooltip).parts
  document : ∀ {d : Document}, Q d → P d.parts

variable {P : List Part → Prop} {Q : Document → Prop}

theorem Laws.flatMap (laws : Laws P Q) {α : Type} {f : α → List Part} {l : List α}
    (h : ∀ a ∈ l, P (f a)) : P (l.flatMap f) := by
  induction l with
  | nil => exact laws.nil
  | cons a rest ih =>
    obtain ⟨ha, hrest⟩ := List.forall_mem_cons.mp h
    rw [List.flatMap_cons]
    exact laws.append ha (ih hrest)

mutual

theorem Laws.inline (laws : Laws P Q) {n : Nat} (hQ : ∀ t : Document, t.parts.length < n → Q t) :
    ∀ i : Inline, i.parts.length ≤ n → P i.parts
  | .link content target tooltip, hn => by
    rw [Inline.parts, List.length_cons, List.length_append] at hn
    have hcontent : P (Inline.partsList content) := laws.inlines hQ content (by omega)
    cases target with
    | tooltip t =>
      rw [LinkTarget.parts] at hn
      exact laws.link hcontent (hQ t (by omega))
    | _ =>
      rw [Inline.parts, LinkTarget.parts, List.append_nil]
      · exact laws.cons rfl hcontent
      · nofun
  | .text s, _ | .styled s styles, _ | .math f, _ | .footnote id, _ | .code s, _ | .unknown u, _ =>
    laws.cons rfl laws.nil

theorem Laws.inlines (laws : Laws P Q) {n : Nat} (hQ : ∀ t : Document, t.parts.length < n → Q t) :
    ∀ content : List Inline, (Inline.partsList content).length ≤ n → P (Inline.partsList content)
  | [], _ => laws.nil
  | i :: rest, hn => by
    rw [Inline.partsList, List.length_append] at hn
    rw [Inline.partsList]
    exact laws.append (laws.inline hQ i (by omega)) (laws.inlines hQ rest (by omega))

end

section Laws

variable (laws : Laws P Q) {n : Nat} (hQ : ∀ t : Document, t.parts.length < n → Q t)

include laws hQ

theorem Laws.texts (texts : List (List Inline)) (hn : (texts.flatMap Inline.partsList).length ≤ n) :
    P (texts.flatMap Inline.partsList) := by
  refine laws.flatMap fun content hcontent => ?_
  have hle : (Inline.partsList content).length ≤ _ := length_le_flatMap hcontent
  exact laws.inlines hQ content (Nat.le_trans hle hn)

/-- By induction on the number of parts: a block inside has fewer of them. -/
theorem Laws.block (m : Nat) (hm : m ≤ n) (b : Block) (hb : b.parts.length ≤ m) : P b.parts := by
  induction m generalizing b with
  | zero =>
    rw [List.length_eq_zero_iff.mp (Nat.le_zero.mp hb)]
    exact laws.nil
  | succ m ih =>
    have hblocks : ∀ content : List Block, (content.flatMap Block.parts).length ≤ m →
        P (content.flatMap Block.parts) := by
      intro content hcontent
      refine laws.flatMap fun b' hb' => ih (by omega) b' ?_
      have hle : b'.parts.length ≤ _ := length_le_flatMap hb'
      exact Nat.le_trans hle hcontent
    by_cases hsimple : b.isSimple = true
    -- which blocks are hidden does not matter here, so any renderer will do
    · have hperm := b.parts_perm {} hsimple
      have hlength := hperm.length_eq
      rw [List.length_cons, List.length_append, List.length_append] at hlength
      have htexts : P (b.texts.flatMap Inline.partsList) := laws.texts hQ _ (by omega)
      have hhidden : P ((b.hidden {}).flatMap Block.parts) := hblocks (b.hidden {}) (by omega)
      have hinner : P ((b.inner {}).flatMap Block.parts) := hblocks (b.inner {}) (by omega)
      exact laws.perm (laws.cons rfl (laws.append (laws.append htexts hhidden) hinner)) hperm.symm
    · cases b with
      | subsection s =>
        rw [Block.parts, Section.parts_eq, List.length_cons, List.length_cons,
          List.length_append] at hb
        rw [Block.parts, Section.parts_eq]
        have hcontent : P (s.content.flatMap Block.parts) := hblocks s.content (by omega)
        exact laws.cons rfl (laws.cons rfl (laws.append (laws.texts hQ _ (by omega)) hcontent))
      | sectionRef r => exact laws.cons rfl laws.nil
      | document d =>
        rw [Block.parts, List.length_cons] at hb
        rw [Block.parts]
        exact laws.cons rfl (laws.document (hQ d (by omega)))
      | _ => exact absurd rfl hsimple

theorem Laws.ofDocument (d : Document) (hd : d.parts.length ≤ n) : P d.parts := by
  have hlength := d.parts_perm.length_eq
  rw [List.length_cons, List.length_append] at hlength
  refine laws.perm (laws.cons rfl (laws.append (laws.texts hQ _ (by omega)) ?_)) d.parts_perm.symm
  refine laws.flatMap fun s hs => ?_
  have hle : s.parts.length ≤ _ := length_le_flatMap hs
  have hsection : s.parts.length ≤ n := by omega
  rw [Section.parts_eq, List.length_cons, List.length_append] at hsection
  rw [Section.parts_eq]
  refine laws.cons rfl (laws.append (laws.texts hQ _ (by omega)) (laws.flatMap fun b hb => ?_))
  have hblock : b.parts.length ≤ _ := length_le_flatMap hb
  exact laws.block hQ n (Nat.le_refl n) b (by omega)

end Laws

/-! ## Tooltips -/

/-- The parts of a tooltip document that a link among the parts shows are among the parts, too. -/
def Closed (parts : List Part) : Prop :=
  ∀ t ∈ tooltips parts, t.parts.Subperm parts

theorem tooltips_append (l m : List Part) : tooltips (l ++ m) = tooltips l ++ tooltips m :=
  List.filterMap_append

theorem mem_tooltips {parts : List Part} {t : Document} :
    t ∈ tooltips parts ↔ ∃ part ∈ parts, part.tooltip? = some t :=
  List.mem_filterMap

theorem tooltips_subset {l m : List Part} (h : l ⊆ m) : tooltips l ⊆ tooltips m := by
  intro t ht
  obtain ⟨part, hpart, hshown⟩ := mem_tooltips.mp ht
  exact mem_tooltips.mpr ⟨part, h hpart, hshown⟩

theorem Closed.append {l m : List Part} (hl : Closed l) (hm : Closed m) : Closed (l ++ m) := by
  intro t ht
  rw [tooltips_append] at ht
  rcases List.mem_append.mp ht with ht | ht
  · exact (hl t ht).trans (List.sublist_append_left _ _).subperm
  · exact (hm t ht).trans (List.sublist_append_right _ _).subperm

theorem Closed.cons {part : Part} {l : List Part} (hpart : part.tooltip? = none) (h : Closed l) :
    Closed (part :: l) := by
  intro t ht
  rw [tooltips, List.filterMap_cons_none hpart] at ht
  exact (h t ht).trans (List.sublist_cons_self _ _).subperm

theorem closed_laws : Laws Closed fun t => Closed t.parts where
  nil := fun _ ht => nomatch ht
  append := Closed.append
  perm := fun h hperm t ht =>
    (h t (tooltips_subset hperm.symm.subset ht)).trans hperm.subperm
  cons := Closed.cons
  link := by
    intro content t tooltip hcontent hdocument
    rw [Inline.parts, LinkTarget.parts]
    intro t' ht'
    rcases List.mem_cons.mp ht' with rfl | ht'
    · exact ((List.sublist_append_right _ _).trans (List.sublist_cons_self _ _)).subperm
    · exact (hcontent.append hdocument t' ht').trans (List.sublist_cons_self _ _).subperm
  document := id

end Part

theorem Document.parts_closed (d : Document) : Part.Closed d.parts := by
  induction hlength : d.parts.length using Nat.strongRecOn generalizing d with
  | ind n ih =>
    exact Part.closed_laws.ofDocument (fun t ht => ih _ ht t rfl) d (Nat.le_of_eq hlength)

theorem Block.parts_closed (b : Block) : Part.Closed b.parts :=
  Part.closed_laws.block (fun t _ => t.parts_closed) _ (Nat.le_refl _) b (Nat.le_refl _)

end Compendium
