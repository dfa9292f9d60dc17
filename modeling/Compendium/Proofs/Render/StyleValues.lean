import Compendium.Proofs.Render.BlockStyles
import Compendium.Proofs.Render.Tooltips

/-!
# Rendering with other style values

A value is rendered next to the same value with other texts for its styles. Both renderings go
through the same blocks, sections and tooltip documents: no text of a style decides on anything but
the style itself. So the styles of both come from the same sources, one with the texts of the first
value and one with those of the second. The noted documents of the second rendering are those of the
first one with other texts.
-/

namespace Compendium

open Markup
open StyleSource (styles)

/-- The scope with other texts for the values in the open documents. -/
def Scope.revalued (f : String → String) (scope : Scope) : Scope :=
  { scope with documents := scope.documents.map (Document.revalued f) }

/-! ## Steps side by side -/

namespace Rendered

/-- The styles of a step have sources, and a step with other values writes the styles of these
sources with the other values. Both note the same documents, up to the values. -/
def Alike (x : Rendered) (y : (String → String) → Rendered) : Prop :=
  ∀ noted, ∃ sources : List StyleSource, stylesIn (x.run noted).1 = styles sources ∧
    ∀ f, stylesIn ((y f).run (noted.map (Document.revalued f))).1 =
        styles (sources.map (StyleSource.revalued f)) ∧
      ((y f).run (noted.map (Document.revalued f))).2 = (x.run noted).2.map (Document.revalued f)

variable {x x' : Rendered} {y y' : (String → String) → Rendered}

theorem Alike.of_eq (h : Alike x y) (hx : x' = x) (hy : ∀ f, y' f = y f) : Alike x' y' := by
  rw [hx, funext hy]
  exact h

theorem alike_pure {ms : List Markup} (h : stylesIn ms = []) : Alike (pure ms) fun _ => pure ms :=
  fun _ => ⟨[], h, fun _ => ⟨h, rfl⟩⟩

theorem Alike.append (hx : Alike x y) (hx' : Alike x' y') : Alike (do
    let first ← x
    let others ← x'
    return first ++ others) fun f => do
      let first ← y f
      let others ← y' f
      return first ++ others := by
  intro noted
  obtain ⟨own, hown, hrun⟩ := hx noted
  obtain ⟨more, hmore, hrun'⟩ := hx' (x.run noted).2
  refine ⟨own ++ more, ?_, fun f => ?_⟩
  · show stylesIn ((x.run noted).1 ++ (x'.run (x.run noted).2).1) = _
    rw [stylesIn_append, hown, hmore, StyleSource.styles_append]
  · obtain ⟨hfirst, hnoted⟩ := hrun f
    have hothers := hrun' f
    rw [← hnoted] at hothers
    refine ⟨?_, hothers.2⟩
    rw [List.map_append, StyleSource.styles_append, ← hfirst, ← hothers.1]
    exact stylesIn_append _ _

/-- An element whose own styles have no values of authors in them. -/
theorem Alike.element (h : Alike x y) (tag : String) (attrs : List Attr) {own : List StyleSource}
    (hattrs : styleValues attrs = styles own) (hown : ∀ f, own.map (StyleSource.revalued f) = own)
    (flags : List String) : Alike (do
      let content ← x
      return [.element tag attrs flags content]) fun f => do
        let content ← y f
        return [.element tag attrs flags content] := by
  have helement : ∀ content, stylesIn [.element tag attrs flags content] =
      styles own ++ stylesIn content := by
    simp [hattrs]
  intro noted
  obtain ⟨sources, hsources, hrun⟩ := h noted
  refine ⟨own ++ sources, ?_, fun f => ⟨?_, (hrun f).2⟩⟩
  · rw [StyleSource.styles_append, ← hsources]
    exact helement _
  · rw [List.map_append, hown, StyleSource.styles_append, ← (hrun f).1]
    exact helement _

theorem Alike.unstyled (h : Alike x y) (tag : String) (attrs : List Attr)
    (hattrs : styleValues attrs = []) : Alike (inside tag attrs x) fun f =>
      inside tag attrs (y f) :=
  h.element tag attrs (hattrs.trans StyleSource.styles_nil.symm) (fun _ => rfl) []

end Rendered

/-! ## Inline text -/

theorem LinkTarget.key_revalued (f : String → String) (target : LinkTarget) :
    (target.revalued f).key = target.key := by
  cases target with
  | tooltip d => rw [revalued, key, key, Document.id_revalued]
  | _ => rfl

theorem note_revalued (f : String → String) (noted : List Document) (d : Document) :
    note (noted.map (Document.revalued f)) (d.revalued f) =
      (note noted d).map (Document.revalued f) := by
  unfold note
  simp only [List.any_map, Function.comp_def, Document.id_revalued]
  split <;> simp

namespace Scope

open Rendered Layout Piece

theorem noted_noting (f : String → String) {x y : Rendered} {target : LinkTarget}
    {noted : List Document}
    (h : ∀ noted : List Document, (y.run (noted.map (Document.revalued f))).2 =
      (x.run noted).2.map (Document.revalued f)) :
    ((noting (target.revalued f) y).run (noted.map (Document.revalued f))).2 =
      ((noting target x).run noted).2.map (Document.revalued f) := by
  cases target with
  | tooltip d =>
    show (y.run (note _ _)).2 = (x.run (note noted d)).2.map _
    rw [note_revalued, h]
  | _ => exact h noted

mutual

theorem noted_inlinePiece (f : String → String) : ∀ (i : Inline) {scope scope' : Scope},
    scope'.links = scope.links → ∀ noted : List Document,
    ((scope'.inlinePiece (i.revalued f)).run (noted.map (Document.revalued f))).2 =
      ((scope.inlinePiece i).run noted).2.map (Document.revalued f)
  | .link content target tooltip, scope, scope', hlinks, noted => by
    have hkey := target.key_revalued f
    rw [Inline.revalued, inlinePiece, inlinePiece]
    by_cases hopen : target.key ∈ scope.links
    · rw [link_of_open hopen, link_of_open (by rwa [hkey, hlinks])]
      exact noted_inlines f content hlinks noted
    · rw [link_of_new hopen, link_of_new (by rwa [hkey, hlinks])]
      refine noted_noting f fun noted => noted_inlines f content ?_ noted
      rw [insideLink, insideLink, hkey, hlinks]
  | .text _, _, _, _, _ | .styled _ _, _, _, _, _ | .math _, _, _, _, _ | .footnote _, _, _, _, _
  | .code _, _, _, _, _ | .unknown _, _, _, _, _ => rfl

theorem noted_inlines (f : String → String) : ∀ (content : List Inline) {scope scope' : Scope},
    scope'.links = scope.links → ∀ noted : List Document,
    ((scope'.inlines (Inline.revaluedList f content)).run (noted.map (Document.revalued f))).2 =
      ((scope.inlines content).run noted).2.map (Document.revalued f)
  | [], _, _, _, _ => rfl
  | i :: rest, scope, scope', hlinks, noted => by
    rw [Inline.revaluedList, inlines, inlines]
    show ((scope'.inlines _).run ((scope'.inlinePiece _).run _).2).2 = _
    rw [noted_inlinePiece f i hlinks, noted_inlines f rest hlinks]
    rfl

end

theorem alike_inlines (scope : Scope) (content : List Inline) :
    Alike (scope.inlines content) fun f =>
      (scope.revalued f).inlines (Inline.revaluedList f content) := by
  refine fun noted =>
    ⟨Inline.sourcesList content, stylesIn_inlines content scope noted, fun f => ?_⟩
  rw [← Inline.sourcesList_revalued]
  have hlinks : (scope.revalued f).links = scope.links := rfl
  exact ⟨stylesIn_inlines _ _ _, noted_inlines f content hlinks noted⟩

/-! ## Layouts -/

/-- Blocks are rendered alike in every scope. -/
def AlikeBlocks (block : BlockRenderer) : Prop :=
  ∀ scope number b, Alike (block scope number b) fun f =>
    block (scope.revalued f) number (b.revalued f)

end Scope

namespace Layout

open Scope Rendered

variable (block : BlockRenderer) (scope : Scope)

/-- The styles that a step writes, and the documents that are noted after it. -/
def observed (x : Rendered) (noted : List Document) : List String × List Document :=
  (stylesIn (x.run noted).1, (x.run noted).2)

/-- The styles that are written for styles and leaves, and the documents that are noted after
them. -/
def observedAll : List (String ⊕ Leaf) → List Document → List String × List Document
  | [], noted => ([], noted)
  | .inl style :: rest, noted => (style :: (observedAll rest noted).1, (observedAll rest noted).2)
  | .inr leaf :: rest, noted =>
    let first := observed (leaf.render block scope) noted
    (first.1 ++ (observedAll rest first.2).1, (observedAll rest first.2).2)

theorem observedAll_append (l m : List (String ⊕ Leaf)) (noted : List Document) :
    observedAll block scope (l ++ m) noted =
      ((observedAll block scope l noted).1 ++
        (observedAll block scope m (observedAll block scope l noted).2).1,
        (observedAll block scope m (observedAll block scope l noted).2).2) := by
  induction l generalizing noted with
  | nil => rfl
  | cons a rest ih => cases a <;> simp [observedAll, ih]

theorem observedAll_styles (values : List String) (noted : List Document) :
    observedAll block scope (values.map .inl) noted = (values, noted) := by
  induction values with
  | nil => rfl
  | cons value rest ih => simp [observedAll, ih]

theorem observedAll_leaf (leaf : Leaf) (noted : List Document) :
    observedAll block scope [.inr leaf] noted = observed (leaf.render block scope) noted := by
  simp [observedAll]

mutual

theorem observed_render : ∀ (l : Layout) (noted : List Document),
    observed (render block scope l) noted = observedAll block scope (collect styledLeaf l) noted
  | fixed m, noted => by
    rw [collect_fixed, styledLeaf, observedAll_styles, render]
    rfl
  | .text content, noted => by
    rw [collect_text, styledLeaf, observedAll_leaf, render, Leaf.render]
  | .block number b, noted => by
    rw [collect_block, styledLeaf, observedAll_leaf, render, Leaf.render]
  | division number s, noted => by
    rw [collect_division, styledLeaf, observedAll_leaf, render, Leaf.render]
  | element tag attrs flags inner, noted => by
    rw [collect_element, styledLeaf, observedAll_append, observedAll_styles,
      ← observed_renderAll inner, render]
    refine Prod.ext ?_ rfl
    show stylesIn [.element tag attrs flags ((renderAll block scope inner).run noted).1] = _
    simp [observed]

theorem observed_renderAll : ∀ (ls : List Layout) (noted : List Document),
    observed (renderAll block scope ls) noted = observedAll block scope (styledLeaves ls) noted
  | [], noted => by
    rw [renderAll]
    exact congrArg (·, noted) stylesIn_nil
  | l :: rest, noted => by
    have hboth : styledLeaves (l :: rest) = collect styledLeaf l ++ styledLeaves rest :=
      collectAll_cons styledLeaf l rest
    rw [hboth, observedAll_append, ← observed_render l, ← observed_renderAll rest, renderAll]
    exact Prod.ext (stylesIn_append _ _) rfl

end

variable {block scope}

/-- By induction on the pieces: the sources of a step are those of its pieces, one after the
other. -/
theorem exists_sources {ps : List Piece} (hleaf : ∀ l, .leaf l ∈ ps →
      Alike (l.render block scope) fun f => (l.revalued f).render block (scope.revalued f))
    (noted : List Document) : ∃ sources : List StyleSource,
      (observedAll block scope (ps.flatMap Piece.written) noted).1 = styles sources ∧
      ∀ f, observedAll block (scope.revalued f) ((ps.map (Piece.revalued f)).flatMap Piece.written)
          (noted.map (Document.revalued f)) = (styles (sources.map (StyleSource.revalued f)),
            (observedAll block scope (ps.flatMap Piece.written) noted).2.map
              (Document.revalued f)) := by
  induction ps generalizing noted with
  | nil => exact ⟨[], rfl, fun _ => rfl⟩
  | cons p rest ih =>
    have hrest := fun l hl => hleaf l (List.mem_cons_of_mem p hl)
    cases p with
    | source s =>
      obtain ⟨sources, hsources, hrun⟩ := ih hrest noted
      refine ⟨s :: sources, ?_, fun f => ?_⟩
      · simp [Piece.written, observedAll_append, observedAll_styles, hsources]
      · simp [Piece.written, observedAll_append, observedAll_styles, hrun]
    | leaf l =>
      obtain ⟨own, hown, hfirst⟩ := hleaf l List.mem_cons_self noted
      obtain ⟨sources, hsources, hrun⟩ := ih hrest ((l.render block scope).run noted).2
      refine ⟨own ++ sources, ?_, fun f => ?_⟩
      · simp [Piece.written, observedAll, observed, hown, hsources]
      · obtain ⟨hstyles, hnoted⟩ := hfirst f
        simp [Piece.revalued, Piece.written, observedAll, observed, hstyles, hnoted, hrun]

/-- Layouts with the same pieces, up to the values, are rendered alike if their leaves are. -/
theorem alike_renderAll {ls : List Layout} {ls' : (String → String) → List Layout} {ps : List Piece}
    (h : styledLeaves ls = ps.flatMap Piece.written)
    (h' : ∀ f, styledLeaves (ls' f) = (ps.map (Piece.revalued f)).flatMap Piece.written)
    (hleaf : ∀ l, .leaf l ∈ ps →
      Alike (l.render block scope) fun f => (l.revalued f).render block (scope.revalued f)) :
    Alike (renderAll block scope ls) fun f => renderAll block (scope.revalued f) (ls' f) := by
  intro noted
  obtain ⟨sources, hsources, hrun⟩ := exists_sources hleaf noted
  rw [← h, ← observed_renderAll] at hsources
  refine ⟨sources, hsources, fun f => ?_⟩
  have hother := hrun f
  rw [← h', ← h, ← observed_renderAll, ← observed_renderAll] at hother
  exact ⟨congrArg Prod.fst hother, congrArg Prod.snd hother⟩

end Layout

/-! ## Sections and articles -/

def Section.pieces (mode : SectionMode) (number : Option String) (s : Section) : List Piece :=
  (if Scope.showsTitle mode s then Piece.someText s.title else []) ++
    (Layout.leavesAll (Layout.numbered number 0 s.content)).map .leaf

/-- The pieces of the inside of an article. Its body has a style of its own. -/
def Document.pieces (body : StyleSource) (d : Document) : List Piece :=
  let glossary := d.glossary.map fun entry => Piece.text entry.definition
  Piece.someText d.abstract ++ ((if d.kind == .glossary then glossary else []) ++
    (.source body :: ((Layout.leavesAll (Layout.ofBody d)).map .leaf ++
      ((d.footnotes.map fun note => .text note.content) ++
        if d.kind == .glossary then [] else glossary))))

namespace Layout

open Scope Piece

@[simp] theorem flatMap_leaves (l : List Leaf) :
    (l.map Piece.leaf).flatMap written = l.map .inr := by
  rw [List.flatMap_map]
  exact List.map_eq_flatMap.symm

theorem styledLeaves_numbered (number : Option String) (k : Nat) (content : List Block) :
    styledLeaves (numbered number k content) =
      (leavesAll (numbered number k content)).map .inr := by
  induction content generalizing k with
  | nil => simp [numbered]
  | cons b rest ih =>
    obtain ⟨own, next, hlayout, -⟩ := numbered_cons number k b rest
    simp [hlayout, ih]

theorem leavesAll_numbered_revalued (f : String → String) (number : Option String) (k : Nat)
    (content : List Block) : leavesAll (numbered number k (content.map (Block.revalued f))) =
      (leavesAll (numbered number k content)).map (Leaf.revalued f) := by
  induction content generalizing k with
  | nil => simp [numbered]
  | cons b rest ih =>
    cases number <;> cases b <;> simp [numbered, ih, Leaf.revalued, Block.revalued]

theorem styledLeaves_ofSection (inner : Scope) (mode : SectionMode) (number : Option String)
    (s : Section) :
    styledLeaves (ofSection inner mode number s) = (s.pieces mode number).flatMap written := by
  have hlabel : stylesIn (numberLabel number) = [] := by cases number <;> simp [numberLabel]
  have hmetadata : stylesIn (sectionMetadata s) = [] := by
    have hentries : ∀ entries : List (String × String), stylesIn (entries.flatMap fun entry =>
        [.leaf "dt" [] entry.1, .leaf "dd" [] entry.2]) = [] := by
      intro entries
      induction entries with
      | nil => simp
      | cons entry rest ih => simp [ih]
    unfold sectionMetadata
    split
    · next entry rest _ => simpa using hentries (entry :: rest)
    · simp
  unfold ofSection sectionFront Section.pieces
  cases showsTitle mode s <;> cases s.title <;>
    simp [hlabel, hmetadata, styledLeaves_numbered, someText, Piece.text, written]

/-- A section has no sections at its leaves: its subsections are blocks. -/
theorem division_notMem_pieces (mode : SectionMode) (number : Option String) (s : Section)
    (own : Option String) (t : Section) : .leaf (.division own t) ∉ s.pieces mode number := by
  have hnumbered : ∀ k content, .division own t ∉ leavesAll (numbered number k content) := by
    intro k content
    induction content generalizing k with
    | nil => simp [numbered]
    | cons b rest ih =>
      obtain ⟨_, next, hlayout, -⟩ := numbered_cons number k b rest
      simp [hlayout, ih next]
  unfold Section.pieces
  cases showsTitle mode s <;> simp [hnumbered, someText, Piece.text]

theorem pieces_section_revalued (f : String → String) (mode : SectionMode) (number : Option String)
    (s : Section) : (s.revalued f).pieces mode number =
      (s.pieces mode number).map (Piece.revalued f) := by
  rw [Section.revalued_eq]
  unfold Section.pieces
  rw [leavesAll_numbered_revalued]
  have hshows : showsTitle mode { s with
      title := s.title.map (Inline.revaluedList f), content := s.content.map (Block.revalued f) } =
      showsTitle mode s := by cases mode <;> rfl
  rw [hshows]
  cases showsTitle mode s <;> simp [Piece.revalued, Function.comp_def]

mutual

theorem stylesIn_tocEntry : ∀ e : TocEntry, stylesIn [tocEntry e] = []
  | .mk id title children => by simp [tocEntry, stylesIn_tocSublist children]

theorem stylesIn_tocItems : ∀ entries : List TocEntry, stylesIn (tocItems entries) = []
  | [] => by simp [tocItems]
  | e :: rest => by rw [tocItems, stylesIn_cons, stylesIn_tocEntry e, stylesIn_tocItems rest]; rfl

theorem stylesIn_tocSublist : ∀ entries : List TocEntry, stylesIn (tocSublist entries) = []
  | [] => by simp [tocSublist]
  | e :: rest => by
    rw [tocSublist, stylesIn_node, stylesIn_cons, stylesIn_tocEntry e, stylesIn_tocItems rest]
    simp

end

/-- What an article has outside of its body and its texts has no styles. -/
theorem stylesIn_apparatus (d : Document) : stylesIn [documentHeader d] = [] ∧
    stylesIn (documentContents d) = [] ∧ stylesIn (resourceNav d.body) = [] ∧
    stylesIn (documentBibliography d) = [] := by
  refine ⟨?_, ?_, ?_, ?_⟩
  · have hdates : stylesIn (dates d.createdAt d.updatedAt) = [] := by
      unfold dates timeMark
      split <;> simp
    unfold documentHeader
    cases d.authors.isEmpty <;> simp [hdates]
  · have hitems : stylesIn (tocSublist (tocEntries d)) = [] := stylesIn_tocSublist (tocEntries d)
    unfold documentContents
    split <;> simp [hitems]
  · have hlinks : stylesIn (d.body.map resourceLink) = [] :=
      stylesIn_map_nil (fun s => by simp [resourceLink]) _
    unfold resourceNav
    split <;> simp [hlinks]
  · have hentries : stylesIn (d.bibliography.map bibliographyEntry) = [] :=
      stylesIn_map_nil (fun e => by
      unfold bibliographyEntry
      cases e.authors.isEmpty <;> cases e.venue <;> cases e.year <;> cases e.url <;> simp) _
    unfold documentBibliography
    split <;> simp [hentries]

theorem styledLeaves_ofBody (d : Document) :
    styledLeaves (ofBody d) = (leavesAll (ofBody d)).map .inr := by
  have hpairs : ∀ body, styledLeaves (pairs body) = (leavesAll (pairs body)).map .inr := by
    intro body
    fun_induction pairs body with
    | case1 => simp
    | case2 source => simp
    | case3 source target rest ih => simp [ih]
  unfold ofBody
  cases d.kind with
  | typeMappingDisplay => exact hpairs d.body
  | transformationMapping => exact hpairs d.body
  | _ => simp [collectAll_eachFrom, collectAll_map, List.map_flatMap]

theorem styledLeaves_ofDocument (inner : Scope) (d : Document) {body : StyleSource}
    (hbody : (inner.bodyLayout d).2 = body.declarations) :
    styledLeaves (ofDocument inner d) = (d.pieces body).flatMap written := by
  obtain ⟨hheader, hcontents, hnav, hbibliography⟩ := stylesIn_apparatus d
  have hglossary : styledLeaves (glossary d) =
      (d.glossary.map fun entry => Piece.text entry.definition).flatMap written := by
    unfold glossary
    split
    · next hempty => simp [List.isEmpty_iff.mp hempty]
    · simp [collectAll_flatMap, List.flatMap_map, Piece.text, written]
  have hfootnotes : styledLeaves (footnotes d) =
      (d.footnotes.map fun note => Piece.text note.content).flatMap written := by
    unfold footnotes
    split
    · next hempty => simp [List.isEmpty_iff.mp hempty]
    · simp [collectAll_map, List.flatMap_map, Piece.text, written]
  have hmain := styleValues_styleAttr body
  rw [← hbody] at hmain
  unfold ofDocument Document.pieces
  cases d.abstract <;> cases d.kind == .glossary <;> cases d.kind == .resourcePanel <;>
    simp [hheader, hcontents, hnav, hbibliography, hglossary, hfootnotes, hmain,
      styledLeaves_ofBody, someText, Piece.text, written]

theorem pieces_document_revalued (f : String → String) (d : Document) {body : StyleSource}
    (hbody : body.revalued f = body) :
    (d.revalued f).pieces body = (d.pieces body).map (Piece.revalued f) := by
  have hsections : leavesAll (ofBody (d.revalued f)) =
      (leavesAll (ofBody d)).map (Leaf.revalued f) := by
    rw [leavesAll_ofBody, leavesAll_ofBody, Document.revalued_eq]
    simp [List.zipIdx_map, Leaf.revalued, bodyNumber, Function.comp_def]
  unfold Document.pieces
  rw [hsections]
  simp only [Document.revalued_eq]
  cases d.kind == .glossary <;>
    simp [Piece.revalued, Piece.text, Leaf.revalued, Function.comp_def, hbody, Footnote.revalued_eq,
      GlossaryEntry.revalued_eq]

end Layout

/-! ## Sections, articles and blocks side by side -/

namespace Scope

open Rendered Layout

variable {block : BlockRenderer}

theorem styleValues_sectionAttrs (scope : Scope) (mode : SectionMode) (numbered : Bool)
    (s : Section) :
    styleValues (scope.sectionAttrs mode numbered s) = [] := by
  unfold sectionAttrs
  split <;> simp

theorem sectionAttrs_revalued (f : String → String) (scope : Scope) (mode : SectionMode)
    (numbered : Bool) (s : Section) : (scope.revalued f).sectionAttrs mode numbered (s.revalued f) =
      scope.sectionAttrs mode numbered s := by
  rw [Section.revalued_eq]
  rfl

theorem alike_renderSection (hblock : AlikeBlocks block) (scope : Scope) (mode : SectionMode)
    (number : Option String) (s : Section) :
      Alike (renderSection block scope mode number s) fun f =>
      renderSection block (scope.revalued f) mode number (s.revalued f) := by
  by_cases hopen : s.id ∈ scope.sections
  · refine (alike_pure
      (show stylesIn [sectionCycle s.id] = [] by simp [sectionCycle, marker])).of_eq
      (renderSection_opened block mode number hopen) fun f => ?_
    rw [renderSection_opened block mode number (by rwa [Section.id_revalued]), Section.id_revalued]
  · have hinner : Alike (renderAll block (scope.insideSection mode s)
        (ofSection (scope.insideSection mode s) mode number s)) fun f =>
          renderAll block ((scope.insideSection mode s).revalued f)
            (ofSection ((scope.insideSection mode s).revalued f) mode number (s.revalued f)) := by
      refine alike_renderAll (styledLeaves_ofSection _ mode number s) (fun f => ?_) fun l hl => ?_
      · rw [styledLeaves_ofSection, pieces_section_revalued]
      · cases l with
        | text content => exact alike_inlines _ content
        | block own b => exact hblock _ own b
        | division own t => exact absurd hl (division_notMem_pieces mode number s own t)
    refine (hinner.unstyled "section" _ (styleValues_sectionAttrs scope mode number.isSome s)).of_eq
      (renderSection_eq block scope number hopen) fun f => ?_
    have hinside : (scope.revalued f).insideSection mode (s.revalued f) =
        (scope.insideSection mode s).revalued f := by
      unfold insideSection
      rw [Section.id_revalued]
      rfl
    have hopen' : (s.revalued f).id ∉ (scope.revalued f).sections := by rwa [Section.id_revalued]
    rw [renderSection_eq block (scope.revalued f) number hopen', sectionAttrs_revalued, hinside]

theorem alike_leaf (hblock : AlikeBlocks block) (scope : Scope) : ∀ l : Leaf,
    Alike (l.render block scope) fun f => (l.revalued f).render block (scope.revalued f)
  | .text content => alike_inlines scope content
  | .block number b => hblock scope number b
  | .division number s => alike_renderSection hblock scope .anchored number s

theorem bodyLayout_revalued (f : String → String) (scope : Scope) (d : Document) :
    (scope.revalued f).bodyLayout (d.revalued f) = scope.bodyLayout d := by
  have hlength : (d.revalued f).body.length = d.body.length := by simp [Document.revalued_eq]
  unfold bodyLayout
  rw [hlength, Document.revalued_eq]
  rfl

theorem exists_styleValues_articleAttrs (d : Document) :
    ∃ own, styleValues (articleAttrs d) = styles own ∧
    ∀ f, own.map (StyleSource.revalued f) = own := by
  have hanimation : ∀ a, styleValues (animationAttrs a) = [] := by
    intro a
    unfold animationAttrs
    cases a.enabled <;> cases a.duration <;> cases a.easing <;> simp
  have hpresentation : ∀ p, styleValues (presentationAttrs p) = [] := by
    intro p
    unfold presentationAttrs
    cases p.features.isEmpty <;> cases p.animation <;> simp [hanimation]
  refine ⟨if d.kind.laysItselfOut then [.article] else [], ?_, fun f => by split <;> rfl⟩
  unfold articleAttrs
  cases d.kind.laysItselfOut <;> cases d.presentation <;>
    simp [hpresentation, StyleSource.style?, StyleSource.declarations]

/-- An article is rendered alike if its closing is. -/
theorem alike_articleWith (hblock : AlikeBlocks block) {closing : Scope → Rendered}
    (hclosing : ∀ inner, Alike (closing inner) fun f => closing (inner.revalued f)) (scope : Scope)
    (d : Document) : Alike (articleWith block closing scope d) fun f =>
      articleWith block closing (scope.revalued f) (d.revalued f) := by
  have hids : ∀ f, (scope.revalued f).documents.map (·.id) = scope.documents.map (·.id) := by
    simp [revalued, Function.comp_def]
  by_cases hopen : d.id ∈ scope.documents.map (·.id)
  · refine (alike_pure
      (show stylesIn [documentCycle d.id] = [] by simp [documentCycle, marker])).of_eq
      (articleWith_opened block closing (any_id_iff.mpr hopen)) fun f => ?_
    rw [articleWith_opened block closing (any_id_iff.mpr (by rwa [hids, Document.id_revalued])),
      Document.id_revalued]
  · let inner := scope.insideDocument d
    obtain ⟨body, hbody, hkept⟩ := StyleSource.exists_bodyLayout inner d
    have hfront : Alike (renderAll block inner (ofDocument inner d)) fun f =>
        renderAll block (inner.revalued f) (ofDocument (inner.revalued f) (d.revalued f)) := by
      refine alike_renderAll (styledLeaves_ofDocument inner d hbody) (fun f => ?_)
        fun l _ => alike_leaf hblock inner l
      rw [styledLeaves_ofDocument _ _ (by rw [bodyLayout_revalued]; exact hbody),
        pieces_document_revalued f d (hkept f)]
    have hattrs : ∀ f, articleAttrs (d.revalued f) = articleAttrs d := by
      intro f
      rw [Document.revalued_eq]
      rfl
    obtain ⟨own, hown, hsame⟩ := exists_styleValues_articleAttrs d
    refine ((hfront.append (hclosing inner)).element "article" _ hown hsame []).of_eq
      (articleWith_eq_layout block scope closing hopen) fun f => ?_
    rw [articleWith_eq_layout block (scope.revalued f) closing
      (by rwa [hids, Document.id_revalued]), hattrs]
    rfl

theorem alike_innerArticle (hblock : AlikeBlocks block) (scope : Scope) (d : Document) :
    Alike (innerArticle block scope d) fun f =>
      innerArticle block (scope.revalued f) (d.revalued f) :=
  alike_articleWith hblock (fun _ => alike_pure stylesIn_nil) scope d

theorem alike_tooltipDocument (hblock : AlikeBlocks block) (scope : Scope) (d : Document) :
    Alike (tooltipDocument block scope d) fun f =>
      tooltipDocument block (scope.revalued f) (d.revalued f) := by
  refine ((alike_innerArticle hblock scope d).unstyled "div"
    [("class", "tooltip-document"), ("id", "tooltip-" ++ d.id)] (by simp)).of_eq rfl fun f => ?_
  rw [tooltipDocument, Document.id_revalued]

/-- By induction on the bound: both renderings go through the same work list, up to the values. -/
theorem alike_tooltipsFrom (hblock : AlikeBlocks block) (scope : Scope) (limit position : Nat) :
    Alike (tooltipsFrom block scope limit position) fun f =>
      tooltipsFrom block (scope.revalued f) limit position := by
  induction limit generalizing position with
  | zero => exact alike_pure stylesIn_nil
  | succ limit ih =>
    intro noted
    cases hnext : noted[position]? with
    | none =>
      refine ⟨[], ?_, fun f => ?_⟩
      · rw [tooltipsFrom_run_succ, hnext]
        exact stylesIn_nil
      · rw [tooltipsFrom_run_succ, tooltipsFrom_run_succ, List.getElem?_map, hnext]
        exact ⟨stylesIn_nil, rfl⟩
    | some t =>
      obtain ⟨sources, hsources, hrun⟩ :=
        (alike_tooltipDocument hblock scope t).append (ih (position + 1)) noted
      refine ⟨sources, ?_, fun f => ?_⟩
      · rw [tooltipsFrom_run_succ, hnext]
        exact hsources
      · rw [tooltipsFrom_run_succ, tooltipsFrom_run_succ, List.getElem?_map, hnext]
        exact hrun f

theorem alike_tooltipDocuments (hblock : AlikeBlocks block) (scope : Scope) :
    Alike (tooltipDocuments block scope) fun f => tooltipDocuments block (scope.revalued f) := by
  intro noted
  cases noted with
  | nil => exact ⟨[], stylesIn_nil, fun f => ⟨stylesIn_nil, rfl⟩⟩
  | cons first rest =>
    exact (alike_tooltipsFrom hblock scope scope.tooltipLimit 0).element "aside"
      [("class", "tooltip-documents")] (by simp : _ = styles []) (fun _ => rfl) ["hidden"]
        (first :: rest)

theorem alike_article (hblock : AlikeBlocks block) (scope : Scope) (d : Document) :
    Alike (article block scope d) fun f => article block (scope.revalued f) (d.revalued f) := by
  have hempty : ∀ f, (scope.revalued f).documents.isEmpty = scope.documents.isEmpty := by
    simp [revalued]
  unfold article
  simp only [hempty]
  split
  · exact alike_articleWith hblock (alike_tooltipDocuments hblock) scope d
  · exact alike_innerArticle hblock scope d

theorem referenced?_revalued (f : String → String) (scope : Scope) (r : SectionRef) :
    (scope.revalued f).referenced? r = (scope.referenced? r).map (Section.revalued f) := by
  unfold referenced? document? revalued
  cases scope.documents with
  | nil => rfl
  | cons d rest => exact d.findSection?_revalued f r.sectionId

/-- One step: a block is rendered alike if the blocks inside it are. -/
theorem alike_blockWith (hblock : AlikeBlocks block) : AlikeBlocks (blockWith block) := by
  intro scope number b
  by_cases hsimple : b.isSimple = true
  · have hsimple' : ∀ f, (b.revalued f).isSimple = true := fun f => by rwa [Block.isSimple_revalued]
    refine (alike_renderAll (styledLeaves_ofBlock scope b) (fun f => ?_) fun l _ =>
      alike_leaf hblock scope l).of_eq
      (renderAll_ofBlock block scope number hsimple).symm
      fun f => (renderAll_ofBlock block (scope.revalued f) number (hsimple' f)).symm
    rw [styledLeaves_ofBlock]
    exact congrArg _ (Block.pieces_revalued f scope.renderer b)
  · cases b with
    | subsection s =>
      have hmode : ∀ f, (scope.revalued f).nestedMode (s.revalued f) = scope.nestedMode s := by
        intro f
        rw [Section.revalued_eq]
        rfl
      exact (alike_renderSection hblock { scope with level := scope.level + 1 }
        (scope.nestedMode s) number
        s).of_eq rfl fun f => by rw [Block.revalued, blockWith, subsection, hmode]; rfl
    | sectionRef r =>
      show Alike (sectionRef block scope r) fun f => sectionRef block (scope.revalued f) r
      unfold sectionRef
      simp only [referenced?_revalued]
      cases scope.referenced? r with
      | none => exact alike_pure (by simp [missingSection, marker])
      | some s => exact alike_renderSection hblock scope (.copy r.showTitle) none s
    | document d =>
      exact (alike_article hblock scope d).unstyled "div" [("class", "embedded-document")] (by simp)
    | _ => exact absurd rfl hsimple

theorem alike_renderBlock (budget : Nat) : AlikeBlocks (renderBlock budget) := by
  induction budget with
  | zero => exact fun _ _ _ => alike_pure (by simp [depthMarker, marker])
  | succ budget ih =>
    intro scope number b
    simp only [renderBlock_succ]
    exact alike_blockWith ih scope number b

end Scope

/-! ## As many tooltips -/

namespace Layout

open Scope

theorem leavesAll_ofBlock_revalued (f : String → String) (scope : Scope) (b : Block) :
    leavesAll (ofBlock scope (b.revalued f)) =
      (leavesAll (ofBlock scope b)).map (Leaf.revalued f) := by
  let leaf : String ⊕ Leaf → List Leaf := fun shown => shown.getRight?.toList
  have hleaf : leafOf = fun l => (styledLeaf l).flatMap leaf := by
    funext l
    cases l <;> simp [leaf, List.flatMap_map]
  have hleaves : ∀ b, leavesAll (ofBlock scope b) = (b.pieces scope.renderer).flatMap fun p =>
      p.written.flatMap leaf := by
    intro b
    rw [leavesAll, hleaf, collectAll_comp, ← List.flatMap_assoc, ← styledLeaves_ofBlock]
  rw [hleaves, hleaves, Block.pieces_revalued, List.flatMap_map, List.map_flatMap]
  refine congrArg (List.flatMap · _) (funext fun p => ?_)
  cases p with
  | source s =>
    have hnone : ∀ s : StyleSource, (Piece.source s).written.flatMap leaf = [] := by
      intro s
      cases h : s.style? <;> simp [Piece.written, h, leaf]
    rw [Piece.revalued, hnone, hnone, List.map_nil]
  | leaf l => rfl

theorem texts_revalued (f : String → String) (b : Block) :
    (b.revalued f).texts = b.texts.map (Inline.revaluedList f) := by
  let scope : Scope := { renderer := {}, view := .empty, tooltipLimit := 0 }
  rw [← textsAll_ofBlock scope, ← textsAll_ofBlock scope, textsAll_eq, textsAll_eq,
    leavesAll_ofBlock_revalued, List.flatMap_map, List.map_flatMap]
  exact congrArg (List.flatMap · _) (funext fun l => by cases l <;> rfl)

theorem inner_revalued (f : String → String) (r : Renderer) (b : Block) :
    (b.revalued f).inner r = (b.inner r).map (Block.revalued f) := by
  let scope : Scope := { renderer := r, view := .empty, tooltipLimit := 0 }
  have hinner : ∀ b : Block, b.inner r = (leavesAll (ofBlock scope b)).flatMap fun l =>
      l.part.flatMap fun | .block b => [b] | _ => [] := by
    intro b
    rw [← List.flatMap_assoc, ← shownAll_eq, shownAll_ofBlock, List.flatMap_map]
    exact (List.flatMap_singleton' _).symm
  rw [hinner, hinner, leavesAll_ofBlock_revalued, List.flatMap_map, List.map_flatMap]
  exact congrArg (List.flatMap · _) (funext fun l => by cases l <;> rfl)

end Layout

/-- How many links among the parts show a tooltip. -/
def Part.tooltipCount (parts : List Part) : Nat :=
  (tooltips parts).length

namespace Part

theorem tooltipCount_append (l m : List Part) :
    tooltipCount (l ++ m) = tooltipCount l + tooltipCount m := by
  rw [tooltipCount, tooltips_append, List.length_append]
  rfl

theorem tooltipCount_cons {part : Part} (h : part.tooltip? = none) (rest : List Part) :
    tooltipCount (part :: rest) = tooltipCount rest := by
  rw [tooltipCount, tooltips, List.filterMap_cons_none h]
  rfl

theorem tooltipCount_perm {l m : List Part} (h : l.Perm m) : tooltipCount l = tooltipCount m :=
  (h.filterMap _).length_eq

theorem tooltipCount_flatMap {α : Type} {g g' : α → List Part} {l : List α}
    (h : ∀ a ∈ l, tooltipCount (g a) = tooltipCount (g' a)) :
    tooltipCount (l.flatMap g) = tooltipCount (l.flatMap g') := by
  induction l with
  | nil => rfl
  | cons a rest ih =>
    obtain ⟨ha, hrest⟩ := List.forall_mem_cons.mp h
    rw [List.flatMap_cons, List.flatMap_cons, tooltipCount_append,
      tooltipCount_append, ha, ih hrest]

section Revalued

variable {f : String → String} {n : Nat}

mutual

theorem tooltipCount_inline
    (hQ : ∀ t : Document, t.parts.length < n →
      tooltipCount (t.revalued f).parts = tooltipCount t.parts) :
    ∀ i : Inline, i.parts.length ≤ n → tooltipCount (i.revalued f).parts = tooltipCount i.parts
  | .link content target tooltip, hn => by
    rw [Inline.parts, List.length_cons, List.length_append] at hn
    have hcontent := tooltipCount_inlines hQ content (by omega)
    rw [Inline.revalued, Inline.parts, Inline.parts]
    cases target with
    | tooltip t =>
      rw [LinkTarget.parts] at hn
      have ht := hQ t (by omega)
      show tooltipCount (_ ++ (t.revalued f).parts) + 1 = tooltipCount (_ ++ t.parts) + 1
      rw [tooltipCount_append, tooltipCount_append, hcontent, ht]
    | _ =>
      rw [tooltipCount_cons rfl, tooltipCount_cons rfl, tooltipCount_append,
        tooltipCount_append, hcontent]
      rfl
  | .text _, _ | .styled _ _, _ | .math _, _ | .footnote _, _ | .code _, _ | .unknown _, _ => rfl

theorem tooltipCount_inlines
    (hQ : ∀ t : Document, t.parts.length < n →
      tooltipCount (t.revalued f).parts = tooltipCount t.parts) :
    ∀ content : List Inline, (Inline.partsList content).length ≤ n → tooltipCount
      (Inline.partsList (Inline.revaluedList f content)) = tooltipCount (Inline.partsList content)
  | [], _ => rfl
  | i :: rest, hn => by
    rw [Inline.partsList, List.length_append] at hn
    rw [Inline.revaluedList, Inline.partsList, Inline.partsList, tooltipCount_append,
      tooltipCount_append, tooltipCount_inline hQ i (by omega),
      tooltipCount_inlines hQ rest (by omega)]

end

variable (hQ : ∀ t : Document, t.parts.length < n →
    tooltipCount (t.revalued f).parts = tooltipCount t.parts)

include hQ

theorem tooltipCount_texts (texts : List (List Inline))
    (hn : (texts.flatMap Inline.partsList).length ≤ n) :
    tooltipCount ((texts.map (Inline.revaluedList f)).flatMap Inline.partsList) =
      tooltipCount (texts.flatMap Inline.partsList) := by
  rw [List.flatMap_map]
  refine tooltipCount_flatMap fun content hcontent => tooltipCount_inlines hQ content ?_
  have hle : (Inline.partsList content).length ≤ _ := length_le_flatMap hcontent
  exact Nat.le_trans hle hn

theorem tooltipCount_section {s : Section} (hs : s.parts.length ≤ n)
    (hblocks : tooltipCount ((s.content.map (Block.revalued f)).flatMap Block.parts) =
      tooltipCount (s.content.flatMap Block.parts)) :
    tooltipCount (s.revalued f).parts = tooltipCount s.parts := by
  rw [Section.parts_eq, List.length_cons, List.length_append] at hs
  have htitle := tooltipCount_texts hQ s.title.toList (by omega)
  rw [Section.parts_eq, Section.parts_eq, Section.revalued_eq, tooltipCount_cons rfl,
    tooltipCount_cons rfl,
    tooltipCount_append, tooltipCount_append, hblocks, ← htitle, Option.toList_map]

/-- By induction on the number of parts: a block inside has fewer of them. -/
theorem tooltipCount_block (m : Nat) (hm : m ≤ n) (b : Block) (hb : b.parts.length ≤ m) :
    tooltipCount (b.revalued f).parts = tooltipCount b.parts := by
  induction m generalizing b with
  | zero =>
    have hmem := List.length_pos_of_mem b.mem_parts
    omega
  | succ m ih =>
    have hblocks : ∀ content : List Block, (content.flatMap Block.parts).length ≤ m →
        tooltipCount ((content.map (Block.revalued f)).flatMap Block.parts) =
          tooltipCount (content.flatMap Block.parts) := by
      intro content hcontent
      rw [List.flatMap_map]
      refine tooltipCount_flatMap fun b' hb' => ih (by omega) b' ?_
      have hle : b'.parts.length ≤ _ := length_le_flatMap hb'
      exact Nat.le_trans hle hcontent
    by_cases hsimple : b.isSimple = true
    · have hsimple' : (b.revalued f).isSimple = true := by rwa [Block.isSimple_revalued]
      have hbare : ∀ b : Block, b.hidden {} = [] := by
        intro b
        cases b <;> rfl
      have hlength := (b.parts_perm {} hsimple).length_eq
      rw [List.length_cons, List.length_append, List.length_append] at hlength
      rw [tooltipCount_perm (b.parts_perm {} hsimple),
        tooltipCount_perm (Block.parts_perm {} hsimple'),
        tooltipCount_cons rfl, tooltipCount_cons rfl]
      simp only [tooltipCount_append, hbare, Layout.texts_revalued, Layout.inner_revalued,
        tooltipCount_texts hQ b.texts (by omega), hblocks (b.inner {}) (by omega)]
    · cases b with
      | subsection s =>
        rw [Block.parts, List.length_cons] at hb
        have hlength := congrArg List.length s.parts_eq
        rw [List.length_cons, List.length_append] at hlength
        rw [Block.revalued, Block.parts, Block.parts, tooltipCount_cons rfl, tooltipCount_cons rfl]
        exact tooltipCount_section hQ (by omega) (hblocks s.content (by omega))
      | sectionRef r => rfl
      | document d =>
        rw [Block.parts, List.length_cons] at hb
        exact hQ d (by omega)
      | _ => exact absurd rfl hsimple

theorem tooltipCount_document (d : Document) (hd : d.parts.length ≤ n) :
    tooltipCount (d.revalued f).parts = tooltipCount d.parts := by
  have hlength := d.parts_perm.length_eq
  rw [List.length_cons, List.length_append] at hlength
  have htexts := tooltipCount_texts hQ d.texts (by omega)
  have hsections : tooltipCount ((d.body.map (Section.revalued f)).flatMap Section.parts) =
      tooltipCount (d.body.flatMap Section.parts) := by
    rw [List.flatMap_map]
    refine tooltipCount_flatMap fun s hs => ?_
    have hle : s.parts.length ≤ _ := length_le_flatMap hs
    have hparts := congrArg List.length s.parts_eq
    rw [List.length_cons, List.length_append] at hparts
    refine tooltipCount_section hQ (by omega) ?_
    rw [List.flatMap_map]
    refine tooltipCount_flatMap fun b hb => ?_
    have hblock : b.parts.length ≤ _ := length_le_flatMap hb
    exact tooltipCount_block hQ n (Nat.le_refl n) b (by omega)
  have hown : (d.revalued f).texts = d.texts.map (Inline.revaluedList f) := by
    simp [Document.texts, Document.revalued_eq, Option.toList_map, Footnote.revalued_eq,
      GlossaryEntry.revalued_eq, Function.comp_def]
  have hbody : (d.revalued f).body = d.body.map (Section.revalued f) := by rw [Document.revalued_eq]
  rw [tooltipCount_perm d.parts_perm, tooltipCount_perm (Document.parts_perm _),
    tooltipCount_cons rfl,
    tooltipCount_cons rfl, tooltipCount_append, tooltipCount_append, hown, hbody, htexts, hsections]

end Revalued

theorem tooltipCount_revalued (f : String → String) (d : Document) :
    tooltipCount (d.revalued f).parts = tooltipCount d.parts := by
  induction hn : d.parts.length using Nat.strongRecOn generalizing d with
  | ind n ih => exact tooltipCount_document (fun t ht => ih _ ht t rfl) d (Nat.le_of_eq hn)

end Part

/-! ## Pages side by side -/

namespace Renderer

open Rendered Scope

theorem scope_revalued (f : String → String) (r : Renderer) (view : View) {parts parts' : List Part}
    (h : Part.tooltipCount parts' = Part.tooltipCount parts) :
    r.scope view parts' = (r.scope view parts).revalued f := by
  rw [scope, show (Part.tooltips parts').length = _ from h]
  rfl

end Renderer

end Compendium
