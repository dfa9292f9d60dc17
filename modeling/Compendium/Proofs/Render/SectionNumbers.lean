import Compendium.Proofs.Render.Articles
import Compendium.Proofs.Render.SectionVisits

/-!
# The numbers of sections on a page

The name, the anchor and the number of a section stand on its element and in its heading, so the
sections of a document can be read off its page with their numbers, in the order of the page. They
are the sections that the page visits: what is rendered without a number shows none, up to the
documents inside of it, and a numbered section counts its subsections.
-/

namespace Compendium

open Scope (natAttr showsTitle)

/-! ## Sections on a page -/

/-- What a page shows of a section: its name, its anchor if it has one, and the numbers in its
heading. -/
structure SectionMark where
  name : String
  anchor : Option String
  numbers : List String
  deriving DecidableEq

def titleNumbers (mode : SectionMode) (number : Option String) (s : Section) : List String :=
  if showsTitle mode s && s.title.isSome then number.toList else []

namespace Visit

def markWith (number : Option String) (v : Visit) : SectionMark :=
  ⟨v.own.id, if v.mode.isCopy then none else some v.own.id, titleNumbers v.mode number v.own⟩

/-- What is shown of a section: the number is made of the positions. -/
def mark (v : Visit) : SectionMark :=
  v.markWith (v.path.map dottedText)

/-- What is shown of a section inside of one with a number: the positions go on from that one. -/
def markFrom (number : Option String) (v : Visit) : SectionMark :=
  v.markWith (number.bind fun start => v.path.map (extendedText start))

theorem mark_below (i : Nat) (v : Visit) : (v.below i).mark = v.markFrom (some (natAttr i)) := by
  obtain ⟨own, mode, path⟩ := v
  cases path <;> rfl

theorem markFrom_below (start : String) (i : Nat) (v : Visit) :
    (v.below i).markFrom (some start) = v.markFrom (some (start ++ "." ++ natAttr i)) := by
  obtain ⟨own, mode, path⟩ := v
  cases path with
  | none => rfl
  | some path =>
    exact congrArg (fun text => markWith (some text) ⟨own, mode, some path⟩)
      (extendedText_cons start i path)

/-- Outside of the numbering it makes no difference what a number would go on from. -/
theorem map_markFrom {l : List Visit} (h : ∀ v ∈ l, v.path = none) (number : Option String) :
    l.map (markFrom number) = l.map mark := by
  refine List.map_congr_left fun v hv => ?_
  cases number <;> simp [markFrom, mark, h v hv]

end Visit

namespace Markup

def label? : Markup → Option String
  | element _ attrs _ [text number] =>
    if attrs.lookup "class" = some "section-number" then some number else none
  | _ => none

def headingTags : List String :=
  ["h1", "h2", "h3", "h4", "h5", "h6"]

def headingNumbers : Markup → List String
  | element tag _ _ content => if tag ∈ headingTags then content.filterMap label? else []
  | _ => []

/-- The section that an element is. The stand-ins for sections are named like them, but are no
sections. -/
def sectionMark (tag : String) (attrs : List Attr) (content : List Markup) : List SectionMark :=
  if tag = "section" then
    (attrs.lookup "data-section-id").toList.map fun name =>
      ⟨name, attrs.lookup "id", content.flatMap headingNumbers⟩
  else []

/-- The sections, in the order of the page. Documents inside of the page are left out. -/
def sectionMarks (content : List Markup) : List SectionMark :=
  outsideList sectionMark content

theorem sectionMarks_append (l m : List Markup) :
    sectionMarks (l ++ m) = sectionMarks l ++ sectionMarks m :=
  outsideList_append l m

/-- An element that is no section has the sections of its content. -/
theorem sectionMarks_inside {tag : String} {attrs : List Attr}
    (h : tag = "section" → attrs.lookup "data-section-id" = none) (htag : tag ≠ "article")
    (flags : List String) (content : List Markup) :
    sectionMarks [element tag attrs flags content] = sectionMarks content := by
  have hnone : sectionMark tag attrs content = [] := by
    unfold sectionMark
    split
    · next hsection => rw [h hsection, Option.toList_none, List.map_nil]
    · rfl
  rw [sectionMarks, outsideList_element htag, hnone]
  rfl

theorem PlainList.sectionMarks_eq {ms : List Markup} (h : PlainList ms) : sectionMarks ms = [] := by
  refine h.outside_eq fun tag attrs content hattrs => ?_
  have hname : attrs.lookup "data-section-id" = none := hattrs.lookup_name (by decide)
  rw [sectionMark, hname, Option.toList_none, List.map_nil, ite_self]

theorem label?_of_class {attrs : List Attr} (h : attrs.lookup "class" ≠ some "section-number")
    (tag : String) (flags : List String) (content : List Markup) :
    label? (element tag attrs flags content) = none := by
  unfold label?
  split
  · next heq =>
    cases heq
    exact if_neg h
  · rfl

theorem headingNumbers_of_tags {m : Markup} (h : ∀ tag ∈ headingTags, hasTag tag m = false) :
    headingNumbers m = [] := by
  cases m with
  | element tag attrs flags content =>
    refine if_neg fun htag => ?_
    have hsame : hasTag tag (element tag attrs flags content) = true := beq_self_eq_true tag
    rw [h tag htag] at hsame
    cases hsame
  | _ => rfl

end Markup

namespace Scope

open Markup

/-! ## Rendering without sections -/

/-- Whatever is noted, the step shows the sections. -/
def Shows (x : Rendered) (marks : List SectionMark) : Prop :=
  ∀ noted, sectionMarks (x.run noted).1 = marks

theorem shows_marker (cssClass : String) (attrs : List Attr) (message : String) :
    Shows (pure [marker cssClass attrs message]) [] :=
  fun _ => (sectionMarks_inside (fun h => absurd h (by decide)) (by decide) _ _).trans rfl

theorem Shows.element {x : Rendered} {l : List SectionMark} (hx : Shows x l) {tag : String}
    {attrs : List Attr} (h : tag = "section" → attrs.lookup "data-section-id" = none)
    (htag : tag ≠ "article") (flags : List String) : Shows (do
      let content ← x
      return [.element tag attrs flags content]) l :=
  fun noted => (sectionMarks_inside h htag flags _).trans (hx noted)

theorem Shows.of_eq {x : Rendered} {l m : List SectionMark} (hx : Shows x l)
    (h : l = m) : Shows x m :=
  h ▸ hx

theorem shows_collects : Rendered.CollectsIn True Shows where
  nil := fun _ => rfl
  append := fun {x y l m} hx hy noted => by
    show sectionMarks ((x.run noted).1 ++ (y.run (x.run noted).2).1) = l ++ m
    rw [sectionMarks_append, hx, hy]
  fixed := fun hplain _ => PlainList.sectionMarks_eq ⟨hplain, trivial⟩
  element := fun _ htag hattrs hx =>
    hx.element (fun _ => hattrs.lookup_name (by decide)) htag.other _

theorem shows_inlines (scope : Scope) (content : List Inline) :
    Shows (scope.inlines content) [] := by
  have htags : ∀ tag ∈ ["a", "span"], tag ≠ "section" ∧ tag ≠ "article" := by decide
  have hclosed : Rendered.Closed fun x => Shows x [] :=
    ⟨shows_collects.nil, shows_collects.append, shows_collects.fixed, shows_collects.element⟩
  have hfootnote : ∀ (scope : Scope) id, Shows (pure [scope.footnoteRef id]) [] := by
    intro scope id
    obtain ⟨tag, htag, attrs, heq, -⟩ := footnoteRef_eq scope id
    have htext : Shows (pure [.text (scope.footnoteLabel id)]) [] := hclosed.fixed (plain_text _)
    rw [heq]
    exact ((htext.element (fun h => absurd h (htags tag htag).1) (htags tag htag).2 []).element
      (fun h => absurd h (by decide)) (by decide) [])
  have hkept : InlineKept fun _ x => Shows x [] :=
    inlineKept_of_elements (fun _ => hclosed.within) hfootnote
    fun hx tag htag _ => forall_noting (Q := fun ms => sectionMarks ms = [])
      (hx.element (fun h => absurd h (htags tag htag).1) (htags tag htag).2 []) _
  exact inlineKept_inlines hkept scope content

/-! ## Headings -/

/-- Whatever is noted, none of the step's markup is a label. -/
def Unlabelled (x : Rendered) : Prop :=
  ∀ noted, ∀ m ∈ (x.run noted).1, m.label? = none

theorem unlabelled_pure {m : Markup} (h : m.label? = none) : Unlabelled (pure [m]) :=
  fun _ => List.forall_mem_singleton.mpr h

theorem Unlabelled.append {x y : Rendered} (hx : Unlabelled x) (hy : Unlabelled y) : Unlabelled (do
    let first ← x
    let others ← y
    return first ++ others) :=
  fun noted => List.forall_mem_append.mpr ⟨hx noted, hy _⟩

theorem label?_styled (s : String) (styles : List TextStyle) : (styled s styles).label? = none := by
  refine styled_induction (Q := fun m => m.label? = none) rfl (fun tag _ m _ => ?_)
    (fun style _ m _ => ?_)
    styles
  · exact label?_of_class (by decide) _ _ _
  · exact label?_of_class (by simp [List.lookup_cons]) _ _ _

mutual

theorem unlabelled_inlinePiece : ∀ (scope : Scope) (i : Inline), Unlabelled (scope.inlinePiece i)
  | _, .text s => unlabelled_pure rfl
  | _, .styled s styles => unlabelled_pure (label?_styled s styles)
  | scope, .math f => by
    rw [inlinePiece]
    unfold formula displayFormula
    split <;> exact unlabelled_pure (label?_of_class (by simp) _ _ _)
  | scope, .link content target tooltip => by
    rw [inlinePiece]
    have hclass : (scope.linkAttrs target tooltip).lookup "class" = some "link" := rfl
    refine forall_link (Q := fun ms => ∀ m ∈ ms, m.label? = none) (unlabelled_inlines scope content)
      fun _ => List.forall_mem_singleton.mpr (label?_of_class ?_ _ _ _)
    rw [hclass]
    decide
  | _, .footnote id | _, .code s => unlabelled_pure (label?_of_class (by decide) _ _ _)
  | scope, .unknown u => by
    rw [inlinePiece]
    unfold unknownInline
    split
    · exact unlabelled_pure (label?_of_class (by simp) _ _ _)
    · exact fun _ => List.forall_mem_nil _

/-- A text does not look like the number of a section. -/
theorem unlabelled_inlines : ∀ (scope : Scope) (content : List Inline),
    Unlabelled (scope.inlines content)
  | _, [] => fun _ => List.forall_mem_nil _
  | scope, i :: rest => (unlabelled_inlinePiece scope i).append (unlabelled_inlines scope rest)

end

/-- Whatever is noted, none of the step's markup is a heading with a number. -/
def Headless (x : Rendered) : Prop :=
  ∀ noted, ∀ m ∈ (x.run noted).1, m.headingNumbers = []

theorem headless_pure {m : Markup} (h : m.headingNumbers = []) : Headless (pure [m]) :=
  fun _ => List.forall_mem_singleton.mpr h

theorem Headless.append {x y : Rendered} (hx : Headless x) (hy : Headless y) : Headless (do
    let first ← x
    let others ← y
    return first ++ others) :=
  fun noted => List.forall_mem_append.mpr ⟨hx noted, hy _⟩

theorem headless_inside {tag : String} (htag : tag ∉ headingTags) (attrs : List Attr)
    (x : Rendered) :
    Headless (.inside tag attrs x) :=
  fun _ => List.forall_mem_singleton.mpr (if_neg htag)

theorem headless_marker (cssClass : String) (attrs : List Attr) (message : String) :
    Headless (pure [marker cssClass attrs message]) :=
  headless_pure rfl

/-- Simple blocks are no headings. -/
theorem unlike_ofBlock {tag : String} (htag : tag ∈ headingTags) (scope : Scope) (b : Block) :
    ∀ l ∈ Layout.ofBlock scope b, Layout.Unlike tag l := by
  have hother : ∀ (other : String) {l : Layout}, l.tag? = some other → other ∉ headingTags →
      ∀ l' ∈ [l], Layout.Unlike tag l' := by
    intro other l hl hnot
    exact List.forall_mem_singleton.mpr ⟨other, hl, fun heq => hnot (heq ▸ htag)⟩
  have hmarker : ∀ typeName, ∀ l ∈ (scope.unknownMarker typeName).map Layout.fixed,
      Layout.Unlike tag l := by
    intro typeName
    unfold unknownMarker
    split
    · exact hother "div" rfl (by decide)
    · exact List.forall_mem_nil _
  cases b with
  | paragraph p => exact hother "p" rfl (by decide)
  | equation e => exact hother "figure" rfl (by decide)
  | statement s => exact hother "div" rfl (by decide)
  | list l =>
    refine hother (listKind l.style).1 rfl ?_
    cases l.style with
    | ordered style => exact (by decide : "ol" ∉ headingTags)
    | unordered style => exact (by decide : "ul" ∉ headingTags)
  | table t => exact hother "table" rfl (by decide)
  | code c | image i | diagram d => exact hother "figure" rfl (by decide)
  | collapsible c => exact hother "details" rfl (by decide)
  | grid g | columns c => exact hother "div" rfl (by decide)
  | thematicBreak => exact hother "hr" rfl (by decide)
  | quote q => exact hother "blockquote" rfl (by decide)
  | alert a => exact hother "div" rfl (by decide)
  | component c =>
    show ∀ l ∈ Layout.component scope c, _
    unfold Layout.component
    cases scope.renderer.components.get? c.name with
    | some draw => exact hother "div" rfl (by decide)
    | none =>
      cases c.fallback with
      | some fallback => exact hother "div" rfl (by decide)
      | none => exact hmarker _
  | sideBySide s => exact hother "div" rfl (by decide)
  | panels p =>
    show ∀ l ∈ [Layout.panelLayout scope p], _
    unfold Layout.panelLayout
    cases p.arrangement <;> exact hother "div" rfl (by decide)
  | overlay o => exact hother "div" rfl (by decide)
  | controls g => exact hother "form" rfl (by decide)
  | unknown u => exact hmarker u.displayName
  | sectionRef r | subsection s | document d => exact List.forall_mem_nil _

theorem headless_renderSection (block : BlockRenderer) (scope : Scope) (mode : SectionMode)
    (number : Option String) (s : Section) :
      Headless (renderSection block scope mode number s) := by
  unfold renderSection
  split
  · exact headless_marker _ _ _
  · exact headless_inside (by decide) _ _

theorem headless_blockWith (block : BlockRenderer) (scope : Scope)
    (number : Option String) (b : Block) :
    Headless (blockWith block scope number b) := by
  by_cases hsimple : b.isSimple = true
  · rw [← Layout.renderAll_ofBlock block scope number hsimple]
    intro noted m hm
    exact headingNumbers_of_tags fun tag htag =>
      Layout.hasTag_renderAll block scope (unlike_ofBlock htag scope b) noted m hm
  · cases b with
    | subsection s => exact headless_renderSection _ _ _ number s
    | sectionRef r =>
      show Headless (sectionRef block scope r)
      unfold sectionRef
      split
      · exact headless_renderSection _ _ _ none _
      · exact headless_marker _ _ _
    | document d => exact headless_inside (by decide) _ _
    | _ => exact absurd rfl hsimple

/-- Blocks are no headings of the section that they are in. -/
theorem headless_renderBlock (budget : Nat) (scope : Scope) (number : Option String) (b : Block) :
    Headless (renderBlock budget scope number b) := by
  cases budget with
  | zero => exact headless_marker _ _ _
  | succ budget =>
    rw [renderBlock_succ]
    exact headless_blockWith (renderBlock budget) scope number b

/-! ## Sections -/

theorem headingNumbers_sectionTitle (scope : Scope) (mode : SectionMode) (number : Option String)
    (s : Section) (noted : List Document) :
    ((scope.sectionTitle mode number s).run noted).1.flatMap headingNumbers =
      titleNumbers mode number s := by
  unfold sectionTitle titleNumbers
  cases showsTitle mode s with
  | false => rfl
  | true =>
    cases s.title with
    | none => rfl
    | some title =>
      have htag : scope.headingTag ∈ headingTags := by
        have hall : ∀ tag ∈ ["h2", "h3", "h4", "h5", "h6"], tag ∈ headingTags := by decide
        exact hall _ scope.headingTag_level
      have htext : ((scope.inlines title).run noted).1.filterMap label? = [] :=
        List.filterMap_eq_nil_iff.mpr (unlabelled_inlines scope title noted)
      show List.flatMap headingNumbers [.element scope.headingTag _ []
        (numberLabel number ++ ((scope.inlines title).run noted).1)] = _
      rw [List.flatMap_singleton, headingNumbers, if_pos htag, List.filterMap_append, htext,
        List.append_nil]
      cases number <;> rfl

theorem shows_sectionTitle (scope : Scope) (mode : SectionMode) (number : Option String)
    (s : Section) :
    Shows (scope.sectionTitle mode number s) [] := by
  unfold sectionTitle
  split
  · cases s.title with
    | none => exact shows_collects.nil
    | some title =>
      have hlabel : Shows (pure (numberLabel number)) [] := by
        cases number with
        | none => exact shows_collects.nil
        | some n => exact fun _ => rfl
      have htag := (Layout.plainTag_headingTag scope "section-title").2.other
      exact (shows_collects.append hlabel (shows_inlines scope title)).element
        (fun _ => rfl) htag []
  · exact shows_collects.nil

theorem headingNumbers_sectionMetadata (s : Section) :
    (sectionMetadata s).flatMap headingNumbers = [] := by
  unfold sectionMetadata
  split <;> rfl

theorem headless_sectionContent {block : BlockRenderer}
    (h : ∀ scope number b, Headless (block scope number b)) (scope : Scope) (number : Option String)
    (k : Nat) (content : List Block) : Headless (sectionContent block scope number k content) := by
  induction content generalizing k with
  | nil => exact fun _ => List.forall_mem_nil _
  | cons b rest ih =>
    obtain ⟨own, next, -, hcons⟩ := Layout.numbered_cons number k b rest
    rw [hcons]
    exact (h scope own b).append (ih next)

/-- A simple block renders what is inside it without numbers. -/
theorem blockWith_unnumbered {block : BlockRenderer} (scope : Scope) (number : Option String)
    {b : Block} (hsimple : b.isSimple = true) :
    blockWith block scope number b = blockWith
      (fun inner _ b' => block inner none b') scope number b := by
  cases b with
  | subsection s | sectionRef r | document d => cases hsimple
  | _ => rfl

/-- A block shows the sections that are visited in it, their numbers going on from its own. -/
def BlockShows (block : BlockRenderer) (walk : Scope → Bool → Block → List Visit) : Prop :=
  ∀ scope number b, Shows (block scope number b)
    ((walk scope number.isSome b).map (Visit.markFrom number))

section Sections

variable {budget : Nat} (hblock : BlockShows (renderBlock budget) (visits budget))

include hblock

theorem shows_sectionContent (scope : Scope) (number : Option String) (k : Nat)
    (content : List Block) :
    Shows (sectionContent (renderBlock budget) scope number k content)
      ((contentVisits (visits budget scope) number.isSome k content).map
        (Visit.markFrom number)) := by
  have hother : ∀ b, Shows (renderBlock budget scope none b)
      ((visits budget scope false b).map (Visit.markFrom number)) := by
    intro b
    have hunnumbered := visits_unnumbered budget scope b
    rw [Visit.map_markFrom hunnumbered, ← Visit.map_markFrom hunnumbered none]
    exact hblock scope none b
  induction content generalizing k with
  | nil => exact shows_collects.nil
  | cons b rest ih =>
    cases number with
    | none =>
      cases b <;>
      · refine (shows_collects.append (hother _) (ih k)).of_eq ?_
        exact List.map_append.symm
    | some start =>
      cases b with
      | subsection s =>
        have hfirst := hblock scope (some (start ++ "." ++ natAttr (k + 1))) (.subsection s)
        refine (shows_collects.append hfirst (ih (k + 1))).of_eq ?_
        show _ = ((_ : List Visit) ++ _).map _
        rw [List.map_append, List.map_map]
        refine congrArg (· ++ _) (List.map_congr_left fun v _ => ?_)
        exact (Visit.markFrom_below start (k + 1) v).symm
      | _ =>
        refine (shows_collects.append (hother _) (ih k)).of_eq ?_
        exact List.map_append.symm

/-- A section shows itself, with its number in its title, and the sections in it. -/
theorem shows_renderSection (scope : Scope) (mode : SectionMode) (number : Option String)
    (s : Section) :
    Shows (renderSection (renderBlock budget) scope mode number s)
      ((sectionVisits (visits budget) scope mode number.isSome s).map (Visit.markFrom number)) := by
  unfold renderSection sectionVisits
  split
  · exact shows_marker _ _ _
  · intro noted
    let inner := scope.insideSection mode s
    let title := (inner.sectionTitle mode number s).run noted
    let content := (sectionContent (renderBlock budget) inner number 0 s.content).run title.2
    have hheadings : (title.1 ++ (sectionMetadata s ++ (content.1 ++ []))).flatMap headingNumbers =
        titleNumbers mode number s := by
      have hcontent : content.1.flatMap headingNumbers = [] :=
        List.flatMap_eq_nil_iff.mpr
          (headless_sectionContent (headless_renderBlock budget) inner number 0 _ _)
      rw [List.append_nil, List.flatMap_append, List.flatMap_append, headingNumbers_sectionTitle,
        headingNumbers_sectionMetadata, hcontent, List.append_nil, List.append_nil]
    have hinside : sectionMarks (title.1 ++ (sectionMetadata s ++ (content.1 ++ []))) =
        (contentVisits (visits budget inner) number.isSome 0 s.content).map
          (Visit.markFrom number) := by
      have hmetadata : sectionMarks (sectionMetadata s) = [] :=
        PlainList.sectionMarks_eq (Layout.plainList_sectionMetadata s)
      rw [List.append_nil, sectionMarks_append, sectionMarks_append,
        shows_sectionTitle inner mode number s noted,
        hmetadata, shows_sectionContent hblock inner number 0 s.content title.2, List.nil_append,
          List.nil_append]
    have hown : sectionMark "section" (scope.sectionAttrs mode number.isSome s)
        (title.1 ++ (sectionMetadata s ++ (content.1 ++ []))) =
          [Visit.markFrom number ⟨s, mode, if number.isSome then some [] else none⟩] := by
      have hanchor : (scope.sectionAttrs mode number.isSome s).lookup "id" =
          if mode.isCopy then none else some s.id := by
        unfold sectionAttrs
        cases mode.isCopy <;> rfl
      rw [sectionMark, if_pos rfl, (lookup_sectionAttrs scope mode _ s).2.1, hanchor, hheadings]
      cases number with
      | none => rfl
      | some start => simp [Visit.markFrom, Visit.markWith, extendedText_nil]
    show sectionMarks [.element "section" (scope.sectionAttrs mode number.isSome s) []
      (title.1 ++ (sectionMetadata s ++ (content.1 ++ [])))] = _
    rw [sectionMarks, outsideList_element (by decide), hown, List.map_cons]
    exact congrArg (_ :: ·) hinside

/-- The article of a document shows the sections that it visits. -/
theorem shows_ofDocument (scope : Scope) (d : Document) :
    Shows (Layout.renderAll (renderBlock budget) scope (Layout.ofDocument scope d))
      ((d.visits budget scope).map Visit.mark) := by
  let read : Layout.Leaf → List SectionMark
    | .division number s =>
      (sectionVisits (visits budget) scope .anchored number.isSome s).map (Visit.markFrom number)
    | _ => []
  have hleaves : ∀ leaf ∈ Layout.leavesAll (Layout.ofDocument scope d),
      Shows (leaf.render (renderBlock budget) scope) (read leaf) := by
    refine Layout.forall_leaves (fun content _ => shows_inlines scope content) (fun b hb => ?_)
      fun s _ number => shows_renderSection hblock scope .anchored number s
    rw [Layout.shownAll_ofDocument] at hb
    simp at hb
  refine (Layout.collects_renderAll shows_collects _
    (Layout.plainList_ofDocument scope d) hleaves).of_eq ?_
  rw [Layout.flatMap_leaves_ofDocument (fun _ => rfl), Layout.leavesAll_ofBody, List.flatMap_map,
    Document.visits, List.map_flatMap]
  refine congrArg (List.flatMap · _) (funext fun e => ?_)
  unfold Layout.bodyNumber
  split
  · rw [List.map_map]
    exact List.map_congr_left fun v _ => (Visit.mark_below e.2 v).symm
  · exact Visit.map_markFrom (sectionVisits_unnumbered budget scope .anchored e.1) none

end Sections

/-- One level of blocks: what is shown of the level below is shown of it. -/
theorem blockShows_succ {budget : Nat} (hblock : BlockShows (renderBlock budget) (visits budget)) :
    BlockShows (renderBlock (budget + 1)) (visits (budget + 1)) := by
  intro scope number b
  rw [renderBlock_succ, visits]
  by_cases hsimple : b.isSimple = true
  · rw [visitsWith_simple _ scope _ hsimple, blockWith_unnumbered scope number hsimple,
      ← Layout.renderAll_ofBlock _ scope number hsimple, List.map_flatMap]
    refine Layout.collects_blocks shows_collects (Layout.plainList_ofBlock (fun _ => trivial) b)
      (fun content _ => shows_inlines scope content)
        (Layout.shownAll_ofBlock scope b) fun b' _ _ => ?_
    have hunnumbered := visits_unnumbered budget scope b'
    rw [Visit.map_markFrom hunnumbered, ← Visit.map_markFrom hunnumbered none]
    exact hblock scope none b'
  · cases b with
    | subsection s => exact shows_renderSection hblock _ _ number s
    | sectionRef r =>
      show Shows (sectionRef (renderBlock budget) scope r)
        (((scope.referenced? r).toList.flatMap _).map (Visit.markFrom number))
      unfold sectionRef
      cases scope.referenced? r with
      | none => exact shows_marker _ _ _
      | some s =>
        have hunnumbered := sectionVisits_unnumbered budget scope (.copy r.showTitle) s
        rw [Option.toList_some, List.flatMap_singleton, Visit.map_markFrom hunnumbered,
          ← Visit.map_markFrom hunnumbered none]
        exact shows_renderSection hblock scope _ none s
    | document d =>
      have harticle : Shows (article (renderBlock budget) scope d) [] := by
        unfold article
        split <;> exact outsideList_articleWith (fun _ => shows_marker _ _ _ []) _ _ scope d
      exact harticle.element (fun h => absurd h (by decide)) (by decide) []
    | _ => exact absurd rfl hsimple

/-- Wherever a block stands, it shows the sections that are visited in it. -/
theorem blockShows_renderBlock (budget : Nat) :
    BlockShows (renderBlock budget) (visits budget) := by
  induction budget with
  | zero => exact fun _ _ _ => shows_marker _ _ _
  | succ budget ih => exact blockShows_succ ih

end Scope

end Compendium
