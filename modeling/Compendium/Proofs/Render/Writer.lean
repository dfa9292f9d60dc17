import Compendium.Proofs.Render.Anchors
import Compendium.Proofs.Render.Kept

/-!
# Writing in one pass

Rendering gives every value the scope of its place. The same text can be written in one pass, with a
single context that is changed on the way: what is opened is put on a stack and taken off again,
levels and depth are counted up and down, and the text only grows. `Writer` works this way. Inside
of a document, writing leaves the context as it was. What it appends is what rendering makes of the
same value in the scope of the context, whatever was written or noted before.
-/

namespace Compendium

open Markup Scope

/-- A context that writing changes: the scope, the depth of nesting, what is written and what is
noted. -/
structure Writer where
  scope : Scope
  depth : Nat
  out : List Char
  noted : List Document

namespace Writer

/-! ## Changes of the context -/

def put (text : List Char) (w : Writer) : Writer :=
  { w with out := w.out ++ text }

/-- Notes the tooltip document of a target. -/
def noteTarget (target : LinkTarget) (w : Writer) : Writer :=
  { w with noted := target.tooltipDocument?.elim w.noted (note w.noted) }

def openLink (key : String) (w : Writer) : Writer :=
  { w with scope.links := key :: w.scope.links }

def closeLink (w : Writer) : Writer :=
  { w with scope.links := w.scope.links.tail }

def openSection (mode : SectionMode) (s : Section) (w : Writer) : Writer :=
  { w with
    scope.sections := s.id :: w.scope.sections
    scope.references := if mode.isCopy then w.scope.references + 1 else w.scope.references }

def closeSection (mode : SectionMode) (w : Writer) : Writer :=
  { w with
    scope.sections := w.scope.sections.tail
    scope.references := if mode.isCopy then w.scope.references - 1 else w.scope.references }

def openDocument (d : Document) (w : Writer) : Writer :=
  { w with scope.documents := d :: w.scope.documents, scope.level := 0 }

/-- Closes the innermost document, back to the level that was saved when it was opened. -/
def closeDocument (level : Nat) (w : Writer) : Writer :=
  { w with scope.documents := w.scope.documents.tail, scope.level := level }

def deeper (w : Writer) : Writer :=
  { w with scope.level := w.scope.level + 1 }

def shallower (w : Writer) : Writer :=
  { w with scope.level := w.scope.level - 1 }

def enter (w : Writer) : Writer :=
  { w with depth := w.depth + 1 }

def leave (w : Writer) : Writer :=
  { w with depth := w.depth - 1 }

/-! ## Writing -/

/-- A start tag, what is written inside, and the end tag. -/
def element (tag : String) (attrs : List Attr) (flags : List String) (inner : Writer → Writer)
    (w : Writer) : Writer :=
  put (endTag tag) (inner (put (startTag tag attrs flags) w))

/-- The address of a link, if the link is an anchor. Inside of another link it is none. -/
def anchor? (w : Writer) (target : LinkTarget) : Option String :=
  if w.scope.links.isEmpty then target.href? else none

mutual

def inlinePiece : Inline → Writer → Writer
  | .text s, w => put (escape s.toList) w
  | .styled s styles, w => put (styled s styles).chars w
  | .math f, w => put (formula f).chars w
  | .link content target tooltip, w =>
    if w.scope.links.contains target.key then inlines content w
    else
      element (if (w.anchor? target).isSome then "a" else "span")
        (("class", "link") :: ((w.anchor? target).toList.map (fun href => ("href", href)) ++
          linkData target tooltip)) []
        (fun w => closeLink (inlines content (openLink target.key w))) (noteTarget target w)
  | .footnote id, w => put (w.scope.footnoteRef id).chars w
  | .code s, w => put (leaf "code" [] s).chars w
  | .unknown u, w => put (charsList (w.scope.unknownInline u)) w

def inlines : List Inline → Writer → Writer
  | [], w => w
  | i :: rest, w => inlines rest (inlinePiece i w)

end

/-- How a block is written, with its number. -/
abbrev BlockWriter := Option String → Block → Writer → Writer

section Layouts

variable (block : BlockWriter) (division : Option String → Section → Writer → Writer)

mutual

def layout : Layout → Writer → Writer
  | .fixed m, w => put m.chars w
  | .text content, w => inlines content w
  | .block number b, w => block number b w
  | .division number s, w => division number s w
  | .element tag attrs flags inner, w => element tag attrs flags (layouts inner) w

def layouts : List Layout → Writer → Writer
  | [], w => w
  | l :: rest, w => layouts rest (layout l w)

end

end Layouts

/-- The layouts of blocks and of the inside of sections, where no body is laid out. -/
def content (block : BlockWriter) : List Layout → Writer → Writer :=
  layouts block fun _ _ w => w

/-- The content of a section. In a section with a number the subsections are numbered in turn. -/
def loop (block : BlockWriter) (number : Option String) : Nat → List Block → Writer → Writer
  | _, [], w => w
  | k, b :: rest, w =>
    match b, number with
    | .subsection s, some parent =>
      loop block number (k + 1) rest
        (block (some (parent ++ "." ++ natAttr (k + 1))) (.subsection s) w)
    | b, _ => loop block number k rest (block none b w)

def division (block : BlockWriter) (mode : SectionMode) (number : Option String) (s : Section)
    (w : Writer) : Writer :=
  if w.scope.sections.contains s.id then put (sectionCycle s.id).chars w
  else
    element "section" (w.scope.sectionAttrs mode number.isSome s) []
      (fun w =>
        let inner := openSection mode s w
        closeSection mode (loop block number 0 s.content
          (content block (Layout.sectionFront inner.scope mode number s) inner))) w

/-- A subsection of a numbered section: the writer goes one level down, writes the section in the
mode of its surroundings, and comes up again. -/
def numberedSubsection (block : BlockWriter) (number : String) (s : Section)
    (w : Writer) : Writer :=
  shallower (division block (w.scope.nestedMode s) (some number) s (deeper w))

def document (block : BlockWriter) (d : Document) (w : Writer) : Writer :=
  if w.scope.documents.any (fun other => other.id == d.id) then put (documentCycle d.id).chars w
  else
    element "article" (articleAttrs d) []
      (fun w =>
        let inner := openDocument d w
        closeDocument w.scope.level
          (layouts block (division block .anchored) (Layout.ofDocument inner.scope d) inner)) w

def blockWith (block : BlockWriter) (number : Option String) : Block → Writer → Writer
  | .subsection s, w => shallower (division block (w.scope.nestedMode s) number s (deeper w))
  | .sectionRef r, w =>
    match w.scope.referenced? r with
    | some s => division block (.copy r.showTitle) none s w
    | none => put (missingSection r.sectionId).chars w
  | .document d, w => element "div" [("class", "embedded-document")] [] (document block d) w
  | b, w => content block (Layout.ofBlock w.scope b) w

/-- Enters a block, writes it and leaves it again, unless it is nested too deeply. -/
def entered (write : Writer → Writer) (w : Writer) : Writer :=
  if w.scope.renderer.settings.maxDepth ≤ w.depth then put depthMarker.chars w
  else leave (write (enter w))

/-- A block, unless it is nested too deeply. The fuel bounds the recursion; the depth decides. -/
def blockFueled : Nat → BlockWriter
  | 0, _, _, w => put depthMarker.chars w
  | fuel + 1, some number, .subsection s, w =>
    entered (numberedSubsection (blockFueled fuel) number s) w
  | fuel + 1, number, b, w => entered (blockWith (blockFueled fuel) number b) w

/-- The branch for subsections of numbered sections writes what the dispatch on blocks does. -/
theorem blockFueled_succ (fuel : Nat) (number : Option String) (b : Block) :
    blockFueled (fuel + 1) number b = entered (blockWith (blockFueled fuel) number b) := by
  funext w
  cases number with
  | none => rfl
  | some number => cases b <;> rfl

def block (number : Option String) (b : Block) (w : Writer) : Writer :=
  blockFueled w.scope.renderer.settings.maxDepth number b w

/-! ## What writing does -/

/-- In a context with the scope and the depth, writing appends the text of the markup that the step
makes, notes what the step asks for and changes nothing else; neither depends on what is written or
noted. -/
def Writes (scope : Scope) (depth : Nat) (write : Writer → Writer) (x : Rendered) : Prop :=
  ∃ (markup : List Markup) (asked : List Document),
    (∀ noted, x.run noted = (markup, noteAll noted asked)) ∧
    ∀ out noted, write ⟨scope, depth, out, noted⟩ =
      ⟨scope, depth, out ++ charsList markup, noteAll noted asked⟩

section Closure

variable {scope : Scope} {depth : Nat} {f g : Writer → Writer} {x y : Rendered}

theorem writes_put (scope : Scope) (depth : Nat) (m : Markup) :
    Writes scope depth (put m.chars) (pure [m]) := by
  refine ⟨[m], [], fun _ => rfl, fun out noted => ?_⟩
  rw [charsList, charsList, List.append_nil]
  rfl

theorem writes_putAll (scope : Scope) (depth : Nat) (ms : List Markup) :
    Writes scope depth (put (charsList ms)) (pure ms) :=
  ⟨ms, [], fun _ => rfl, fun _ _ => rfl⟩

theorem writes_id (scope : Scope) (depth : Nat) : Writes scope depth id (pure []) := by
  refine ⟨[], [], fun _ => rfl, fun out noted => ?_⟩
  rw [charsList, List.append_nil]
  rfl

theorem Writes.congr (hx : Writes scope depth f x)
    (h : ∀ out noted, g ⟨scope, depth, out, noted⟩ = f ⟨scope, depth, out, noted⟩) :
    Writes scope depth g x := by
  obtain ⟨m, asked, hrun, hwrite⟩ := hx
  exact ⟨m, asked, hrun, fun out noted => (h out noted).trans (hwrite out noted)⟩

/-- Two writers, one after the other. -/
theorem Writes.append (hx : Writes scope depth f x) (hy : Writes scope depth g y) :
    Writes scope depth (fun w => g (f w)) (do
      let first ← x
      let others ← y
      return first ++ others) := by
  obtain ⟨m, asked, hrun, hwrite⟩ := hx
  obtain ⟨n, more, hrun', hwrite'⟩ := hy
  refine ⟨m ++ n, asked ++ more, fun noted => ?_, fun out noted => ?_⟩
  · rw [noteAll_append, StateT.run_bind, hrun]
    show (fun p => (m ++ p.1, p.2)) (y.run (noteAll noted asked)) = _
    rw [hrun']
  · show g (f _) = _
    rw [hwrite, hwrite', noteAll_append, charsList_append, List.append_assoc]

/-- Writing inside of what is opened before and closed after it. -/
theorem Writes.within {inner : Scope} {depth' : Nat} {opening closing : Writer → Writer}
    (hx : Writes inner depth' f x)
    (hopening : ∀ out noted, opening ⟨scope, depth, out, noted⟩ = ⟨inner, depth', out, noted⟩)
    (hclosing : ∀ out noted, closing ⟨inner, depth', out, noted⟩ = ⟨scope, depth, out, noted⟩) :
    Writes scope depth (fun w => closing (f (opening w))) x := by
  obtain ⟨m, asked, hrun, hwrite⟩ := hx
  refine ⟨m, asked, hrun, fun out noted => ?_⟩
  show closing (f (opening _)) = _
  rw [hopening, hwrite, hclosing]

/-- The tags go around what is written between them. -/
theorem Writes.element (hx : Writes scope depth f x) (tag : String) (attrs : List Attr)
    (flags : List String) : Writes scope depth (element tag attrs flags f) (do
      let content ← x
      return [.element tag attrs flags content]) := by
  obtain ⟨m, asked, hrun, hwrite⟩ := hx
  refine ⟨[.element tag attrs flags m], asked, fun noted => ?_, fun out noted => ?_⟩
  · rw [StateT.run_bind, hrun]
    rfl
  · show put (endTag tag) (f ⟨scope, depth, out ++ startTag tag attrs flags, noted⟩) = _
    rw [hwrite, charsList, charsList, chars, List.append_nil]
    simp only [put, List.append_assoc]

theorem Writes.noting (hx : Writes scope depth f x) (target : LinkTarget) :
    Writes scope depth (fun w => f (noteTarget target w)) (Scope.noting target x) := by
  obtain ⟨m, asked, hrun, hwrite⟩ := hx
  unfold Scope.noting noteTarget
  cases target.tooltipDocument? with
  | none => exact ⟨m, asked, hrun, hwrite⟩
  | some d =>
    refine ⟨m, d :: asked, fun noted => ?_, fun out noted => hwrite out (note noted d)⟩
    exact hrun (note noted d)

end Closure

/-! ## Inline text -/

mutual

theorem writes_inlinePiece (depth : Nat) : ∀ (scope : Scope) (i : Inline),
    Writes scope depth (inlinePiece i) (scope.inlinePiece i)
  | scope, .text s => writes_put scope depth (.text s)
  | scope, .styled s styles => writes_put scope depth (styled s styles)
  | scope, .math f => writes_put scope depth (formula f)
  | scope, .footnote id => writes_put scope depth (scope.footnoteRef id)
  | scope, .code s => writes_put scope depth (leaf "code" [] s)
  | scope, .unknown u => writes_putAll scope depth (scope.unknownInline u)
  | scope, .link content target tooltip => by
    rw [Scope.inlinePiece]
    cases hopen : scope.links.contains target.key with
    | true =>
      rw [link_of_open (List.contains_iff_mem.mp hopen)]
      refine (writes_inlines depth scope content).congr fun out noted => ?_
      rw [inlinePiece, if_pos hopen]
    | false =>
      rw [link_of_new (by simpa using hopen)]
      have hinner :
          Writes scope depth (fun w => closeLink (inlines content (openLink target.key w)))
          ((scope.insideLink target).inlines content) :=
        (writes_inlines depth (scope.insideLink target) content).within
          (fun _ _ => rfl) fun _ _ => rfl
      refine ((hinner.element _ _ []).noting target).congr fun out noted => ?_
      rw [inlinePiece, if_neg (Bool.eq_false_iff.mp hopen)]
      rfl

theorem writes_inlines (depth : Nat) : ∀ (scope : Scope) (content : List Inline),
    Writes scope depth (inlines content) (scope.inlines content)
  | scope, [] => writes_id scope depth
  | scope, i :: rest => (writes_inlinePiece depth scope i).append (writes_inlines depth scope rest)

end

/-! ## Layouts -/

section Layouts

variable {scope : Scope} {depth : Nat} {write : BlockWriter} {block : BlockRenderer}
variable {part : Option String → Section → Writer → Writer}

mutual

theorem writes_layout
    (hblock : ∀ number b, Writes scope depth (write number b) (block scope number b)) :
    ∀ l : Layout, (∀ s, .division s ∈ l.shown → ∀ number,
      Writes scope depth (part number s) (bodySection block scope number s)) →
    Writes scope depth (layout write part l) (l.render block scope)
  | .fixed m, _ => by
    rw [Layout.render]
    exact writes_put scope depth m
  | .text content, _ => by
    rw [Layout.render]
    exact writes_inlines depth scope content
  | .block number b, _ => by
    rw [Layout.render]
    exact hblock number b
  | .division number s, hpart => by
    rw [Layout.render]
    exact hpart s (by simp) number
  | .element tag attrs flags inner, hpart => by
    rw [Layout.shown_element] at hpart
    rw [Layout.render]
    exact (writes_layouts hblock inner hpart).element tag attrs flags

/-- Layouts are written as they are rendered, if their leaves are. -/
theorem writes_layouts
    (hblock : ∀ number b, Writes scope depth (write number b) (block scope number b)) :
    ∀ ls : List Layout, (∀ s, .division s ∈ Layout.shownAll ls → ∀ number,
      Writes scope depth (part number s) (bodySection block scope number s)) →
    Writes scope depth (layouts write part ls) (Layout.renderAll block scope ls)
  | [], _ => by
    rw [Layout.renderAll]
    exact writes_id scope depth
  | l :: rest, hpart => by
    rw [Layout.shownAll_cons] at hpart
    rw [Layout.renderAll]
    exact (writes_layout hblock l fun s hs => hpart s (List.mem_append_left _ hs)).append
      (writes_layouts hblock rest fun s hs => hpart s (List.mem_append_right _ hs))

end

theorem writes_content
    (hblock : ∀ number b, Writes scope depth (write number b) (block scope number b))
    {ls : List Layout} (hnone : ∀ s, .division s ∉ Layout.shownAll ls) :
    Writes scope depth (content write ls) (Layout.renderAll block scope ls) :=
  writes_layouts hblock ls fun s hs => absurd hs (hnone s)

end Layouts

/-- The two loops over the content of a section take the same branches. -/
theorem writes_loop {scope : Scope} {depth : Nat} {write : BlockWriter} {block : BlockRenderer}
    (hblock : ∀ number b, Writes scope depth (write number b) (block scope number b))
    (number : Option String) (k : Nat) (content : List Block) :
    Writes scope depth (loop write number k content)
      (sectionContent block scope number k content) := by
  induction content generalizing k with
  | nil => exact writes_id scope depth
  | cons b rest ih =>
    cases number with
    | none => cases b <;> exact (hblock none _).append (ih k)
    | some parent =>
      cases b with
      | subsection s => exact (hblock _ _).append (ih (k + 1))
      | _ => exact (hblock none _).append (ih k)

/-! ## Sections, documents and blocks -/

/-- In contexts of the limit and the depth that are inside of a document, blocks are written as they
are rendered. -/
def BlockWrites (limit depth : Nat) (write : BlockWriter) (block : BlockRenderer) : Prop :=
  ∀ scope : Scope, scope.documents ≠ [] → scope.renderer.settings.maxDepth = limit →
    ∀ number b, Writes scope depth (write number b) (block scope number b)

section Blocks

variable {limit depth : Nat} {write : BlockWriter} {block : BlockRenderer}
variable (hblock : BlockWrites limit depth write block) {scope : Scope}
variable (hinside : scope.documents ≠ []) (hlimit : scope.renderer.settings.maxDepth = limit)

include hblock hlimit

include hinside in
theorem writes_division (mode : SectionMode) (number : Option String) (s : Section) :
    Writes scope depth (division write mode number s)
      (renderSection block scope mode number s) := by
  by_cases hopen : s.id ∈ scope.sections
  · rw [renderSection_opened block mode number hopen]
    refine (writes_put scope depth (sectionCycle s.id)).congr fun out noted => ?_
    rw [division, if_pos (List.contains_iff_mem.mpr hopen)]
  · have hinner := hblock (scope.insideSection mode s) hinside hlimit
    have hnone : ∀ t, .division t ∉ Layout.shownAll
        (Layout.sectionFront (scope.insideSection mode s) mode number s) := by
      intro t ht
      have hall : .division t ∈ Layout.shownAll
          (Layout.ofSection (scope.insideSection mode s) mode number s) := by
        rw [Layout.ofSection, Layout.shownAll, Layout.collectAll_append]
        exact List.mem_append_left _ ht
      rw [Layout.shownAll_ofSection] at hall
      simp at hall
    have hcontent := (writes_content hinner hnone).append (writes_loop hinner number 0 s.content)
    have hwithin : Writes scope depth (fun w => closeSection mode (loop write number 0 s.content
        (content write (Layout.sectionFront (scope.insideSection mode s) mode number s)
          (openSection mode s w)))) _ :=
      hcontent.within (fun _ _ => rfl) fun out noted => by cases mode <;> rfl
    rw [Layout.renderSection_eq block scope number hopen, Layout.ofSection, Layout.renderAll_append,
      Layout.renderAll_numbered]
    refine (hwithin.element "section" (scope.sectionAttrs mode number.isSome s) []).congr
      fun out noted => ?_
    rw [division, if_neg (mt List.contains_iff_mem.mp hopen)]
    rfl

theorem writes_document (d : Document) :
    Writes scope depth (document write d) (innerArticle block scope d) := by
  by_cases hopen : d.id ∈ scope.documents.map (·.id)
  · rw [innerArticle, articleWith_opened block _ (any_id_iff.mpr hopen)]
    refine (writes_put scope depth (documentCycle d.id)).congr fun out noted => ?_
    rw [document, if_pos (any_id_iff.mpr hopen)]
  · have hdocuments : (scope.insideDocument d).documents ≠ [] := List.cons_ne_nil _ _
    have hcontent := writes_layouts (hblock (scope.insideDocument d) hdocuments hlimit)
      (Layout.ofDocument (scope.insideDocument d) d) fun s _ number =>
        writes_division hblock hdocuments hlimit .anchored number s
    have hwithin : Writes scope depth (fun w => closeDocument scope.level
        (layouts write (division write .anchored) (Layout.ofDocument (scope.insideDocument d) d)
          (openDocument d w))) _ := hcontent.within (fun _ _ => rfl) fun _ _ => rfl
    have hplain : innerArticle block scope d = Rendered.inside "article" (articleAttrs d)
        (Layout.renderAll block (scope.insideDocument d)
          (Layout.ofDocument (scope.insideDocument d) d)) := by
      rw [innerArticle, Layout.articleWith_eq_layout block scope _ hopen]
      simp only [pure_bind, List.append_nil, bind_pure]
    rw [hplain]
    refine (hwithin.element "article" (articleAttrs d) []).congr fun out noted => ?_
    rw [document, if_neg (mt any_id_iff.mp hopen)]
    rfl

include hinside

/-- One level of blocks. -/
theorem writes_blockWith (number : Option String) (b : Block) :
    Writes scope depth (blockWith write number b) (Scope.blockWith block scope number b) := by
  by_cases hsimple : b.isSimple = true
  · have hnone : ∀ s, .division s ∉ Layout.shownAll (Layout.ofBlock scope b) := by
      rw [Layout.shownAll_ofBlock]
      simp
    rw [← Layout.renderAll_ofBlock block scope number hsimple]
    refine (writes_content (hblock scope hinside hlimit) hnone).congr fun out noted => ?_
    cases b with
    | subsection s | sectionRef r | document d => cases hsimple
    | _ => rfl
  · cases b with
    | subsection s =>
      have hdeeper : ({ scope with level := scope.level + 1 } : Scope).documents ≠ [] := hinside
      have hsection := writes_division hblock hdeeper hlimit (scope.nestedMode s) number s
      have hwithin : Writes scope depth
          (fun w => shallower (division write (scope.nestedMode s) number s (deeper w))) _ :=
        hsection.within (fun _ _ => rfl) fun _ _ => rfl
      exact hwithin
    | sectionRef r =>
      show Writes scope depth _ (sectionRef block scope r)
      unfold sectionRef
      split
      · next s hs =>
        refine (writes_division hblock hinside hlimit (.copy r.showTitle) none s).congr
          fun out noted => ?_
        simp only [blockWith, hs]
      · next hs =>
        refine (writes_put scope depth (missingSection r.sectionId)).congr fun out noted => ?_
        simp only [blockWith, hs]
    | document d =>
      show Writes scope depth _ (Rendered.classed "div" "embedded-document" (article block scope d))
      rw [article_of_inside block hinside]
      exact (writes_document hblock hlimit d).element "div" [("class", "embedded-document")] []
    | _ => exact absurd rfl hsimple

end Blocks

/-- With enough fuel, a block is written as it is rendered on what the depth leaves of the
budget. -/
theorem writes_blockFueled {limit fuel depth : Nat} (hfuel : limit ≤ depth + fuel) :
    BlockWrites limit depth (blockFueled fuel) (renderBlock (limit - depth)) := by
  induction fuel generalizing depth with
  | zero =>
    intro scope _ _ number b
    have hnone : limit - depth = 0 := by omega
    rw [hnone]
    exact writes_put scope depth depthMarker
  | succ fuel ih =>
    intro scope hinside hlimit number b
    -- the depth decides, and the fuel lasts at least as long as the depth allows
    by_cases hdeep : limit ≤ depth
    · have hnone : limit - depth = 0 := by omega
      rw [hnone]
      refine (writes_put scope depth depthMarker).congr fun out noted => ?_
      have hfull : scope.renderer.settings.maxDepth ≤ depth := by rwa [hlimit]
      rw [blockFueled_succ, entered, if_pos hfull]
    · obtain ⟨budget, hbudget⟩ : ∃ budget, limit - depth = budget + 1 :=
        ⟨limit - depth - 1, by omega⟩
      have hinner : BlockWrites limit (depth + 1) (blockFueled fuel) (renderBlock budget) := by
        have hrest : limit - (depth + 1) = budget := by omega
        rw [← hrest]
        exact ih (by omega)
      have hwithin : Writes scope depth
          (fun w => leave (blockWith (blockFueled fuel) number b (enter w))) _ :=
        (writes_blockWith hinner hinside hlimit number b).within (fun _ _ => rfl) fun _ _ => rfl
      rw [hbudget, renderBlock_succ]
      refine hwithin.congr fun out noted => ?_
      have hroom : ¬ scope.renderer.settings.maxDepth ≤ depth := by rwa [hlimit]
      rw [blockFueled_succ, entered, if_neg hroom]

/-- A block as the writer runs it, with fuel for the whole budget. -/
theorem writes_block {limit depth : Nat} :
    BlockWrites limit depth block (renderBlock (limit - depth)) := by
  intro scope hinside hlimit number b
  have hfuel : limit ≤ depth + limit := by omega
  refine (writes_blockFueled hfuel scope hinside hlimit number b).congr fun out noted => ?_
  show blockFueled scope.renderer.settings.maxDepth number b _ = _
  rw [hlimit]

/-! ## Composition -/

/-- In a context with the scope and the depth, whatever is written and noted already, writing
restores the scope and the depth, appends the text that the step makes on its own, and notes
documents at the end only. -/
def Restores (scope : Scope) (depth : Nat) (write : Writer → Writer) (x : Rendered) : Prop :=
  ∀ out noted,
    write ⟨scope, depth, out, noted⟩ =
      ⟨scope, depth, out ++ charsList (x.run []).1, (x.run noted).2⟩ ∧
    (x.run noted).1 = (x.run []).1 ∧ noted <+: (x.run noted).2

/-- What writes a rendering leaves the context as it was. -/
theorem Writes.restores {scope : Scope} {depth : Nat} {f : Writer → Writer} {x : Rendered}
    (h : Writes scope depth f x) : Restores scope depth f x := by
  obtain ⟨m, asked, hrun, hwrite⟩ := h
  intro out noted
  rw [hrun [], hrun noted, hwrite]
  exact ⟨rfl, rfl, noteAll_extends noted asked⟩

/-- Blocks one after the other. -/
def blocks (content : List Block) (w : Writer) : Writer :=
  content.foldl (fun w b => block none b w) w

section Composition

variable {scope : Scope} {depth : Nat} {render : BlockRenderer}
variable (hblock : ∀ b, Writes scope depth (block none b) (render scope none b))

include hblock

theorem writes_blocks (content : List Block) :
    Writes scope depth (blocks content) (Scope.blocks render scope content) := by
  induction content with
  | nil => exact writes_id scope depth
  | cons b rest ih => exact (hblock b).append ih

theorem charsList_blocks (content : List Block) (noted : List Document) :
    charsList ((Scope.blocks render scope content).run noted).1 =
      content.flatMap fun b => charsList ((render scope none b).run []).1 := by
  induction content generalizing noted with
  | nil => rfl
  | cons b rest ih =>
    have hfirst : ((render scope none b).run noted).1 = ((render scope none b).run []).1 :=
      ((hblock b).restores [] noted).2.1
    show charsList (((render scope none b).run noted).1 ++
      ((Scope.blocks render scope rest).run ((render scope none b).run noted).2).1) = _
    rw [charsList_append, ih, hfirst, List.flatMap_cons]

end Composition

/-- Inside of a document, writing restores its context, and the text it appends is what rendering
makes of the value in that scope, on the budget that the depth leaves. So blocks make one text after
the other. -/
theorem writing_restores_context (scope : Scope) (depth : Nat) (hinside : scope.documents ≠ []) :
    let render := renderBlock (scope.renderer.settings.maxDepth - depth)
    (∀ number b, Restores scope depth (block number b) (render scope number b)) ∧
    (∀ mode number s, Restores scope depth (division block mode number s)
      (renderSection render scope mode number s)) ∧
    (∀ i, Restores scope depth (inlinePiece i) (scope.inlinePiece i)) ∧
    (∀ d, Restores scope depth (document block d) (article render scope d)) ∧
    (∀ content, Restores scope depth (blocks content) (Scope.blocks render scope content)) ∧
    ∀ content noted, charsList ((Scope.blocks render scope content).run noted).1 =
      content.flatMap fun b => charsList ((render scope none b).run []).1 := by
  intro render
  have hblock : BlockWrites scope.renderer.settings.maxDepth depth block render := writes_block
  have hplain : ∀ b, Writes scope depth (block none b) (render scope none b) :=
    hblock scope hinside rfl none
  refine ⟨fun number b => (hblock scope hinside rfl number b).restores, fun mode number s => ?_,
    fun i => (writes_inlinePiece depth scope i).restores, fun d => ?_,
    fun content => (writes_blocks hplain content).restores, charsList_blocks hplain⟩
  · exact (writes_division hblock hinside rfl mode number s).restores
  · rw [article_of_inside render hinside]
    exact (writes_document hblock rfl d).restores

/-- A scope inside of a document, and of a copy of one of its sections. -/
def copyScope : Scope :=
  { renderer := {}, view := .empty, tooltipLimit := 0, references := 1,
    documents := [Renderer.untitled "outer" []], sections := ["a"] }

/-- A break and a subsection in a quotation. -/
def quotedSection : Block :=
  .quote ⟨[.thematicBreak, .subsection ⟨"a", none, [], none, none⟩], none⟩

theorem writing_restores_context_quote :
    copyScope.documents ≠ [] ∧
      block none quotedSection ⟨copyScope, 30, "before".toList, []⟩ =
        ⟨copyScope, 30, "before<blockquote><hr>".toList ++ (sectionCycle "a").chars ++
          "</blockquote>".toList, []⟩ := by
  have hinside : copyScope.documents ≠ [] := by decide
  have hwrite :=
    ((writing_restores_context copyScope 30 hinside).1 none quotedSection "before".toList []).1
  have htext : charsList ((renderBlock (copyScope.renderer.settings.maxDepth - 30) copyScope none
      quotedSection).run []).1 = "<blockquote><hr>".toList ++ (sectionCycle "a").chars ++
        "</blockquote>".toList := by
    decide +kernel
  have hnoted : ((renderBlock (copyScope.renderer.settings.maxDepth - 30) copyScope none
      quotedSection).run []).2.length = 0 := by
    decide +kernel
  rw [htext, List.eq_nil_of_length_eq_zero hnoted] at hwrite
  exact ⟨hinside, hwrite⟩

end Writer

end Compendium
