import Compendium.Proofs.Render.Marks

/-!
# Articles on a page

Documents are the only articles on a page: the outermost one, those in blocks, and those of
tooltips. What belongs to a document is read off outside of the articles inside of its own. What is
asked of articles alone is kept by everything that is rendered but by documents, so a page has it
everywhere as soon as the content of each document has it. The documents on a page are parts of the
outermost one.
-/

namespace Compendium

/-! ## Reading articles off a page -/

namespace Markup

/-- If the markup is an article, its attributes and its content have the property. -/
def ArticleHas (own : List Attr → List Markup → Prop) (m : Markup) : Prop :=
  ∀ attrs flags content, m = .element "article" attrs flags content → own attrs content

/-- All articles of the markup have the property. -/
def ArticlesHave (own : List Attr → List Markup → Prop) (ms : List Markup) : Prop :=
  ∀ m ∈ nodesList ms, ArticleHas own m

section Articles

variable {own : List Attr → List Markup → Prop}

theorem articleHas_element {tag : String} (htag : tag ≠ "article") (attrs : List Attr)
    (flags : List String) (content : List Markup) :
      ArticleHas own (.element tag attrs flags content) :=
  fun _ _ _ heq => absurd (Markup.element.inj heq).1 htag

theorem articleHas_plain {m : Markup} (h : m.Plain) : ArticleHas own m := by
  rintro attrs flags content rfl
  exact absurd rfl h.1.other

theorem ArticlesHave.append {l m : List Markup} (hl : ArticlesHave own l)
    (hm : ArticlesHave own m) :
    ArticlesHave own (l ++ m) := by
  unfold ArticlesHave
  rw [nodesList_append]
  exact List.forall_mem_append.mpr ⟨hl, hm⟩

theorem ArticlesHave.element {content : List Markup} (h : ArticlesHave own content) {tag : String}
    {attrs : List Attr} {flags : List String}
    (hown : ArticleHas own (.element tag attrs flags content)) :
    ArticlesHave own [.element tag attrs flags content] := by
  unfold ArticlesHave
  rw [nodesList_element]
  exact List.forall_mem_cons.mpr ⟨hown, h⟩

theorem articlesHave_flatMap {α : Type} {f : α → List Markup} {l : List α}
    (h : ∀ a ∈ l, ArticlesHave own (f a)) : ArticlesHave own (l.flatMap f) := by
  induction l with
  | nil => exact List.forall_mem_nil _
  | cons a rest ih =>
    obtain ⟨ha, hrest⟩ := List.forall_mem_cons.mp h
    rw [List.flatMap_cons]
    exact ha.append (ih hrest)

end Articles

/-! ## Reading off what is outside of articles -/

section Outside

variable {α : Type}

mutual

/-- What can be read off elements by their start tags and their content, in the order of the page.
Articles are left out. -/
def outside (read : String → List Attr → List Markup → List α) : Markup → List α
  | element tag attrs _ content =>
    if tag = "article" then [] else read tag attrs content ++ outsideList read content
  | _ => []

def outsideList (read : String → List Attr → List Markup → List α) : List Markup → List α
  | [] => []
  | m :: rest => outside read m ++ outsideList read rest

end

variable {read : String → List Attr → List Markup → List α}

theorem outsideList_append (l m : List Markup) :
    outsideList read (l ++ m) = outsideList read l ++ outsideList read m :=
  append_of_cons l m rfl fun _ _ => rfl

theorem outsideList_article (attrs : List Attr) (flags : List String) (content : List Markup) :
    outsideList read [element "article" attrs flags content] = [] := by
  rw [outsideList, outside, if_pos rfl]
  rfl

theorem outsideList_element {tag : String} (htag : tag ≠ "article") (attrs : List Attr)
    (flags : List String) (content : List Markup) :
    outsideList read [element tag attrs flags content] =
      read tag attrs content ++ outsideList read content := by
  rw [outsideList, outsideList, List.append_nil, outside, if_neg htag]

/-- Nothing is read off plain markup if nothing is read off plain attributes. -/
theorem PlainList.outside_eq
    (hread : ∀ tag attrs content, PlainAttrs attrs → read tag attrs content = []) {ms : List Markup}
    (h : PlainList ms) : outsideList read ms = [] := by
  induction ms using forest_induction with
  | append l m hl hm =>
    obtain ⟨hfirst, hrest⟩ := (plainList_append l m).mp h
    rw [outsideList_append, hl hfirst, hm hrest]
    rfl
  | element tag attrs flags content ih =>
    obtain ⟨⟨htag, hattrs, -, hcontent⟩, -⟩ := h
    rw [outsideList_element htag.other, hread tag attrs content hattrs, ih hcontent]
    rfl
  | _ => rfl

end Outside

end Markup

theorem Document.mem_parts (d : Document) : .document d ∈ d.parts :=
  d.parts_perm.mem_iff.mpr List.mem_cons_self

namespace Scope

open Markup

/-! ## Steps that enter no document -/

/-- Whatever is noted, the articles that the step makes have the property. -/
def MakesArticles (own : List Attr → List Markup → Prop) (x : Rendered) : Prop :=
  ∀ noted, ArticlesHave own (x.run noted).1

section Steps

variable {own : List Attr → List Markup → Prop} {x : Rendered}

theorem MakesArticles.element (hx : MakesArticles own x) {tag : String} {attrs : List Attr}
    {flags : List String}
    (hown : ∀ noted, ArticleHas own (.element tag attrs flags (x.run noted).1)) :
    MakesArticles own (do
      let content ← x
      return [.element tag attrs flags content]) :=
  fun noted => (hx noted).element (hown noted)

theorem MakesArticles.inside (hx : MakesArticles own x) {tag : String} (htag : tag ≠ "article")
    (attrs : List Attr) : MakesArticles own (.inside tag attrs x) :=
  hx.element fun _ => articleHas_element htag attrs [] _

theorem MakesArticles.noting (hx : MakesArticles own x) (target : LinkTarget) :
    MakesArticles own (Scope.noting target x) :=
  forall_noting hx target

theorem makesArticles_closed : Rendered.Closed (MakesArticles own) where
  nil := fun _ => List.forall_mem_nil _
  append := fun hx hy noted => (hx noted).append (hy _)
  fixed := fun hplain _ n hn => articleHas_plain (hplain.nodes n hn)
  element := fun _ htag _ hx => hx.element fun _ => articleHas_element htag.other _ _ _

theorem makesArticles_marker (cssClass : String) (attrs : List Attr) (message : String) :
    MakesArticles own (pure [marker cssClass attrs message]) :=
  (makesArticles_closed.fixed (plain_text message)).inside (by decide) _

theorem makesArticles_inlines (scope : Scope) (content : List Inline) :
    MakesArticles own (scope.inlines content) := by
  have htags : ∀ tag ∈ ["a", "span"], tag ≠ "article" := by decide
  have hfootnote : ∀ (scope : Scope) id, MakesArticles own (pure [scope.footnoteRef id]) := by
    intro scope id
    obtain ⟨tag, htag, attrs, heq, -⟩ := footnoteRef_eq scope id
    rw [heq]
    exact ((makesArticles_closed.fixed (plain_text _)).inside
      (htags tag htag) attrs).inside (by decide) _
  have hkept : InlineKept fun _ => MakesArticles own :=
    inlineKept_of_elements (fun _ => makesArticles_closed.within) hfootnote
      fun hx tag htag _ => (hx.inside (htags tag htag) _).noting _
  exact inlineKept_inlines hkept scope content

/-- All that is rendered keeps it as long as no document is entered. -/
theorem makesArticles_kept : KeptInside fun _ => MakesArticles own where
  closed := fun _ => makesArticles_closed.within
  texts := makesArticles_inlines
  depth := fun _ => makesArticles_marker _ _ _
  missing := fun _ _ => makesArticles_marker _ _ _
  deeper := fun hx => hx
  opened := fun _ _ hx => hx.inside (by decide) _

end Steps

/-! ## The documents among given parts -/

/-- The article of a document among the parts, with a property of its content. -/
def IsArticleOf (W : List Part) (own : Document → List Markup → Prop) (attrs : List Attr)
    (content : List Markup) : Prop :=
  ∃ d, .document d ∈ W ∧ attrs = articleAttrs d ∧ own d content

/-- What stands in an article before its closing has the property, wherever the document stands. -/
def FrontsHave (own : Document → List Markup → Prop) : Prop :=
  ∀ (budget : Nat) (scope : Scope) (d : Document) (noted : List Document),
    own d ((Layout.renderAll (renderBlock budget) (scope.insideDocument d)
      (Layout.ofDocument (scope.insideDocument d) d)).run noted).1

section Parts

variable {W : List Part} {own : Document → List Markup → Prop} (hown : FrontsHave own)

include hown

/-- A document that stands inside of another one. -/
theorem makesArticles_innerArticle {budget : Nat} {scope : Scope} {d : Document}
    (hd : .document d ∈ W) (hsection : d.id ∉ scope.documents.map (·.id) → ∀ s ∈ d.body, ∀ number,
      MakesArticles (IsArticleOf W own)
        (bodySection (renderBlock budget) (scope.insideDocument d) number s)) :
    MakesArticles (IsArticleOf W own) (innerArticle (renderBlock budget) scope d) := by
  unfold innerArticle
  by_cases hopen : d.id ∈ scope.documents.map (·.id)
  · rw [articleWith_opened _ _ (any_id_iff.mpr hopen)]
    exact makesArticles_marker _ _ _
  · rw [Layout.articleWith_eq_layout _ scope _ hopen]
    have hfront := Layout.closed_ofDocument makesArticles_closed
      (makesArticles_inlines (scope.insideDocument d)) (hsection hopen)
    simp only [pure_bind, List.append_nil, bind_pure]
    refine hfront.element fun noted => ?_
    rintro attrs flags content heq
    obtain ⟨-, rfl, -, rfl⟩ := Markup.element.inj heq
    exact ⟨d, hd, rfl, hown budget scope d noted⟩

variable (hclosed : Part.Closed W)

include hclosed

theorem makesArticles_renderBlock (budget : Nat) {scope : Scope} {b : Block}
    (hinside : scope.documents ≠ []) (hb : Keeps W (scope, b)) (number : Option String) :
    MakesArticles (IsArticleOf W own) (renderBlock budget scope number b) := by
  refine keptInside_renderBlock makesArticles_kept
    (fun c c' hc hcalls => Keeps.calls hclosed hc hcalls)
    (fun _ _ _ _ _ _ _ => makesArticles_marker _ _ _) (fun budget scope d hd hsection => ?_) budget
    hinside hb number
  refine makesArticles_innerArticle hown (hd.block.subset ?_) hsection
  rw [Block.parts]
  exact List.mem_cons_of_mem _ d.mem_parts

theorem makesArticles_renderSection (budget : Nat) {scope : Scope} (hinside : scope.documents ≠ [])
    (hscope : ∀ d ∈ scope.documents, d.parts.Subperm W) (mode : SectionMode)
    (number : Option String) {s : Section} (hs : s.parts.Subperm W) :
    MakesArticles (IsArticleOf W own) (renderSection (renderBlock budget) scope mode number s) := by
  refine kept_renderSection makesArticles_kept number (fun _ => makesArticles_marker _ _ _)
    fun _ b hb number => ?_
  have hkeeps : Keeps W (scope.insideSection mode s, b) :=
    ⟨hscope, (Section.parts_sublist_of_mem_content hb).subperm.trans hs⟩
  have hopen : (scope.insideSection mode s).documents ≠ [] := hinside
  exact makesArticles_renderBlock hown hclosed budget hopen hkeeps number

theorem makesArticles_bodySection (budget : Nat) {scope : Scope}
    (hscope : ∀ d ∈ scope.documents, d.parts.Subperm W) {d : Document} (hd : d.parts.Subperm W)
    {s : Section} (hs : s ∈ d.body) (number : Option String) :
    MakesArticles (IsArticleOf W own)
      (bodySection (renderBlock budget) (scope.insideDocument d) number s) := by
  have hinner : ∀ other ∈ (scope.insideDocument d).documents, other.parts.Subperm W :=
    List.forall_mem_cons.mpr ⟨hd, hscope⟩
  exact makesArticles_renderSection hown hclosed budget
    (List.cons_ne_nil _ _) hinner .anchored number
    ((Document.parts_subperm_of_mem_body hs).trans hd)

theorem articlesHave_tooltipAside (budget : Nat) {scope : Scope}
    (hscope : ∀ d ∈ scope.documents, d.parts.Subperm W) {queue : List Document}
    (hqueue : queue ⊆ Part.tooltips W) :
    ArticlesHave (IsArticleOf W own) (tooltipAside (renderBlock budget) scope queue) := by
  have htooltip : ∀ t ∈ queue,
      ArticlesHave (IsArticleOf W own) (tooltipMarkup (renderBlock budget) scope t) := by
    intro t ht
    have hparts := hclosed t (hqueue ht)
    have harticle : MakesArticles (IsArticleOf W own) (innerArticle (renderBlock budget) scope t) :=
      makesArticles_innerArticle hown (hparts.subset t.mem_parts) fun _ s hs number =>
        makesArticles_bodySection hown hclosed budget hscope hparts hs number
    exact harticle.inside (by decide) _ []
  unfold tooltipAside
  split
  · exact List.forall_mem_nil _
  · exact ArticlesHave.element (articlesHave_flatMap htooltip)
      (articleHas_element (by decide) _ _ _)

end Parts

/-! ## Outside of documents -/

section Outside

variable {α : Type} {read : String → List Attr → List Markup → List α}
variable (hcycle : ∀ id, outsideList read [documentCycle id] = [])

include hcycle

/-- Nothing is read off a document from outside. -/
theorem outsideList_articleWith (block : BlockRenderer) (closing : Scope → Rendered) (scope : Scope)
    (d : Document) (noted : List Document) :
    outsideList read ((articleWith block closing scope d).run noted).1 = [] := by
  unfold articleWith
  split
  · exact hcycle d.id
  · exact outsideList_article _ _ _

theorem outsideList_tooltipAside
    (hdocument : ∀ id content, read "div" [("class", "tooltip-document"), ("id", id)] content = [])
    (haside : ∀ content, read "aside" [("class", "tooltip-documents")] content = [])
    (block : BlockRenderer) (scope : Scope) (queue : List Document) :
    outsideList read (tooltipAside block scope queue) = [] := by
  have htooltips : outsideList read (queue.flatMap (tooltipMarkup block scope)) = [] := by
    induction queue with
    | nil => rfl
    | cons t rest ih =>
      have harticle : outsideList read ((innerArticle block scope t).run []).1 = [] :=
        outsideList_articleWith hcycle block _ scope t []
      have htooltip : outsideList read (tooltipMarkup block scope t) = [] := by
        refine (outsideList_element (by decide) _ _ _).trans ?_
        rw [hdocument, List.nil_append]
        exact harticle
      rw [List.flatMap_cons, outsideList_append, htooltip, ih, List.append_nil]
  unfold tooltipAside
  split
  · rfl
  · rw [outsideList_element (by decide), haside, htooltips, List.append_nil]

end Outside

end Scope

namespace Renderer

open Markup Scope

/-- The page of a document is its article: what stands in it, and then the tooltips. All articles
inside of it are those of documents among its parts. -/
theorem document_articles {own : Document → List Markup → Prop} (hown : FrontsHave own)
    (r : Renderer) (view : View) (d : Document) :
    ∃ content queue, r.document view d = [.element "article" (articleAttrs d) [] content] ∧
      (let inner := (r.scope view d.parts).insideDocument d
      content = ((Layout.renderAll r.block inner (Layout.ofDocument inner d)).run []).1 ++
        tooltipAside r.block inner queue) ∧
      ArticlesHave (IsArticleOf d.parts own) content := by
  let scope := r.scope view d.parts
  let inner := scope.insideDocument d
  have hself : d.parts.Subperm d.parts := .refl _
  have hnone : ∀ other ∈ scope.documents, other.parts.Subperm d.parts := List.forall_mem_nil _
  have hinner : ∀ other ∈ inner.documents, other.parts.Subperm d.parts :=
    List.forall_mem_cons.mpr ⟨hself, hnone⟩
  obtain ⟨queue, hqueue, hrun, -⟩ := article_run (emits_renderBlock d.parts r.settings.maxDepth)
    (rfl : scope.documents = []) (Nat.le_refl _)
  have hfront : MakesArticles (IsArticleOf d.parts own)
      (Rendered.sequence (articleFront r.block inner d)) :=
    kept_articleFront makesArticles_kept fun s hs number =>
      makesArticles_bodySection hown d.parts_closed r.settings.maxDepth hnone hself hs number
  have haside := articlesHave_tooltipAside hown d.parts_closed r.settings.maxDepth
    hinner hqueue.subset
  refine ⟨_, queue, congrArg Prod.fst hrun, ?_, (hfront []).append haside⟩
  rw [frontMarkup, Layout.sequence_articleFront]
  rfl

end Renderer

end Compendium
