import Compendium.Proofs.Render.Marks

/-!
# Two renderings side by side

The view and the limit of nesting decide how blocks are rendered and nothing else. So two renderers
of blocks can be compared, each with its own view and limit: a relation between rendering steps that
is kept by sequence, by elements and by looking at the noted tooltips relates whole documents as
soon as it relates blocks. Content nodes that are set off, and the stand-ins for content that is
nested too deeply, are left to the relation itself; nothing else on a page looks like them.
-/

namespace Compendium

def Renderer.limited (r : Renderer) (limit : Nat) : Renderer :=
  { r with settings := { r.settings with maxDepth := limit } }

def Scope.altered (scope : Scope) (view : View → View) (limit : Nat → Nat) : Scope :=
  { scope with
    view := view scope.view
    renderer := scope.renderer.limited (limit scope.renderer.settings.maxDepth) }

/-! ## Content nodes on a page -/

namespace Markup

/-- The markup of a content node, set off from the markup around it. The articles of documents have
attributes, so a page has no such element of its own. -/
def contentNode (content : List Markup) : Markup :=
  element "article" [] [] content

def setsOff (tag : String) (attrs : List Attr) : Bool :=
  tag == "article" && attrs.isEmpty

def isContentNode : Markup → Bool
  | element tag attrs _ _ => setsOff tag attrs
  | _ => false

/-- Markup that neither sets off a content node nor stands in for one that is nested too deeply. -/
def Ordinary : Markup → Prop
  | element tag attrs _ _ =>
    setsOff tag attrs = false ∧ attrs.lookup "class" ≠ some "render-marker depth-limit"
  | _ => True

/-- An element with a class of its own is ordinary. -/
theorem ordinary_of_lookup {tag : String} {attrs : List Attr} {word : String}
    (hclass : attrs.lookup "class" = some word) (hword : word ≠ "render-marker depth-limit")
    (flags : List String) (content : List Markup) : (element tag attrs flags content).Ordinary := by
  refine ⟨?_, fun hother => hword ?_⟩
  · cases attrs with
    | nil => cases hclass
    | cons a rest => exact Bool.and_false _
  · rw [hclass] at hother
    exact Option.some.inj hother

def AllOrdinary (content : List Markup) : Prop :=
  ∀ m ∈ nodesList content, m.Ordinary

theorem allOrdinary_nil : AllOrdinary [] :=
  List.forall_mem_nil _

theorem AllOrdinary.append {l m : List Markup} (hl : AllOrdinary l) (hm : AllOrdinary m) :
    AllOrdinary (l ++ m) := by
  intro n hn
  rw [nodesList_append] at hn
  exact (List.mem_append.mp hn).elim (hl n) (hm n)

theorem AllOrdinary.element {content : List Markup} (hcontent : AllOrdinary content) {tag : String}
    {attrs : List Attr} {flags : List String} (hown : (element tag attrs flags content).Ordinary) :
    AllOrdinary [element tag attrs flags content] := by
  unfold AllOrdinary
  rw [nodesList_element]
  exact List.forall_mem_cons.mpr ⟨hown, hcontent⟩

theorem allOrdinary_leaf {tag : String} {attrs : List Attr} {s : String}
    (h : (leaf tag attrs s).Ordinary) : AllOrdinary [leaf tag attrs s] := by
  have htext : AllOrdinary [text s] := fun m hm => by
    cases List.mem_singleton.mp hm
    trivial
  exact htext.element h

end Markup

open Markup

theorem PlainAttrs.ordinary {attrs : List Attr} (h : PlainAttrs attrs) {tag : String}
    (htag : tag ≠ "article") (flags : List String) (content : List Markup) :
    (element tag attrs flags content).Ordinary :=
  ⟨by rw [setsOff, beq_eq_false_iff_ne.mpr htag, Bool.false_and],
    fun hclass => h.lookup_class hclass (by decide)⟩

theorem Markup.Plain.allOrdinary {m : Markup} (h : m.Plain) : AllOrdinary [m] := by
  intro n hn
  have hnode := PlainIn.nodes h n hn
  cases n with
  | element tag attrs flags content => exact hnode.2.1.ordinary hnode.1.other flags content
  | _ => trivial

namespace Scope

open Rendered

/-! ## Steps that make ordinary markup -/

/-- Whatever is noted, the step makes ordinary markup. -/
def MakesOrdinary (x : Rendered) : Prop :=
  ∀ noted, AllOrdinary (x.run noted).1

theorem makesOrdinary_pure {ms : List Markup} (h : AllOrdinary ms) : MakesOrdinary (pure ms) :=
  fun _ => h

theorem MakesOrdinary.element {x : Rendered} (hx : MakesOrdinary x) {tag : String}
    {attrs : List Attr}
    {flags : List String} (hown : ∀ content, (element tag attrs flags content).Ordinary) :
    MakesOrdinary (do
      let content ← x
      return [.element tag attrs flags content]) :=
  fun noted => (hx noted).element (hown _)

theorem makesOrdinary_closed : Rendered.Closed MakesOrdinary where
  nil := makesOrdinary_pure allOrdinary_nil
  append := fun hx hy noted => (hx noted).append (hy _)
  fixed := fun hplain => makesOrdinary_pure (Plain.allOrdinary hplain)
  element := fun _ htag hattrs hx => hx.element (hattrs.ordinary htag.other _)

theorem makesOrdinary_footnoteRef (scope : Scope) (id : String) :
    MakesOrdinary (pure [scope.footnoteRef id]) := by
  obtain ⟨tag, htag, attrs, heq, -, hattrs⟩ := footnoteRef_eq scope id
  have harticle : ∀ tag ∈ ["a", "span"], setsOff tag attrs = false := by simp [setsOff]
  have hclass : attrs.lookup "class" ≠ some "render-marker depth-limit" := by
    rw [hattrs "class" (by decide) (by decide)]
    nofun
  rw [heq]
  refine makesOrdinary_pure (AllOrdinary.element (allOrdinary_leaf ⟨harticle tag htag, hclass⟩) ?_)
  exact ordinary_of_lookup rfl (by decide) [] _

/-- Inline text is ordinary. -/
theorem makesOrdinary_inlines (scope : Scope) (content : List Inline) :
    MakesOrdinary (scope.inlines content) := by
  have hkept : InlineKept fun _ => MakesOrdinary := inlineKept_of_elements
    (fun _ => makesOrdinary_closed.within) makesOrdinary_footnoteRef
    fun hx _ _ _ => forall_noting (hx.element (ordinary_of_lookup rfl (by decide) [])) _
  exact inlineKept_inlines hkept scope content

/-! ## Relations between steps -/

/-- A relation between rendering steps that the combinators of rendering keep. -/
structure Parallel (R : Rendered → Rendered → Prop) : Prop where
  same : ∀ {x : Rendered}, MakesOrdinary x → R x x
  append : ∀ {x y x' y' : Rendered}, R x y → R x' y' →
    R (do
      let first ← x
      let others ← x'
      return first ++ others)
    (do
      let first ← y
      let others ← y'
      return first ++ others)
  element : ∀ {tag : String} {attrs : List Attr} {flags : List String} {x y : Rendered},
    (∀ content, (Markup.element tag attrs flags content).Ordinary) → R x y →
    R (do
      let content ← x
      return [.element tag attrs flags content])
    (do
      let content ← y
      return [.element tag attrs flags content])
  ask : ∀ {next next' : List Document → Rendered}, (∀ noted, R (next noted) (next' noted)) →
    R (get >>= next) (get >>= next')

section Parallel

variable {R : Rendered → Rendered → Prop} (hR : Parallel R) {f g : BlockRenderer}
variable {view : View → View} {limit : Nat → Nat}

include hR

theorem Parallel.standIn (cssClass : String) (attrs : List Attr) (message : String)
    (hclass : "render-marker " ++ cssClass ≠ "render-marker depth-limit") :
    R (pure [marker cssClass attrs message]) (pure [marker cssClass attrs message]) := by
  exact hR.same (makesOrdinary_pure (allOrdinary_leaf (ordinary_of_lookup rfl hclass [] _)))

theorem Parallel.nil : R (pure []) (pure []) :=
  hR.same (makesOrdinary_pure allOrdinary_nil)

mutual

theorem parallel_render {scope : Scope}
    (hblock : ∀ number b, R (f scope number b) (g (scope.altered view limit) number b)) :
    ∀ l : Layout, l.PlainIn True → (∀ s, .division s ∈ l.shown → ∀ number,
      R (bodySection f scope number s) (bodySection g (scope.altered view limit) number s)) →
      R (l.render f scope) (l.render g (scope.altered view limit))
  | .fixed m, hplain, _ => by
    rw [Layout.render, Layout.render]
    exact hR.same (makesOrdinary_pure (Plain.allOrdinary hplain))
  | .text content, _, _ => by
    have hsame : (scope.altered view limit).SameText scope := ⟨rfl, rfl, rfl⟩
    rw [Layout.render, Layout.render, inlines_congr hsame]
    exact hR.same (makesOrdinary_inlines scope content)
  | .block number b, _, _ => by
    rw [Layout.render, Layout.render]
    exact hblock number b
  | .division number s, _, hsection => by
    rw [Layout.render, Layout.render]
    exact hsection s (by simp) number
  | .element tag attrs flags inner, hplain, hsection => by
    obtain ⟨-, htag, hattrs, hinner⟩ := hplain
    rw [Layout.shown_element] at hsection
    rw [Layout.render, Layout.render]
    exact hR.element (hattrs.ordinary htag.other flags)
      (parallel_renderAll hblock inner hinner hsection)

/-- Plain layouts are related as soon as the blocks and sections in them are. -/
theorem parallel_renderAll {scope : Scope}
    (hblock : ∀ number b, R (f scope number b) (g (scope.altered view limit) number b)) :
    ∀ ls : List Layout, Layout.PlainListIn True ls →
      (∀ s, .division s ∈ Layout.shownAll ls → ∀ number,
      R (bodySection f scope number s) (bodySection g (scope.altered view limit) number s)) →
      R (Layout.renderAll f scope ls) (Layout.renderAll g (scope.altered view limit) ls)
  | [], _, _ => by
    rw [Layout.renderAll, Layout.renderAll]
    exact hR.nil
  | l :: rest, hplain, hsection => by
    rw [Layout.shownAll_cons] at hsection
    rw [Layout.renderAll, Layout.renderAll]
    exact hR.append
      (parallel_render hblock l hplain.1 fun s hs => hsection s (List.mem_append_left _ hs))
      (parallel_renderAll hblock rest hplain.2 fun s hs => hsection s (List.mem_append_right _ hs))

end

variable (hblock : ∀ scope number b, R (f scope number b) (g (scope.altered view limit) number b))

include hblock

theorem parallel_renderSection (scope : Scope) (mode : SectionMode) (number : Option String)
    (s : Section) :
    R (renderSection f scope mode number s)
      (renderSection g (scope.altered view limit) mode number s) := by
  by_cases hopen : s.id ∈ scope.sections
  · have hopen' : s.id ∈ (scope.altered view limit).sections := hopen
    rw [renderSection_opened f mode number hopen, renderSection_opened g mode number hopen']
    exact hR.standIn _ _ _ (by decide)
  · rw [Layout.renderSection_eq f scope number hopen,
      Layout.renderSection_eq g (scope.altered view limit) number hopen]
    have hclass := (lookup_sectionAttrs scope mode number.isSome s).1
    refine hR.element (ordinary_of_lookup hclass (fun hword => ?_) []) ?_
    · exact sectionClass_plain scope mode number.isSome s (by rw [hword]; decide)
    · refine parallel_renderAll hR (hblock _) _
        (Layout.plainList_ofSection _ mode number s) fun t ht => ?_
      rw [Layout.shownAll_ofSection] at ht
      simp at ht

theorem parallel_articleWith {closing closing' : Scope → Rendered} (scope : Scope) (d : Document)
    (hclosing : ∀ inner : Scope, R (closing inner) (closing' (inner.altered view limit))) :
    R (articleWith f closing scope d) (articleWith g closing' (scope.altered view limit) d) := by
  by_cases hopen : d.id ∈ scope.documents.map (·.id)
  · have hopen' : d.id ∈ (scope.altered view limit).documents.map (·.id) := hopen
    rw [articleWith_opened f closing (any_id_iff.mpr hopen),
      articleWith_opened g closing' (any_id_iff.mpr hopen')]
    exact hR.standIn _ _ _ (by decide)
  · rw [Layout.articleWith_eq_layout f scope closing hopen,
      Layout.articleWith_eq_layout g (scope.altered view limit) closing' hopen]
    obtain ⟨⟨word, hclass, hother⟩, -⟩ := lookup_articleAttrs d
    refine hR.element (ordinary_of_lookup hclass (fun hword => ?_) []) (hR.append ?_ (hclosing _))
    · exact hother (by rw [hword]; decide)
    · exact parallel_renderAll hR (hblock _) _ (Layout.plainList_ofDocument _ d) fun s _ number =>
        parallel_renderSection hR hblock _ .anchored number s

theorem parallel_innerArticle (scope : Scope) (d : Document) :
    R (innerArticle f scope d) (innerArticle g (scope.altered view limit) d) :=
  parallel_articleWith hR hblock scope d fun _ => hR.nil

theorem parallel_tooltipsFrom (scope : Scope) (bound position : Nat) :
    R (tooltipsFrom f scope bound position)
      (tooltipsFrom g (scope.altered view limit) bound position) := by
  induction bound generalizing position with
  | zero => exact hR.nil
  | succ bound ih =>
    rw [tooltipsFrom, tooltipsFrom]
    refine hR.ask fun noted => ?_
    split
    · exact hR.nil
    · next d _ =>
      exact hR.append (hR.element (ordinary_of_lookup rfl (by decide) [])
        (parallel_innerArticle hR hblock scope d)) (ih (position + 1))

theorem parallel_tooltipDocuments (scope : Scope) :
    R (tooltipDocuments f scope) (tooltipDocuments g (scope.altered view limit)) := by
  refine hR.ask fun noted => ?_
  split
  · exact hR.nil
  · exact hR.element (ordinary_of_lookup rfl (by decide) ["hidden"])
      (parallel_tooltipsFrom hR hblock scope scope.tooltipLimit 0)

/-- Related blocks make related documents. -/
theorem parallel_article (scope : Scope) (d : Document) :
    R (article f scope d) (article g (scope.altered view limit) d) := by
  have hdocuments : (scope.altered view limit).documents = scope.documents := rfl
  unfold article
  rw [hdocuments]
  split
  · exact parallel_articleWith hR hblock scope d (parallel_tooltipDocuments hR hblock)
  · exact parallel_innerArticle hR hblock scope d

/-- Related blocks inside a block make it related, if its own layout stays the same. -/
theorem parallel_blockWith {scope : Scope} {b : Block}
    (hlayout : Layout.ofBlock (scope.altered view limit) b = Layout.ofBlock scope b)
    (number : Option String) :
    R (blockWith f scope number b) (blockWith g (scope.altered view limit) number b) := by
  by_cases hsimple : b.isSimple = true
  · -- no section of a body is in the layout of a simple block
    rw [← Layout.renderAll_ofBlock f scope number hsimple,
      ← Layout.renderAll_ofBlock g (scope.altered view limit) number hsimple, hlayout]
    refine parallel_renderAll hR (hblock scope) _
      (Layout.plainList_ofBlock (fun _ => trivial) b) fun s hs => ?_
    rw [Layout.shownAll_ofBlock] at hs
    simp at hs
  · cases b with
    | subsection s =>
      exact parallel_renderSection hR hblock { scope with level := scope.level + 1 }
        (scope.nestedMode s)
        number s
    | sectionRef r =>
      have hreferenced : (scope.altered view limit).referenced? r = scope.referenced? r := rfl
      show R (sectionRef f scope r) (sectionRef g (scope.altered view limit) r)
      unfold sectionRef
      rw [hreferenced]
      split
      · next s _ => exact parallel_renderSection hR hblock scope _ none s
      · exact hR.standIn _ _ _ (by decide)
    | document d =>
      exact hR.element (ordinary_of_lookup rfl (by decide) []) (parallel_article hR hblock scope d)
    | _ => exact absurd rfl hsimple

end Parallel

end Scope

end Compendium
