import Compendium.Proofs.Render.Anchors
import Compendium.Proofs.Render.Parallel

/-!
# The limit of nesting

Content nodes that are nested too deeply are cut, and nothing else changes: a page without a
stand-in for one is the page of every higher limit too. How deep a content node lies is told by a
page that sets off the markup of each one, and that is the page itself once they are no longer set
off. There every content node is inside of fewer others than the limit, and the stand-ins are
exactly at the limit.
-/

namespace Compendium

namespace Markup

/-! ## Content nodes that are set off -/

mutual

/-- Markup in which content nodes are no longer set off. -/
def joined : Markup → List Markup
  | element tag attrs flags content =>
    if setsOff tag attrs then joinedList content else [element tag attrs flags (joinedList content)]
  | text s => [text s]
  | void tag attrs flags => [void tag attrs flags]
  | script json => [script json]
  | raw html => [raw html]

def joinedList : List Markup → List Markup
  | [] => []
  | m :: rest => joined m ++ joinedList rest

end

mutual

/-- Every piece of markup with the number of content nodes around it, given how many are outside. -/
def placed (depth : Nat) : Markup → List (Nat × Markup)
  | element tag attrs flags content =>
    (depth, element tag attrs flags content) ::
      placedList (if setsOff tag attrs then depth + 1 else depth) content
  | text s => [(depth, text s)]
  | void tag attrs flags => [(depth, void tag attrs flags)]
  | script json => [(depth, script json)]
  | raw html => [(depth, raw html)]

def placedList (depth : Nat) : List Markup → List (Nat × Markup)
  | [] => []
  | m :: rest => placed depth m ++ placedList depth rest

end

theorem joinedList_append (l m : List Markup) :
    joinedList (l ++ m) = joinedList l ++ joinedList m :=
  append_of_cons l m rfl fun _ _ => rfl

theorem placedList_append (depth : Nat) (l m : List Markup) :
    placedList depth (l ++ m) = placedList depth l ++ placedList depth m :=
  append_of_cons l m rfl fun _ _ => rfl

section Element

variable {tag : String} {attrs : List Attr} {flags : List String} {content : List Markup}

theorem joinedList_element (h : setsOff tag attrs = false) :
    joinedList [element tag attrs flags content] =
      [element tag attrs flags (joinedList content)] := by
  rw [joinedList, joined, h, joinedList]
  rfl

theorem placedList_element (h : setsOff tag attrs = false) (depth : Nat) :
    placedList depth [element tag attrs flags content] =
      (depth, element tag attrs flags content) :: placedList depth content := by
  rw [placedList, placed, h, placedList, List.append_nil]
  rfl

theorem joinedList_contentNode : joinedList [contentNode content] = joinedList content :=
  List.append_nil (joinedList content)

theorem placedList_contentNode (depth : Nat) :
    placedList depth [contentNode content] =
      (depth, contentNode content) :: placedList (depth + 1) content :=
  congrArg (List.cons _) (List.append_nil (placedList (depth + 1) content))

end Element

/-- Without content nodes, nothing changes. -/
theorem joinedList_of_ordinary {ms : List Markup} (h : AllOrdinary ms) : joinedList ms = ms := by
  induction ms using forest_induction with
  | append l m hl hm =>
    rw [AllOrdinary, nodesList_append, List.forall_mem_append] at h
    rw [joinedList_append, hl h.1, hm h.2]
  | element tag attrs flags content ih =>
    rw [AllOrdinary, nodesList_element, List.forall_mem_cons] at h
    rw [joinedList_element h.1.1, ih h.2]
  | _ => rfl

theorem mem_nodesList_of_placed {ms : List Markup} {depth : Nat} {p : Nat × Markup}
    (hp : p ∈ placedList depth ms) : p.2 ∈ nodesList ms := by
  induction ms using forest_induction generalizing depth with
  | nil => cases hp
  | append l m hl hm =>
    rw [placedList_append] at hp
    rw [nodesList_append]
    exact (List.mem_append.mp hp).elim (fun h => List.mem_append_left _ (hl h))
      fun h => List.mem_append_right _ (hm h)
  | element tag attrs flags content ih =>
    rw [nodesList_element]
    rw [placedList, placed, placedList, List.append_nil] at hp
    rcases List.mem_cons.mp hp with rfl | hp
    · exact List.mem_cons_self
    · exact List.mem_cons_of_mem _ (ih hp)
  | _ =>
    cases List.mem_singleton.mp hp
    exact List.mem_cons_self

/-- The text of markup on a page is part of the text of the page. -/
theorem chars_infix_of_nodesList {m : Markup} {ms : List Markup} (hm : m ∈ nodesList ms) :
    chars m <:+: charsList ms := by
  induction ms using forest_induction with
  | nil => cases hm
  | append l r hl hr =>
    rw [charsList_append]
    rw [nodesList_append] at hm
    rcases List.mem_append.mp hm with hm | hm
    · exact (hl hm).trans (List.prefix_append _ _).isInfix
    · exact (hr hm).trans (List.suffix_append _ _).isInfix
  | element tag attrs flags content ih =>
    rw [nodesList_element] at hm
    rw [charsList, charsList, List.append_nil]
    rcases List.mem_cons.mp hm with rfl | hm
    · exact List.infix_rfl
    · exact (ih hm).trans ⟨startTag tag attrs flags, endTag tag, rfl⟩
  | _ =>
    cases List.mem_singleton.mp hm
    exact (List.prefix_append _ _).isInfix

end Markup

namespace Scope

open Markup

/-! ## Higher limits -/

/-- The second step does the same as the first one, unless something is cut there. -/
def SameUncut (x y : Rendered) : Prop :=
  ∀ noted, depthMarker ∉ nodesList (x.run noted).1 → y.run noted = x.run noted

theorem parallel_sameUncut : Parallel SameUncut where
  same := fun _ _ _ => rfl
  append := fun {x y x' y'} hx hx' noted huncut => by
    have hnodes : depthMarker ∉ nodesList (x.run noted).1 ∧
        depthMarker ∉ nodesList (x'.run (x.run noted).2).1 := by
      rw [← not_or, ← List.mem_append, ← nodesList_append]
      exact huncut
    have hfirst := hx noted hnodes.1
    have hothers := hx' _ hnodes.2
    show ((y.run noted).1 ++ (y'.run (y.run noted).2).1, (y'.run (y.run noted).2).2) = _
    rw [hfirst, hothers]
    rfl
  element := fun {tag attrs flags x y} _ hx noted huncut => by
    have hcontent : depthMarker ∉ nodesList (x.run noted).1 := fun hmem => huncut (by
      show depthMarker ∈ nodesList [.element tag attrs flags (x.run noted).1]
      rw [nodesList_element]
      exact List.mem_cons_of_mem _ hmem)
    show ([Markup.element tag attrs flags (y.run noted).1], (y.run noted).2) = _
    rw [hx noted hcontent]
    rfl
  ask := fun h noted huncut => h noted noted huncut

/-- The layout of a block does not know the limit. -/
theorem ofBlock_limited (scope : Scope) (limit : Nat) (b : Block) :
    Layout.ofBlock (scope.altered id fun _ => limit) b = Layout.ofBlock scope b := by
  cases b <;> rfl

/-- A block without a cut is the same on a larger budget. -/
theorem sameUncut_renderBlock {budget more : Nat} (hmore : budget ≤ more) (limit : Nat)
    (scope : Scope) (number : Option String) (b : Block) :
    SameUncut (renderBlock budget scope number b)
      (renderBlock more (scope.altered id fun _ => limit) number b) := by
  induction budget generalizing more scope number b with
  | zero =>
    -- on an empty budget the markup is the stand-in itself
    exact fun _ huncut => absurd List.mem_cons_self huncut
  | succ budget ih =>
    obtain ⟨more, rfl⟩ : ∃ n, more = n + 1 := ⟨more - 1, by omega⟩
    rw [renderBlock_succ, renderBlock_succ]
    exact parallel_blockWith parallel_sameUncut (ih (by omega))
      (ofBlock_limited scope limit b) number

/-! ## Depth -/

/-- Content nodes are below the limit, and the stand-ins for what is nested too deeply are at it. -/
def WithinLimit (limit : Nat) (p : Nat × Markup) : Prop :=
  (p.2.isContentNode = true → p.1 < limit) ∧ (p.2 = depthMarker → p.1 = limit)

theorem withinLimit_of_ordinary {m : Markup} (h : m.Ordinary) (limit depth : Nat) :
    WithinLimit limit (depth, m) := by
  refine ⟨fun hnode => ?_, fun hmarker => ?_⟩
  · cases m with
    | element tag attrs flags content =>
      have hsets : setsOff tag attrs = true := hnode
      rw [h.1] at hsets
      cases hsets
    | _ => cases hnode
  · dsimp only at hmarker
    subst hmarker
    exact absurd rfl h.2

/-- A block with the markup of every content node in it set off. -/
def labelledBlock : Nat → BlockRenderer
  | 0 => fun _ _ _ => pure [depthMarker]
  | budget + 1 => fun scope number b => do
    let content ← blockWith (labelledBlock budget) scope number b
    return [.contentNode content]

/-- The first step sets off content nodes of the second one, all of them within the limit. -/
def Labels (limit depth : Nat) (x y : Rendered) : Prop :=
  ∀ noted, y.run noted = (joinedList (x.run noted).1, (x.run noted).2) ∧
    ∀ p ∈ placedList depth (x.run noted).1, WithinLimit limit p

theorem parallel_labels (limit depth : Nat) : Parallel (Labels limit depth) where
  same := fun {x} hx noted => by
    refine ⟨?_, fun p hp => ?_⟩
    · rw [joinedList_of_ordinary (hx noted)]
      rfl
    · exact withinLimit_of_ordinary (hx noted _ (mem_nodesList_of_placed hp)) limit p.1
  append := fun {x y x' y'} hx hx' noted => by
    obtain ⟨hfirst, hplaces⟩ := hx noted
    obtain ⟨hothers, hplaces'⟩ := hx' (x.run noted).2
    refine ⟨?_, fun p hp => ?_⟩
    · show ((y.run noted).1 ++ (y'.run (y.run noted).2).1, (y'.run (y.run noted).2).2) =
        (joinedList ((x.run noted).1 ++ (x'.run (x.run noted).2).1), (x'.run (x.run noted).2).2)
      rw [hfirst, hothers, joinedList_append]
    · have hp' : p ∈ placedList depth ((x.run noted).1 ++ (x'.run (x.run noted).2).1) := hp
      rw [placedList_append] at hp'
      exact (List.mem_append.mp hp').elim (hplaces p) (hplaces' p)
  element := fun {tag attrs flags x y} hown hx noted => by
    obtain ⟨hcontent, hplaces⟩ := hx noted
    refine ⟨?_, fun p hp => ?_⟩
    · show ([Markup.element tag attrs flags (y.run noted).1], (y.run noted).2) =
        (joinedList [.element tag attrs flags (x.run noted).1], (x.run noted).2)
      rw [hcontent, joinedList_element (hown []).1]
    · have hp' : p ∈ placedList depth [.element tag attrs flags (x.run noted).1] := hp
      rw [placedList_element (hown []).1] at hp'
      rcases List.mem_cons.mp hp' with rfl | hp'
      · exact withinLimit_of_ordinary (hown _) limit depth
      · exact hplaces p hp'
  ask := fun h noted => h noted noted

/-- A block on a budget has room for that many levels of content nodes. -/
theorem labels_labelledBlock {limit depth budget : Nat} (hdepth : depth + budget = limit)
    (other : Nat) (scope : Scope) (number : Option String) (b : Block) :
    Labels limit depth (labelledBlock budget scope number b)
      (renderBlock budget (scope.altered id fun _ => other) number b) := by
  induction budget generalizing depth scope number b with
  | zero =>
    intro noted
    refine ⟨rfl, fun p hp => ?_⟩
    have hp' :
        p ∈ [(depth, depthMarker), (depth, .text "Content nested too deeply to display")] := hp
    rcases List.mem_cons.mp hp' with rfl | hp'
    · have hother : depthMarker.isContentNode ≠ true := by decide
      exact ⟨fun hnode => absurd hnode hother, fun _ => hdepth⟩
    · cases List.mem_singleton.mp hp'
      exact withinLimit_of_ordinary (m := .text _) trivial limit depth
  | succ budget ih =>
    intro noted
    -- what is inside has this content node around it, and one level less to go
    have hinner : depth + 1 + budget = limit := by omega
    obtain ⟨hcontent, hplaces⟩ := parallel_blockWith (parallel_labels limit (depth + 1))
      (ih hinner) (ofBlock_limited scope other b) number noted
    refine ⟨?_, fun p hp => ?_⟩
    · rw [renderBlock_succ]
      show (blockWith (renderBlock budget) (scope.altered id fun _ => other) number b).run noted =
        (joinedList
          [.contentNode ((blockWith (labelledBlock budget) scope number b).run noted).1], _)
      rw [hcontent, joinedList_contentNode]
      rfl
    · have hp' : p ∈ placedList depth
          [.contentNode ((blockWith (labelledBlock budget) scope number b).run noted).1] := hp
      rw [placedList_contentNode] at hp'
      rcases List.mem_cons.mp hp' with rfl | hp'
      · refine ⟨fun _ => ?_, fun hmarker => ?_⟩
        · show depth < limit
          omega
        · simp [contentNode, depthMarker, marker, leaf] at hmarker
      · exact hplaces p hp'

end Scope

namespace Renderer

open Markup Scope

/-- The markup of a document with the markup of every content node in it set off. -/
def labelled (r : Renderer) (view : View) (d : Document) : List Markup :=
  ((article (labelledBlock r.settings.maxDepth) (r.scope view d.parts) d).run []).1

/-- The limit only ever cuts: a page without a stand-in for what is nested too deeply is the page of
every higher limit, and one with a stand-in shows its text. With every content node set off, it is
inside of fewer others than the limit, and the stand-ins are inside of exactly that many. -/
theorem depth_limit_only_cuts (r : Renderer) (view : View) (d : Document) :
    (∀ limit, r.settings.maxDepth ≤ limit → depthMarker ∉ nodesList (r.document view d) →
      (r.limited limit).document view d = r.document view d) ∧
    (depthMarker ∈ nodesList (r.document view d) →
      depthMarker.chars <:+: charsList (r.document view d)) ∧
    joinedList (r.labelled view d) = r.document view d ∧
    ∀ depth m, (depth, m) ∈ placedList 0 (r.labelled view d) →
      (m.isContentNode = true → depth < r.settings.maxDepth) ∧
      (m = depthMarker → depth = r.settings.maxDepth) := by
  have hlabels := parallel_article (parallel_labels r.settings.maxDepth 0)
    (labels_labelledBlock (Nat.zero_add _) r.settings.maxDepth) (r.scope view d.parts) d []
  refine ⟨fun limit hlimit huncut => ?_, chars_infix_of_nodesList, ?_, fun depth m hm => ?_⟩
  · have hsame := parallel_article parallel_sameUncut (sameUncut_renderBlock hlimit limit)
      (r.scope view d.parts) d [] huncut
    exact congrArg Prod.fst hsame
  · exact (congrArg Prod.fst hlabels.1).symm
  · exact hlabels.2 _ hm

/-- A renderer for three levels of content nodes. -/
def shallow : Renderer :=
  ({} : Renderer).limited 3

/-- A paragraph in a quotation in a subsection. -/
def threefold : Document :=
  untitled "threefold"
    [("a",
      [.subsection ⟨"b", none, [.quote ⟨[.paragraph ⟨[.text "end"], none⟩], none⟩], none, none⟩])]

theorem depth_limit_only_cuts_threefold :
    shallow.settings.maxDepth ≤ 8 ∧ depthMarker ∉ nodesList (shallow.document .empty threefold) ∧
      (shallow.limited 8).document .empty threefold = shallow.document .empty threefold := by
  have hlimit : shallow.settings.maxDepth ≤ 8 := by decide
  have huncut : depthMarker ∉ nodesList (shallow.document .empty threefold) := by
    intro hmem
    have hmarked : depthMarker ∈ marked (classIn ["render-marker depth-limit"])
        (shallow.document .empty threefold) := List.mem_filter.mpr ⟨hmem, rfl⟩
    have hnone : (marked (classIn ["render-marker depth-limit"])
        (shallow.document .empty threefold)).isEmpty = true := by decide +kernel
    rw [List.isEmpty_iff.mp hnone] at hmarked
    cases hmarked
  exact ⟨hlimit, huncut, (depth_limit_only_cuts shallow .empty threefold).1 8 hlimit huncut⟩

end Renderer

end Compendium
