import Compendium.Proofs.Dict
import Compendium.View
import Mathlib.Data.List.Nodup
import Mathlib.Data.Nat.Bits

/-!
# A view follows the events on its page

Events are performed one after the other on a fresh view, and the log holds each event with the
reply to it. What the view shows can be read off the log alone: the tab that was selected last, and
for every accordion panel and every foldable block whether it was toggled an odd number of times. An
event that is refused leaves the view as it was.

On a page, layouts with the same id are the same layout, and so are blocks; the panels of one layout
have different ids. Groups of controls need no such condition, since nothing here compares two of
them.
-/

namespace Compendium

/-! ## Lists of ids -/

namespace PanelState

theorem mem_insertId {id other : String} {ids : List String} :
    other ∈ insertId id ids ↔ other = id ∨ other ∈ ids := by
  induction ids with
  | nil => simp [insertId]
  | cons k rest ih =>
    unfold insertId
    split
    · rw [List.mem_cons, ih, List.mem_cons, or_left_comm]
    · split
      · rename_i heq
        subst heq
        simp
      · rw [List.mem_cons]

theorem nodup_insertId {id : String} {ids : List String} (hnew : id ∉ ids) (h : ids.Nodup) :
    (insertId id ids).Nodup := by
  induction ids with
  | nil => simp [insertId]
  | cons k rest ih =>
    obtain ⟨hk, hrest⟩ := List.nodup_cons.mp h
    have hne : id ≠ k := List.ne_of_not_mem_cons hnew
    have hnew' : id ∉ rest := List.not_mem_of_not_mem_cons hnew
    unfold insertId
    split
    · refine List.nodup_cons.mpr ⟨?_, ih hnew' hrest⟩
      rw [mem_insertId]
      rintro (rfl | hmem)
      · exact hne rfl
      · exact hk hmem
    · rw [if_neg (Ne.symm hne)]
      exact List.nodup_cons.mpr ⟨hnew, h⟩

/-- The ids of panels with different ids, inserted one after the other. -/
theorem insertIds_spec (panels : List Panel) (ids : List String) (hids : ids.Nodup)
    (hpanels : (panels.map (·.id)).Nodup) (hnew : ∀ p ∈ panels, p.id ∉ ids) :
    (panels.foldl (fun ids p => insertId p.id ids) ids).Nodup ∧
      ∀ id, id ∈ panels.foldl (fun ids p => insertId p.id ids) ids ↔
        id ∈ ids ∨ ∃ p ∈ panels, p.id = id := by
  induction panels generalizing ids with
  | nil => simpa using hids
  | cons p rest ih =>
    obtain ⟨hp, hrest⟩ := List.nodup_cons.mp hpanels
    have hnext : ∀ q ∈ rest, q.id ∉ insertId p.id ids := by
      intro q hq hmem
      rcases mem_insertId.mp hmem with heq | hmem
      · exact hp (List.mem_map.mpr ⟨q, hq, heq⟩)
      · exact hnew q (List.mem_cons_of_mem _ hq) hmem
    have hnodup := nodup_insertId (hnew p List.mem_cons_self) hids
    obtain ⟨hfinal, hmem⟩ := ih (insertId p.id ids) hnodup hrest hnext
    refine ⟨hfinal, fun id => ?_⟩
    rw [List.foldl_cons, hmem, mem_insertId, eq_comm]
    simp only [List.mem_cons, exists_eq_or_imp]
    rw [or_left_comm, or_assoc]

end PanelState

namespace PanelLayout

/-- The tab that is active at first: the first one marked as visible, or else the first one. -/
def initialTab (l : PanelLayout) : Option String :=
  ((l.panels.find? (·.initiallyVisible)).or l.panels.head?).map (·.id)

theorem initial_of_isTabs {l : PanelLayout} (h : l.isTabs = true) :
    PanelState.initial l = .tabs l.initialTab := by
  unfold isTabs at h
  unfold PanelState.initial
  split at h
  · rename_i harrangement
    rw [harrangement]
    rfl
  · cases h

theorem initial_of_isAccordion {l : PanelLayout} (h : l.isAccordion = true) :
    PanelState.initial l = .accordion
      ((l.panels.filter (·.initiallyVisible)).foldl
        (fun ids p => PanelState.insertId p.id ids) []) := by
  unfold isAccordion at h
  unfold PanelState.initial
  split at h
  · rename_i harrangement
    rw [harrangement]
  · cases h

theorem isTabs_eq_false {l : PanelLayout} (h : l.isAccordion = true) : l.isTabs = false := by
  unfold isAccordion at h
  unfold isTabs
  split at h
  · rename_i harrangement
    rw [harrangement]
  · cases h

theorem hasPanel_iff {l : PanelLayout} {id : String} :
    l.hasPanel id = true ↔ ∃ p ∈ l.panels, p.id = id := by
  simp [hasPanel]

theorem hasPanel_initialTab {l : PanelLayout} {id : String} (h : l.initialTab = some id) :
    l.hasPanel id = true := by
  obtain ⟨p, hp, rfl⟩ := Option.map_eq_some_iff.mp h
  refine hasPanel_iff.mpr ⟨p, ?_, rfl⟩
  rcases Option.or_eq_some_iff.mp hp with hfind | ⟨_, hhead⟩
  · exact List.mem_of_find?_eq_some hfind
  · exact List.mem_of_mem_head? hhead

theorem exists_initialTab {l : PanelLayout} (h : l.panels ≠ []) : ∃ id, l.initialTab = some id := by
  obtain ⟨p, rest, hpanels⟩ := List.exists_cons_of_ne_nil h
  unfold initialTab
  cases hfind : l.panels.find? (·.initiallyVisible) with
  | some q => exact ⟨q.id, rfl⟩
  | none => exact ⟨p.id, by rw [hpanels]; rfl⟩

end PanelLayout

namespace View

/-! ## Events -/

/-- Something that happens on a page. -/
inductive Event where
  | selectTab (layout : PanelLayout) (panel : String)
  | togglePanel (layout : PanelLayout) (panel : String)
  | toggleCollapsible (block : Collapsible)
  | changeControl (group : ControlGroup) (control : String) (value : ControlValue)

/-- What an event is answered with. -/
inductive Reply where
  | selected (accepted : Bool)
  | toggled (visible : Option Bool)
  | folded (collapsed : Bool)
  | changed (change : Option ControlChange)

/-- Whether an event was refused. -/
def Reply.isRefusal : Reply → Bool
  | selected accepted => !accepted
  | toggled visible => visible.isNone
  | folded _ => false
  | changed change => change.isNone

namespace Event

def perform (v : View) : Event → Reply × View
  | selectTab layout panel => ((v.selectTab layout panel).map .selected id)
  | togglePanel layout panel => ((v.togglePanel layout panel).map .toggled id)
  | toggleCollapsible block => ((v.toggleCollapsible block).map .folded id)
  | changeControl group control value => ((v.changeControl group control value).map .changed id)

/-- Whether an event names a panel or a control that is there, on a layout of the right kind. -/
def isValid : Event → Bool
  | selectTab layout panel => layout.isTabs && layout.hasPanel panel
  | togglePanel layout panel => layout.isAccordion && layout.hasPanel panel
  | toggleCollapsible _ => true
  | changeControl group control _ => (group.find? control).isSome

/-- The reply to an event says what the view shows after it. -/
def Agrees : Event → Reply × View → Prop
  | selectTab layout panel, (.selected accepted, v) =>
    accepted = true → v.panelState layout = .tabs (some panel)
  | togglePanel layout panel, (.toggled visible, v) =>
    ∀ now, visible = some now → (v.panelState layout).isVisible panel = now
  | toggleCollapsible block, (.folded collapsed, v) => v.isCollapsed block = collapsed
  | changeControl group control value, (.changed change, v) =>
    ∀ c, change = some c →
      c.control = control ∧ c.value = value ∧ v.controlValue group control = some c.value
  | _, _ => False

end Event

def after : View → List Event → View
  | v, [] => v
  | v, e :: rest => after (e.perform v).2 rest

/-- The events with the replies to them. -/
def log : View → List Event → List (Event × Reply)
  | _, [] => []
  | v, e :: rest => (e, (e.perform v).1) :: log (e.perform v).2 rest

/-- The tab of a layout that an entry of the log has selected. -/
def selection (l : PanelLayout) : Event × Reply → Option String
  | (.selectTab layout panel, .selected true) => if layout.id = l.id then some panel else none
  | _ => none

def lastSelected (l : PanelLayout) (seen : List (Event × Reply)) : Option String :=
  (seen.filterMap (selection l)).getLast?

/-- Whether an entry of the log has toggled a panel of a layout. -/
def isToggleOf (l : PanelLayout) (id : String) : Event × Reply → Bool
  | (.togglePanel layout panel, .toggled (some _)) => layout.id == l.id && panel == id
  | _ => false

def toggles (l : PanelLayout) (id : String) (seen : List (Event × Reply)) : Nat :=
  seen.countP (isToggleOf l id)

/-- Whether an entry of the log has folded or unfolded a block. -/
def isFoldingOf (b : Collapsible) : Event × Reply → Bool
  | (.toggleCollapsible block, _) => block.id == b.id
  | _ => false

/-- How often a block was folded or unfolded. -/
def foldings (b : Collapsible) (seen : List (Event × Reply)) : Nat :=
  seen.countP (isFoldingOf b)

/-! ## Pages -/

/-- The layouts and blocks that events may be about. -/
structure Page where
  layouts : PanelLayout → Prop
  blocks : Collapsible → Prop

namespace Page

/-- Ids stand for components. -/
structure Coherent (page : Page) : Prop where
  layout_eq : ∀ l l', page.layouts l → page.layouts l' → l.id = l'.id → l = l'
  block_eq : ∀ b b', page.blocks b → page.blocks b' → b.id = b'.id → b = b'
  panels : ∀ l, page.layouts l → (l.panels.map (·.id)).Nodup

/-- Whether an event is about components of the page. -/
def Offers (page : Page) : Event → Prop
  | .selectTab layout _ => page.layouts layout
  | .togglePanel layout _ => page.layouts layout
  | .toggleCollapsible block => page.blocks block
  | .changeControl _ _ _ => True

end Page

/-! ## What the view and the log have in common -/

/-- The view shows what the log says. -/
structure Tracks (page : Page) (v : View) (seen : List (Event × Reply)) : Prop where
  tabs : ∀ l, page.layouts l → l.isTabs = true →
    v.panelState l = .tabs ((lastSelected l seen).or l.initialTab)
  selected : ∀ l, page.layouts l → ∀ id, lastSelected l seen = some id → l.hasPanel id = true
  accordion : ∀ l, page.layouts l → l.isAccordion = true →
    ∃ opened, v.panelState l = .accordion opened ∧ opened.Nodup ∧
      ∀ p ∈ l.panels, opened.contains p.id = (p.initiallyVisible ^^ (toggles l p.id seen).bodd)
  folded : ∀ b, page.blocks b →
    v.isCollapsed b = (b.initiallyCollapsed ^^ (foldings b seen).bodd)

/-- An entry that says nothing about panels and blocks. -/
structure Silent (entry : Event × Reply) : Prop where
  selection : ∀ l, selection l entry = none
  toggle : ∀ l id, isToggleOf l id entry = false
  folding : ∀ b, isFoldingOf b entry = false

section Append

variable (seen : List (Event × Reply)) (entry : Event × Reply)

/-- A new entry decides if it selects. -/
theorem lastSelected_append (l : PanelLayout) :
    lastSelected l (seen ++ [entry]) = (selection l entry).or (lastSelected l seen) := by
  unfold lastSelected
  rw [List.filterMap_append]
  cases h : selection l entry <;> simp [h]

/-- A new entry counts if it toggles. -/
theorem toggles_append (l : PanelLayout) (id : String) :
    toggles l id (seen ++ [entry]) = toggles l id seen + (isToggleOf l id entry).toNat := by
  unfold toggles
  cases h : isToggleOf l id entry <;> simp [h]

/-- A new entry counts if it folds. -/
theorem foldings_append (b : Collapsible) :
    foldings b (seen ++ [entry]) = foldings b seen + (isFoldingOf b entry).toNat := by
  unfold foldings
  cases h : isFoldingOf b entry <;> simp [h]

end Append

variable {page : Page} {v : View} {seen : List (Event × Reply)}

/-- An entry that no rule counts may be added. -/
theorem Tracks.silent (h : Tracks page v seen) {w : View} (hpanels : w.panels = v.panels)
    (hcollapsed : w.collapsed = v.collapsed) {entry : Event × Reply} (hentry : Silent entry) :
    Tracks page w (seen ++ [entry]) := by
  have hstate : ∀ l, w.panelState l = v.panelState l :=
    fun l => by rw [panelState, panelState, hpanels]
  have hfold : ∀ b, w.isCollapsed b = v.isCollapsed b := fun b => by
    rw [isCollapsed, isCollapsed, hcollapsed]
  have hlast : ∀ l, lastSelected l (seen ++ [entry]) = lastSelected l seen := fun l => by
    rw [lastSelected_append, hentry.selection, Option.none_or]
  have htoggles : ∀ l id, toggles l id (seen ++ [entry]) = toggles l id seen := fun l id => by
    rw [toggles_append, hentry.toggle]
    rfl
  have hfoldings : ∀ b, foldings b (seen ++ [entry]) = foldings b seen := fun b => by
    rw [foldings_append, hentry.folding]
    rfl
  constructor
  · intro l hl htabs
    rw [hstate, hlast]
    exact h.tabs l hl htabs
  · intro l hl id hid
    rw [hlast] at hid
    exact h.selected l hl id hid
  · intro l hl haccordion
    rw [hstate]
    simp only [htoggles]
    exact h.accordion l hl haccordion
  · intro b hb
    rw [hfold, hfoldings]
    exact h.folded b hb

theorem panelState_insert (v : View) (l l' : PanelLayout) (state : PanelState) :
    ({ v with panels := v.panels.insert l.id state } : View).panelState l' =
      if l'.id = l.id then state else v.panelState l' := by
  unfold panelState
  dsimp only
  rw [Dict.get?_insert]
  split <;> rfl

theorem isCollapsed_insert (v : View) (b b' : Collapsible) (now : Bool) :
    ({ v with collapsed := v.collapsed.insert b.id now } : View).isCollapsed b' =
      if b'.id = b.id then now else v.isCollapsed b' := by
  unfold isCollapsed
  dsimp only
  rw [Dict.get?_insert]
  split <;> rfl

/-! ## One event -/

variable (hpage : page.Coherent)

include hpage

/-- The view and the log at the start. -/
theorem tracks_empty : Tracks page .empty [] := by
  have hinitial : ∀ l, View.empty.panelState l = PanelState.initial l := fun _ => rfl
  constructor
  · intro l _ htabs
    rw [hinitial, PanelLayout.initial_of_isTabs htabs]
    rfl
  · intro l _ id h
    cases h
  · intro l hl haccordion
    have hpanels := hpage.panels l hl
    have hvisible : ((l.panels.filter (·.initiallyVisible)).map (·.id)).Nodup :=
      hpanels.sublist (List.filter_sublist.map _)
    obtain ⟨hnodup, hmem⟩ := PanelState.insertIds_spec _ [] List.nodup_nil hvisible (by simp)
    refine ⟨_, by rw [hinitial, PanelLayout.initial_of_isAccordion haccordion], hnodup, ?_⟩
    intro p hp
    have hcontains : p.id ∈ (l.panels.filter (·.initiallyVisible)).foldl
        (fun ids p => PanelState.insertId p.id ids) [] ↔ p.initiallyVisible = true := by
      rw [hmem]
      constructor
      · rintro (h | ⟨q, hq, hid⟩)
        · cases h
        · obtain ⟨hq, hvisible⟩ := List.mem_filter.mp hq
          rw [← List.inj_on_of_nodup_map hpanels hq hp hid]
          exact hvisible
      · intro h
        exact .inr ⟨p, List.mem_filter.mpr ⟨hp, h⟩, rfl⟩
    have hodd : (toggles l p.id []).bodd = false := by simp [toggles]
    rw [hodd, Bool.xor_false, Bool.eq_iff_iff, List.contains_iff_mem, hcontains]
  · intro b _
    have hodd : (foldings b []).bodd = false := by simp [foldings]
    rw [hodd, Bool.xor_false]
    rfl

omit hpage

theorem silent_selected_false (l : PanelLayout) (panel : String) :
    Silent (.selectTab l panel, .selected false) :=
  ⟨fun _ => rfl, fun _ _ => rfl, fun _ => rfl⟩

theorem silent_toggled_none (l : PanelLayout) (panel : String) :
    Silent (.togglePanel l panel, .toggled none) :=
  ⟨fun _ => rfl, fun _ _ => rfl, fun _ => rfl⟩

theorem silent_changed (g : ControlGroup) (control : String) (value : ControlValue)
    (change : Option ControlChange) : Silent (.changeControl g control value, .changed change) :=
  ⟨fun _ => rfl, fun _ _ => rfl, fun _ => rfl⟩

include hpage

/-- A selected tab is the last one that was selected. -/
theorem Tracks.select (h : Tracks page v seen) {l : PanelLayout} (hl : page.layouts l)
    {panel : String} (htabs : l.isTabs = true) (hpanel : l.hasPanel panel = true) :
    Tracks page { v with panels := v.panels.insert l.id (.tabs (some panel)) }
      (seen ++ [(.selectTab l panel, .selected true)]) := by
  have hselection : ∀ l', selection l' (.selectTab l panel, .selected true) =
      if l.id = l'.id then some panel else none := fun _ => rfl
  constructor
  · intro l' hl' htabs'
    rw [panelState_insert, lastSelected_append, hselection]
    by_cases hid : l'.id = l.id
    · simp [hid]
    · rw [if_neg hid, if_neg (Ne.symm hid), Option.none_or]
      exact h.tabs l' hl' htabs'
  · intro l' hl' id hselected
    rw [lastSelected_append, hselection] at hselected
    by_cases hid : l.id = l'.id
    · cases hpage.layout_eq l l' hl hl' hid
      rw [if_pos rfl, Option.some_or] at hselected
      cases hselected
      exact hpanel
    · rw [if_neg hid, Option.none_or] at hselected
      exact h.selected l' hl' id hselected
  · intro l' hl' haccordion
    have hid : l'.id ≠ l.id := by
      intro hid
      cases hpage.layout_eq l' l hl' hl hid
      rw [PanelLayout.isTabs_eq_false haccordion] at htabs
      cases htabs
    rw [panelState_insert, if_neg hid]
    simp only [toggles_append, isToggleOf, Bool.toNat_false, Nat.add_zero]
    exact h.accordion l' hl' haccordion
  · intro b hb
    rw [foldings_append]
    exact h.folded b hb

/-- A panel that is toggled changes to what it was not, and no other one does. -/
theorem Tracks.toggle (h : Tracks page v seen) {l : PanelLayout} (hl : page.layouts l)
    {panel : String} (haccordion : l.isAccordion = true) {opened opened' : List String}
    (hstate : v.panelState l = .accordion opened) (hnodup : opened'.Nodup) {now : Bool}
    (hpanel : opened'.contains panel = !opened.contains panel)
    (hothers : ∀ id, id ≠ panel → opened'.contains id = opened.contains id) :
    Tracks page { v with panels := v.panels.insert l.id (.accordion opened') }
      (seen ++ [(.togglePanel l panel, .toggled (some now))]) := by
  have htoggle : ∀ l' id, isToggleOf l' id (.togglePanel l panel, .toggled (some now)) =
      (l.id == l'.id && panel == id) := fun _ _ => rfl
  constructor
  · intro l' hl' htabs
    have hid : l'.id ≠ l.id := by
      intro hid
      cases hpage.layout_eq l' l hl' hl hid
      rw [PanelLayout.isTabs_eq_false haccordion] at htabs
      cases htabs
    rw [panelState_insert, if_neg hid, lastSelected_append]
    exact h.tabs l' hl' htabs
  · intro l' hl' id hselected
    rw [lastSelected_append] at hselected
    exact h.selected l' hl' id hselected
  · intro l' hl' haccordion'
    by_cases hid : l'.id = l.id
    · cases hpage.layout_eq l' l hl' hl hid
      obtain ⟨before, hbefore, _, hparity⟩ := h.accordion l hl haccordion
      cases hbefore.symm.trans hstate
      refine ⟨opened', by rw [panelState_insert, if_pos rfl], hnodup, ?_⟩
      intro p hp
      rw [toggles_append, htoggle]
      by_cases hthis : p.id = panel
      · rw [hthis, hpanel, ← hthis, hparity p hp]
        simp
      · have hother : (panel == p.id) = false := beq_eq_false_iff_ne.mpr (Ne.symm hthis)
        rw [hothers p.id hthis, hparity p hp, hother, Bool.and_false]
        rfl
    · have hno : ∀ id, isToggleOf l' id (.togglePanel l panel, .toggled (some now)) = false := by
        intro id
        rw [htoggle]
        simp [Ne.symm hid]
      rw [panelState_insert, if_neg hid]
      simp only [toggles_append, hno, Bool.toNat_false, Nat.add_zero]
      exact h.accordion l' hl' haccordion'
  · intro b hb
    rw [foldings_append]
    exact h.folded b hb

/-- A folded block has been folded once more. -/
theorem Tracks.fold (h : Tracks page v seen) {b : Collapsible} (hb : page.blocks b)
    (reply : Reply) :
    Tracks page { v with collapsed := v.collapsed.insert b.id (!v.isCollapsed b) }
      (seen ++ [(.toggleCollapsible b, reply)]) := by
  have hfolding : ∀ b', isFoldingOf b' (.toggleCollapsible b, reply) =
    (b.id == b'.id) := fun _ => rfl
  constructor
  · intro l hl htabs
    rw [lastSelected_append]
    exact h.tabs l hl htabs
  · intro l hl id hselected
    rw [lastSelected_append] at hselected
    exact h.selected l hl id hselected
  · intro l hl haccordion
    simp only [toggles_append, isToggleOf, Bool.toNat_false, Nat.add_zero]
    exact h.accordion l hl haccordion
  · intro b' hb'
    rw [isCollapsed_insert, foldings_append, hfolding]
    by_cases hid : b'.id = b.id
    · cases hpage.block_eq b' b hb' hb hid
      rw [if_pos rfl, h.folded b hb]
      simp
    · have hother : (b.id == b'.id) = false := beq_eq_false_iff_ne.mpr (Ne.symm hid)
      rw [if_neg hid, h.folded b' hb', hother]
      rfl

/-- An event keeps the view and the log together. It is refused exactly if it is not valid, a
refused event changes nothing, and the reply agrees with the view after the event. -/
structure Followed (page : Page) (v : View) (seen : List (Event × Reply)) (e : Event) : Prop where
  tracks : Tracks page (e.perform v).2 (seen ++ [(e, (e.perform v).1)])
  refusal : (e.perform v).1.isRefusal = !e.isValid
  unchanged : (e.perform v).1.isRefusal = true → (e.perform v).2 = v
  agrees : e.Agrees (e.perform v)

omit hpage

/-- A refused event changes neither the view nor what is counted. -/
theorem Tracks.refused (h : Tracks page v seen) {e : Event} {reply : Reply}
    (hperform : e.perform v = (reply, v)) (hreply : reply.isRefusal = true)
    (hvalid : e.isValid = false)
    (hentry : Silent (e, reply)) (hagrees : e.Agrees (reply, v)) : Followed page v seen e := by
  constructor
  · rw [hperform]
    exact h.silent rfl rfl hentry
  · rw [hperform, hreply, hvalid]
    rfl
  · intro _
    rw [hperform]
  · rw [hperform]
    exact hagrees

theorem followed_of_accepted {e : Event} {reply : Reply} {w : View}
    (hperform : e.perform v = (reply, w)) (hreply : reply.isRefusal = false)
    (hvalid : e.isValid = true)
    (htracks : Tracks page w (seen ++ [(e, reply)])) (hagrees : e.Agrees (reply, w)) :
    Followed page v seen e := by
  constructor
  · rw [hperform]
    exact htracks
  · rw [hperform, hreply, hvalid]
    rfl
  · intro h
    rw [hperform, hreply] at h
    cases h
  · rw [hperform]
    exact hagrees

include hpage

theorem Tracks.selectTab (h : Tracks page v seen) {l : PanelLayout} (hl : page.layouts l)
    (panel : String) : Followed page v seen (.selectTab l panel) := by
  cases hvalid : l.isTabs && l.hasPanel panel with
  | false =>
    have hperform : (Event.selectTab l panel).perform v = (.selected false, v) := by
      simp [Event.perform, View.selectTab, hvalid]
    exact h.refused hperform rfl hvalid (silent_selected_false l panel) fun h => nomatch h
  | true =>
    obtain ⟨htabs, hpanel⟩ := (Bool.and_eq_true _ _).mp hvalid
    have hperform : (Event.selectTab l panel).perform v =
        (.selected true, { v with panels := v.panels.insert l.id (.tabs (some panel)) }) := by
      simp [Event.perform, View.selectTab, hvalid]
    refine followed_of_accepted hperform rfl hvalid (h.select hpage hl htabs hpanel) fun _ => ?_
    rw [panelState_insert, if_pos rfl]

/-- A valid toggle whose outcome is known to be the opposite of what was shown. -/
theorem Tracks.togglePanel_of_state (h : Tracks page v seen) {l : PanelLayout} (hl : page.layouts l)
    {panel : String} (hvalid : (Event.togglePanel l panel).isValid = true)
    {opened opened' : List String}
    (hstate : v.panelState l = .accordion opened) (hnodup : opened'.Nodup)
    (hperform : (Event.togglePanel l panel).perform v = (.toggled (some (!opened.contains panel)),
      { v with panels := v.panels.insert l.id (.accordion opened') }))
    (hpanel : opened'.contains panel = !opened.contains panel)
    (hothers : ∀ id, id ≠ panel → opened'.contains id = opened.contains id) :
    Followed page v seen (.togglePanel l panel) := by
  have haccordion : l.isAccordion = true := ((Bool.and_eq_true _ _).mp hvalid).1
  refine followed_of_accepted hperform rfl hvalid
    (h.toggle hpage hl haccordion hstate hnodup hpanel hothers) ?_
  rintro now ⟨rfl⟩
  rw [panelState_insert, if_pos rfl]
  exact hpanel

theorem Tracks.togglePanel (h : Tracks page v seen) {l : PanelLayout} (hl : page.layouts l)
    (panel : String) : Followed page v seen (.togglePanel l panel) := by
  cases hvalid : l.isAccordion && l.hasPanel panel with
  | false =>
    have hperform : (Event.togglePanel l panel).perform v = (.toggled none, v) := by
      simp [Event.perform, View.togglePanel, hvalid]
    exact h.refused hperform rfl hvalid (silent_toggled_none l panel) fun _ h => nomatch h
  | true =>
    obtain ⟨opened, hstate, hnodup, _⟩ := h.accordion l hl ((Bool.and_eq_true _ _).mp hvalid).1
    by_cases hopen : panel ∈ opened
    · apply h.togglePanel_of_state hpage hl hvalid hstate (hnodup.erase panel)
      · simp [Event.perform, View.togglePanel, hvalid, hstate, hopen]
      · simp [hopen, hnodup.not_mem_erase]
      · intro id hid
        simp [List.mem_erase_of_ne hid]
    · apply h.togglePanel_of_state hpage hl hvalid hstate (PanelState.nodup_insertId hopen hnodup)
      · simp [Event.perform, View.togglePanel, hvalid, hstate, hopen]
      · simp [hopen, PanelState.mem_insertId]
      · intro id hid
        simp [PanelState.mem_insertId, hid]

theorem Tracks.toggleCollapsible (h : Tracks page v seen) {b : Collapsible} (hb : page.blocks b) :
    Followed page v seen (.toggleCollapsible b) := by
  refine followed_of_accepted (e := .toggleCollapsible b) rfl rfl rfl (h.fold hpage hb _) ?_
  show View.isCollapsed { v with collapsed := v.collapsed.insert b.id (!v.isCollapsed b) } b = _
  rw [isCollapsed_insert, if_pos rfl]

omit hpage

theorem Tracks.changeControl (h : Tracks page v seen) (g : ControlGroup) (control : String)
    (value : ControlValue) : Followed page v seen (.changeControl g control value) := by
  cases hfind : g.find? control with
  | none =>
    have hperform : (Event.changeControl g control value).perform v = (.changed none, v) := by
      simp [Event.perform, View.changeControl, hfind]
    refine h.refused hperform rfl ?_ (silent_changed g control value none) fun _ h => nomatch h
    rw [Event.isValid, hfind]
    rfl
  | some c =>
    have hperform : (Event.changeControl g control value).perform v =
        (.changed (some ⟨c.id, value, c.targets⟩),
          { v with controls := v.controls.insert (controlKey g.id control) value }) := by
      simp [Event.perform, View.changeControl, hfind]
    refine followed_of_accepted hperform rfl ?_ ?_ ?_
    · rw [Event.isValid, hfind]
      rfl
    · apply h.silent
      · rfl
      · rfl
      · exact silent_changed g control value _
    · rintro change ⟨rfl⟩
      have hid : c.id = control := by
        unfold ControlGroup.find? at hfind
        have hmatch := List.find?_some hfind
        exact beq_iff_eq.mp hmatch
      refine ⟨hid, rfl, ?_⟩
      simp only [controlValue]
      rw [Dict.get?_insert, if_pos rfl]

include hpage

/-- One event, whatever its kind. -/
theorem Tracks.followed (h : Tracks page v seen) {e : Event} (he : page.Offers e) :
    Followed page v seen e := by
  cases e with
  | selectTab l panel => exact h.selectTab hpage he panel
  | togglePanel l panel => exact h.togglePanel hpage he panel
  | toggleCollapsible b => exact h.toggleCollapsible hpage he
  | changeControl g control value => exact h.changeControl g control value

/-! ## Histories -/

/-- All events, by induction on them. -/
theorem Tracks.after (h : Tracks page v seen) {events : List Event}
    (hevents : ∀ e ∈ events, page.Offers e) :
    Tracks page (v.after events) (seen ++ v.log events) := by
  induction events generalizing v seen with
  | nil =>
    rw [View.after, log, List.append_nil]
    exact h
  | cons e rest ih =>
    have hnext := (h.followed hpage (hevents e List.mem_cons_self)).tracks
    have hrest := ih hnext fun e' he' => hevents e' (List.mem_cons_of_mem _ he')
    rw [List.append_assoc] at hrest
    exact hrest

omit hpage

/-- Of panels with different ids, one has a given id that occurs. -/
theorem filter_id_length {panels : List Panel} (h : (panels.map (·.id)).Nodup) {p : Panel}
    (hp : p ∈ panels) : (panels.filter fun q => q.id == p.id).length = 1 := by
  have hcount : (panels.map (·.id)).count p.id = 1 :=
    List.count_eq_one_of_mem h (List.mem_map_of_mem hp)
  rw [List.count, List.countP_map] at hcount
  rw [← List.countP_eq_length_filter]
  exact hcount

/-- A fresh view after any history of events on a page: what it shows follows from the log of the
events. Whatever event comes next, it is refused exactly if it is not valid, a refused event changes
nothing, and the reply agrees with the view after the event. -/
theorem after_follows_log (page : Page) (hpage : page.Coherent) (events : List Event)
    (hevents : ∀ e ∈ events, page.Offers e) :
    (∀ l, page.layouts l → l.isTabs = true →
      (View.empty.after events).panelState l =
          .tabs ((lastSelected l (View.empty.log events)).or l.initialTab) ∧
        (l.panels ≠ [] → (l.panels.filter fun p =>
          ((View.empty.after events).panelState l).isVisible p.id).length = 1)) ∧
    (∀ l, page.layouts l → l.isAccordion = true → ∀ p ∈ l.panels,
      ((View.empty.after events).panelState l).isVisible p.id =
        (p.initiallyVisible ^^ (toggles l p.id (View.empty.log events)).bodd)) ∧
    (∀ b, page.blocks b →
      (View.empty.after events).isCollapsed b =
        (b.initiallyCollapsed ^^ (foldings b (View.empty.log events)).bodd)) ∧
    ∀ e, page.Offers e →
      (e.perform (View.empty.after events)).1.isRefusal = !e.isValid ∧
        ((e.perform (View.empty.after events)).1.isRefusal = true →
          (e.perform (View.empty.after events)).2 = View.empty.after events) ∧
        e.Agrees (e.perform (View.empty.after events)) := by
  have htracks : Tracks page (View.empty.after events) (View.empty.log events) :=
    (tracks_empty hpage).after hpage hevents
  refine ⟨?_, ?_, htracks.folded, ?_⟩
  · intro l hl htabs
    have hstate := htracks.tabs l hl htabs
    refine ⟨hstate, fun hpanels => ?_⟩
    obtain ⟨first, hfirst⟩ := PanelLayout.exists_initialTab hpanels
    obtain ⟨active, hactive, hpanel⟩ : ∃ active,
        (lastSelected l (View.empty.log events)).or l.initialTab = some active ∧
          l.hasPanel active = true := by
      cases hlast : lastSelected l (View.empty.log events) with
      | none => exact ⟨first, hfirst, PanelLayout.hasPanel_initialTab hfirst⟩
      | some id => exact ⟨id, rfl, htracks.selected l hl id hlast⟩
    obtain ⟨p, hp, rfl⟩ := PanelLayout.hasPanel_iff.mp hpanel
    have hvisible : ∀ q : Panel,
        ((View.empty.after events).panelState l).isVisible q.id = (q.id == p.id) := by
      intro q
      rw [hstate, hactive, PanelState.isVisible, Option.some_beq_some, Bool.beq_comm]
    simp only [hvisible]
    exact filter_id_length (hpage.panels l hl) hp
  · intro l hl haccordion p hp
    obtain ⟨opened, hstate, _, hparity⟩ := htracks.accordion l hl haccordion
    rw [hstate]
    exact hparity p hp
  · intro e he
    have hfollowed := htracks.followed hpage he
    exact ⟨hfollowed.refusal, hfollowed.unchanged, hfollowed.agrees⟩

/-! ## A page -/

/-- A panel without title and content. -/
def barePanel (id : String) (visible : Bool) : Panel :=
  ⟨id, none, [], visible⟩

def twoTabs : PanelLayout :=
  ⟨"tabs", [barePanel "left" false, barePanel "right" true], .tabs⟩

def twoFolds : PanelLayout :=
  ⟨"folds", [barePanel "top" true, barePanel "bottom" false], .accordion⟩

def note : Collapsible :=
  ⟨"note", [], [], true⟩

/-- A page with two layouts and a block. -/
def smallPage : Page where
  layouts := fun l => l = twoTabs ∨ l = twoFolds
  blocks := fun b => b = note

theorem smallPage_coherent : smallPage.Coherent := by
  have hids : twoTabs.id ≠ twoFolds.id := by decide
  constructor
  · rintro l l' (rfl | rfl) (rfl | rfl) h
    · rfl
    · exact absurd h hids
    · exact absurd h.symm hids
    · rfl
  · rintro b b' rfl rfl _
    rfl
  · rintro l (rfl | rfl)
    · decide
    · decide

/-- Among the events are a tab that does not exist and a tab selected in an accordion. -/
def smallPageEvents : List Event :=
  [.selectTab twoTabs "left", .togglePanel twoFolds "top", .toggleCollapsible note,
    .selectTab twoTabs "middle", .selectTab twoFolds "bottom"]

theorem after_follows_log_smallPage :
    smallPage.Coherent ∧ (∀ e ∈ smallPageEvents, smallPage.Offers e) ∧
      (View.empty.after smallPageEvents).panelState twoTabs = .tabs (some "left") ∧
      ((View.empty.after smallPageEvents).panelState twoFolds).isVisible "top" = false ∧
      ((View.empty.after smallPageEvents).panelState twoFolds).isVisible "bottom" = false ∧
      (View.empty.after smallPageEvents).isCollapsed note = false := by
  have hoffers : ∀ e ∈ smallPageEvents, smallPage.Offers e := by
    simp [smallPageEvents, Page.Offers, smallPage]
  obtain ⟨htabs, hfolds, hblocks, _⟩ :=
    after_follows_log smallPage smallPage_coherent smallPageEvents hoffers
  refine ⟨smallPage_coherent, hoffers, ?_, ?_, ?_, ?_⟩
  · rw [(htabs twoTabs (.inl rfl) rfl).1]
    decide
  · have htop := hfolds twoFolds (.inr rfl) rfl (barePanel "top" true) (by simp [twoFolds])
    exact htop.trans (by decide)
  · have hbottom := hfolds twoFolds (.inr rfl) rfl (barePanel "bottom" false) (by simp [twoFolds])
    exact hbottom.trans (by decide)
  · rw [hblocks note rfl]
    decide

end View

end Compendium
