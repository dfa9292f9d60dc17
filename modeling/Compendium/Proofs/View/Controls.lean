import Compendium.Proofs.Text.Joined
import Compendium.Proofs.View.History

/-!
# Which controls share a value

The values of the controls of all groups are kept in one dictionary, under the ids of group and
control with a slash between them. Two controls share a value exactly if their ids read the same
when they are joined so: if they are the same ids, or if one pair of ids is the other one cut at a
later slash. The controls of a page are independent exactly if no two of them are related like that,
and then every control has the value that was set on it last, or else the one it starts from.
-/

namespace Compendium.View

open Text (CutLater)

/-! ## Ids and keys -/

/-- The id of a group and the id of a control. -/
abbrev Ids := String × String

namespace Ids

def key (ids : Ids) : String :=
  controlKey ids.1 ids.2

/-- One of the pairs is the other one, joined by a slash and cut at a later slash. -/
def Overlap (ids other : Ids) : Prop :=
  CutLater "/" ids.1 ids.2 other.1 other.2 ∨ CutLater "/" other.1 other.2 ids.1 ids.2

theorem key_eq_iff {ids other : Ids} : ids.key = other.key ↔ ids = other ∨ ids.Overlap other := by
  rw [Prod.ext_iff]
  exact Text.joined_eq_iff rfl

theorem Overlap.ne {ids other : Ids} (h : ids.Overlap other) : ids ≠ other := by
  rintro rfl
  exact h.elim (fun hcut => hcut.ne rfl rfl) fun hcut => hcut.ne rfl rfl

/-- Ids do not overlap if none of the groups, or none of the controls, has a slash in its id. -/
theorem not_overlap_of_plain {ids other : Ids}
    (h : ('/' ∉ ids.1.toList ∧ '/' ∉ other.1.toList) ∨
      ('/' ∉ ids.2.toList ∧ '/' ∉ other.2.toList)) :
    ¬ids.Overlap other := by
  rintro (hcut | hcut)
  · exact h.elim (fun hgroups => hgroups.2 (hcut.mem_front rfl)) fun hcontrols =>
      hcontrols.1 (hcut.mem_back rfl)
  · exact h.elim (fun hgroups => hgroups.1 (hcut.mem_front rfl)) fun hcontrols =>
      hcontrols.2 (hcut.mem_back rfl)

end Ids

theorem controlValue_eq (v : View) (g : ControlGroup) (control : String) :
    v.controlValue g control =
      (v.controls.get? (Ids.key (g.id, control))).or ((g.find? control).map (·.seedValue)) := by
  unfold controlValue Ids.key
  split <;> simp [*]

theorem changeControl_of_found (v : View) {g : ControlGroup} {control : String} {c : Control}
    (hfound : g.find? control = some c) (value : ControlValue) :
    v.changeControl g control value = (some ⟨c.id, value, c.targets⟩,
      { v with controls := v.controls.insert (Ids.key (g.id, control)) value }) := by
  simp [changeControl, hfound, Ids.key]

theorem changeControl_of_missing (v : View) {g : ControlGroup} {control : String}
    (hmissing : g.find? control = none) (value : ControlValue) :
    v.changeControl g control value = (none, v) := by
  simp [changeControl, hmissing]

/-- A change that is not refused is seen by the controls with the same key. -/
theorem controlValue_changeControl {v : View} {g : ControlGroup} {control : String}
    {value : ControlValue}
    (h : (v.changeControl g control value).1.isSome = true) (g' : ControlGroup)
    (control' : String) :
    (v.changeControl g control value).2.controlValue g' control' =
      if Ids.key (g'.id, control') = Ids.key (g.id, control) then some value
      else v.controlValue g' control' := by
  cases hfind : g.find? control with
  | none =>
    rw [changeControl_of_missing v hfind] at h
    cases h
  | some c =>
    rw [changeControl_of_found v hfind, controlValue_eq, controlValue_eq, Dict.get?_insert]
    split <;> rfl

/-! ## What the log says about controls -/

/-- The value that an entry of the log has set on a control with ids that pass a test. -/
def setting (test : Ids → Bool) : Event × Reply → Option ControlValue
  | (.changeControl g control value, .changed (some _)) =>
    if test (g.id, control) then some value else none
  | _ => none

/-- The value that was set last on a control with ids that pass a test. -/
def lastSetting (test : Ids → Bool) (seen : List (Event × Reply)) : Option ControlValue :=
  (seen.filterMap (setting test)).getLast?

theorem lastSetting_cons (test : Ids → Bool) (entry : Event × Reply) (rest : List (Event × Reply)) :
    lastSetting test (entry :: rest) = (lastSetting test rest).or (setting test entry) := by
  unfold lastSetting
  cases h : setting test entry with
  | none => rw [List.filterMap_cons_none h, Option.or_none]
  | some value =>
    rw [List.filterMap_cons_some h, List.getLast?_cons]
    cases (rest.filterMap (setting test)).getLast? <;> rfl

/-- An event sets the value under the key of the control that it changes, and no other one. -/
theorem get?_perform (v : View) (e : Event) (key : String) :
    (e.perform v).2.controls.get? key =
      (setting (·.key == key) (e, (e.perform v).1)).or (v.controls.get? key) := by
  cases e with
  | selectTab l panel =>
    have hcontrols : (v.selectTab l panel).2.controls = v.controls := by
      unfold View.selectTab
      split <;> rfl
    exact congrArg (Dict.get? · key) hcontrols
  | togglePanel l panel =>
    have hcontrols : (v.togglePanel l panel).2.controls = v.controls := by
      unfold View.togglePanel
      split
      · dsimp only
        split
        · split <;> rfl
        · rfl
      · rfl
    exact congrArg (Dict.get? · key) hcontrols
  | toggleCollapsible b => rfl
  | changeControl g control value =>
    cases hfind : g.find? control with
    | none =>
      rw [Event.perform, changeControl_of_missing v hfind]
      rfl
    | some c =>
      rw [Event.perform, changeControl_of_found v hfind]
      show (v.controls.insert (Ids.key (g.id, control)) value).get? key =
        (if Ids.key (g.id, control) == key then some value else none).or (v.controls.get? key)
      rw [Dict.get?_insert]
      by_cases hkey : Ids.key (g.id, control) = key
      · simp [hkey]
      · simp [hkey, Ne.symm hkey]

/-- After events, the value under a key is the one that was set last under it. -/
theorem get?_after (v : View) (events : List Event) (key : String) :
    (v.after events).controls.get? key =
      (lastSetting (·.key == key) (v.log events)).or (v.controls.get? key) := by
  induction events generalizing v with
  | nil => rfl
  | cons e rest ih => rw [after, ih, get?_perform, log, lastSetting_cons, Option.or_assoc]

/-! ## Controls of a page -/

/-- A control of a group. -/
structure GroupControl where
  group : ControlGroup
  control : String
  found : (group.find? control).isSome = true

namespace GroupControl

variable (p : GroupControl)

def ids : Ids :=
  (p.group.id, p.control)

def valueIn (v : View) : Option ControlValue :=
  v.controlValue p.group p.control

def lastSet (seen : List (Event × Reply)) : Option ControlValue :=
  lastSetting (· == p.ids) seen

def seed : ControlValue :=
  ((p.group.find? p.control).get p.found).seedValue

theorem valueIn_empty : p.valueIn .empty = some p.seed := by
  obtain ⟨c, hc⟩ := Option.isSome_iff_exists.mp p.found
  rw [valueIn, controlValue_eq, seed]
  simp only [hc]
  rfl

theorem valueIn_after (v : View) (events : List Event) :
    p.valueIn (v.after events) =
      (lastSetting (·.key == p.ids.key) (v.log events)).or (p.valueIn v) := by
  rw [valueIn, controlValue_eq, get?_after, Option.or_assoc, ← controlValue_eq]
  rfl

theorem change_accepted (v : View) (value : ControlValue) :
    (v.changeControl p.group p.control value).1.isSome = true := by
  obtain ⟨c, hc⟩ := Option.isSome_iff_exists.mp p.found
  rw [changeControl_of_found v hc]
  rfl

/-- The controls that an event changes are among the offered ones. -/
def Concerned (offers : GroupControl → Prop) : Event → Prop
  | .changeControl g control _ => ∀ found, offers ⟨g, control, found⟩
  | _ => True

section Apart

variable {p} {offers : GroupControl → Prop} (hp : ∀ q, offers q → ¬q.ids.Overlap p.ids)

include hp

/-- An event that changes an offered control sets the value under the key of another one only if it
is that one. -/
theorem setting_key {e : Event} (he : Concerned offers e) (v : View) :
    setting (·.key == p.ids.key) (e, (e.perform v).1) =
      setting (· == p.ids) (e, (e.perform v).1) := by
  cases e with
  | changeControl g control value =>
    cases hfind : g.find? control with
    | none =>
      rw [Event.perform, changeControl_of_missing v hfind]
      rfl
    | some c =>
      have hfound : (g.find? control).isSome = true := by rw [hfind]; rfl
      have hapart : ¬Ids.Overlap (g.id, control) p.ids := hp _ (he hfound)
      have hkey : (Ids.key (g.id, control) == p.ids.key) = ((g.id, control) == p.ids) := by
        rw [Bool.eq_iff_iff, beq_iff_eq, beq_iff_eq, Ids.key_eq_iff, or_iff_left hapart]
      rw [Event.perform, changeControl_of_found v hfind]
      show (if Ids.key (g.id, control) == p.ids.key then some value else none) =
        if (g.id, control) == p.ids then some value else none
      rw [hkey]
  | _ => rfl

theorem lastSetting_key {events : List Event}
    (hevents : ∀ e ∈ events, Concerned offers e) (v : View) :
    lastSetting (·.key == p.ids.key) (v.log events) = p.lastSet (v.log events) := by
  unfold lastSet
  induction events generalizing v with
  | nil => rfl
  | cons e rest ih =>
    rw [log, lastSetting_cons, lastSetting_cons, ih fun e' he' =>
      hevents e' (List.mem_cons_of_mem _ he'), setting_key hp (hevents e List.mem_cons_self)]

end Apart

/-- Of two controls that overlap, a change of the first one shows in the second one, though it was
not set on it. -/
theorem overlap_shows {p q : GroupControl} (h : p.ids.Overlap q.ids) (v : View)
    (value : ControlValue) :
    q.valueIn (v.after [.changeControl p.group p.control value]) = some value ∧
      q.lastSet (v.log [.changeControl p.group p.control value]) = none := by
  obtain ⟨c, hc⟩ := Option.isSome_iff_exists.mp p.found
  have hkey : q.ids.key = p.ids.key := (Ids.key_eq_iff.mpr (.inr h)).symm
  constructor
  · have hchange := controlValue_changeControl (p.change_accepted v value) q.group q.control
    exact hchange.trans (if_pos hkey)
  · have hother : (p.ids == q.ids) = false := beq_eq_false_iff_ne.mpr h.ne
    rw [lastSet, log, lastSetting_cons, Event.perform, changeControl_of_found v hc]
    show (if p.ids == q.ids then some value else none) = none
    rw [hother]
    rfl

end GroupControl

open GroupControl

/-- A change that is not refused sets the value of its control and of those with ids that overlap
with its ids, and of no others. The controls of a page have the values that were set on them last,
along every history of events, exactly if no two of them have ids that overlap; which they do not if
no group, or no control, has a slash in its id. -/
theorem controls_independent_iff (offers : GroupControl → Prop) :
    (∀ (v : View) (g : ControlGroup) (c : String) (value : ControlValue),
      (v.changeControl g c value).1.isSome = true →
        (v.changeControl g c value).2.controlValue g c = some value ∧
        ∀ (g' : ControlGroup) (c' : String),
          (Ids.Overlap (g.id, c) (g'.id, c') →
            (v.changeControl g c value).2.controlValue g' c' = some value) ∧
          ((g.id, c) ≠ (g'.id, c') → ¬Ids.Overlap (g.id, c) (g'.id, c') →
            (v.changeControl g c value).2.controlValue g' c' = v.controlValue g' c')) ∧
    ((∀ p q, offers p → offers q → ¬p.ids.Overlap q.ids) ↔
      ∀ (v : View) (events : List Event), (∀ e ∈ events, Concerned offers e) → ∀ p, offers p →
        p.valueIn (v.after events) = (p.lastSet (v.log events)).or (p.valueIn v)) ∧
    ((∀ p, offers p → '/' ∉ p.group.id.toList) ∨ (∀ p, offers p → '/' ∉ p.control.toList) →
      ∀ p q, offers p → offers q → ¬p.ids.Overlap q.ids) ∧
    ∀ p : GroupControl, p.valueIn .empty = some p.seed := by
  refine ⟨fun v g c value hchange => ⟨?_, fun g' c' => ⟨fun hoverlap => ?_, fun hne hapart => ?_⟩⟩,
    ⟨fun hapart v events hevents p hp => ?_, fun hrun p q hp hq hoverlap => ?_⟩,
    fun hplain p q hp hq => ?_, valueIn_empty⟩
  · rw [controlValue_changeControl hchange, if_pos rfl]
  · rw [controlValue_changeControl hchange, if_pos (Ids.key_eq_iff.mpr (.inr hoverlap)).symm]
  · have hkey : Ids.key (g'.id, c') ≠ Ids.key (g.id, c) := by
      intro hkey
      exact (Ids.key_eq_iff.mp hkey.symm).elim hne hapart
    rw [controlValue_changeControl hchange, if_neg hkey]
  · rw [valueIn_after, lastSetting_key (fun q hq => hapart q p hq hp) hevents]
  · -- a value that is not the seed of the second control is set on the first one
    have hvalue : ∀ value, q.valueIn .empty = some value := by
      intro value
      obtain ⟨hshown, hnone⟩ := overlap_shows hoverlap .empty value
      have hevents : ∀ e ∈ [Event.changeControl p.group p.control value], Concerned offers e := by
        rintro e he
        obtain rfl := List.mem_singleton.mp he
        exact fun _ => hp
      have hlast := hrun .empty _ hevents q hq
      rw [hshown, hnone, Option.none_or] at hlast
      exact hlast.symm
    cases (hvalue (.bool true)).symm.trans (hvalue (.bool false))
  · apply Ids.not_overlap_of_plain
    exact hplain.imp (fun h => ⟨h p hp, h q hq⟩) fun h => ⟨h p hp, h q hq⟩

/-! ## Two controls that share a value -/

def switch (group control start : String) : ControlGroup :=
  ⟨group, [⟨control, "", .toggle, some (.text start), []⟩], .horizontal⟩

/-- A change of the control `b/c` of the group `a` shows in the control `c` of the group `a/b`. -/
theorem slash_in_ids_shares_value :
    let outer := switch "a" "b/c" "first"
    let inner := switch "a/b" "c" "second"
    let change := View.empty.changeControl outer "b/c" (.text "changed")
    (outer.id, "b/c") ≠ (inner.id, "c") ∧ change.1.isSome = true ∧
      View.empty.controlValue inner "c" = some (.text "second") ∧
      change.2.controlValue inner "c" = some (.text "changed") :=
  ⟨by decide, rfl, rfl, rfl⟩

end Compendium.View
