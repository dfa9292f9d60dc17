import Compendium.Proofs.Render.NumberChains

/-!
# The sections that a page visits

`Scope.visits` gives the sections of a block in the order of the page, without rendering it: each
with the way it is shown, and with its positions in the numbering if it has a number. The sections
with positions are those that chains of subsections lead to, and their order on the page is the
order of the positions.
-/

namespace Compendium

/-- A section on a page: why it is shown, and its positions if it is numbered. -/
structure Visit where
  own : Section
  mode : SectionMode
  path : Option (List Nat)

namespace Visit

def below (i : Nat) (v : Visit) : Visit :=
  { v with path := v.path.map (i :: ·) }

def chain? (v : Visit) : Option (List Nat × Section) :=
  v.path.map fun path => (path, v.own)

theorem filterMap_below (i : Nat) (l : List Visit) : (l.map (below i)).filterMap chain? =
    (l.filterMap chain?).map fun c => (i :: c.1, c.2) := by
  rw [List.filterMap_map, List.map_filterMap]
  refine congrArg (l.filterMap ·) (funext fun v => ?_)
  cases h : v.path <;> simp [below, chain?, h]

theorem filterMap_unnumbered {l : List Visit} (h : ∀ v ∈ l, v.path = none) :
    l.filterMap chain? = [] := by
  refine List.filterMap_eq_nil_iff.mpr fun v hv => ?_
  rw [chain?, h v hv, Option.map_none]

end Visit

namespace Scope

/-- The sections of the blocks of a section. In a numbered section the subsections are counted. -/
def contentVisits (walk : Bool → Block → List Visit) (numbered : Bool) :
    Nat → List Block → List Visit
  | _, [] => []
  | k, b :: rest =>
    match b, numbered with
    | .subsection s, true =>
      (walk true (.subsection s)).map (·.below (k + 1)) ++ contentVisits walk numbered (k + 1) rest
    | b, _ => walk false b ++ contentVisits walk numbered k rest

def sectionVisits (walk : Scope → Bool → Block → List Visit) (scope : Scope) (mode : SectionMode)
    (numbered : Bool) (s : Section) : List Visit :=
  if scope.sections.contains s.id then []
  else ⟨s, mode, if numbered then some [] else none⟩ ::
    contentVisits (walk (scope.insideSection mode s)) numbered 0 s.content

/-- The sections of a block. Documents inside of it have sections of their own. -/
def visitsWith (walk : Scope → Bool → Block → List Visit) (scope : Scope) (numbered : Bool) :
    Block → List Visit
  | .subsection s =>
    sectionVisits walk { scope with level := scope.level + 1 } (scope.nestedMode s) numbered s
  | .sectionRef r =>
    (scope.referenced? r).toList.flatMap (sectionVisits walk scope (.copy r.showTitle) false)
  | .document _ => []
  | b => (b.inner scope.renderer).flatMap (walk scope false)

def visits : Nat → Scope → Bool → Block → List Visit
  | 0 => fun _ _ _ => []
  | budget + 1 => visitsWith (visits budget)

theorem visitsWith_simple (walk : Scope → Bool → Block → List Visit) (scope : Scope)
    (numbered : Bool) {b : Block} (h : b.isSimple = true) :
    visitsWith walk scope numbered b = (b.inner scope.renderer).flatMap (walk scope false) := by
  cases b with
  | subsection s => cases h
  | sectionRef r => cases h
  | document d => cases h
  | _ => rfl

/-! ## Numbered sections -/

/-- A visit with positions is one of a numbered section, and no copy unless all around it is one. -/
def Allows (scope : Scope) (numbered : Bool) (v : Visit) : Prop :=
  v.path ≠ none → numbered = true ∧ (scope.references = 0 → v.mode.isCopy = false)

section Walk

variable {walk : Scope → Bool → Block → List Visit}
variable (hwalk : ∀ scope numbered b, ∀ v ∈ walk scope numbered b, scope.Allows numbered v)

include hwalk

theorem allows_contentVisits (scope : Scope) (numbered : Bool) (k : Nat) (content : List Block) :
    ∀ v ∈ contentVisits (walk scope) numbered k content, scope.Allows numbered v := by
  have hother : ∀ b, ∀ v ∈ walk scope false b, scope.Allows numbered v := fun b v hv hpath =>
    absurd (hwalk scope false b v hv hpath).1 Bool.false_ne_true
  induction content generalizing k with
  | nil => exact List.forall_mem_nil _
  | cons b rest ih =>
    cases numbered with
    | false => cases b <;> exact List.forall_mem_append.mpr ⟨hother _, ih k⟩
    | true =>
      cases b with
      | subsection s =>
        refine List.forall_mem_append.mpr ⟨fun v hv hpath => ?_, ih (k + 1)⟩
        obtain ⟨u, hu, rfl⟩ := List.mem_map.mp hv
        exact hwalk scope true (.subsection s) u hu (mt Option.map_eq_none_iff.mpr hpath)
      | _ => exact List.forall_mem_append.mpr ⟨hother _, ih k⟩

theorem allows_sectionVisits (scope : Scope) {mode : SectionMode} (numbered : Bool) (s : Section)
    (hmode : numbered = true → scope.references = 0 → mode.isCopy = false) :
    ∀ v ∈ sectionVisits walk scope mode numbered s, scope.Allows numbered v := by
  unfold sectionVisits
  split
  · exact List.forall_mem_nil _
  · refine List.forall_mem_cons.mpr ⟨fun hpath => ?_, fun v hv hpath => ?_⟩
    · cases numbered with
      | true => exact ⟨rfl, hmode rfl⟩
      | false => exact absurd rfl hpath
    · obtain ⟨hnumbered, hcopy⟩ := allows_contentVisits hwalk _ numbered 0 s.content v hv hpath
      refine ⟨hnumbered, fun hzero => hcopy ?_⟩
      show (if mode.isCopy then scope.references + 1 else scope.references) = 0
      rw [hmode hnumbered hzero, hzero]
      rfl

end Walk

theorem allows_visits (budget : Nat) (scope : Scope) (numbered : Bool) (b : Block) :
    ∀ v ∈ visits budget scope numbered b, scope.Allows numbered v := by
  induction budget generalizing scope numbered b with
  | zero => exact List.forall_mem_nil _
  | succ budget ih =>
    have hplain : ∀ {l : List Visit}, (∀ v ∈ l, scope.Allows false v) →
        ∀ v ∈ l, scope.Allows numbered v :=
      fun h v hv hpath => absurd (h v hv hpath).1 Bool.false_ne_true
    by_cases hsimple : b.isSimple = true
    · rw [visits, visitsWith_simple _ scope numbered hsimple]
      refine hplain fun v hv => ?_
      obtain ⟨b', -, hv⟩ := List.mem_flatMap.mp hv
      exact ih scope false b' v hv
    · cases b with
      | subsection s =>
        refine allows_sectionVisits ih { scope with level := scope.level + 1 } numbered s
          fun _ hzero => ?_
        have hzero : scope.references = 0 := hzero
        rw [nestedMode, if_pos hzero]
        rfl
      | sectionRef r =>
        refine hplain fun v hv => ?_
        obtain ⟨s, -, hv⟩ := List.mem_flatMap.mp hv
        exact allows_sectionVisits ih scope false s (fun h => absurd h Bool.false_ne_true) v hv
      | document d => exact List.forall_mem_nil _
      | _ => exact absurd rfl hsimple

/-- Without a number there are no positions. -/
theorem visits_unnumbered (budget : Nat) (scope : Scope) (b : Block) :
    ∀ v ∈ visits budget scope false b, v.path = none := by
  intro v hv
  by_contra hpath
  exact absurd (allows_visits budget scope false b v hv hpath).1 Bool.false_ne_true

theorem sectionVisits_unnumbered (budget : Nat) (scope : Scope) (mode : SectionMode) (s : Section) :
    ∀ v ∈ sectionVisits (visits budget) scope mode false s, v.path = none := by
  intro v hv
  by_contra hpath
  exact absurd (allows_sectionVisits (allows_visits budget) scope false s nofun v hv hpath).1
    Bool.false_ne_true

/-! ## Visits and chains -/

theorem chains_contentVisits {budget : Nat} (scope : Scope)
    (hsub : ∀ s, (visits budget scope true (.subsection s)).filterMap Visit.chain? =
      s.chains budget scope.sections) (k : Nat) (content : List Block) :
    (contentVisits (visits budget scope) true k content).filterMap Visit.chain? =
      positioned (Section.chains budget scope.sections) (k + 1)
        (content.flatMap Block.subsections) := by
  induction content generalizing k with
  | nil => rfl
  | cons b rest ih =>
    cases b with
    | subsection s =>
      show (_ ++ contentVisits (visits budget scope) true (k + 1) rest).filterMap _ =
        positioned _ (k + 1) (s :: rest.flatMap Block.subsections)
      rw [List.filterMap_append, Visit.filterMap_below, hsub, ih, positioned_cons]
    | _ =>
      show (_ ++ contentVisits (visits budget scope) true k rest).filterMap _ =
        positioned _ (k + 1) (rest.flatMap Block.subsections)
      rw [List.filterMap_append, Visit.filterMap_unnumbered (visits_unnumbered budget scope _), ih,
        List.nil_append]

theorem chains_sectionVisits {budget : Nat} (hsub : ∀ (scope : Scope) s,
      (visits budget scope true (.subsection s)).filterMap Visit.chain? =
        s.chains budget scope.sections)
    (scope : Scope) (mode : SectionMode) (s : Section) :
    (sectionVisits (visits budget) scope mode true s).filterMap Visit.chain? =
      s.chains (budget + 1) scope.sections := by
  rw [sectionVisits, Section.chains]
  split
  · rfl
  · exact congrArg (([], s) :: ·)
      (chains_contentVisits _ (hsub (scope.insideSection mode s)) 0 s.content)

/-- The numbered sections of a subsection are those that chains lead to. -/
theorem chains_visits (budget : Nat) (scope : Scope) (s : Section) :
    (visits budget scope true (.subsection s)).filterMap Visit.chain? =
      s.chains budget scope.sections := by
  induction budget generalizing scope s with
  | zero => rfl
  | succ budget ih => exact chains_sectionVisits ih { scope with level := scope.level + 1 } _ s

end Scope

/-! ## Documents -/

namespace Document

open Scope

/-- The sections of a document in the order of the page. Textbooks number those of the body. -/
def visits (d : Document) (budget : Nat) (scope : Scope) : List Visit :=
  (d.body.zipIdx 1).flatMap fun e =>
    if d.kind = .textbook then
      (sectionVisits (Scope.visits budget) scope .anchored true e.1).map (·.below e.2)
    else sectionVisits (Scope.visits budget) scope .anchored false e.1

variable (d : Document) (budget : Nat) (scope : Scope)

/-- A textbook numbers what chains lead to from its body, and other documents number nothing. -/
theorem chains_visits : (d.visits budget scope).filterMap Visit.chain? =
    if d.kind = .textbook then positioned (Section.chains (budget + 1) scope.sections) 1
      d.body else [] := by
  unfold visits
  split
  · rw [positioned, List.filterMap_flatMap]
    simp only [Visit.filterMap_below, chains_sectionVisits (Scope.chains_visits budget)]
  · refine Visit.filterMap_unnumbered fun v hv => ?_
    obtain ⟨e, -, hv⟩ := List.mem_flatMap.mp hv
    exact sectionVisits_unnumbered budget scope .anchored e.1 v hv

/-- No copy is numbered unless the document itself stands in one. -/
theorem anchored_of_numbered (hscope : scope.references = 0) :
    ∀ v ∈ d.visits budget scope, v.path ≠ none → v.mode.isCopy = false := by
  intro v hv hpath
  obtain ⟨e, -, hv⟩ := List.mem_flatMap.mp hv
  have hallows : ∀ numbered, ∀ u ∈ sectionVisits (Scope.visits budget) scope .anchored numbered e.1,
      scope.Allows numbered u :=
    fun numbered => allows_sectionVisits (Scope.allows_visits budget) scope numbered e.1
      fun _ _ => rfl
  split at hv
  · obtain ⟨u, hu, rfl⟩ := List.mem_map.mp hv
    exact (hallows true u hu (mt Option.map_eq_none_iff.mpr hpath)).2 hscope
  · exact (hallows false v hv hpath).2 hscope

/-- The chains that lead to the numbered sections are the uncut ones. -/
theorem numbered_visit_iff (path : List Nat) (last : Section) :
    (∃ v ∈ d.visits budget scope, v.path = some path ∧ v.own = last) ↔
      d.kind = .textbook ∧ ∃ through, d.Leads path through last ∧
        Uncut (budget + 1) scope.sections (through ++ [last]) := by
  have hchain : (∃ v ∈ d.visits budget scope, v.path = some path ∧ v.own = last) ↔
      (path, last) ∈ (d.visits budget scope).filterMap Visit.chain? := by
    simp [List.mem_filterMap, Visit.chain?]
  rw [hchain, chains_visits]
  split
  · next hkind =>
    simp only [mem_positioned, Section.mem_chains_iff, Document.Leads]
    constructor
    · rintro ⟨k, s, rest, hs, rfl, through, hleads, huncut⟩
      exact ⟨hkind, through, ⟨k, s, rest, hs, rfl, hleads⟩, huncut⟩
    · rintro ⟨-, through, ⟨k, s, rest, hs, rfl, hleads⟩, huncut⟩
      exact ⟨k, s, rest, hs, rfl, through, hleads, huncut⟩
  · next hkind => exact iff_of_false List.not_mem_nil fun h => hkind h.1

/-- The order of the page is the order of the positions. -/
theorem ascending_visits : ((d.visits budget scope).filterMap (·.path)).Pairwise (· < ·) := by
  have hpaths : (d.visits budget scope).filterMap (·.path) =
      ((d.visits budget scope).filterMap Visit.chain?).map (·.1) := by
    rw [List.map_filterMap]
    refine congrArg (List.filterMap · _) (funext fun v => ?_)
    cases h : v.path <;> simp [Visit.chain?, h]
  rw [hpaths, chains_visits]
  split
  · exact ascending_positioned (Section.ascending_chains _ _) 1 d.body
  · exact List.Pairwise.nil

end Document

end Compendium
