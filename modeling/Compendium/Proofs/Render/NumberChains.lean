import Compendium.Proofs.Render.Contents
import Compendium.Proofs.Text.Joined

/-!
# Chains of subsections

A chain of subsections leads from the body of a document to a section. The positions on the way make
the number of the section, and the number tells the positions. `Section.chains` lists what the
chains lead to as far as they are not cut by the limit of nesting or by a section that is open
already.
-/

namespace Compendium

open Scope (natAttr)

/-! ## Numbers as texts -/

/-- The number of a section, from its position and those of the sections around it, outermost
first. -/
def dottedText (path : List Nat) : String :=
  ".".intercalate (path.map natAttr)

theorem dottedText_singleton (i : Nat) : dottedText [i] = natAttr i :=
  String.intercalate_singleton

theorem dottedText_cons (i : Nat) {path : List Nat} (h : path ≠ []) :
    dottedText (i :: path) = natAttr i ++ "." ++ dottedText path :=
  String.intercalate_cons_of_ne_nil (mt List.map_eq_nil_iff.mp h)

/-- A number that goes on with positions. -/
def extendedText (start : String) (path : List Nat) : String :=
  ".".intercalate (start :: path.map natAttr)

theorem extendedText_nil (start : String) : extendedText start [] = start :=
  String.intercalate_singleton

theorem extendedText_cons (start : String) (i : Nat) (path : List Nat) :
    extendedText start (i :: path) = extendedText (start ++ "." ++ natAttr i) path := by
  unfold extendedText
  rw [List.map_cons, String.intercalate_cons_of_ne_nil (List.cons_ne_nil _ _)]
  cases path with
  | nil => rw [List.map_nil, String.intercalate_singleton, String.intercalate_singleton]
  | cons j path =>
    rw [List.map_cons, String.intercalate_cons_of_ne_nil (List.cons_ne_nil _ _),
      String.intercalate_cons_of_ne_nil (List.cons_ne_nil _ _)]
    simp only [String.append_assoc]

theorem natAttr_injective : Function.Injective natAttr := by
  intro m n h
  have hdigits : Nat.toDigits 10 m = Nat.toDigits 10 n := String.ofList_injective h
  rw [← Nat.ofDigitChars_ten_toDigits (n := m), hdigits, Nat.ofDigitChars_ten_toDigits]

theorem dot_not_mem_natAttr (n : Nat) : '.' ∉ (natAttr n).toList := by
  intro hdot
  rw [natAttr, String.toList_ofList] at hdot
  exact absurd (Nat.isDigit_of_mem_toDigits (by decide) (by decide) hdot) (by decide)

theorem natAttr_ne_empty (n : Nat) : natAttr n ≠ "" := by
  intro h
  have hnil := congrArg String.toList h
  rw [natAttr, String.toList_ofList] at hnil
  exact Nat.toDigits_ne_nil hnil

/-- The positions can be told from the number. -/
theorem dottedText_injective : Function.Injective dottedText := by
  have hsep : ".".toList = ['.'] := rfl
  have hempty : ∀ i path, dottedText (i :: path) ≠ "" := by
    intro i path
    cases path with
    | nil =>
      rw [dottedText_singleton]
      exact natAttr_ne_empty i
    | cons j path =>
      rw [dottedText_cons i (List.cons_ne_nil j path), Ne, String.append_eq_empty_iff,
        String.append_eq_empty_iff]
      exact fun h => natAttr_ne_empty i h.1.1
  have hdot : ∀ i j path, natAttr i ≠ natAttr j ++ "." ++ path := by
    intro i j path h
    refine dot_not_mem_natAttr i ?_
    rw [h, Text.toList_joined hsep]
    exact List.mem_append_right _ List.mem_cons_self
  intro p q h
  induction p generalizing q with
  | nil =>
    cases q with
    | nil => rfl
    | cons j q => exact absurd h.symm (hempty j q)
  | cons i p ih =>
    cases q with
    | nil => exact absurd h (hempty i p)
    | cons j q =>
      cases p with
      | nil =>
        cases q with
        | nil =>
          rw [dottedText_singleton, dottedText_singleton] at h
          rw [natAttr_injective h]
        | cons k q =>
          rw [dottedText_singleton, dottedText_cons j (List.cons_ne_nil k q)] at h
          exact absurd h (hdot i j _)
      | cons k p =>
        cases q with
        | nil =>
          rw [dottedText_singleton, dottedText_cons i (List.cons_ne_nil k p)] at h
          exact absurd h.symm (hdot j i _)
        | cons l q =>
          rw [dottedText_cons i (List.cons_ne_nil k p), dottedText_cons j (List.cons_ne_nil l q),
            Text.joined_inj hsep (dot_not_mem_natAttr i) (dot_not_mem_natAttr j)] at h
          rw [natAttr_injective h.1, ih h.2]

/-! ## Chains of subsections -/

/-- A chain of subsections leads from a section to another one: the position of each subsection
among the subsections of its section, and the sections that the chain goes through before the last
one. -/
inductive Section.Leads : Section → List Nat → List Section → Section → Prop
  | own (s : Section) : Leads s [] [] s
  | inside {s t last : Section} {k : Nat} {path : List Nat} {through : List Section} :
      s.subsections[k]? = some t → Leads t path through last →
      Leads s ((k + 1) :: path) (s :: through) last

/-- A chain of subsections leads from the body of a document to a section. -/
def Document.Leads (d : Document) (path : List Nat) (through : List Section)
    (last : Section) : Prop :=
  ∃ k s rest, d.body[k]? = some s ∧ path = (k + 1) :: rest ∧ s.Leads rest through last

/-- A chain of sections is not cut: it is no longer than the budget, and none of its sections is
open already when the chain comes to it. -/
structure Uncut (budget : Nat) (opened : List String) (chain : List Section) : Prop where
  short : chain.length ≤ budget
  distinct : (chain.map (·.id)).Nodup
  fresh : ∀ s ∈ chain, s.id ∉ opened

theorem uncut_cons {budget : Nat} {opened : List String} {s : Section} {chain : List Section} :
    Uncut (budget + 1) opened (s :: chain) ↔ s.id ∉ opened ∧
      Uncut budget (s.id :: opened) chain := by
  constructor
  · rintro ⟨hshort, hdistinct, hfresh⟩
    rw [List.map_cons, List.nodup_cons] at hdistinct
    refine ⟨hfresh s List.mem_cons_self, Nat.le_of_succ_le_succ hshort, hdistinct.2, fun t ht => ?_⟩
    have hother : t.id ≠ s.id := fun heq => hdistinct.1 (heq ▸ List.mem_map_of_mem ht)
    exact List.not_mem_cons_of_ne_of_not_mem hother (hfresh t (List.mem_cons_of_mem s ht))
  · rintro ⟨hnew, hshort, hdistinct, hfresh⟩
    refine ⟨Nat.succ_le_succ hshort, ?_, List.forall_mem_cons.mpr ⟨hnew, fun t ht => ?_⟩⟩
    · rw [List.map_cons, List.nodup_cons]
      refine ⟨fun hmem => ?_, hdistinct⟩
      obtain ⟨t, ht, heq⟩ := List.mem_map.mp hmem
      exact hfresh t ht (heq ▸ List.mem_cons_self)
    · exact fun hopen => hfresh t ht (List.mem_cons_of_mem _ hopen)

/-- Sections with a position in front of what is listed for each of them. -/
def positioned (inside : Section → List (List Nat × Section)) (n : Nat) (l : List Section) :
    List (List Nat × Section) :=
  (l.zipIdx n).flatMap fun e => (inside e.1).map fun c => (e.2 :: c.1, c.2)

theorem positioned_cons (inside : Section → List (List Nat × Section)) (n : Nat) (s : Section)
    (l : List Section) : positioned inside n (s :: l) =
      (inside s).map (fun c => (n :: c.1, c.2)) ++ positioned inside (n + 1) l :=
  rfl

theorem mem_positioned {inside : Section → List (List Nat × Section)} {l : List Section}
    {path : List Nat} {last : Section} : (path, last) ∈ positioned inside 1 l ↔
      ∃ k s rest, l[k]? = some s ∧ path = (k + 1) :: rest ∧ (rest, last) ∈ inside s := by
  rw [positioned, List.zipIdx_succ, List.flatMap_map, List.mem_flatMap]
  constructor
  · rintro ⟨⟨s, k⟩, hs, hmem⟩
    obtain ⟨⟨rest, t⟩, hinside, heq⟩ := List.mem_map.mp hmem
    cases heq
    exact ⟨k, s, rest, List.mem_zipIdx_iff_getElem?.mp hs, rfl, hinside⟩
  · rintro ⟨k, s, rest, hs, rfl, hmem⟩
    exact ⟨(s, k), List.mem_zipIdx_iff_getElem?.mpr hs, List.mem_map.mpr ⟨(rest, last), hmem, rfl⟩⟩

/-- Positions are counted up, so what is listed ascends. -/
theorem ascending_positioned {inside : Section → List (List Nat × Section)}
    (h : ∀ s, ((inside s).map (·.1)).Pairwise (· < ·)) (n : Nat) (l : List Section) :
    ((positioned inside n l).map (·.1)).Pairwise (· < ·) := by
  have hheads : ∀ (m : Nat) (l : List Section), ∀ path ∈ (positioned inside m l).map (·.1),
      ∃ k rest, path = k :: rest ∧ m ≤ k := by
    intro m l path hpath
    obtain ⟨e, he, rfl⟩ := List.mem_map.mp hpath
    obtain ⟨⟨s, k⟩, hs, hmem⟩ := List.mem_flatMap.mp he
    obtain ⟨c, -, rfl⟩ := List.mem_map.mp hmem
    exact ⟨k, c.1, rfl, (List.mem_zipIdx hs).1⟩
  induction l generalizing n with
  | nil => exact List.Pairwise.nil
  | cons s l ih =>
    rw [positioned_cons, List.map_append, List.pairwise_append]
    refine ⟨?_, ih (n + 1), ?_⟩
    · rw [List.map_map, List.pairwise_map]
      refine (List.pairwise_map.mp (h s)).imp fun hlt => ?_
      exact List.cons_lt_cons_iff.mpr (.inr ⟨rfl, hlt⟩)
    · intro path hpath other hother
      obtain ⟨e, he, rfl⟩ := List.mem_map.mp hpath
      obtain ⟨c, -, rfl⟩ := List.mem_map.mp he
      obtain ⟨k, rest, rfl, hk⟩ := hheads (n + 1) l other hother
      exact List.cons_lt_cons_iff.mpr (.inl hk)

/-- The sections that chains of subsections lead to from a section and that are not cut, with the
positions on the way, in the order of the page. -/
def Section.chains : Nat → List String → Section → List (List Nat × Section)
  | 0, _, _ => []
  | budget + 1, opened, s =>
    if opened.contains s.id then []
    else ([], s) :: positioned (chains budget (s.id :: opened)) 1 s.subsections

theorem Section.Leads.head {s last : Section} {path : List Nat} {through : List Section}
    (h : s.Leads path through last) : s ∈ through ++ [last] := by
  cases h with
  | own => exact List.mem_singleton_self s
  | inside => exact List.mem_cons_self

theorem Section.mem_chains_iff {budget : Nat} {opened : List String} {s last : Section}
    {path : List Nat} :
    (path, last) ∈ s.chains budget opened ↔
      ∃ through, s.Leads path through last ∧ Uncut budget opened (through ++ [last]) := by
  induction budget generalizing opened s path with
  | zero =>
    refine ⟨fun h => absurd h List.not_mem_nil, ?_⟩
    rintro ⟨through, -, hshort, -⟩
    simp at hshort
  | succ budget ih =>
    by_cases hopen : s.id ∈ opened
    · rw [Section.chains, if_pos (List.contains_iff_mem.mpr hopen)]
      refine ⟨fun h => absurd h List.not_mem_nil, ?_⟩
      rintro ⟨through, hleads, huncut⟩
      exact absurd hopen (huncut.fresh s hleads.head)
    · rw [Section.chains, if_neg (mt List.contains_iff_mem.mp hopen), List.mem_cons, mem_positioned]
      constructor
      · rintro (hown | ⟨k, t, rest, ht, rfl, hmem⟩)
        · cases hown
          exact ⟨[], .own _, uncut_cons.mpr
            ⟨hopen, Nat.zero_le _, List.nodup_nil, List.forall_mem_nil _⟩⟩
        · obtain ⟨through, hleads, huncut⟩ := ih.mp hmem
          exact ⟨s :: through, .inside ht hleads, uncut_cons.mpr ⟨hopen, huncut⟩⟩
      · rintro ⟨through, hleads, huncut⟩
        cases hleads with
        | own => exact .inl rfl
        | inside ht hleads =>
          exact .inr ⟨_, _, _, ht, rfl, ih.mpr ⟨_, hleads, (uncut_cons.mp huncut).2⟩⟩

/-- The order of the page is the order of the positions. -/
theorem Section.ascending_chains (budget : Nat) (opened : List String) (s : Section) :
    ((s.chains budget opened).map (·.1)).Pairwise (· < ·) := by
  induction budget generalizing opened s with
  | zero => exact List.Pairwise.nil
  | succ budget ih =>
    rw [Section.chains]
    split
    · exact List.Pairwise.nil
    · rw [List.map_cons, List.pairwise_cons]
      refine ⟨fun path hmem => ?_, ascending_positioned (ih (s.id :: opened)) 1 s.subsections⟩
      obtain ⟨⟨path, last⟩, he, rfl⟩ := List.mem_map.mp hmem
      obtain ⟨k, t, rest, -, rfl, -⟩ := mem_positioned.mp he
      exact List.nil_lt_cons _ _

end Compendium
