import Compendium.ContentTree
import Compendium.Proofs.Path
import Compendium.Proofs.Text.ByteOrder
import Mathlib.Data.List.Induction

/-!
# The tree of paths is a trie

A tree of paths holds a folder at every nonempty beginning of a path's segments, and nothing else.
What stands at the end of a path is the last path that was put there. Siblings are in the order of
the octets of their names, so the tree is determined by what it holds, and its paths come out in the
order of their segments.
-/

namespace Compendium

namespace Folder

/-- The order of names: octet by octet. -/
def Before (a b : String) : Prop :=
  Text.utf8 a.toList < Text.utf8 b.toList

theorem before_iff {a b : String} : Before a b ↔ a < b := by
  rw [Before, Text.utf8_lt_utf8, String.lt_iff_toList_lt]

/-- A name that can be a segment of a path. -/
def IsSegment (name : String) : Prop :=
  name ≠ "" ∧ '/' ∉ name.toList

mutual

/-- The name is a segment, and only a folder with something inside it may be without a path. -/
def Tidy : Folder → Prop
  | mk name path children =>
    IsSegment name ∧ (children = [] → path.isSome = true) ∧ TidyList children

/-- Tidy siblings, in the order of their names and each name once. -/
def TidyList : List Folder → Prop
  | [] => True
  | f :: rest => Tidy f ∧ (∀ other ∈ rest, Before f.name other.name) ∧ TidyList rest

end

theorem Tidy.children {f : Folder} (h : f.Tidy) : TidyList f.children := by
  cases f
  exact h.2.2

theorem TidyList.of_mem {siblings : List Folder} (h : TidyList siblings) {f : Folder}
    (hf : f ∈ siblings) : f.Tidy := by
  induction siblings with
  | nil => cases hf
  | cons first rest ih =>
    rcases List.mem_cons.mp hf with rfl | hf
    · exact h.1
    · exact ih h.2.2 hf

/-! ## Children by name -/

def named? (name : String) (siblings : List Folder) : Option Folder :=
  siblings.find? fun f => f.name == name

theorem named?_cons (name : String) (f : Folder) (rest : List Folder) :
    named? name (f :: rest) = if f.name = name then some f else named? name rest := by
  by_cases h : f.name = name
  · simp [named?, h]
  · simp [named?, h]

theorem mem_of_named? {name : String} {siblings : List Folder} {f : Folder}
    (h : named? name siblings = some f) : f ∈ siblings ∧ f.name = name :=
  ⟨List.mem_of_find?_eq_some h, by simpa using List.find?_some h⟩

theorem named?_eq_none {name : String} {siblings : List Folder}
    (h : ∀ f ∈ siblings, name < f.name) :
    named? name siblings = none := by
  refine List.find?_eq_none.mpr fun f hf => ?_
  have hne : f.name ≠ name := fun he => lt_irrefl name (he ▸ h f hf)
  simpa using hne

/-- All siblings after a name have greater names. -/
theorem TidyList.above {f : Folder} {rest : List Folder} (h : TidyList (f :: rest)) {name : String}
    (hle : name ≤ f.name) : ∀ other ∈ rest, name < other.name := fun other hother =>
  lt_of_le_of_lt hle (before_iff.mp (h.2.1 other hother))

section Update

variable {change : Folder → Folder} (hchange : ∀ f, (change f).name = f.name) {name : String}

include hchange

/-- Only the sibling with the name is another one after an update. -/
theorem named?_update {siblings : List Folder} (h : TidyList siblings) (key : String) :
    named? key (update name change siblings) =
      if key = name then some (change ((named? name siblings).getD (empty name)))
      else named? key siblings := by
  have hempty : (change (empty name)).name = name := hchange _
  induction siblings with
  | nil =>
    rw [update, named?_cons, hempty]
    by_cases hkey : key = name
    · subst hkey
      rw [if_pos rfl, if_pos rfl]
      rfl
    · rw [if_neg hkey, if_neg (Ne.symm hkey)]
  | cons f rest ih =>
    rw [update]
    by_cases hlt : f.name < name
    · have hne : f.name ≠ name := ne_of_lt hlt
      rw [if_pos hlt, named?_cons, ih h.2.2, named?_cons, named?_cons, if_neg hne]
      by_cases hf : f.name = key
      · rw [if_pos hf, if_pos hf, if_neg (hf ▸ hne)]
      · rw [if_neg hf, if_neg hf]
    rw [if_neg hlt]
    by_cases heq : f.name = name
    · rw [if_pos heq, named?_cons, hchange, named?_cons name, if_pos heq, named?_cons key]
      by_cases hkey : key = name
      · rw [if_pos hkey, if_pos (heq.trans hkey.symm)]
        rfl
      · have hne : f.name ≠ key := fun he => hkey (he.symm.trans heq)
        rw [if_neg hkey, if_neg hne, if_neg hne]
    · -- the name is below all others, so there is no sibling with it yet
      have hle : name ≤ f.name := le_of_not_gt hlt
      have hnew : named? name (f :: rest) = none := by
        rw [named?_cons, if_neg heq]
        exact named?_eq_none (h.above hle)
      rw [if_neg heq, named?_cons, hempty, hnew]
      by_cases hkey : key = name
      · rw [if_pos hkey, if_pos hkey.symm]
        rfl
      · rw [if_neg hkey, if_neg (Ne.symm hkey)]

theorem mem_update {siblings : List Folder} {f : Folder} (h : f ∈ update name change siblings) :
    f.name = name ∨ f ∈ siblings := by
  induction siblings with
  | nil => exact .inl ((List.mem_singleton.mp h).symm ▸ hchange _)
  | cons first rest ih =>
    rw [update] at h
    split at h
    · rcases List.mem_cons.mp h with rfl | h
      · exact .inr List.mem_cons_self
      · exact (ih h).imp id (List.mem_cons_of_mem _)
    · split at h
      · next heq =>
        rcases List.mem_cons.mp h with rfl | h
        · exact .inl ((hchange first).trans heq)
        · exact .inr (List.mem_cons_of_mem _ h)
      · rcases List.mem_cons.mp h with rfl | h
        · exact .inl (hchange _)
        · exact .inr h

theorem TidyList.update {siblings : List Folder} (h : TidyList siblings)
    (htidy : ∀ f, f.name = name → TidyList f.children → (change f).Tidy) :
    TidyList (update name change siblings) := by
  have hnew : (change (empty name)).Tidy := htidy (empty name) rfl trivial
  have hempty : (change (empty name)).name = name := hchange _
  induction siblings with
  | nil => exact ⟨hnew, nofun, trivial⟩
  | cons f rest ih =>
    rw [Folder.update]
    by_cases hlt : f.name < name
    · rw [if_pos hlt]
      refine ⟨h.1, fun other hother => ?_, ih h.2.2⟩
      rcases mem_update hchange hother with hname | hother
      · exact before_iff.mpr (hname ▸ hlt)
      · exact h.2.1 other hother
    rw [if_neg hlt]
    by_cases heq : f.name = name
    · rw [if_pos heq]
      refine ⟨htidy f heq h.1.children, fun other hother => ?_, h.2.2⟩
      rw [hchange]
      exact h.2.1 other hother
    · have hle : name ≤ f.name := le_of_not_gt hlt
      have hfirst : name < f.name := lt_of_le_of_ne hle (Ne.symm heq)
      rw [if_neg heq]
      refine ⟨hnew, fun other hother => ?_, h⟩
      rw [hempty, before_iff]
      rcases List.mem_cons.mp hother with rfl | hother
      · exact hfirst
      · exact h.above hle other hother

end Update

/-! ## Folders below a folder -/

/-- The folder that segments lead to. -/
def at? : List String → Folder → Option Folder
  | [], f => some f
  | name :: rest, f => (named? name f.children).bind (at? rest)

def put (path : String) : List String → Folder → Folder
  | [], f => mk f.name (some path) f.children
  | name :: rest, f => mk f.name f.path (update name (put path rest) f.children)

theorem put_name (path : String) (segments : List String) (f : Folder) :
    (put path segments f).name = f.name := by
  cases segments <;> rfl

theorem findAt?_eq {siblings : List Folder} {segments : List String} (h : segments ≠ [])
    (name : String) (path : Option String) :
    findAt? siblings segments = at? segments (mk name path siblings) := by
  induction segments generalizing siblings name path with
  | nil => exact absurd rfl h
  | cons first rest ih =>
    cases rest with
    | nil =>
      show named? first siblings = (named? first siblings).bind (at? [])
      cases named? first siblings <;> rfl
    | cons next more =>
      rw [findAt?, at?]
      · have hnamed : siblings.find? (fun f => f.name == first) = named? first siblings := rfl
        rw [hnamed, Folder.children]
        cases named? first siblings with
        | none => rfl
        | some f =>
          obtain ⟨own, ownPath, children⟩ := f
          exact ih (List.cons_ne_nil _ _) own ownPath
      · nofun

theorem insert_eq (path : String) (segments : List String) (siblings : List Folder) (name : String)
    (own : Option String) :
    insert path segments siblings = (put path segments (mk name own siblings)).children := by
  induction segments generalizing siblings name own with
  | nil => rfl
  | cons first rest ih =>
    cases rest with
    | nil => rfl
    | cons next more =>
      have hchange : (fun f : Folder => mk f.name f.path (insert path (next :: more) f.children)) =
          put path (next :: more) := by
        funext f
        rw [ih f.children f.name f.path]
        rfl
      rw [insert, hchange]
      · rfl
      · nofun

theorem put_tidy (path : String) {segments : List String} (hsegments : ∀ s ∈ segments, IsSegment s)
    {f : Folder} (hname : IsSegment f.name) (hchildren : TidyList f.children) :
    (put path segments f).Tidy := by
  induction segments generalizing f with
  | nil => exact ⟨hname, fun _ => rfl, hchildren⟩
  | cons name rest ih =>
    obtain ⟨hfirst, hrest⟩ := List.forall_mem_cons.mp hsegments
    have htidy : TidyList (update name (put path rest) f.children) :=
      hchildren.update (put_name path rest) fun g hg hinner => ih hrest (hg ▸ hfirst) hinner
    refine ⟨hname, fun hnone => ?_, htidy⟩
    -- there is a child now, the one with the name
    have hfound : named? name (update name (put path rest) f.children) = _ :=
      named?_update (put_name path rest) hchildren name
    rw [hnone, if_pos rfl] at hfound
    cases hfound

theorem at?_empty {name : String} {key : List String} (h : key ≠ []) :
    (empty name).at? key = none := by
  obtain ⟨first, rest, rfl⟩ := List.exists_cons_of_ne_nil h
  rfl

/-- After putting a path, it stands at the end of its segments. The folders on the way are there,
with the paths that they had, and all else is as it was. -/
theorem path_at?_put (path : String) (segments : List String) {f : Folder} (h : TidyList f.children)
    (key : List String) :
    ((put path segments f).at? key).map Folder.path =
      if key = segments then some (some path)
      else if key <+: segments then some ((f.at? key).bind Folder.path)
      else (f.at? key).map Folder.path := by
  induction segments generalizing f key with
  | nil =>
    cases key with
    | nil => rfl
    | cons k ks => rw [if_neg (by simp), if_neg (by simp), put, at?, at?, Folder.children]
  | cons name rest ih =>
    cases key with
    | nil =>
      rw [if_neg (by simp), if_pos List.nil_prefix]
      rfl
    | cons k ks =>
      rw [put, at?]
      show ((named? k (update name (put path rest) f.children)).bind (at? ks)).map Folder.path = _
      rw [named?_update (put_name path rest) h]
      by_cases hk : k = name
      · subst hk
        rw [if_pos rfl, Option.bind_some, at?]
        cases hfound : named? k f.children with
        | some g =>
          have hg : TidyList g.children := (h.of_mem (mem_of_named? hfound).1).children
          rw [Option.getD_some, ih hg, Option.bind_some]
          simp only [List.cons.injEq, true_and, List.cons_prefix_cons]
        | none =>
          -- the folder is a new one, with nothing inside it
          rw [Option.getD_none, ih (f := empty k) trivial, Option.bind_none]
          simp only [List.cons.injEq, true_and, List.cons_prefix_cons]
          cases ks with
          | nil => simp [at?, empty, Folder.path]
          | cons next more => rw [at?_empty (List.cons_ne_nil _ _), Option.bind_none]
      · have hne : ¬k :: ks = name :: rest := fun he => hk (List.cons.inj he).1
        have hnp : ¬k :: ks <+: name :: rest := fun hp => hk (List.cons_prefix_cons.mp hp).1
        rw [if_neg hk, if_neg hne, if_neg hnp, at?]

/-! ## What is below a folder determines it -/

theorem TidyList.le_of_named? {f g : Folder} {rest : List Folder} {name : String}
    (h : TidyList (f :: rest)) (hfound : named? name (f :: rest) = some g) : f.name ≤ name := by
  obtain ⟨hmem, rfl⟩ := mem_of_named? hfound
  rcases List.mem_cons.mp hmem with rfl | hmem
  · exact le_refl _
  · exact le_of_lt (h.above (le_refl _) g hmem)

theorem exists_named? {name : String} {fs gs : List Folder}
    (hat : ∀ first rest, ((named? first fs).bind (at? rest)).map Folder.path =
      ((named? first gs).bind (at? rest)).map Folder.path) {f : Folder}
        (h : named? name fs = some f) :
    ∃ g, named? name gs = some g := by
  have hhere := hat name []
  rw [h] at hhere
  cases hg : named? name gs with
  | none => simp [hg, at?] at hhere
  | some g => exact ⟨g, rfl⟩

mutual

/-- Tidy folders with the same name are equal if the same paths stand below them. -/
theorem Tidy.ext : ∀ {f g : Folder}, f.Tidy → g.Tidy → f.name = g.name →
    (∀ key, (f.at? key).map Folder.path = (g.at? key).map Folder.path) → f = g
  | mk name path children, mk name' path' children', hf, hg, hname, hat => by
    obtain rfl : name = name' := hname
    obtain rfl : path = path' := by simpa [at?, Folder.path] using hat []
    have hchildren : children = children' :=
      TidyList.ext hf.2.2 hg.2.2 fun first rest => hat (first :: rest)
    rw [hchildren]

/-- Tidy siblings are equal if the same paths stand below them. -/
theorem TidyList.ext : ∀ {fs gs : List Folder}, TidyList fs → TidyList gs →
    (∀ first rest, ((named? first fs).bind (at? rest)).map Folder.path =
      ((named? first gs).bind (at? rest)).map Folder.path) → fs = gs
  | [], [], _, _, _ => rfl
  | [], g :: gs, _, _, hat => by simpa [named?, at?] using hat g.name []
  | f :: fs, [], _, _, hat => by simpa [named?, at?] using hat f.name []
  | f :: fs, g :: gs, hf, hg, hat => by
    have hfirst : named? f.name (f :: fs) = some f := by rw [named?_cons, if_pos rfl]
    have hfirst' : named? g.name (g :: gs) = some g := by rw [named?_cons, if_pos rfl]
    obtain ⟨_, hf'⟩ := exists_named? hat hfirst
    obtain ⟨_, hg'⟩ := exists_named? (fun first rest => (hat first rest).symm) hfirst'
    have hname : f.name = g.name := le_antisymm (hf.le_of_named? hg') (hg.le_of_named? hf')
    have hfg : f = g := by
      refine Tidy.ext hf.1 hg.1 hname fun key => ?_
      have hkey := hat f.name key
      rw [hfirst, hname, hfirst'] at hkey
      exact hkey
    have hrest : fs = gs := by
      refine TidyList.ext hf.2.2 hg.2.2 fun first rest => ?_
      by_cases heq : f.name = first
      · -- the name is taken by the first sibling and by no other
        subst heq
        rw [named?_eq_none (hf.above (le_refl _)), named?_eq_none (hg.above (le_of_eq hname))]
      · have hat' := hat first rest
        rwa [named?_cons, if_neg heq, named?_cons, if_neg (hname ▸ heq)] at hat'
    rw [hfg, hrest]

end

/-! ## The paths of a tree -/

mutual

/-- The paths of a folder, with the segments that lead to them. -/
def entries : Folder → List (List String × String)
  | mk name path children =>
    (path.toList.map fun p => ([name], p)) ++ (entriesList children).map fun e => (name :: e.1, e.2)

def entriesList : List Folder → List (List String × String)
  | [] => []
  | f :: rest => entries f ++ entriesList rest

end

mutual

theorem paths_eq : ∀ f : Folder, f.paths = f.entries.map Prod.snd
  | mk name path children => by
    rw [paths, entries, pathsList_eq children, List.map_append, List.map_map, List.map_map]
    congr 1
    exact (List.map_id _).symm

theorem pathsList_eq : ∀ fs : List Folder, pathsList fs = (entriesList fs).map Prod.snd
  | [] => rfl
  | f :: rest => by rw [pathsList, entriesList, paths_eq f, pathsList_eq rest, List.map_append]

end

/-- The first segment of an entry is the name of its folder. -/
theorem exists_of_mem_entries {f : Folder} {e : List String × String} (h : e ∈ f.entries) :
    ∃ rest, e.1 = f.name :: rest := by
  obtain ⟨name, path, children⟩ := f
  rw [entries, List.mem_append, List.mem_map, List.mem_map] at h
  rcases h with ⟨p, -, rfl⟩ | ⟨inner, -, rfl⟩
  · exact ⟨[], rfl⟩
  · exact ⟨inner.1, rfl⟩

theorem exists_of_mem_entriesList {fs : List Folder} {e : List String × String}
    (h : e ∈ entriesList fs) : ∃ f ∈ fs, ∃ rest, e.1 = f.name :: rest := by
  induction fs with
  | nil => cases h
  | cons f rest ih =>
    rcases List.mem_append.mp h with h | h
    · exact ⟨f, List.mem_cons_self, exists_of_mem_entries h⟩
    · obtain ⟨g, hg, hname⟩ := ih h
      exact ⟨g, List.mem_cons_of_mem _ hg, hname⟩

mutual

/-- The entries of a folder are the paths that stand below it. -/
theorem mem_entries : ∀ {f : Folder}, f.Tidy → ∀ (first : String) (rest : List String) (p : String),
    (first :: rest, p) ∈ f.entries ↔
      first = f.name ∧ (f.at? rest).bind Folder.path = some p
  | mk name path children, hf, first, rest, p => by
    rw [entries, List.mem_append, List.mem_map, List.mem_map]
    cases rest with
    | nil =>
      -- an entry of the children has at least one segment more
      have hinner : ([], p) ∉ entriesList children := fun he => by
        obtain ⟨f, -, rest, hrest⟩ := exists_of_mem_entriesList he
        cases hrest
      simp [hinner, at?, Folder.path, Folder.name, eq_comm, and_comm]
    | cons next more =>
      have hinner := mem_entriesList hf.2.2 next more p
      simp [at?, Folder.name, Folder.children, ← hinner, eq_comm, and_comm]

theorem mem_entriesList : ∀ {fs : List Folder}, TidyList fs →
    ∀ (first : String) (rest : List String) (p : String), (first :: rest, p) ∈ entriesList fs ↔
      ((named? first fs).bind (at? rest)).bind Folder.path = some p
  | [], _, first, rest, p => by simp [entriesList, named?]
  | f :: fs, h, first, rest, p => by
    rw [entriesList, List.mem_append, mem_entries h.1, mem_entriesList h.2.2, named?_cons]
    by_cases heq : f.name = first
    · subst heq
      rw [named?_eq_none (h.above (le_refl _))]
      simp
    · rw [if_neg heq]
      simp [Ne.symm heq]

end

mutual

theorem entries_ordered : ∀ {f : Folder}, f.Tidy → (f.entries.map Prod.fst).Pairwise
    (List.Lex Before)
  | mk name path children, h => by
    have hchildren := entriesList_ordered h.2.2
    rw [entries, List.map_append, List.map_map, List.map_map, List.pairwise_append]
    refine ⟨?_, ?_, ?_⟩
    · cases path <;> simp
    · rw [List.pairwise_map] at hchildren ⊢
      exact hchildren.imp fun hlt => .cons hlt
    · -- the folder's own segments are the beginning of those of every folder inside it
      rintro own hown inner hinner
      obtain ⟨p, -, rfl⟩ := List.mem_map.mp hown
      obtain ⟨e, he, rfl⟩ := List.mem_map.mp hinner
      obtain ⟨f, -, rest, hrest⟩ := exists_of_mem_entriesList he
      show List.Lex Before [name] (name :: e.1)
      rw [hrest]
      exact .cons .nil

theorem entriesList_ordered : ∀ {fs : List Folder}, TidyList fs →
    ((entriesList fs).map Prod.fst).Pairwise (List.Lex Before)
  | [], _ => .nil
  | f :: rest, h => by
    rw [entriesList, List.map_append, List.pairwise_append]
    refine ⟨entries_ordered h.1, entriesList_ordered h.2.2, ?_⟩
    rintro a ha b hb
    obtain ⟨e, he, rfl⟩ := List.mem_map.mp ha
    obtain ⟨e', he', rfl⟩ := List.mem_map.mp hb
    obtain ⟨below, hbelow⟩ := exists_of_mem_entries he
    obtain ⟨g, hg, below', hbelow'⟩ := exists_of_mem_entriesList he'
    rw [hbelow, hbelow']
    exact .rel (h.2.1 g hg)

end

end Folder

namespace ContentTree

open Folder

theorem segments_isSegment (path : String) : ∀ s ∈ Path.segments path, IsSegment s := by
  intro s hs
  obtain ⟨chars, hchars, rfl⟩ := List.mem_map.mp hs
  obtain ⟨hne, hslash⟩ := Text.segments_spec path.toList chars hchars
  constructor
  · intro hempty
    exact hne (by simpa using congrArg String.toList hempty)
  · rw [String.toList_ofList]
    intro hmem
    simpa using hslash '/' hmem

def root (t : ContentTree) : Folder :=
  .mk "" none t.roots

def lastAt (paths : List String) (segments : List String) : Option String :=
  (paths.filter fun path => Path.segments path == segments).getLast?

theorem lastAt_append_singleton (paths : List String) (path : String) (segments : List String) :
    lastAt (paths ++ [path]) segments =
      if segments = Path.segments path then some path else lastAt paths segments := by
  by_cases h : segments = Path.segments path
  · simp [lastAt, List.filter_append, h]
  · simp [lastAt, List.filter_append, h, Ne.symm h]

theorem mem_of_lastAt {paths : List String} {segments : List String} {path : String}
    (h : lastAt paths segments = some path) : path ∈ paths ∧ Path.segments path = segments := by
  have hmem := List.mem_filter.mp (List.mem_of_getLast? h)
  exact ⟨hmem.1, by simpa using hmem.2⟩

theorem lastAt_eq_none {paths : List String} {segments : List String}
    (h : ¬∃ path ∈ paths, segments <+: Path.segments path) : lastAt paths segments = none := by
  rw [lastAt, List.getLast?_eq_none_iff, List.filter_eq_nil_iff]
  intro path hpath heq
  have hsegments : Path.segments path = segments := by simpa using heq
  exact h ⟨path, hpath, hsegments ▸ List.prefix_refl _⟩

theorem lastAt_eq_some_iff {paths : List String}
    (hone : ∀ p ∈ paths, ∀ q ∈ paths, Path.segments p = Path.segments q → p = q)
    {segments : List String} {path : String} :
    lastAt paths segments = some path ↔ path ∈ paths ∧ Path.segments path = segments := by
  refine ⟨mem_of_lastAt, fun ⟨hmem, hsegments⟩ => ?_⟩
  have hsome : (lastAt paths segments).isSome = true := by
    rw [lastAt, Option.isSome_iff_ne_none, ne_eq, List.getLast?_eq_none_iff]
    exact List.ne_nil_of_mem (List.mem_filter.mpr ⟨hmem, by simpa using hsegments⟩)
  obtain ⟨last, hlast⟩ := Option.isSome_iff_exists.mp hsome
  obtain ⟨hin, hsame⟩ := mem_of_lastAt hlast
  rw [hlast, hone last hin path hmem (hsame.trans hsegments.symm)]

/-! ## The tree of paths -/

theorem ofPaths_append_singleton (paths : List String) (path : String) :
    (ofPaths (paths ++ [path])).roots =
      ((ofPaths paths).root.put path (Path.segments path)).children := by
  have hfold : (ofPaths (paths ++ [path])).roots =
      Folder.insert path (Path.segments path) (ofPaths paths).roots := by
    simp [ofPaths, List.foldl_append]
  rw [hfold, insert_eq path _ _ "" none]
  rfl

theorem ofPaths_tidy (paths : List String) : TidyList (ofPaths paths).roots := by
  induction paths using List.reverseRecOn with
  | nil => trivial
  | append_singleton paths path ih =>
    rw [ofPaths_append_singleton]
    cases hsegments : Path.segments path with
    | nil => exact ih
    | cons first rest =>
      have hall := segments_isSegment path
      rw [hsegments] at hall
      obtain ⟨hfirst, hrest⟩ := List.forall_mem_cons.mp hall
      exact ih.update (put_name path rest) fun f hf hchildren =>
        put_tidy path hrest (hf ▸ hfirst) hchildren

theorem at?_congr {f g : Folder} (h : f.children = g.children) {key : List String}
    (hkey : key ≠ []) :
    f.at? key = g.at? key := by
  obtain ⟨first, rest, rfl⟩ := List.exists_cons_of_ne_nil hkey
  rw [at?, at?, h]

theorem bind_path_eq {found : Option Folder} {last : Option String} {p : Prop} [Decidable p]
    (h : found.map Folder.path = if p then some last else none) (hlast : ¬p → last = none) :
    found.bind Folder.path = last := by
  by_cases hp : p
  · rw [if_pos hp] at h
    obtain ⟨f, rfl, hf⟩ := Option.map_eq_some_iff.mp h
    exact hf
  · rw [if_neg hp] at h
    rw [Option.map_eq_none_iff.mp h, hlast hp, Option.bind_none]

/-- A folder stands at every nonempty beginning of the segments of a path, and at no other place.
Its path is the last one that ends there. -/
theorem path_at?_ofPaths (paths : List String) {key : List String} (hkey : key ≠ []) :
    ((ofPaths paths).root.at? key).map Folder.path =
      if ∃ path ∈ paths, key <+: Path.segments path then some (lastAt paths key) else none := by
  induction paths using List.reverseRecOn with
  | nil =>
    obtain ⟨first, rest, rfl⟩ := List.exists_cons_of_ne_nil hkey
    simp [ofPaths, root, at?, named?, Folder.children]
  | append_singleton paths path ih =>
    have hput : (ofPaths (paths ++ [path])).root.at? key =
        ((ofPaths paths).root.put path (Path.segments path)).at? key :=
      at?_congr (f := (ofPaths (paths ++ [path])).root) (ofPaths_append_singleton paths path) hkey
    have hsome : (∃ q ∈ paths ++ [path], key <+: Path.segments q) ↔
        (∃ q ∈ paths, key <+: Path.segments q) ∨ key <+: Path.segments path := by
      simp [or_and_right, exists_or]
    rw [hput, path_at?_put path _ (f := (ofPaths paths).root) (ofPaths_tidy paths),
      lastAt_append_singleton]
    by_cases heq : key = Path.segments path
    · rw [if_pos heq, if_pos heq, if_pos (hsome.mpr (.inr (heq ▸ List.prefix_refl _)))]
    rw [if_neg heq, if_neg heq]
    by_cases hpre : key <+: Path.segments path
    · rw [if_pos hpre, if_pos (hsome.mpr (.inr hpre))]
      -- a folder on the way keeps its path, and if it is a new one then no path ended there
      rw [bind_path_eq ih lastAt_eq_none]
    · rw [if_neg hpre, ih]
      simp only [hsome, hpre, or_false]

/-- The entries of the tree are the segments of its paths, each with the last path that has them. -/
theorem mem_entriesList_ofPaths (paths : List String) (key : List String) (path : String) :
    (key, path) ∈ entriesList (ofPaths paths).roots ↔ key ≠ [] ∧ lastAt paths key = some path := by
  cases key with
  | nil =>
    refine ⟨fun h => ?_, fun h => absurd rfl h.1⟩
    obtain ⟨f, -, rest, hrest⟩ := exists_of_mem_entriesList h
    cases hrest
  | cons first rest =>
    have hat := path_at?_ofPaths paths (List.cons_ne_nil first rest)
    have hpath := bind_path_eq hat lastAt_eq_none
    rw [mem_entriesList (ofPaths_tidy paths), ← hpath]
    exact (and_iff_right (List.cons_ne_nil first rest)).symm

/-- The tree lists the last path of each segments, in the order of the segments. -/
theorem mem_flatten_ofPaths (paths : List String) (path : String) :
    path ∈ (ofPaths paths).flatten ↔
      Path.segments path ≠ [] ∧ lastAt paths (Path.segments path) = some path := by
  rw [flatten, pathsList_eq, List.mem_map]
  constructor
  · rintro ⟨⟨key, p⟩, he, rfl⟩
    obtain ⟨hkey, hlast⟩ := (mem_entriesList_ofPaths paths key p).mp he
    obtain ⟨-, rfl⟩ := mem_of_lastAt hlast
    exact ⟨hkey, hlast⟩
  · intro h
    exact ⟨(Path.segments path, path), (mem_entriesList_ofPaths paths _ path).mpr h, rfl⟩

theorem flatten_ofPaths_ordered (paths : List String) :
    ((ofPaths paths).flatten.map Path.segments).Pairwise (List.Lex Before) := by
  have hkeys : (ofPaths paths).flatten.map Path.segments =
      (entriesList (ofPaths paths).roots).map Prod.fst := by
    rw [flatten, pathsList_eq, List.map_map]
    refine List.map_congr_left fun e he => ?_
    exact (mem_of_lastAt ((mem_entriesList_ofPaths paths e.1 e.2).mp he).2).2
  rw [hkeys]
  exact entriesList_ordered (ofPaths_tidy paths)

/-! ## Finding a folder -/

theorem find?_map_path (paths : List String) (q : String) :
    ((ofPaths paths).find? q).map Folder.path =
      if Path.segments q ≠ [] ∧ ∃ path ∈ paths, Path.segments q <+: Path.segments path
      then some (lastAt paths (Path.segments q)) else none := by
  by_cases h : Path.segments q = []
  · rw [if_neg fun hq => hq.1 h, find?, h, findAt?, Option.map_none]
  · have hroot : (ofPaths paths).find? q = (ofPaths paths).root.at? (Path.segments q) :=
      findAt?_eq h "" none
    rw [hroot, path_at?_ofPaths paths h]
    simp only [ne_eq, h, not_false_eq_true, true_and]

/-! ## Order and repetition -/

/-- Paths that differ in their segments make the same tree in every order. -/
theorem ofPaths_congr {paths others : List String} (hsame : ∀ p, p ∈ others ↔ p ∈ paths)
    (hone : ∀ p ∈ paths, ∀ q ∈ paths, Path.segments p = Path.segments q → p = q) :
    ofPaths others = ofPaths paths := by
  have hone' : ∀ p ∈ others, ∀ q ∈ others, Path.segments p = Path.segments q → p = q :=
    fun p hp q hq => hone p ((hsame p).mp hp) q ((hsame q).mp hq)
  have hlast : lastAt others = lastAt paths := by
    funext key
    refine Option.ext fun path => ?_
    rw [lastAt_eq_some_iff hone, lastAt_eq_some_iff hone', hsame]
  have hroots : (ofPaths others).roots = (ofPaths paths).roots := by
    refine TidyList.ext (ofPaths_tidy others) (ofPaths_tidy paths) fun first rest => ?_
    have hat := path_at?_ofPaths others (List.cons_ne_nil first rest)
    simp only [hsame, hlast] at hat
    exact hat.trans (path_at?_ofPaths paths (List.cons_ne_nil first rest)).symm
  exact congrArg ContentTree.mk hroots

/-- The tree of paths is the trie of their segments.

Siblings are in the order of their names, and no folder is there without a path that leads through
it. A folder is found just where a path leads through, with the last path that ends there. The tree
lists these paths in the order of their segments. Where no two of the paths differ only in their
slashes, neither the order of the paths nor how often they are given matters. -/
theorem ofPaths_is_trie (paths : List String) :
    TidyList (ofPaths paths).roots ∧
    (∀ q, ((ofPaths paths).find? q).isSome = true ↔
      Path.segments q ≠ [] ∧ ∃ path ∈ paths, Path.segments q <+: Path.segments path) ∧
    (∀ q f, (ofPaths paths).find? q = some f → f.path = lastAt paths (Path.segments q)) ∧
    (∀ path, path ∈ (ofPaths paths).flatten ↔
      Path.segments path ≠ [] ∧ lastAt paths (Path.segments path) = some path) ∧
    ((ofPaths paths).flatten.map Path.segments).Pairwise (List.Lex Before) ∧
    ((∀ p ∈ paths, ∀ q ∈ paths, Path.segments p = Path.segments q → p = q) →
      ∀ others : List String, (∀ p, p ∈ others ↔ p ∈ paths) → ofPaths others = ofPaths paths) := by
  refine ⟨ofPaths_tidy paths, fun q => ?_, fun q f hfound => ?_, mem_flatten_ofPaths paths,
    flatten_ofPaths_ordered paths, fun hone others hsame => ofPaths_congr hsame hone⟩
  · rw [← Option.isSome_map (f := Folder.path), find?_map_path]
    split <;> simp_all
  · have hpath := find?_map_path paths q
    rw [hfound] at hpath
    split at hpath
    · exact Option.some.inj hpath
    · cases hpath

theorem ofPaths_is_trie_of_shuffled :
    ofPaths ["/a", "b/x", "/a"] = ofPaths ["b/x", "/a"] :=
  (ofPaths_is_trie ["b/x", "/a"]).2.2.2.2.2 (by decide) _ (by simp [or_comm])

end ContentTree

end Compendium
