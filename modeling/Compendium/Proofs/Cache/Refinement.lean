import Compendium.Loading.Theory
import Compendium.Proofs.Cache.Snapshot
import Compendium.Proofs.Loading.Mirror
import Mathlib.Data.Set.Card
import Mathlib.Logic.Function.Basic

/-!
# The cache is a map from locations to bodies

However a path is spelled, the cache keeps one body at the location it leads to. `Contents` is the
map of these bodies. Each operation on a cache changes the contents in the one way that
`Edit.effect` says, and reports what `Edit.Answers` says of them; a snapshot that was saved before,
in any order of its entries, puts its own contents in their place. The source may answer differently
at every operation.

Times are not part of the contents, and two bodies with one digest count as unchanged.
-/

namespace Compendium

namespace Cache

open Compendium.Path (Location location ofLocation)

/-- The bodies kept at locations. -/
abbrev Contents := Location → Option String

namespace Contents

def domain (c : Contents) : Set Location :=
  { l | (c l).isSome = true }

theorem mem_domain {c : Contents} {l : Location} : l ∈ c.domain ↔ (c l).isSome = true :=
  Iff.rfl

def put (path body : String) (c : Contents) : Contents :=
  Function.update c (location path) (some body)

/-- The bodies that a source has for paths are put at their locations, one after the other. -/
def populate (source : String → Response) (paths : List String) (c : Contents) : Contents :=
  paths.foldl (fun c path =>
    if (source path).isUsable then c.put path (source path).body else c) c

def fetched (source : String → Response) (l : Location) : Option String :=
  let r := source (ofLocation l)
  if r.isUsable then some r.body else none

/-- Every location with a body has the one that the source has there now, or none if it has none. -/
def refresh (source : String → Response) (c : Contents) : Contents :=
  fun l => if (c l).isSome then fetched source l else none

/-- The source does not have the kept body any more, or one with another digest. -/
def Stale (source : String → Response) (c : Contents) (l : Location) : Prop :=
  ∃ body, c l = some body ∧ ((source (ofLocation l)).isUsable = false ∨
    Digest.sha256 (Text.utf8 body.toList) ≠
      Digest.sha256 (Text.utf8 (source (ofLocation l)).body.toList))

end Contents

/-! ## Operations -/

/-- A change to a cache. -/
inductive Edit where
  | insert (path body : String)
  | invalidate (path : String)
  | clear
  | populate (paths : List String)
  | refresh

/-- What a change reports: whether there was a body, how many bodies were stored, or which paths
have changed. -/
inductive Report where
  | silent
  | found (was : Bool)
  | stored (count : Nat)
  | changed (paths : List String)

namespace Edit

/-- Performs a change at a time. -/
def perform (source : String → Response) (now : Nat) : Edit → Cache → Report × Cache
  | insert path body, cache => (.silent, cache.keep now path body)
  | invalidate path, cache =>
    let (was, cache) := cache.drop path
    (.found was, cache)
  | clear, _ => (.silent, .empty)
  | populate paths, cache =>
    let (count, trace) := (Loading.warmPaths paths).run source now (.start cache)
    (.stored count, trace.cache)
  | refresh, cache =>
    let (paths, cache) := cache.refresh source now
    (.changed paths, cache)

/-- What a change does to the contents. -/
def effect (source : String → Response) : Edit → Contents → Contents
  | insert path body, c => c.put path body
  | invalidate path, c => Function.update c (location path) none
  | clear, _ => fun _ => none
  | populate paths, c => c.populate source paths
  | refresh, c => c.refresh source

/-- What a change reports of the contents before it. Paths that have changed are listed in order,
each once. -/
def Answers (source : String → Response) (c : Contents) : Edit → Report → Prop
  | insert _ _, report => report = .silent
  | invalidate path, report => report = .found (c (location path)).isSome
  | clear, report => report = .silent
  | populate paths, report => report = .stored (paths.countP fun path => (source path).isUsable)
  | refresh, report =>
    ∃ paths, report = .changed paths ∧ paths.Pairwise (· < ·) ∧
      ∀ path, path ∈ paths ↔ ∃ l, ofLocation l = path ∧ c.Stale source l

end Edit

/-- The caches that operations lead to from an empty one, with the contents they stand for. -/
inductive Reached : Cache → Contents → Prop where
  | empty : Reached .empty fun _ => none
  | edit {cache : Cache} {c : Contents} (source : String → Response) (now : Nat) (e : Edit) :
    Reached cache c → Reached (e.perform source now cache).2 (e.effect source c)
  | load {cache saved : Cache} {c c' : Contents} {entries : List (String × CachedBody)} :
    Reached cache c → Reached saved c' → Snapshot.Fits saved → entries.Perm saved →
      Reached (Snapshot.load (Snapshot.layout Snapshot.currentVersion entries) cache).2 c'

/-! ## What a cache keeps of its contents -/

/-- Entries are in order, at normalized paths and with their digests, and hold the contents. -/
structure Keeps (cache : Cache) (c : Contents) : Prop where
  ordered : Dict.Ordered cache
  entry : ∀ key kept, cache.get? key = some kept →
    Path.normalize key = key ∧ kept.digest = Digest.sha256 (Text.utf8 kept.body.toList)
  body : ∀ l, (cache.get? (ofLocation l)).map (·.body) = c l

variable {cache : Cache} {c : Contents}

/-- The start of a session. -/
theorem keeps_empty : Keeps .empty fun _ => none where
  ordered := Dict.ordered_nil
  entry _ _ h := by cases h
  body _ := rfl

/-- Reading goes through the relation. -/
theorem Keeps.lookup (h : Keeps cache c) (path : String) :
    (cache.lookup path).map (·.body) = c (location path) := by
  rw [Cache.lookup, ← Path.ofLocation_location]
  exact h.body (location path)

theorem Keeps.insert (h : Keeps cache c) (now : Nat) (l : Location) (body : String) :
    Keeps (Dict.insert (ofLocation l) (CachedBody.ofBody now body) cache)
      (Function.update c l (some body)) where
  ordered := h.ordered.insert _ _
  entry key kept hget := by
    rw [Dict.get?_insert] at hget
    split at hget
    next heq =>
      cases hget
      exact ⟨heq ▸ Path.normalize_ofLocation l, rfl⟩
    next => exact h.entry key kept hget
  body other := by
    rw [Dict.get?_insert, Function.update_apply]
    simp only [Path.ofLocation_inj]
    split
    · rfl
    · exact h.body other

/-- Writing goes through the relation. -/
theorem Keeps.keep (h : Keeps cache c) (now : Nat) (path body : String) :
    Keeps (cache.keep now path body) (c.put path body) := by
  rw [Cache.keep, ← Path.ofLocation_location]
  exact h.insert now (location path) body

theorem Keeps.erase (h : Keeps cache c) (l : Location) :
    Keeps (Dict.erase (ofLocation l) cache) (Function.update c l none) where
  ordered := h.ordered.erase _
  entry key kept hget := by
    rw [h.ordered.get?_erase] at hget
    split at hget
    · cases hget
    · exact h.entry key kept hget
  body other := by
    rw [h.ordered.get?_erase, Function.update_apply]
    simp only [Path.ofLocation_inj]
    split
    · rfl
    · exact h.body other

/-- Forgetting goes through the relation. -/
theorem Keeps.invalidate (h : Keeps cache c) (path : String) :
    Keeps (cache.invalidate path) (Function.update c (location path) none) := by
  rw [Cache.invalidate, ← Path.ofLocation_location]
  exact h.erase (location path)

/-! ## Populating -/

theorem warmPath_run (source : String → Response) (now : Nat) (path : String) (t : Loading.Trace) :
    ((Loading.warmPath path).run source now t).1 = (source path).isUsable ∧
      ((Loading.warmPath path).run source now t).2.cache =
        if (source path).isUsable then t.cache.keep now path (source path).body else t.cache := by
  rw [Loading.warmPath, Loading.run]
  by_cases husable : (source path).isUsable = true
  · simp only [husable, if_true]
    exact ⟨rfl, rfl⟩
  · simp only [husable]
    exact ⟨rfl, rfl⟩

/-- Populating puts the usable bodies at their locations, and counts them. -/
theorem Keeps.warmPaths (source : String → Response) (now : Nat) (paths : List String)
    (t : Loading.Trace) (h : Keeps t.cache c) :
    ((Loading.warmPaths paths).run source now t).1 =
        (paths.countP fun path => (source path).isUsable) ∧
      Keeps ((Loading.warmPaths paths).run source now t).2.cache (c.populate source paths) := by
  induction paths generalizing t c with
  | nil => exact ⟨rfl, h⟩
  | cons path rest ih =>
    obtain ⟨hcount, hcache⟩ := warmPath_run source now path t
    have hfirst : Keeps ((Loading.warmPath path).run source now t).2.cache
        (if (source path).isUsable then c.put path (source path).body else c) := by
      rw [hcache]
      split
      · exact h.keep now path _
      · exact h
    obtain ⟨hrest, hkeeps⟩ := ih _ hfirst
    rw [Loading.warmPaths, Loading.run_bind, Loading.run_bind, hcount]
    refine ⟨?_, hkeeps⟩
    show (if (source path).isUsable = true then 1 else 0) + _ = _
    rw [hrest, List.countP_cons, Nat.add_comm]

/-! ## Refreshing -/

theorem refreshPaths_cons (source : String → Response) (now : Nat) (path : String)
    (rest : List String) (cache : Cache) :
    refreshPaths source now (path :: rest) cache =
      (if (refreshPath source now path cache).1 then
        path :: (refreshPaths source now rest (refreshPath source now path cache).2).1
      else (refreshPaths source now rest (refreshPath source now path cache).2).1,
      (refreshPaths source now rest (refreshPath source now path cache).2).2) :=
  rfl

theorem refreshPaths_sublist (source : String → Response) (now : Nat) (paths : List String)
    (cache : Cache) : (refreshPaths source now paths cache).1.Sublist paths := by
  induction paths generalizing cache with
  | nil => exact .slnil
  | cons path rest ih =>
    rw [refreshPaths_cons]
    split
    · exact (ih _).cons_cons path
    · exact (ih _).cons path

/-- One step of a refresh. -/
theorem Keeps.refreshPath (h : Keeps cache c) (source : String → Response) (now : Nat)
    (l : Location) :
    Keeps (Cache.refreshPath source now (ofLocation l) cache).2
      (Function.update c l (Contents.fetched source l)) := by
  rw [Cache.refreshPath, Contents.fetched]
  by_cases husable : (source (ofLocation l)).isUsable = true
  · simp only [husable, if_true]
    exact h.insert now l _
  · simp only [husable]
    have hdropped := h.invalidate (ofLocation l)
    rw [Path.location_ofLocation] at hdropped
    exact hdropped

/-- A step reports exactly the stale locations. -/
theorem Keeps.refreshPath_iff (h : Keeps cache c) (source : String → Response) (now : Nat)
    {l : Location} (hl : l ∈ c.domain) :
    (Cache.refreshPath source now (ofLocation l) cache).1 = true ↔ c.Stale source l := by
  obtain ⟨body, hbody⟩ := Option.isSome_iff_exists.mp hl
  obtain ⟨kept, hget, hkept⟩ := Option.map_eq_some_iff.mp ((h.body l).trans hbody)
  have hdigest := (h.entry _ _ hget).2
  rw [hkept] at hdigest
  have hstale : c.Stale source l ↔ ((source (ofLocation l)).isUsable = false ∨
      kept.digest ≠ Digest.sha256 (Text.utf8 (source (ofLocation l)).body.toList)) := by
    rw [hdigest]
    constructor
    · rintro ⟨other, hother, hchanged⟩
      cases hbody.symm.trans hother
      exact hchanged
    · intro hchanged
      exact ⟨body, hbody, hchanged⟩
  rw [hstale, Cache.refreshPath]
  by_cases husable : (source (ofLocation l)).isUsable = true
  · simp [husable, hget, CachedBody.ofBody]
  · simp [husable]

/-- Refreshing locations one after the other: each is compared with what was there at the start,
since no other location has written to it. -/
theorem Keeps.refreshPaths (h : Keeps cache c) (source : String → Response) (now : Nat)
    {ls : List Location} (hnodup : ls.Nodup) (hls : ∀ l ∈ ls, l ∈ c.domain) :
    Keeps (Cache.refreshPaths source now (ls.map ofLocation) cache).2
        (fun l => if l ∈ ls then Contents.fetched source l else c l) ∧
      ∀ path, path ∈ (Cache.refreshPaths source now (ls.map ofLocation) cache).1 ↔
        ∃ l ∈ ls, ofLocation l = path ∧ c.Stale source l := by
  induction ls generalizing cache c with
  | nil => exact ⟨by simpa [Cache.refreshPaths] using h, by simp [Cache.refreshPaths]⟩
  | cons l rest ih =>
    obtain ⟨hnew, hnodup⟩ := List.nodup_cons.mp hnodup
    obtain ⟨hl, hrest⟩ := List.forall_mem_cons.mp hls
    have hother : ∀ other ∈ rest,
        Function.update c l (Contents.fetched source l) other = c other := by
      intro other hmem
      have hne : other ≠ l := fun heq => hnew (heq ▸ hmem)
      exact Function.update_of_ne hne _ _
    obtain ⟨hkeeps, hchanged⟩ := ih (h.refreshPath source now l) hnodup fun other hmem => by
      rw [Contents.mem_domain, hother other hmem]
      exact hrest other hmem
    rw [List.map_cons, refreshPaths_cons]
    constructor
    · convert hkeeps using 2 with other
      by_cases heq : other = l
      · subst heq
        simp [hnew]
      · simp [heq]
    · intro path
      have hfirst := h.refreshPath_iff source now hl
      have hlater : path ∈ (Cache.refreshPaths source now (rest.map ofLocation)
          (Cache.refreshPath source now (ofLocation l) cache).2).1 ↔
            ∃ other ∈ rest, ofLocation other = path ∧ c.Stale source other := by
        rw [hchanged]
        refine exists_congr fun other => and_congr_right fun hmem => ?_
        rw [Contents.Stale, Contents.Stale, hother other hmem]
      have hcons : (∃ other ∈ l :: rest, ofLocation other = path ∧ c.Stale source other) ↔
          (ofLocation l = path ∧ c.Stale source l) ∨
            ∃ other ∈ rest, ofLocation other = path ∧ c.Stale source other := by
        simp only [List.mem_cons, exists_eq_or_imp]
      by_cases hstale : c.Stale source l
      · rw [if_pos (hfirst.mpr hstale), List.mem_cons, hlater, hcons]
        exact or_congr_left ⟨fun heq => ⟨heq.symm, hstale⟩, fun heq => heq.1.symm⟩
      · rw [if_neg fun hsame => hstale (hfirst.mp hsame), hlater, hcons]
        exact ⟨.inr, fun hany => hany.resolve_left fun heq => hstale heq.2⟩

/-- The keys are the paths of the locations with a body, each once. -/
theorem Keeps.exists_locations (h : Keeps cache c) :
    ∃ ls : List Location, cache.keys = ls.map ofLocation ∧ ls.Nodup ∧ ∀ l, l ∈ ls ↔
      l ∈ c.domain := by
  have hnormal : ∀ key ∈ cache.keys, ofLocation (location key) = key := by
    intro key hkey
    obtain ⟨kept, hget⟩ := Option.isSome_iff_exists.mp (Dict.mem_keys_iff.mp hkey)
    rw [Path.ofLocation_location]
    exact (h.entry key kept hget).1
  have hkeys : cache.keys = (cache.keys.map location).map ofLocation := by
    rw [List.map_map]
    exact ((List.map_congr_left hnormal).trans (List.map_id' _)).symm
  refine ⟨cache.keys.map location, hkeys, ?_, ?_⟩
  · have hnodup := h.ordered.nodup
    rw [hkeys] at hnodup
    exact hnodup.of_map
  · intro l
    have hdomain : l ∈ c.domain ↔ ofLocation l ∈ cache.keys := by
      rw [Dict.mem_keys_iff, ← Option.isSome_map, h.body l, Contents.mem_domain]
    rw [hdomain, List.mem_map]
    constructor
    · rintro ⟨key, hkey, rfl⟩
      rw [hnormal key hkey]
      exact hkey
    · intro hmem
      exact ⟨ofLocation l, hmem, Path.location_ofLocation l⟩

/-- All steps of a refresh. -/
theorem Keeps.refresh (h : Keeps cache c) (source : String → Response) (now : Nat) :
    Keeps (Cache.refresh source now cache).2 (c.refresh source) ∧
      ∀ path, path ∈ (Cache.refresh source now cache).1 ↔
        ∃ l, ofLocation l = path ∧ c.Stale source l := by
  obtain ⟨ls, hkeys, hnodup, hls⟩ := h.exists_locations
  obtain ⟨hkeeps, hchanged⟩ := h.refreshPaths source now hnodup fun l => (hls l).mp
  rw [Cache.refresh, hkeys]
  constructor
  · convert hkeeps using 2 with l
    rw [Contents.refresh]
    by_cases hl : l ∈ c.domain
    · rw [if_pos ((hls l).mpr hl), if_pos (Contents.mem_domain.mp hl)]
    · have hnone : c l = none := by simpa [Contents.mem_domain] using hl
      rw [if_neg fun hmem => hl ((hls l).mp hmem), hnone]
      rfl
  · intro path
    rw [hchanged]
    constructor
    · rintro ⟨l, -, hl⟩
      exact ⟨l, hl⟩
    · rintro ⟨l, rfl, hstale⟩
      obtain ⟨body, hbody, hchanged⟩ := hstale
      have hl : l ∈ c.domain := by simp [Contents.mem_domain, hbody]
      exact ⟨l, (hls l).mpr hl, rfl, body, hbody, hchanged⟩

/-! ## Sessions -/

/-- One operation follows its effect. -/
theorem Keeps.perform (h : Keeps cache c) (source : String → Response) (now : Nat) (e : Edit) :
    Keeps (e.perform source now cache).2 (e.effect source c) := by
  cases e with
  | insert path body => exact h.keep now path body
  | invalidate path => exact h.invalidate path
  | clear => exact keeps_empty
  | populate paths => exact (Keeps.warmPaths source now paths (.start cache) h).2
  | refresh => exact (h.refresh source now).1

/-- Every answer can be told from the contents. -/
theorem Keeps.answers (h : Keeps cache c) (source : String → Response) (now : Nat) (e : Edit) :
    e.Answers source c (e.perform source now cache).1 := by
  cases e with
  | insert path body => rfl
  | invalidate path =>
    show Report.found (cache.lookup path).isSome = .found (c (location path)).isSome
    rw [← h.lookup path, Option.isSome_map]
  | clear => rfl
  | populate paths =>
    exact congrArg Report.stored (Keeps.warmPaths source now paths (.start cache) h).1
  | refresh =>
    exact ⟨_, rfl, h.ordered.sublist (refreshPaths_sublist source now _ cache),
      (h.refresh source now).2⟩

theorem Reached.keeps (h : Reached cache c) : Keeps cache c := by
  induction h with
  | empty => exact keeps_empty
  | edit source now e _ ih => exact ih.perform source now e
  | load _ _ hfits hperm _ ih =>
    rw [Snapshot.load_layout ih.ordered hfits hperm]
    exact ih

/-- The cache reads as its contents: however a path is spelled, it leads to the entry of its
location; the keys are those of the locations with a body, in order, each once. -/
structure Represents (cache : Cache) (c : Contents) : Prop where
  normal : ∀ key ∈ cache.keys, Path.normalize key = key
  digest : ∀ key kept, cache.get? key = some kept →
    kept.digest = Digest.sha256 (Text.utf8 kept.body.toList)
  lookup : ∀ path, (cache.lookup path).map (·.body) = c (location path)
  respell : ∀ path other, location path = location other → cache.lookup path = cache.lookup other
  ordered : cache.keys.Pairwise (· < ·)
  mem_keys : ∀ key, key ∈ cache.keys ↔ ∃ l ∈ c.domain, ofLocation l = key
  length : cache.length = c.domain.ncard

theorem Keeps.represents (h : Keeps cache c) : Represents cache c := by
  obtain ⟨ls, hkeys, hnodup, hls⟩ := h.exists_locations
  refine ⟨?_, fun key kept hget => (h.entry key kept hget).2, h.lookup, ?_, h.ordered, ?_, ?_⟩
  · intro key hkey
    rw [hkeys] at hkey
    obtain ⟨l, -, rfl⟩ := List.mem_map.mp hkey
    exact Path.normalize_ofLocation l
  · intro path other hsame
    rw [Cache.lookup, Cache.lookup, ← Path.ofLocation_location, hsame, Path.ofLocation_location]
  · intro key
    simp only [hkeys, List.mem_map, hls]
  · have hlength : cache.length = ls.length := by
      rw [← List.length_map (f := ofLocation), ← hkeys, Dict.keys, List.length_map]
    have hdomain : c.domain = (ls.toFinset : Set Location) := by
      ext l
      rw [List.coe_toFinset]
      exact (hls l).symm
    rw [hlength, hdomain, Set.ncard_coe_finset, List.toFinset_card_of_nodup hnodup]

/-- In every session a cache reads as its contents, each operation changes them as it should and
reports on them, and loading a snapshot of a cache from such a session reports how many bodies it
has. -/
theorem reached_represents (h : Reached cache c) :
    Represents cache c ∧
      (∀ source now (e : Edit), e.Answers source c (e.perform source now cache).1 ∧
        Represents (e.perform source now cache).2 (e.effect source c)) ∧
      ∀ saved c' entries, Reached saved c' → Snapshot.Fits saved → entries.Perm saved →
        (Snapshot.load (Snapshot.layout Snapshot.currentVersion entries) cache).1 =
            .ok c'.domain.ncard ∧
          Represents
            (Snapshot.load (Snapshot.layout Snapshot.currentVersion entries) cache).2 c' := by
  refine ⟨h.keeps.represents, ?_, ?_⟩
  · intro source now e
    exact ⟨h.keeps.answers source now e, (h.keeps.perform source now e).represents⟩
  · intro saved c' entries hsaved hfits hperm
    have hrepresents := hsaved.keeps.represents
    rw [Snapshot.load_layout hsaved.keeps.ordered hfits hperm]
    exact ⟨congrArg Except.ok hrepresents.length, hrepresents⟩

/-- A source with one body. -/
def single (path : String) : Response :=
  if Path.normalize path = "/a.json" then ⟨200, Response.jsonType, "1"⟩ else .failed 404

/-- A body is written under one spelling of its path and read under another, a path that is
populated twice counts twice, and what the source does not have is reported and dropped by a
refresh. -/
theorem reached_represents_single :
    ∃ cache c, Reached cache c ∧ (cache.lookup "b.json/").map (·.body) = some "2" ∧
      ((Edit.populate ["a.json", "/a.json", "/c.json"]).perform single 1 cache).1 = .stored 2 ∧
      (Edit.refresh.perform single 2 cache).1 = .changed ["/b.json"] ∧
      (Edit.refresh.perform single 2 cache).2.length = Set.ncard (c.refresh single).domain := by
  have hreached : Reached ((Edit.insert "//b.json" "2").perform single 0 .empty).2
      (Contents.put "//b.json" "2" fun _ => none) := .edit single 0 (.insert "//b.json" "2") .empty
  obtain ⟨hrepresents, hedits, -⟩ := reached_represents hreached
  refine ⟨_, _, hreached, ?_, ?_, rfl, (hedits single 2 .refresh).2.length⟩
  · rw [hrepresents.lookup]
    decide
  · exact (hedits single 1 (.populate ["a.json", "/a.json", "/c.json"])).1

end Cache

end Compendium
