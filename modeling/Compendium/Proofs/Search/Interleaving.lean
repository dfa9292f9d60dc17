import Compendium.Proofs.Loading.Levels
import Compendium.Proofs.Loading.Pool
import Compendium.Site.Basic

/-!
# Searching all theories at once

A site searches by one program for each theory of the manifest, all sharing its cache. However their
requests interleave and in whatever order they end, the search ends, and the hits are those of the
search that loads one theory after the other: the matching records of the theories that could be
loaded, in the order of the manifest, the definitions of a theory before its theorems.

The source answers every request. Where requests are lost, a body that another program has kept can
save one, and the hits do depend on the schedule.
-/

namespace Compendium

open Loading

/-! ## Hits -/

namespace Search

def records (theory : Theory) : List Hit :=
  theory.definitions.map (.definition theory.name) ++ theory.theorems.map (.theorem_ theory.name)

/-- Whether a record matches a folded query. -/
def accepts (query : List Char) : Hit → Bool
  | .definition _ d => matchesDefinition query d
  | .theorem_ _ t => matchesTheorem query t

/-- The matching records of the theories that were loaded, one theory after the other. -/
def matching (query : String) (outcomes : List (Outcome Theory)) : List Hit :=
  (outcomes.filter (·.provenance.isLoaded)).flatMap fun outcome =>
    (records outcome.value).filter (accepts (folded query))

theorem hits_of_isLoaded (query : String) {outcome : Outcome Theory}
    (h : outcome.provenance.isLoaded = true) :
    hits query outcome = (records outcome.value).filter (accepts (folded query)) := by
  rw [hits, if_pos h, records, List.filter_append, List.filter_map, List.filter_map]
  rfl

theorem flatMap_hits (query : String) (outcomes : List (Outcome Theory)) :
    outcomes.flatMap (hits query) = matching query outcomes := by
  induction outcomes with
  | nil => rfl
  | cons outcome rest ih =>
    rw [List.flatMap_cons, ih, matching, matching]
    cases hloaded : outcome.provenance.isLoaded with
    | true =>
      rw [hits_of_isLoaded query hloaded, List.filter_cons, if_pos hloaded, List.flatMap_cons]
    | false =>
      have hnone : hits query outcome = [] := by
        rw [hits, hloaded]
        rfl
      rw [hnone, List.nil_append, List.filter_cons, if_neg]
      rw [hloaded]
      exact Bool.false_ne_true

/-! ## Searching one theory after the other -/

def inTheory (s : Settings) (query id : String) : Loading (List Hit) := do
  return hits query (← Loading.theory s id)

/-- The hits in the theories of the manifest, one theory after the other. -/
def inManifest (s : Settings) (query : String) : Loading (List Hit) := do
  inTheories s query (← Loading.categories s)

variable {source : String → Response}

theorem inTheory_transparent (s : Settings) (query id : String) :
    Transparent source (inTheory s query id) :=
  (theory_alike rfl id).left.bind (transparent_pure _)

theorem inManifest_transparent (s : Settings) (query : String) :
    Transparent source (inManifest s query) :=
  (categories_alike rfl).left.bind (inTheories_alike rfl query _).left

theorem inTheory_direct (s : Settings) (query id : String) :
    (inTheory s query id).direct source = hits query ((Loading.theory s id).direct source) :=
  direct_bind _ _

theorem inTheories_direct (s : Settings) (query : String) (ids : List String) :
    (inTheories s query ids).direct source =
      ids.flatMap fun id => hits query ((Loading.theory s id).direct source) := by
  induction ids with
  | nil => rfl
  | cons id rest ih =>
    rw [inTheories, direct_bind, direct_bind, ih, List.flatMap_cons]
    rfl

theorem inManifest_direct (s : Settings) (query : String) :
    (inManifest s query).direct source =
      ((Loading.categories s).direct source).flatMap fun id =>
        hits query ((Loading.theory s id).direct source) := by
  rw [inManifest, direct_bind, inTheories_direct]

end Search

/-! ## Sites whose requests are all answered -/

/-- No attempt fails if every path is answered. -/
theorem Loading.attempt_eq_run {α : Type} {source : String → Response}
    {answers : String → Option Response} (h : ∀ path, answers path = some (source path)) (now : Nat)
    (program : Loading α) (t : Trace) :
    program.attempt answers now t =
      (some (program.run source now t).1, (program.run source now t).2) := by
  induction program generalizing t with
  | done a => rfl
  | lookup path next ih => exact ih _ t
  | fetch path next ih =>
    rw [attempt, h path]
    exact ih (source path) (t.fetching path)
  | keep path body next ih => exact ih (t.keeping now path body)

namespace Site

/-- The answers of the site's source. -/
abbrev fetch (site : Site) : String → Response :=
  site.backend.source.fetch

/-- The source answers every request. If the cache is in use, the source answers by the normalized
path, and the cache mirrors it. -/
structure Steady (site : Site) : Prop where
  answered : ∀ path, site.backend.losesFetch path = false
  cached : site.settings.cache.enabled = true → NormalSource site.fetch ∧
    site.cache.Mirrors site.fetch

theorem Steady.fetch? {site : Site} (h : site.Steady) (path : String) :
    site.backend.fetch? path = some (site.fetch path) := by
  rw [Backend.fetch?, h.answered path]
  rfl

/-- Loading gives the direct value, and changes nothing but the cache, which stays a mirror if it is
one. -/
theorem Steady.load {α : Type} {site : Site} (h : site.Steady) (now : Nat) {program : Loading α}
    (huncached : site.settings.cache.enabled = false → Uncached program)
    (hprogram : Transparent site.fetch program) :
    ∃ cache, site.load now program =
        (some (program.direct site.fetch), { site with cache := cache }) ∧
      Steady { site with cache := cache } ∧
      (NormalSource site.fetch → site.cache.Mirrors site.fetch → cache.Mirrors site.fetch) := by
  have hmirrors : NormalSource site.fetch → site.cache.Mirrors site.fetch →
      (program.run site.fetch now (.start site.cache)).2.cache.Mirrors site.fetch :=
    fun hnormal hmirrors => (hprogram.run hnormal now _ (.start site.cache) hmirrors).2
  refine ⟨(program.run site.fetch now (.start site.cache)).2.cache, ?_, ⟨h.answered, ?_⟩, hmirrors⟩
  · rw [Site.load, attempt_eq_run h.fetch?, run_eq_direct huncached hprogram h.cached]
  · exact fun henabled =>
      ⟨(h.cached henabled).1, hmirrors (h.cached henabled).1 (h.cached henabled).2⟩

/-- Searching one theory after the other gives the hits of each. -/
theorem Steady.searchIn (site : Site) (h : site.Steady) (now : Nat) (query : String)
    (ids : List String) :
    (site.searchIn now query ids).1 = ids.flatMap fun id =>
      Search.hits query ((Loading.theory site.settings id).direct site.fetch) := by
  induction ids generalizing site with
  | nil => rfl
  | cons id rest ih =>
    obtain ⟨cache, hload, hsteady, -⟩ :=
      h.load now (fun hdisabled => theory_uncached hdisabled id) (theory_alike rfl id).left
    have hrest := ih { site with cache := cache } hsteady
    simp only [Site.searchIn, hload, hrest, List.flatMap_cons]

/-! ## Searching all theories at once -/

/-- The programs of a search, one for each theory of the manifest, none of which has started. -/
def searchPool (now : Nat) (query : String) (site : Site) : Pool (List Hit) :=
  let (ids, site) := site.load now (Loading.categories site.settings)
  .start site.cache ((ids.getD []).map (Search.inTheory site.settings query))

/-- The hits in the theories of the manifest, each loaded directly. -/
def directHits (query : String) (site : Site) : List (List Hit) :=
  ((Loading.categories site.settings).direct site.fetch).map fun id =>
    Search.hits query ((Loading.theory site.settings id).direct site.fetch)

/-- The answer of a search in order. -/
theorem Steady.search {site : Site} (h : site.Steady) (now : Nat) (query : String) :
    (site.search now query).1 = (site.directHits query).flatten := by
  obtain ⟨cache, hload, hsteady, -⟩ := h.load now categories_uncached (categories_alike rfl).left
  simp only [Site.search, hload, Option.getD_some, directHits]
  rw [hsteady.searchIn, List.flatMap_def]

/-- The answer of a search with one program for each theory. -/
theorem Steady.searchPool_faithful {site : Site} (h : site.Steady)
    (hsource : NormalSource site.fetch)
    (hmirrors : site.cache.Mirrors site.fetch) (now : Nat) (query : String) :
    (site.searchPool now query).Faithful site.fetch (site.directHits query) := by
  obtain ⟨cache, hload, -, hkeeps⟩ := h.load now categories_uncached (categories_alike rfl).left
  have hvalues : site.directHits query =
      (((Loading.categories site.settings).direct site.fetch).map
        (Search.inTheory site.settings query)).map (direct site.fetch) := by
    rw [directHits, List.map_map]
    apply List.map_congr_left
    intro id _
    exact (Search.inTheory_direct _ _ _).symm
  simp only [searchPool, hload, Option.getD_some]
  rw [hvalues]
  apply Pool.start_faithful (hkeeps hsource hmirrors)
  intro program hmem
  obtain ⟨id, _, rfl⟩ := List.mem_map.mp hmem
  exact Search.inTheory_transparent _ _ _

/-- On any mirror, the theories loaded one after the other have the hits of the theories loaded
directly. -/
theorem flatten_directHits {site : Site} (hsource : NormalSource site.fetch) (query : String)
    {cache : Cache} (hcache : cache.Mirrors site.fetch) (now : Nat) :
    (site.directHits query).flatten =
        ((Search.inManifest site.settings query).run site.fetch now (.start cache)).1 ∧
      (site.directHits query).flatten =
        Search.matching query
          (((Loading.categories site.settings).run site.fetch now (.start cache)).1.map
            fun id =>
              ((Loading.theory site.settings id).run site.fetch now (.start cache)).1) := by
  have hvalue {α : Type} (program : Loading α)
      (hprogram : Transparent site.fetch program) :
      (program.run site.fetch now (.start cache)).1 =
        program.direct site.fetch :=
    (hprogram.run hsource now program (.start cache) hcache).1
  constructor
  · rw [hvalue _ (Search.inManifest_transparent _ _), Search.inManifest_direct, List.flatMap_def]
    rfl
  · rw [hvalue _ (categories_alike rfl).left, ← Search.flatMap_hits, directHits, List.flatMap_def,
      List.map_map]
    congr 1
    apply List.map_congr_left
    intro id _
    exact congrArg (Search.hits query) (hvalue _ (theory_alike rfl id).left).symm

/-- However the programs of a search interleave, and in whatever order they end: there is a bound on
their steps, they can go on until all have ended, and then the hits are those of the search that
loads one theory after the other, from any cache that calls on the source lead to. -/
theorem search_any_schedule (site : Site) (query : String) (now : Nat)
    (hsource : NormalSource site.fetch) (hanswered : ∀ path, site.backend.losesFetch path = false)
    (hcache : Reachable site.fetch site.cache) :
    (∃ bound, ∀ n pool, Pool.Run site.fetch n (site.searchPool now query) pool → n ≤ bound) ∧
    ∀ n pool, Pool.Run site.fetch n (site.searchPool now query) pool →
      (pool.pending ≠ [] → ∃ next, Pool.Step site.fetch pool next) ∧
      (pool.pending = [] →
        pool.results.flatten = (site.search now query).1 ∧
        ∀ later cache, Reachable site.fetch cache →
          pool.results.flatten =
              ((Search.inManifest site.settings query).run site.fetch later (.start cache)).1 ∧
            pool.results.flatten =
              Search.matching query
                (((Loading.categories site.settings).run site.fetch later (.start cache)).1.map
                  fun id =>
                    ((Loading.theory site.settings id).run site.fetch later
                      (.start cache)).1)) := by
  have hmirrors := hcache.mirrors hsource
  have hsteady : site.Steady := ⟨hanswered, fun _ => ⟨hsource, hmirrors⟩⟩
  have hstart := hsteady.searchPool_faithful hsource hmirrors now query
  refine ⟨⟨Pool.stepsLeft site.fetch (site.searchPool now query).pending, ?_⟩, ?_⟩
  · intro n pool hrun
    have hbound := (hstart.run hsource hrun).2
    omega
  · intro n pool hrun
    refine ⟨pool.exists_step, fun hdone => ?_⟩
    rw [(hstart.run hsource hrun).1.results hdone]
    refine ⟨(hsteady.search now query).symm, fun later cache hreachable => ?_⟩
    exact flatten_directHits hsource query (hreachable.mirrors hsource) later

/-- A site with files in memory that probes no paths for theories. -/
def ofFiles (files : MemoryFiles) (cache : Cache) : Site where
  settings := { content := { theoryBases := [] } }
  backend := { source := files.source }
  cache := cache

theorem ofFiles_fetch (files : MemoryFiles) (cache : Cache) :
    (ofFiles files cache).fetch = files.fetch :=
  rfl

theorem ofFiles_cache (files : MemoryFiles) (cache : Cache) : (ofFiles files cache).cache = cache :=
  rfl

/-- Two theories in a manifest; the second one has no files. -/
def shelf : MemoryFiles :=
  [("/manifest.json", ⟨200, Response.jsonType,
      "[[[\"logic\", \"Logic\", 1, [[\"/theorems.json\"]]], [\"sets\", \"Sets\"]]]"⟩),
    ("/theorems.json", ⟨200, Response.jsonType, "[\x7b\x7d]"⟩)]

/-- The site of these files after it has warmed its cache. -/
def shelfSite : Site :=
  ofFiles shelf ((Call.ask .warm).perform shelf.fetch {} 1 .empty).2

theorem search_any_schedule_shelf :
    NormalSource shelfSite.fetch ∧ (∀ path, shelfSite.backend.losesFetch path = false) ∧
      Reachable shelfSite.fetch shelfSite.cache ∧
      ∀ n pool, Pool.Run shelfSite.fetch n (shelfSite.searchPool 2 "unknown") pool →
        pool.pending = [] →
        pool.results.flatten = [.theorem_ "Logic" ⟨"Unknown", "", "", [], []⟩] := by
  have hsource : NormalSource shelfSite.fetch := by
    rw [shelfSite, ofFiles_fetch]
    exact MemoryFiles.normalSource shelf
  have hanswered : ∀ path, shelfSite.backend.losesFetch path = false := fun _ => rfl
  have hcache : Reachable shelfSite.fetch shelfSite.cache := by
    rw [shelfSite, ofFiles_fetch, ofFiles_cache]
    exact .perform {} 1 (.ask .warm) .empty .empty
  have hhits : (shelfSite.search 2 "unknown").1 =
      [.theorem_ "Logic" ⟨"Unknown", "", "", [], []⟩] := by
    decide +kernel
  refine ⟨hsource, hanswered, hcache, fun n pool hrun hdone => ?_⟩
  obtain ⟨_, hruns⟩ := search_any_schedule shelfSite "unknown" 2 hsource hanswered hcache
  rw [((hruns n pool hrun).2 hdone).1, hhits]

end Site

end Compendium
