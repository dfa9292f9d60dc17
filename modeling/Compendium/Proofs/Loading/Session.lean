import Compendium.Proofs.Loading.Transparency

/-!
# Sessions of a loader

A session is a list of calls, each at its time, that share one cache: queries run a loading program,
the other calls change the cache. From an empty cache every call leaves a mirror of the source, so
that every query is answered as if nothing were kept, and the answers do not show whether the cache
is used.

The source stays the same during a session. What the calls report about the cache itself (the paths
that a refresh finds changed, whether an invalidated path was there) is not part of an answer.
-/

namespace Compendium

/-- The settings with the cache switched on or off. -/
def Settings.caching (enabled : Bool) (s : Settings) : Settings :=
  { s with cache := { s.cache with enabled } }

namespace Loading

/-- A question that a loading program answers. -/
inductive Query where
  | json (path : String)
  | manifest
  | theory (reference : String)
  | document (id : String)
  | search (text : String) (ids : List String)
  | categories
  | warm

/-- The answer to a query. -/
inductive Answer where
  | json (result : Except LoadError Json)
  | manifest (result : Except LoadError Manifest)
  | theory (outcome : Outcome Theory)
  | document (outcome : Outcome Document)
  | hits (hits : List Hit)
  | categories (ids : List String)
  | kept (count : Nat)

namespace Query

def program (s : Settings) : Query → Loading Answer
  | json path => do return .json (← Loading.json s path)
  | manifest => do return .manifest (← Loading.manifest s)
  | theory reference => do return .theory (← Loading.theory s reference)
  | document id => do return .document (← Loading.document s id)
  | search text ids => do return .hits (← Search.inTheories s text ids)
  | categories => do return .categories (← Loading.categories s)
  | warm => do return .kept (← Loading.warm s)

/-- What a query asks for depends on the content settings only. -/
theorem program_alike {source : String → Response} {s t : Settings}
    (hcontent : s.content = t.content)
    (query : Query) : Alike source (query.program s) (query.program t) := by
  cases query with
  | json path => exact (json_alike s t path).bind (alike_done _)
  | manifest => exact (manifest_alike hcontent).bind (alike_done _)
  | theory reference => exact (theory_alike hcontent reference).bind (alike_done _)
  | document id => exact (document_alike hcontent id).bind (alike_done _)
  | search text ids => exact (inTheories_alike hcontent text ids).bind (alike_done _)
  | categories => exact (categories_alike hcontent).bind (alike_done _)
  | warm => exact (warm_alike hcontent).bind (alike_done _)

end Query

/-- What is asked of a loader: a query, or a change to the cache. -/
inductive Call where
  | ask (query : Query)
  | refresh
  | invalidate (path : String)
  | clear

namespace Call

/-- Performs a call at a time: the answer if the call is a query, and the cache afterwards. -/
def perform (source : String → Response) (s : Settings) (now : Nat) :
    Call → Cache → Option Answer × Cache
  | ask query, cache =>
    let (answer, trace) := (query.program s).run source now (.start cache)
    (some answer, trace.cache)
  | refresh, cache => (none, (cache.refresh source now).2)
  | invalidate path, cache => (none, cache.invalidate path)
  | clear, _ => (none, .empty)

/-- The answer to a call that finds nothing in the cache. -/
def direct (source : String → Response) (s : Settings) : Call → Option Answer
  | ask query => some ((query.program s).direct source)
  | _ => none

theorem direct_congr {source : String → Response} {s t : Settings}
    (hcontent : s.content = t.content)
    (call : Call) : call.direct source s = call.direct source t := by
  cases call with
  | ask query => exact congrArg some (query.program_alike hcontent).value
  | refresh => rfl
  | invalidate path => rfl
  | clear => rfl

variable {source : String → Response}

/-- On a mirror a call gives the direct answer, and leaves a mirror. -/
theorem perform_mirrors (hsource : NormalSource source) (s : Settings) (now : Nat) (call : Call)
    {cache : Cache} (hcache : cache.Mirrors source) :
    (call.perform source s now cache).1 = call.direct source s ∧
      (call.perform source s now cache).2.Mirrors source := by
  cases call with
  | ask query =>
    have htransparent : Transparent source (query.program s) := (query.program_alike rfl).left
    obtain ⟨hanswer, hmirror⟩ := htransparent.run hsource now _ (.start cache) hcache
    exact ⟨congrArg some hanswer, hmirror⟩
  | refresh => exact ⟨rfl, hcache.refresh now⟩
  | invalidate path => exact ⟨rfl, hcache.invalidate path⟩
  | clear => exact ⟨rfl, Cache.mirrors_empty⟩

end Call

def answers (source : String → Response) (s : Settings) :
    List (Nat × Call) → Cache → List (Option Answer)
  | [], _ => []
  | (now, call) :: rest, cache =>
    let (answer, next) := call.perform source s now cache
    answer :: answers source s rest next

/-- The caches that calls on a source lead to, with any settings and at any times. -/
inductive Reachable (source : String → Response) : Cache → Prop where
  | empty : Reachable source .empty
  | perform (s : Settings) (now : Nat) (call : Call) (cache : Cache) :
    Reachable source cache → Reachable source (call.perform source s now cache).2

variable {source : String → Response}

/-- By induction on the session: every call keeps a mirror. -/
theorem Reachable.mirrors (hsource : NormalSource source) {cache : Cache}
    (h : Reachable source cache) : cache.Mirrors source := by
  induction h with
  | empty => exact Cache.mirrors_empty
  | perform s now call cache _ ih => exact (call.perform_mirrors hsource s now ih).2

/-- On a mirror a session gives the direct answers. -/
theorem answers_mirrors (hsource : NormalSource source) (s : Settings) (calls : List (Nat × Call))
    {cache : Cache} (hcache : cache.Mirrors source) :
    answers source s calls cache = calls.map fun timed => timed.2.direct source s := by
  induction calls generalizing cache with
  | nil => rfl
  | cons timed rest ih =>
    obtain ⟨now, call⟩ := timed
    obtain ⟨hanswer, hmirror⟩ := call.perform_mirrors hsource s now hcache
    simp only [answers, hanswer, ih hmirror, List.map_cons]

/-- The answers of a session do not show whether the cache is used. -/
theorem answers_caching (hsource : NormalSource source) (s : Settings) (calls : List (Nat × Call)) :
    answers source (s.caching true) calls .empty =
      answers source (s.caching false) calls .empty := by
  rw [answers_mirrors hsource _ calls Cache.mirrors_empty,
    answers_mirrors hsource _ calls Cache.mirrors_empty]
  apply List.map_congr_left
  intro timed _
  have hcontent : (s.caching true).content = (s.caching false).content := rfl
  exact timed.2.direct_congr hcontent

/-- A manifest that is granted as JSON and is none. -/
def brokenManifest : MemoryFiles :=
  .put "manifest.json" ⟨200, Response.jsonType, "[true"⟩ []

def brokenCalls : List (Nat × Call) :=
  [(1, .ask .warm), (2, .ask (.json "manifest.json")), (3, .refresh), (4, .ask .manifest)]

/-- Warming keeps a body without reading it; whoever finds it is told the same as whoever fetches
it. -/
theorem answers_caching_brokenManifest :
    NormalSource brokenManifest.fetch ∧
      answers brokenManifest.fetch (Settings.caching true {}) brokenCalls .empty =
        answers brokenManifest.fetch (Settings.caching false {}) brokenCalls .empty ∧
      answers brokenManifest.fetch (Settings.caching false {}) brokenCalls .empty =
        [some (.kept 1), some (.json (.error (.malformed "manifest.json"))), none,
          some (.manifest (.error (.malformed "/manifest.json")))] :=
  ⟨MemoryFiles.normalSource _, answers_caching (MemoryFiles.normalSource _) _ _, rfl⟩

end Loading

end Compendium
