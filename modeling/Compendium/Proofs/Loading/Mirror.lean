import Compendium.Loading.Basic
import Compendium.Proofs.Dict
import Compendium.Proofs.Source.Requests

/-!
# The cache mirrors the source

A cache mirrors a source if every body in it is the one that the source answers with, at a path
whose answer can be used. A program is transparent for a source if it keeps only such bodies, and a
body that it looks up makes no difference to its value. Transparent programs keep a cache a mirror,
one request at a time, and their value does not depend on the cache.

Nothing is said here about which paths are fetched: that does depend on the cache.
-/

namespace Compendium

/-- The answers depend on the normalized path only. -/
def NormalSource (source : String → Response) : Prop :=
  ∀ path other, Path.normalize path = Path.normalize other → source path = source other

theorem MemoryFiles.normalSource (files : MemoryFiles) : NormalSource files.fetch := by
  intro path other h
  rw [fetch, fetch, h]

theorem FileTree.normalSource (root : String) (t : FileTree) : NormalSource (t.fetch root) := by
  intro path other h
  rw [fetch, fetch, requestNames?_congr h]

theorem NormalSource.normalize {source : String → Response} (h : NormalSource source)
    (path : String) : source (Path.normalize path) = source path :=
  h _ _ (Path.normalize_normalize path)

namespace Cache

/-- Every body in the cache is what the source answers with at its path, in normal form. -/
def Mirrors (source : String → Response) (cache : Cache) : Prop :=
  ∀ key kept, (key, kept) ∈ cache →
    Path.normalize key = key ∧ (source key).isUsable = true ∧ kept.body = (source key).body

variable {source : String → Response} {cache : Cache}

/-- At the start, nothing is kept. -/
theorem mirrors_empty : Mirrors source empty := by
  intro key kept h
  cases h

/-- What a mirror holds for a path is the body of the source's answer. -/
theorem Mirrors.lookup (hsource : NormalSource source) (h : Mirrors source cache) {path : String}
    {kept : CachedBody} (hkept : cache.lookup path = some kept) :
    (source path).isUsable = true ∧ kept.body = (source path).body := by
  obtain ⟨_, husable, hbody⟩ := h _ kept (Dict.mem_of_get? hkept)
  rw [hsource.normalize] at husable hbody
  exact ⟨husable, hbody⟩

theorem Mirrors.insert (h : Mirrors source cache) {key : String} {kept : CachedBody}
    (hkey : Path.normalize key = key) (husable : (source key).isUsable = true)
    (hbody : kept.body = (source key).body) : Mirrors source (Dict.insert key kept cache) := by
  intro key' kept' hmem
  rcases Dict.mem_insert hmem with heq | hmem
  · cases heq
    exact ⟨hkey, husable, hbody⟩
  · exact h key' kept' hmem

/-- A fetched body is kept as it is. -/
theorem Mirrors.keep (hsource : NormalSource source) (h : Mirrors source cache) (now : Nat)
    {path : String} (husable : (source path).isUsable = true) :
    Mirrors source (cache.keep now path (source path).body) := by
  apply h.insert (Path.normalize_normalize path)
  · rw [hsource.normalize]
    exact husable
  · rw [hsource.normalize]
    rfl

theorem Mirrors.invalidate (h : Mirrors source cache) (path : String) :
    Mirrors source (cache.invalidate path) :=
  fun key kept hmem => h key kept (Dict.mem_erase hmem)

/-- One path is fetched again. -/
theorem Mirrors.refreshPath (h : Mirrors source cache) (now : Nat) {path : String}
    (hpath : Path.normalize path = path) :
      Mirrors source (refreshPath source now path cache).2 := by
  by_cases husable : (source path).isUsable = true
  · simp only [Cache.refreshPath, husable, if_true]
    exact h.insert hpath husable rfl
  · simp only [Cache.refreshPath, husable]
    exact h.invalidate path

theorem Mirrors.refreshPaths (h : Mirrors source cache) (now : Nat) {paths : List String}
    (hpaths : ∀ path ∈ paths, Path.normalize path = path) :
    Mirrors source (refreshPaths source now paths cache).2 := by
  induction paths generalizing cache with
  | nil => exact h
  | cons path rest ih =>
    have hnext := h.refreshPath now (hpaths path List.mem_cons_self)
    exact ih hnext fun other hother => hpaths other (List.mem_cons_of_mem _ hother)

theorem Mirrors.refresh (h : Mirrors source cache) (now : Nat) :
    Mirrors source (cache.refresh source now).2 := by
  apply h.refreshPaths
  intro path hpath
  obtain ⟨kept, hmem⟩ := Dict.exists_of_mem_keys hpath
  exact (h path kept hmem).1

end Cache

namespace Loading

variable {α β : Type} (source : String → Response)

/-- The value of a program that finds nothing in the cache. -/
def direct : Loading α → α
  | done a => a
  | lookup _ next => direct (next none)
  | fetch path next => direct (next (source path))
  | keep _ _ next => direct next

/-- The program keeps only what the source answers with, and its value is the same whether it finds
that in the cache or not. -/
def Transparent : Loading α → Prop
  | done _ => True
  | lookup path next =>
    Transparent (next none) ∧
      ((source path).isUsable = true →
        Transparent (next (some (source path).body)) ∧
          direct source (next (some (source path).body)) = direct source (next none))
  | fetch path next => Transparent (next (source path))
  | keep path body next =>
    ((source path).isUsable = true ∧ body = (source path).body) ∧ Transparent next

/-- The next request of a program, if it has one: what the program goes on with, and the cache after
the request. -/
def request (now : Nat) : Loading α → Cache → Option (Loading α × Cache)
  | done _, _ => none
  | lookup path next, cache => some (next ((cache.lookup path).map (·.body)), cache)
  | fetch path next, cache => some (next (source path), cache)
  | keep path body next, cache => some (next, cache.keep now path body)

variable {source}

/-- A request leaves a mirror and a transparent program with the same value. -/
theorem Transparent.request (hsource : NormalSource source) (now : Nat) {program rest : Loading α}
    {cache after : Cache} (h : Transparent source program) (hcache : cache.Mirrors source)
    (hrequest : program.request source now cache = some (rest, after)) :
    Transparent source rest ∧ rest.direct source = program.direct source ∧
      after.Mirrors source := by
  cases program with
  | done a => cases hrequest
  | lookup path next =>
    cases hrequest
    cases hkept : cache.lookup path with
    | none => exact ⟨h.1, rfl, hcache⟩
    | some kept =>
      obtain ⟨husable, hbody⟩ := hcache.lookup hsource hkept
      obtain ⟨hfound, hvalue⟩ := h.2 husable
      rw [Option.map_some, hbody]
      exact ⟨hfound, hvalue, hcache⟩
  | fetch path next =>
    cases hrequest
    exact ⟨h, rfl, hcache⟩
  | keep path body next =>
    cases hrequest
    obtain ⟨⟨husable, rfl⟩, hnext⟩ := h
    exact ⟨hnext, rfl, hcache.keep hsource now husable⟩

/-- On a mirror, the value of a transparent program does not depend on what the cache holds. -/
theorem Transparent.run (hsource : NormalSource source) (now : Nat) (program : Loading α)
    (t : Trace) (h : Transparent source program) (hcache : t.cache.Mirrors source) :
    (program.run source now t).1 = program.direct source ∧
      (program.run source now t).2.cache.Mirrors source := by
  induction program generalizing t with
  | done a => exact ⟨rfl, hcache⟩
  | lookup path next ih =>
    obtain ⟨hrest, hvalue, hafter⟩ := h.request hsource now hcache rfl
    obtain ⟨hrun, hmirror⟩ := ih _ t hrest hafter
    exact ⟨hrun.trans hvalue, hmirror⟩
  | fetch path next ih =>
    obtain ⟨hrest, hvalue, hafter⟩ := h.request hsource now hcache rfl
    obtain ⟨hrun, hmirror⟩ := ih _ (t.fetching path) hrest hafter
    exact ⟨hrun.trans hvalue, hmirror⟩
  | keep path body next ih =>
    obtain ⟨hrest, hvalue, hafter⟩ := h.request hsource now hcache rfl
    obtain ⟨hrun, hmirror⟩ := ih (t.keeping now path body) hrest hafter
    exact ⟨hrun.trans hvalue, hmirror⟩

/-! ## Programs made of programs -/

/-- The direct value of two steps. -/
theorem direct_bind (program : Loading α) (next : α → Loading β) :
    (program >>= next).direct source = (next (program.direct source)).direct source := by
  show (andThen next program).direct source = _
  induction program with
  | done a => rfl
  | lookup path rest ih => exact ih none
  | fetch path rest ih => exact ih (source path)
  | keep path body rest ih => exact ih

/-- The second step starts from the trace of the first. -/
theorem run_bind (now : Nat) (program : Loading α) (next : α → Loading β) (t : Trace) :
    (program >>= next).run source now t =
      (next (program.run source now t).1).run source now (program.run source now t).2 := by
  show (andThen next program).run source now t = _
  induction program generalizing t with
  | done a => rfl
  | lookup path rest ih => exact ih _ t
  | fetch path rest ih => exact ih _ _
  | keep path body rest ih => exact ih _

theorem transparent_pure (a : α) : Transparent source (pure a : Loading α) :=
  trivial

/-- Two transparent steps are transparent. -/
theorem Transparent.bind {program : Loading α} {next : α → Loading β}
    (h : Transparent source program) (hnext : Transparent source (next (program.direct source))) :
    Transparent source (program >>= next) := by
  show Transparent source (andThen next program)
  have hdirect : ∀ program, (andThen next program).direct source =
      (next (program.direct source)).direct source := fun program => direct_bind program next
  induction program with
  | done a => exact hnext
  | lookup path rest ih =>
    refine ⟨ih none h.1 hnext, fun husable => ?_⟩
    obtain ⟨hfound, hvalue⟩ := h.2 husable
    refine ⟨ih _ hfound ?_, ?_⟩
    · rw [hvalue]
      exact hnext
    · rw [hdirect, hdirect, hvalue]
  | fetch path rest ih => exact ih _ h hnext
  | keep path body rest ih => exact ⟨h.1, ih h.2 hnext⟩

end Loading

end Compendium
