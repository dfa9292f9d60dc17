import Compendium.Proofs.Loading.Levels

/-!
# Paths that the source answers

A program that reads one path after the other gets the source's own answers in three cases: the
cache is not in use; the source answers by the normalized path and the cache is one that calls on it
lead to; or the paths are different ones and the cache has none of them. What these have in common
is an invariant that reading a path preserves, so a program over paths is treated once for all
three.
-/

namespace Compendium

namespace Loading

variable {source : String → Response} {s : Settings} {now : Nat}

/-- Every path is answered by the source, and what is left after it is so too. -/
structure Answering (source : String → Response) (s : Settings) (now : Nat)
    (I : List String → Trace → Prop) : Prop where
  value : ∀ {path rest t}, I (path :: rest) t →
    ((json s path).run source now t).1 = answered path (source path)
  next : ∀ {path rest t}, I (path :: rest) t → I rest ((json s path).run source now t).2

/-! ## The three cases -/

theorem answering_uncached (hdisabled : s.cache.enabled = false) :
    Answering source s now fun _ _ => True where
  value := fun {path _ t} _ => by
    rw [(json_uncached hdisabled path).run source now t, json_direct]
  next := fun _ => trivial

theorem answering_mirror (hsource : NormalSource source) :
    Answering source s now fun _ t => t.cache.Mirrors source where
  value := fun {path _ t} hmirror => by
    have hrun := (json_transparent source s path).1.run hsource now _ t hmirror
    rw [hrun.1, json_direct]
  next := fun {path _ t} hmirror =>
    ((json_transparent source s path).1.run hsource now _ t hmirror).2

/-- The paths are different ones, and the cache has none of them. -/
structure Unkept (cache : Cache) (paths : List String) : Prop where
  different : (paths.map Path.normalize).Nodup
  missing : ∀ path ∈ paths, cache.lookup path = none

theorem lookup_keep_of_ne (cache : Cache) {path other : String}
    (h : Path.normalize other ≠ Path.normalize path) (body : String) :
    (cache.keep now path body).lookup other = cache.lookup other := by
  rw [Cache.lookup, Cache.keep, Dict.get?_insert, if_neg h]
  rfl

/-- An answer that is taken up changes the cache at its path only. -/
theorem received_run (source : String → Response) (s : Settings) (now : Nat) (path : String)
    (r : Response) (t : Trace) :
    ((received s path r).run source now t).1 = answered path r ∧
      ∀ other, Path.normalize other ≠ Path.normalize path →
        ((received s path r).run source now t).2.cache.lookup other = t.cache.lookup other := by
  unfold received answered
  split
  · exact ⟨rfl, fun _ _ => rfl⟩
  · split
    · exact ⟨rfl, fun _ _ => rfl⟩
    · cases parseBody path r.body with
      | error e => exact ⟨rfl, fun _ _ => rfl⟩
      | ok j =>
        cases s.cache.enabled with
        | false => exact ⟨rfl, fun _ _ => rfl⟩
        | true => exact ⟨rfl, fun _ hother => lookup_keep_of_ne t.cache hother r.body⟩

/-- A path that the cache does not have is answered by the source, whatever the source. -/
theorem json_run_of_missing {path : String} {t : Trace} (hmissing : t.cache.lookup path = none) :
    ((json s path).run source now t).1 = answered path (source path) ∧
      ∀ other, Path.normalize other ≠ Path.normalize path →
        ((json s path).run source now t).2.cache.lookup other = t.cache.lookup other := by
  have hfetch := received_run source s now path (source path) (t.fetching path)
  unfold json
  cases s.cache.enabled with
  | false => exact hfetch
  | true =>
    rw [if_pos rfl, run, hmissing]
    exact hfetch

theorem answering_unkept : Answering source s now fun paths t => Unkept t.cache paths where
  value := fun hunkept => (json_run_of_missing (hunkept.missing _ List.mem_cons_self)).1
  next := fun {path rest t} hunkept => by
    obtain ⟨hfirst, hrest⟩ := List.nodup_cons.mp hunkept.different
    refine ⟨hrest, fun other hother => ?_⟩
    have hne : Path.normalize other ≠ Path.normalize path := by
      intro heq
      exact hfirst (heq ▸ List.mem_map_of_mem hother)
    rw [(json_run_of_missing (hunkept.missing path List.mem_cons_self)).2 other hne]
    exact hunkept.missing other (List.mem_cons_of_mem _ hother)

/-- Paths are answered by the source in each of the three cases. -/
theorem exists_answering {cache : Cache} {paths : List String} (now : Nat)
    (hcache : s.cache.enabled = true → (NormalSource source ∧ Reachable source cache) ∨
      Unkept cache paths) :
    ∃ I, Answering source s now I ∧ I paths (.start cache) := by
  cases henabled : s.cache.enabled with
  | false => exact ⟨_, answering_uncached henabled, trivial⟩
  | true =>
    obtain ⟨hsource, hreachable⟩ | hunkept := hcache henabled
    · exact ⟨_, answering_mirror hsource, hreachable.mirrors hsource⟩
    · exact ⟨_, answering_unkept, hunkept⟩

end Loading

end Compendium
