import Compendium.Proofs.Loading.ListedIds

/-!
# A warmed cache

Warming reads the manifest and keeps the body of every file that it lists. A theory that the
manifest lists is loaded from exactly these files: warming and loading go through the manifest by
themselves, and resolve a listed file to the same path. So after warming, a theory whose listing can
be used is loaded without a fetch. The source answers by the normalized path, since bodies are kept
by it.

A body that is kept stays kept, whatever is loaded. A program that finds all it looks for fetches
nothing and leaves the cache as it is, so what is said of one load holds of any number of them.
-/

namespace Compendium

namespace Loading

variable {α β : Type} {source : String → Response} {s : Settings} {now : Nat} {t : Trace}

/-! ## Bodies stay -/

/-- Keeping a body loses no other one. -/
theorem isSome_lookup_keep (cache : Cache) {path : String} (h : (cache.lookup path).isSome = true)
    (other body : String) : ((cache.keep now other body).lookup path).isSome = true := by
  rw [Cache.lookup, Cache.keep, Dict.get?_insert]
  split
  · rfl
  · exact h

/-- What is kept before a program is kept after it. -/
theorem isSome_lookup_run (program : Loading α) {path : String}
    (h : (t.cache.lookup path).isSome = true) :
    ((program.run source now t).2.cache.lookup path).isSome = true := by
  induction program generalizing t with
  | done a => exact h
  | lookup other next ih => exact ih _ h
  | fetch other next ih => exact ih _ h
  | keep other body next ih => exact ih (isSome_lookup_keep t.cache h other body)

/-! ## Warming -/

/-- One step: a usable path is kept. -/
theorem warmPath_keeps {path : String} (husable : (source path).isUsable = true) :
    (((warmPath path).run source now t).2.cache.lookup path).isSome = true := by
  have hrun : (warmPath path).run source now t =
      (true, (t.fetching path).keeping now path (source path).body) := by
    rw [warmPath, run, husable]
    rfl
  rw [hrun]
  show ((t.cache.keep now path (source path).body).lookup path).isSome = true
  rw [Cache.lookup, Cache.keep, Dict.get?_insert, if_pos rfl]
  rfl

/-- All steps: what is kept by one of them stays. -/
theorem warmPaths_keeps {paths : List String} {path : String} (hpath : path ∈ paths)
    (husable : (source path).isUsable = true) :
    (((warmPaths paths).run source now t).2.cache.lookup path).isSome = true := by
  induction paths generalizing t with
  | nil => cases hpath
  | cons first rest ih =>
    rw [warmPaths, run_bind, run_bind]
    refine isSome_lookup_run _ ?_
    rcases List.mem_cons.mp hpath with rfl | hrest
    · exact isSome_lookup_run _ (warmPath_keeps husable)
    · exact ih hrest

/-- Warming keeps the manifest and every file that it lists, where the source has a body for it. -/
theorem warm_keeps (hsource : NormalSource source) (hcache : t.cache.Mirrors source) {m : Manifest}
    (hmanifest : (readable? source s.content.manifestPath).bind Manifest.decode.read = some m)
    {path : String} (hpath : path ∈ s.content.manifestPath :: manifestFiles s m)
    (husable : (source path).isUsable = true) :
    (((warm s).run source now t).2.cache.lookup path).isSome = true := by
  have hread : ((manifest s).run source now t).1 = .ok m :=
    (answering_mirror hsource).manifest hcache hmanifest
  rw [warm, run_bind, hread]
  exact warmPaths_keeps hpath husable

/-- Warming keeps a mirror. -/
theorem warm_mirrors (hsource : NormalSource source) (s : Settings) (now : Nat)
    (hcache : t.cache.Mirrors source) : ((warm s).run source now t).2.cache.Mirrors source :=
  ((warm_alike rfl).left.run hsource now _ t hcache).2

/-! ## Programs that find what they look for -/

/-- The program fetches nothing and keeps nothing. -/
def Quiet (source : String → Response) (now : Nat) (program : Loading α) (t : Trace) : Prop :=
  (program.run source now t).2 = t

theorem quiet_pure (a : α) : Quiet source now (pure a) t :=
  rfl

/-- Two quiet steps are quiet. -/
theorem Quiet.bind {program : Loading α} {next : α → Loading β} (h : Quiet source now program t)
    (hnext : Quiet source now (next (program.run source now t).1) t) :
    Quiet source now (program >>= next) t := by
  have hsame : (program.run source now t).2 = t := h
  unfold Quiet
  rw [run_bind, hsame]
  exact hnext

section Kept

variable (henabled : s.cache.enabled = true)

include henabled

/-- A kept document is not fetched again. -/
theorem json_quiet {path : String} (hkept : (t.cache.lookup path).isSome = true) :
    Quiet source now (json s path) t := by
  obtain ⟨kept, hlookup⟩ := Option.isSome_iff_exists.mp hkept
  unfold Quiet json
  rw [henabled, if_pos rfl, run, hlookup]
  rfl

theorem manifest_quiet (hkept : (t.cache.lookup s.content.manifestPath).isSome = true) :
    Quiet source now (manifest s) t := by
  refine (json_quiet henabled hkept).bind ?_
  split
  · exact quiet_pure _
  · split
    · exact quiet_pure _
    · exact quiet_pure _

theorem listedFiles_quiet {id : String} {files : List ManifestFile}
    (hkept : ∀ file ∈ files, (t.cache.lookup (s.content.manifestFile id file.path)).isSome = true) :
    Quiet source now (listedFiles s id files) t := by
  induction files with
  | nil => exact quiet_pure _
  | cons file rest ih =>
    obtain ⟨hfile, hrest⟩ := List.forall_mem_cons.mp hkept
    refine (json_quiet henabled hfile).bind ?_
    split
    · exact quiet_pure _
    · split
      · exact quiet_pure _
      · refine (ih hrest).bind ?_
        split
        · exact quiet_pure _
        · exact quiet_pure _

theorem listedTheory_quiet {e : ManifestEntry}
    (hkept : ∀ file ∈ e.files,
      (t.cache.lookup (s.content.manifestFile e.id file.path)).isSome = true) :
    Quiet source now (listedTheory s e) t := by
  refine (listedFiles_quiet henabled hkept).bind ?_
  split
  · exact quiet_pure _
  · split
    · exact quiet_pure _
    · exact quiet_pure _

/-- A theory is loaded without a fetch if the manifest lists it, and the manifest and the files that
it lists for it are kept. -/
theorem theory_quiet (hsource : NormalSource source) (hcache : t.cache.Mirrors source)
    {reference : String} {m : Manifest} {e : ManifestEntry}
    (hmanifest : (readable? source s.content.manifestPath).bind Manifest.decode.read = some m)
    (hentry : m.find? (Path.theoryId reference) = some e) (hlisted : Listed source s.content e)
    (hkept : (t.cache.lookup s.content.manifestPath).isSome = true)
    (hfiles : ∀ file ∈ e.files,
      (t.cache.lookup (s.content.manifestFile e.id file.path)).isSome = true) :
    Quiet source now (theory s reference) t := by
  have hread : ((manifest s).run source now t).1 = .ok m :=
    (answering_mirror hsource).manifest hcache hmanifest
  have htheory : ((listedTheory s e).run source now t).1.toOption =
      some ((listedOutcome source s.content e).value,
        e.files.map fun file => s.content.manifestFile e.id file.path) := by
    rw [((listedTheory_alike rfl e).left.run hsource now _ t hcache).1]
    exact listedTheory_direct_of_listed source s hlisted
  refine (manifest_quiet henabled hkept).bind ?_
  rw [hread]
  dsimp only
  rw [hentry]
  refine (listedTheory_quiet henabled hfiles).bind ?_
  -- the listing gives a theory, so that nothing is probed
  split
  · exact quiet_pure _
  · next err herror =>
    rw [herror] at htheory
    cases htheory

end Kept

/-! ## Loads after warming -/

theorem isUsable_of_readable {path : String} (h : (readable? source path).isSome = true) :
    (source path).isUsable = true := by
  unfold readable? answered at h
  unfold Response.isUsable
  cases hok : (source path).isOk with
  | false =>
    rw [hok] at h
    cases h
  | true =>
    cases hjson : (source path).isJson with
    | false =>
      rw [hok, hjson] at h
      cases h
    | true => rfl

theorem isUsable_of_fileRecords {id : String} {file : ManifestFile}
    (h : (fileRecords? source s.content id file).isSome = true) :
    (source (s.content.manifestFile id file.path)).isUsable = true := by
  obtain ⟨records, hrecords⟩ := Option.isSome_iff_exists.mp h
  obtain ⟨j, hj, -⟩ := Option.bind_eq_some_iff.mp hrecords
  exact isUsable_of_readable (Option.isSome_iff_exists.mpr ⟨j, hj⟩)

theorem mem_theories_of_find? {m : Manifest} {id : String} {e : ManifestEntry}
    (h : m.find? id = some e) : e ∈ m.theories := by
  rcases Option.or_eq_some_iff.mp h with h | ⟨-, h⟩
  · exact List.mem_of_find?_eq_some h
  · exact List.mem_of_find?_eq_some h

theorem mem_manifestFiles {m : Manifest} {e : ManifestEntry} (he : e ∈ m.theories)
    {file : ManifestFile}
    (hfile : file ∈ e.files) : s.content.manifestFile e.id file.path ∈ manifestFiles s m :=
  List.mem_flatMap.mpr ⟨e, he, List.mem_map_of_mem hfile⟩

/-- A theory that the manifest lists is loaded without a fetch from a cache that has been warmed. -/
theorem theory_quiet_of_warm (hsource : NormalSource source) (henabled : s.cache.enabled = true)
    {cache : Cache} (hcache : cache.Mirrors source) {reference : String} {e : ManifestEntry}
    (hentry : entryOf? source s.content (Path.theoryId reference) = some e)
    (hlisted : Listed source s.content e) (warmedAt now : Nat) :
    Quiet source now (theory s reference)
      (.start ((warm s).run source warmedAt (.start cache)).2.cache) := by
  obtain ⟨m, hmanifest, hfind⟩ := Option.bind_eq_some_iff.mp hentry
  obtain ⟨j, hj, -⟩ := Option.bind_eq_some_iff.mp hmanifest
  have hwarmed := warm_mirrors (t := .start cache) hsource s warmedAt hcache
  refine theory_quiet (t := .start _) henabled hsource hwarmed hmanifest hfind hlisted ?_
    fun file hfile => ?_
  · exact warm_keeps hsource hcache hmanifest List.mem_cons_self
      (isUsable_of_readable (Option.isSome_iff_exists.mpr ⟨j, hj⟩))
  · have hpath := mem_manifestFiles (s := s) (mem_theories_of_find? hfind) hfile
    exact warm_keeps hsource hcache hmanifest (List.mem_cons_of_mem _ hpath)
      (isUsable_of_fileRecords (hlisted.usable file hfile))

/-- Theories loaded one after the other, each at its time: what every load gives, and the paths that
it fetches. -/
def theoryLoads (source : String → Response) (s : Settings) :
    List (Nat × String) → Cache → List (Outcome Theory × List String)
  | [], _ => []
  | (now, reference) :: rest, cache =>
    let (outcome, trace) := (theory s reference).run source now (.start cache)
    (outcome, trace.fetched) :: theoryLoads source s rest trace.cache

/-- On a mirror, loads give what the source says. -/
theorem theoryLoads_mirrors (hsource : NormalSource source) (s : Settings)
    (loads : List (Nat × String)) {cache : Cache} (hcache : cache.Mirrors source) :
    (theoryLoads source s loads cache).map (·.1) =
      loads.map fun load => (theory s load.2).direct source := by
  induction loads generalizing cache with
  | nil => rfl
  | cons load rest ih =>
    obtain ⟨now, reference⟩ := load
    obtain ⟨houtcome, hmirror⟩ :=
      (theory_alike (s := s) rfl reference).left.run hsource now _ (.start cache) hcache
    rw [theoryLoads, List.map_cons, List.map_cons, houtcome, ih hmirror]

/-- Loads that fetch nothing do not change the cache, so that the next one fetches nothing
either. -/
theorem theoryLoads_quiet {loads : List (Nat × String)} {cache : Cache}
    (h : ∀ load ∈ loads, Quiet source load.1 (theory s load.2) (.start cache)) :
    (theoryLoads source s loads cache).map (·.2) = loads.map fun _ => [] := by
  induction loads with
  | nil => rfl
  | cons load rest ih =>
    obtain ⟨hfirst, hrest⟩ := List.forall_mem_cons.mp h
    obtain ⟨now, reference⟩ := load
    have hsame : ((theory s reference).run source now (.start cache)).2 = .start cache := hfirst
    have hothers := ih hrest
    rw [theoryLoads, List.map_cons, List.map_cons, hsame]
    exact congrArg (List.cons []) hothers

/-- After warming, the body of every listed file that the source has is kept at the path that
loading resolves the file to. Any number of loads of theories that the manifest lists fetch nothing,
and they give what they give without warming. -/
theorem warmed_loads (hsource : NormalSource source) (henabled : s.cache.enabled = true)
    {cache : Cache} (hcache : Reachable source cache) (warmedAt : Nat) (loads : List (Nat × String))
    (hlisted : ∀ load ∈ loads, ∃ e, entryOf? source s.content (Path.theoryId load.2) = some e ∧
      Listed source s.content e) :
    let warmed := ((warm s).run source warmedAt (.start cache)).2.cache
    (∀ m, (readable? source s.content.manifestPath).bind Manifest.decode.read = some m →
      ∀ e ∈ m.theories, ∀ file ∈ e.files,
        (source (s.content.manifestFile e.id file.path)).isUsable = true →
        (warmed.lookup (s.content.manifestFile e.id file.path)).map (·.body) =
          some (source (s.content.manifestFile e.id file.path)).body) ∧
    (theoryLoads source s loads warmed).map (·.2) = loads.map (fun _ => []) ∧
    (theoryLoads source s loads warmed).map (·.1) =
      (theoryLoads source s loads cache).map (·.1) := by
  intro warmed
  have hmirror := hcache.mirrors hsource
  have hwarmed : warmed.Mirrors source :=
    warm_mirrors (t := .start cache) hsource s warmedAt hmirror
  refine ⟨fun m hmanifest e he file hfile husable => ?_, ?_, ?_⟩
  · have hpath := List.mem_cons_of_mem s.content.manifestPath (mem_manifestFiles (s := s) he hfile)
    have hsome : (warmed.lookup (s.content.manifestFile e.id file.path)).isSome = true :=
      warm_keeps hsource hmirror hmanifest hpath husable
    obtain ⟨kept, hkept⟩ := Option.isSome_iff_exists.mp hsome
    rw [hkept, Option.map_some, (hwarmed.lookup hsource hkept).2]
  · refine theoryLoads_quiet fun load hload => ?_
    obtain ⟨e, hentry, husable⟩ := hlisted load hload
    exact theory_quiet_of_warm hsource henabled hmirror hentry husable warmedAt load.1
  · rw [theoryLoads_mirrors hsource s loads hwarmed, theoryLoads_mirrors hsource s loads hmirror]

/-- A manifest below a folder that lists a file by its path, one below its own folder, and a bare
name. -/
def threeForms : MemoryFiles :=
  [("/lib/more/b.json", ⟨200, Response.jsonType, "[\x7b\"name\": \"Proof\"\x7d]"⟩),
    ("/lib/manifest.json", ⟨200, Response.jsonType,
      "[[[\"logic\", \"Logic\", 3, [[\"//a.json\"], [\"more/b.json\"], [\"theorems.json\"]]]]]"⟩),
    ("/a.json", ⟨200, Response.jsonType, "[\x7b\"name\": \"Set\"\x7d]"⟩),
    ("/t/logic/theorems.json", ⟨200, Response.jsonType, "[\x7b\"name\": \"Choice\"\x7d]"⟩)]

def threeFormsSettings : Settings :=
  { content := { manifestPath := "/lib/manifest.json", theoryBases := ["/t/"] } }

theorem warmed_loads_threeForms :
    let loads := [(2, "logic"), (3, "/theories/logic.json")]
    let warmed := ((warm threeFormsSettings).run threeForms.fetch 1 (.start .empty)).2.cache
    NormalSource threeForms.fetch ∧ threeFormsSettings.cache.enabled = true ∧
      Reachable threeForms.fetch .empty ∧
      (∀ load ∈ loads, ∃ e, entryOf? threeForms.fetch threeFormsSettings.content
        (Path.theoryId load.2) = some e ∧ Listed threeForms.fetch threeFormsSettings.content e) ∧
      (theoryLoads threeForms.fetch threeFormsSettings loads warmed).map (·.2) = [[], []] ∧
      (theoryLoads threeForms.fetch threeFormsSettings loads warmed).map (·.1) =
        (theoryLoads threeForms.fetch threeFormsSettings loads .empty).map (·.1) := by
  intro loads warmed
  have hsource : NormalSource threeForms.fetch := MemoryFiles.normalSource _
  have hfiles :
      ([⟨"//a.json", ""⟩, ⟨"more/b.json", ""⟩, ⟨"theorems.json", ""⟩] : List ManifestFile).all
      (fun file => (fileRecords? threeForms.fetch threeFormsSettings.content "logic" file).isSome) =
        true := by
    decide +kernel
  have hrecord : (fileRecords threeForms.fetch threeFormsSettings.content "logic"
      ⟨"//a.json", ""⟩).isEmpty = false := by
    decide +kernel
  have hentry : entryOf? threeForms.fetch threeFormsSettings.content "logic" =
      some
        ⟨"logic", "Logic", 3, [⟨"//a.json", ""⟩, ⟨"more/b.json", ""⟩, ⟨"theorems.json", ""⟩]⟩ := by
    decide +kernel
  have hids : ∀ load ∈ [(2, "logic"), (3, "/theories/logic.json")],
      Path.theoryId load.2 = "logic" := by decide
  have hlisted : ∀ load ∈ loads, ∃ e, entryOf? threeForms.fetch threeFormsSettings.content
      (Path.theoryId load.2) = some e ∧ Listed threeForms.fetch threeFormsSettings.content e := by
    intro load hload
    rw [hids load hload]
    exact ⟨_, hentry, List.all_eq_true.mp hfiles, _, List.mem_cons_self, hrecord⟩
  obtain ⟨-, hquiet, hsame⟩ := warmed_loads hsource rfl .empty 1 loads hlisted
  exact ⟨hsource, rfl, .empty, hlisted, hquiet, hsame⟩

end Loading

end Compendium
