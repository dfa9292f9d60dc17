import Compendium.Proofs.Loading.Levels
import Compendium.Proofs.Text.Joined
import Compendium.Proofs.Text.Tidy
import Mathlib.Data.List.Nodup
import Mathlib.Data.List.ProdSigma

/-!
# Probing tries no path twice

A candidate is a base, a directory and a file name, joined by slashes, and bases and ids may hold
slashes themselves. Still the three can be told from the path: a file name holds no slash, and the
two directories of a theory end alike and differ in a mark that does not end with a slash, so
neither can stand in for the other below a longer base. So the candidates are different ones if the
bases are, and where nothing can be read, probing fetches them one after the other.
-/

namespace Compendium

/-- The name of a single record of the file. -/
def TheoryFile.stem : TheoryFile → String
  | definitions => "definition"
  | theorems => "theorem"

/-- The plural comes before the singular. -/
theorem TheoryFile.names_eq (file : TheoryFile) :
    file.names = [file.stem ++ "s.json", file.stem ++ ".json"] := by
  cases file <;> decide

theorem TheoryFile.nodup_names (file : TheoryFile) : file.names.Nodup := by
  cases file <;> decide

theorem TheoryFile.slash_not_mem_names {file : TheoryFile} {name : String} (h : name ∈ file.names) :
    '/' ∉ name.toList := by
  have hall : ∀ file ∈ [definitions, theorems], ∀ name ∈ file.names, '/' ∉ name.toList := by decide
  exact hall file (by cases file <;> decide) name h

namespace ContentSettings

/-! ## The directories of a theory -/

/-- The other directory has the mark in front exactly if the id has not. -/
theorem otherDirectory_cases (id : String) :
    id = "theory_" ++ otherDirectory id ∨
      ¬"theory_".toList <+: id.toList ∧ otherDirectory id = "theory_" ++ id := by
  cases hfront : theoryMark.isPrefixOf? id.toList with
  | some rest =>
    have hother : (otherDirectory id).toList = rest := by
      rw [otherDirectory, hfront, String.toList_ofList]
    left
    rw [← String.toList_inj, String.toList_append, hother]
    exact (List.append_eq_of_isPrefixOf?_eq_some hfront).symm
  | none =>
    have hother : (otherDirectory id).toList = theoryMark ++ id.toList := by
      rw [otherDirectory, hfront, String.toList_ofList]
    right
    refine ⟨Text.isPrefixOf?_eq_none_iff.mp hfront, ?_⟩
    rw [← String.toList_inj, String.toList_append, hother]
    rfl

/-- A directory below one base is not the marked one below another. -/
theorem below_ne_marked (base other directory : String) :
    base ++ "/" ++ directory ≠ other ++ "/" ++ ("theory_" ++ directory) := by
  intro heq
  rw [← String.append_assoc, String.append_left_inj] at heq
  have hlast := congrArg (fun s : String => s.toList.getLast?) heq
  simp at hlast

/-- Of two directories of a theory that are not the same, one is the other with the mark in
front. -/
theorem directories_cases {id directory other : String} (h : directory ∈ directories id)
    (hother : other ∈ directories id) :
    directory = other ∨ other = "theory_" ++ directory ∨ directory = "theory_" ++ other := by
  have hmark : id = "theory_" ++ otherDirectory id ∨ otherDirectory id = "theory_" ++ id :=
    (otherDirectory_cases id).imp_right And.right
  simp only [directories, List.mem_cons, List.not_mem_nil, or_false] at h hother
  rcases h with rfl | rfl <;> rcases hother with rfl | rfl
  · exact .inl rfl
  · exact .inr hmark.symm
  · exact .inr hmark
  · exact .inl rfl

theorem nodup_directories (id : String) : (directories id).Nodup := by
  have hne : ∀ directory : String, directory ≠ "theory_" ++ directory := fun directory heq =>
    below_ne_marked "" "" directory (congrArg (fun s => "" ++ "/" ++ s) heq)
  rw [directories, List.nodup_cons, List.mem_singleton]
  refine ⟨fun heq => ?_, List.nodup_singleton _⟩
  obtain hid | ⟨-, hother⟩ := otherDirectory_cases id
  · exact hne _ (heq.symm.trans hid)
  · exact hne _ (heq.trans hother)

/-! ## Paths below bases -/

/-- Base, directory and name can be told from the path. -/
theorem pathBelow_inj {id base directory name base' directory' name' : String}
    (hdirectory : directory ∈ directories id) (hdirectory' : directory' ∈ directories id)
    (hname : '/' ∉ name.toList) (hname' : '/' ∉ name'.toList)
    (h : pathBelow base directory name = pathBelow base' directory' name') :
    base = base' ∧ directory = directory' ∧ name = name' := by
  obtain ⟨hfolder, rfl⟩ := (Text.joined_inj_of_backs rfl hname hname').mp h
  obtain rfl | rfl | rfl := directories_cases hdirectory hdirectory'
  · rw [String.append_left_inj, String.append_left_inj] at hfolder
    exact ⟨hfolder, rfl, rfl⟩
  · exact absurd hfolder (below_ne_marked _ _ _)
  · exact absurd hfolder.symm (below_ne_marked _ _ _)

/-- Base, directory and name of each candidate, in this order. -/
def places (s : ContentSettings) (id : String) (file : TheoryFile) :
    List (String × String × String) :=
  s.theoryBases.map trimBase ×ˢ directories id ×ˢ file.names

theorem mem_places {s : ContentSettings} {id : String} {file : TheoryFile}
    {p : String × String × String}
    (h : p ∈ s.places id file) : p.2.1 ∈ directories id ∧ p.2.2 ∈ file.names :=
  List.mem_product.mp (List.mem_product.mp h).2

theorem theoryCandidates_eq_map (s : ContentSettings) (id : String) (file : TheoryFile) :
    s.theoryCandidates id file = (s.places id file).map fun p => pathBelow p.1 p.2.1 p.2.2 := by
  simp [theoryCandidates, places, directories, pathBelow, SProd.sprod, List.product,
    List.flatMap_map, List.map_flatMap, Function.comp_def]

/-- Four candidates stand below each base, and the bases come in their order. -/
theorem theoryCandidates_eq_flatMap (s : ContentSettings) (id : String) (file : TheoryFile) :
    s.theoryCandidates id file = s.theoryBases.flatMap fun base =>
      [pathBelow (trimBase base) id (file.stem ++ "s.json"),
        pathBelow (trimBase base) id (file.stem ++ ".json"),
        pathBelow (trimBase base) (otherDirectory id) (file.stem ++ "s.json"),
        pathBelow (trimBase base) (otherDirectory id) (file.stem ++ ".json")] := by
  rw [theoryCandidates, TheoryFile.names_eq]
  rfl

theorem length_theoryCandidates (s : ContentSettings) (id : String) (file : TheoryFile) :
    (s.theoryCandidates id file).length = 4 * s.theoryBases.length := by
  simp [theoryCandidates_eq_flatMap, List.length_flatMap, Nat.mul_comm]

def probedPaths (s : ContentSettings) (id : String) : List String :=
  s.theoryCandidates id .definitions ++ s.theoryCandidates id .theorems

/-- The probed paths are different ones if the bases are, apart from slashes behind them. -/
theorem nodup_probedPaths {s : ContentSettings} (hbases : (s.theoryBases.map trimBase).Nodup)
    (id : String) :
    (s.probedPaths id).Nodup := by
  have hplaces (file : TheoryFile) : (s.places id file).Nodup :=
    hbases.product ((nodup_directories id).product file.nodup_names)
  have happart : ∀ name ∈ TheoryFile.definitions.names, name ∉ TheoryFile.theorems.names := by
    decide
  have hmem : ∀ p ∈ s.places id .definitions ++ s.places id .theorems,
      p.2.1 ∈ directories id ∧ '/' ∉ p.2.2.toList := by
    intro p hp
    rcases List.mem_append.mp hp with h | h
    · exact (mem_places h).imp_right TheoryFile.slash_not_mem_names
    · exact (mem_places h).imp_right TheoryFile.slash_not_mem_names
  rw [probedPaths, theoryCandidates_eq_map, theoryCandidates_eq_map, ← List.map_append]
  refine List.Nodup.map_on (fun p hp q hq heq => ?_)
    (List.nodup_append.mpr ⟨hplaces _, hplaces _, fun p hp q hq heq => ?_⟩)
  · obtain ⟨hbase, hdirectory, hname⟩ :=
      pathBelow_inj (hmem p hp).1 (hmem q hq).1 (hmem p hp).2 (hmem q hq).2 heq
    exact Prod.ext hbase (Prod.ext hdirectory hname)
  · subst heq
    exact happart _ (mem_places hp).2 (mem_places hq).2

end ContentSettings

/-! ## Where nothing can be read -/

namespace Loading

variable {source : String → Response} {s : Settings} {now : Nat}

theorem received_of_error {path : String} {r : Response} {e : LoadError}
    (h : answered path r = .error e) :
    received s path r = done (.error e) := by
  unfold answered at h
  unfold received
  split at h
  · rw [if_pos ‹_›, h]
  · rw [if_neg ‹_›]
    split at h
    · rw [if_pos ‹_›, h]
    · rw [if_neg ‹_›, h]

/-- A path that cannot be read and is not kept is fetched, and that is all. -/
theorem json_run_of_unreadable {path : String} {t : Trace}
    (hmissing : s.cache.enabled = true → t.cache.lookup path = none)
    (h : readable? source path = none) :
    ∃ e, (json s path).run source now t = (.error e, t.fetching path) := by
  cases hanswer : answered path (source path) with
  | ok j =>
    rw [readable?, hanswer] at h
    cases h
  | error e =>
    have hreceived : received s path (source path) = done (.error e) := received_of_error hanswer
    refine ⟨e, ?_⟩
    unfold json
    cases henabled : s.cache.enabled with
    | false =>
      rw [if_neg Bool.false_ne_true, run, hreceived, run]
    | true =>
      rw [if_pos rfl, run, hmissing henabled, Option.map_none, run, hreceived, run]

/-- Probing paths that cannot be read and are not kept fetches each of them, in their order. -/
theorem probe_run_of_unreadable {paths : List String} {t : Trace}
    (hmissing : s.cache.enabled = true → ∀ path ∈ paths, t.cache.lookup path = none)
    (h : ∀ path ∈ paths, readable? source path = none) :
    (probe s paths).run source now t =
      ((none, paths), { t with fetched := t.fetched ++ paths }) := by
  induction paths generalizing t with
  | nil => rw [List.append_nil]; rfl
  | cons path rest ih =>
    obtain ⟨hpath, hrest⟩ := List.forall_mem_cons.mp h
    obtain ⟨e, hjson⟩ : ∃ e, (json s path).run source now t = (.error e, t.fetching path) :=
      json_run_of_unreadable (fun henabled => hmissing henabled path List.mem_cons_self) hpath
    have hprobe := ih (t := t.fetching path)
      (fun henabled other hother => hmissing henabled other (List.mem_cons_of_mem _ hother)) hrest
    rw [probe, run_bind, hjson]
    dsimp only
    rw [run_bind, hprobe]
    simp [Trace.fetching, run, pure]

theorem probeTheory_run_of_unreadable {id : String} (name : String) {t : Trace}
    (hmissing : s.cache.enabled = true → ∀ path ∈ s.content.probedPaths id, t.cache.lookup path =
    none) (h : ∀ path, readable? source path = none) :
    (probeTheory s id name).run source now t =
      (missingTheory name (s.content.probedPaths id),
        { t with fetched := t.fetched ++ s.content.probedPaths id }) := by
  have hfirst : (probe s (s.content.theoryCandidates id .definitions)).run source now t = _ :=
    probe_run_of_unreadable (fun henabled path hpath =>
      hmissing henabled path (List.mem_append_left _ hpath)) fun path _ => h path
  have hsecond : (probe s (s.content.theoryCandidates id .theorems)).run source now
      { t with fetched := t.fetched ++ s.content.theoryCandidates id .definitions } = _ :=
    probe_run_of_unreadable (fun henabled path hpath =>
      hmissing henabled path (List.mem_append_right _ hpath)) fun path _ => h path
  rw [probeTheory, run_bind, hfirst, run_bind, hsecond, ContentSettings.probedPaths,
    ← List.append_assoc]
  rfl

/-- A theory of which nothing can be read and nothing is kept is asked for in the manifest and then
probed. -/
theorem theory_run_of_unreadable {reference : String} {t : Trace}
    (hmissing : s.cache.enabled = true → ∀ path, t.cache.lookup path = none)
    (h : ∀ path, readable? source path = none) :
    (Loading.theory s reference).run source now t =
      (probeTheory s (Path.theoryId reference)
        (String.ofList (Text.title (Path.theoryId reference).toList))).run source now
          (t.fetching s.content.manifestPath) := by
  obtain ⟨e, hjson⟩ : ∃ e, (json s s.content.manifestPath).run source now t =
      (.error e, t.fetching s.content.manifestPath) :=
    json_run_of_unreadable (fun henabled => hmissing henabled _) (h _)
  have hmanifest : (manifest s).run source now t =
      (.error e, t.fetching s.content.manifestPath) := by
    rw [manifest, run_bind, hjson]
    rfl
  rw [Loading.theory, run_bind, hmanifest]

open ContentSettings in
/-- Probing tries no path twice. If the bases differ in more than the slashes behind them, the paths
that are probed for a theory are different ones, whatever its id. There are four for each base and
file: the bases come in their order, the directory that the id names before the other one, the
plural before the singular. Where nothing can be read and nothing is kept, probing fetches each of
them once, in this order, and loading a theory asks for the manifest and then does so. -/
theorem probing_tries_no_path_twice (s : Settings) (id : String)
    (hbases : (s.content.theoryBases.map trimBase).Nodup) :
    (s.content.probedPaths id).Nodup ∧
    (∀ file, (s.content.theoryCandidates id file).length = 4 * s.content.theoryBases.length) ∧
    (∀ file, s.content.theoryCandidates id file = s.content.theoryBases.flatMap fun base =>
      [pathBelow (trimBase base) id (file.stem ++ "s.json"),
        pathBelow (trimBase base) id (file.stem ++ ".json"),
        pathBelow (trimBase base) (otherDirectory id) (file.stem ++ "s.json"),
        pathBelow (trimBase base) (otherDirectory id) (file.stem ++ ".json")]) ∧
    (id = "theory_" ++ otherDirectory id ∨
      ¬"theory_".toList <+: id.toList ∧ otherDirectory id = "theory_" ++ id) ∧
    ∀ source, (∀ path, readable? source path = none) → ∀ now,
      (∀ name t,
        (s.cache.enabled = true → ∀ path ∈ s.content.probedPaths id, t.cache.lookup path = none) →
          ((probeTheory s id name).run source now t).2.fetched =
          t.fetched ++ s.content.probedPaths id ∧ ∀ path ∈ s.content.probedPaths id,
            (((probeTheory s id name).run source now t).2.fetched.drop
              t.fetched.length).count path = 1) ∧
      ∀ reference, Path.theoryId reference = id →
        ((Loading.theory s reference).run source now (.start .empty)).2.fetched =
          s.content.manifestPath :: s.content.probedPaths id := by
  have hnodup := nodup_probedPaths hbases id
  refine ⟨hnodup, length_theoryCandidates s.content id, theoryCandidates_eq_flatMap s.content id,
    otherDirectory_cases id, fun source hsource now => ⟨fun name t hmissing => ?_, ?_⟩⟩
  · rw [probeTheory_run_of_unreadable name hmissing hsource]
    refine ⟨rfl, fun path hpath => ?_⟩
    rw [List.drop_left]
    exact List.count_eq_one_of_mem hnodup hpath
  · rintro reference rfl
    rw [theory_run_of_unreadable (fun _ _ => rfl) hsource,
      probeTheory_run_of_unreadable _ (fun _ _ _ => rfl) hsource]
    rfl

/-- Two bases of which one is a directory of the theory below the other. -/
def nestedBases : Settings :=
  { content := { theoryBases := ["/t/", "/t/theory_a//"] } }

theorem probing_tries_no_path_twice_nested :
    (nestedBases.content.theoryBases.map ContentSettings.trimBase).Nodup ∧
      (∀ path, readable? (fun _ => .failed 404) path = none) ∧
      Path.theoryId "theories/theory_a/x.json" = "theory_a/x" ∧
      (nestedBases.content.probedPaths "theory_a/x").Nodup ∧
      ((Loading.theory nestedBases "theories/theory_a/x.json").run (fun _ => .failed 404) 0
        (.start .empty)).2.fetched =
          nestedBases.content.manifestPath :: nestedBases.content.probedPaths "theory_a/x" := by
  have hbases : (nestedBases.content.theoryBases.map ContentSettings.trimBase).Nodup := by
    decide +kernel
  have hsource : ∀ path, readable? (fun _ => .failed 404) path = none := fun _ => rfl
  have hid : Path.theoryId "theories/theory_a/x.json" = "theory_a/x" := by decide +kernel
  obtain ⟨hnodup, -, -, -, hprobing⟩ := probing_tries_no_path_twice nestedBases "theory_a/x" hbases
  exact ⟨hbases, hsource, hid, hnodup, (hprobing _ hsource 0).2 _ hid⟩

end Loading

end Compendium
