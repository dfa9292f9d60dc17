import Compendium.Proofs.Loading.Session
import Mathlib.Data.List.TakeWhile

/-!
# The three levels of loading a theory

A theory is what the manifest lists for it, if every listed file can be used and the files hold a
record; otherwise it is what stands at the first readable candidate of each of its two files; and if
no candidate is readable, it is a placeholder that names all of them. This is said here in terms of
which paths are readable, without programs and caches, and is proved of the loading program for
every cache that calls on the source lead to.

With the cache in use, the source has to answer by the normalized path: a body that was kept under
one spelling of a path is found under every other one.
-/

namespace Compendium

namespace Loading

/-! ## What can be read -/

section Readable

variable (source : String → Response) (c : ContentSettings)

def readable? (path : String) : Option Json :=
  (answered path (source path)).toOption

def firstReadable? (paths : List String) : Option (String × Json) :=
  paths.findSome? fun path => (readable? source path).map (Prod.mk path)

def entryOf? (id : String) : Option ManifestEntry :=
  ((readable? source c.manifestPath).bind Manifest.decode.read).bind (·.find? id)

/-- The records of a file that the manifest lists. A file with a `content` field must be a
bundle. -/
def fileRecords? (id : String) (file : ManifestFile) : Option Records :=
  let path := c.manifestFile id file.path
  let contentType := listedType file.contentType path
  (readable? source path).bind fun j =>
    if (j.field? "content").isSome then (Bundle.decode.read j).map (·.records contentType)
    else some (flatRecords contentType j)

/-- The records of a listed file, none if it cannot be used. -/
def fileRecords (id : String) (file : ManifestFile) : Records :=
  (fileRecords? source c id file).getD .empty

/-- Every file of the entry can be used, and one of them holds a record. -/
structure Listed (e : ManifestEntry) : Prop where
  usable : ∀ file ∈ e.files, (fileRecords? source c e.id file).isSome = true
  inhabited : ∃ file ∈ e.files, (fileRecords source c e.id file).isEmpty = false

def listedOutcome (e : ManifestEntry) : Outcome Theory :=
  ⟨⟨e.name, e.files.flatMap fun file => (fileRecords source c e.id file).definitions,
      e.files.flatMap fun file => (fileRecords source c e.id file).theorems⟩,
    .loaded (e.files.map fun file => c.manifestFile e.id file.path)⟩

/-- The name of a theory: the one in the manifest, or else one made from the id. -/
def displayName (id : String) : String :=
  ((entryOf? source c id).map (·.name)).getD (String.ofList (Text.title id.toList))

end Readable

/-! ## What the programs give directly -/

section Direct

variable (source : String → Response) (s : Settings)

/-- A document is loaded as its answer says. -/
theorem json_direct (path : String) : (json s path).direct source = answered path (source path) :=
  (json_transparent source s path).2

/-- The entry of a theory is the one that the loaded manifest has. -/
theorem entryOf?_eq (id : String) :
    entryOf? source s.content id =
      ((manifest s).direct source).toOption.bind (·.find? id) := by
  unfold manifest entryOf? readable?
  rw [direct_bind, json_direct]
  cases answered s.content.manifestPath (source s.content.manifestPath) with
  | error e => rfl
  | ok j =>
    simp only [Except.toOption, Option.bind_some]
    cases Manifest.decode.read j <;> rfl

theorem fileRecords?_of_answered {id : String} {file : ManifestFile} {j : Json}
    (h : answered (s.content.manifestFile id file.path)
      (source (s.content.manifestFile id file.path)) = .ok j) :
    fileRecords? source s.content id file =
      (listedRecords (s.content.manifestFile id file.path)
        (listedType file.contentType (s.content.manifestFile id file.path)) j).toOption := by
  unfold fileRecords? readable? listedRecords
  simp only [h, Except.toOption, Option.bind_some]
  split
  · cases Bundle.decode.read j <;> rfl
  · rfl

/-- Listed files are read one after the other, and one that cannot be used spoils them all. -/
theorem listedFiles_direct_cons (id : String) (file : ManifestFile) (rest : List ManifestFile) :
    ((listedFiles s id (file :: rest)).direct source).toOption =
      (fileRecords? source s.content id file).bind fun records =>
        ((listedFiles s id rest).direct source).toOption.map fun found =>
          (records.append found.1, s.content.manifestFile id file.path :: found.2) := by
  rw [listedFiles, direct_bind, json_direct]
  cases hanswer : answered (s.content.manifestFile id file.path)
      (source (s.content.manifestFile id file.path)) with
  | error e =>
    have hnone : fileRecords? source s.content id file = none := by
      simp only [fileRecords?, readable?, hanswer, Except.toOption, Option.bind_none]
    rw [hnone]
    rfl
  | ok j =>
    rw [fileRecords?_of_answered source s hanswer]
    dsimp only
    cases listedRecords _ _ j with
    | error e => rfl
    | ok records =>
      dsimp only
      rw [direct_bind]
      cases (listedFiles s id rest).direct source <;> rfl

/-- Listed files give all their records if each of them can be used. -/
theorem listedFiles_direct_of_usable {id : String} {files : List ManifestFile}
    (h : ∀ file ∈ files, (fileRecords? source s.content id file).isSome = true) :
    ((listedFiles s id files).direct source).toOption =
      some (⟨files.flatMap fun file => (fileRecords source s.content id file).definitions,
          files.flatMap fun file => (fileRecords source s.content id file).theorems⟩,
        files.map fun file => s.content.manifestFile id file.path) := by
  induction files with
  | nil => rfl
  | cons file rest ih =>
    obtain ⟨records, hrecords⟩ := Option.isSome_iff_exists.mp (h file List.mem_cons_self)
    have hfile : fileRecords source s.content id file = records := by
      rw [fileRecords, hrecords]
      rfl
    have hrest := ih fun other hother => h other (List.mem_cons_of_mem _ hother)
    rw [listedFiles_direct_cons, hrecords, hrest]
    simp only [List.flatMap_cons, hfile]
    rfl

/-- One file that cannot be used is enough for listed files to give nothing. -/
theorem listedFiles_direct_of_unusable {id : String} {files : List ManifestFile}
    {file : ManifestFile} (hmem : file ∈ files) (h : fileRecords? source s.content id file = none) :
    ((listedFiles s id files).direct source).toOption = none := by
  induction files with
  | nil => cases hmem
  | cons first rest ih =>
    rw [listedFiles_direct_cons]
    rcases List.mem_cons.mp hmem with rfl | hrest
    · rw [h]
      rfl
    · rw [ih hrest]
      cases fileRecords? source s.content id first <;> rfl

/-- Records of several files are none exactly if those of each file are. -/
theorem isEmpty_flatMap {files : List ManifestFile} (records : ManifestFile → Records) :
    Records.isEmpty ⟨files.flatMap fun file => (records file).definitions,
        files.flatMap fun file => (records file).theorems⟩ = true ↔
      ∀ file ∈ files, (records file).isEmpty = true := by
  simp only [Records.isEmpty, Bool.and_eq_true, List.isEmpty_iff, List.flatMap_eq_nil_iff]
  constructor
  · rintro ⟨hdefinitions, htheorems⟩ file hfile
    exact ⟨hdefinitions file hfile, htheorems file hfile⟩
  · intro h
    exact ⟨fun file hfile => (h file hfile).1, fun file hfile => (h file hfile).2⟩

/-- The first level: a listed theory is made of its files. -/
theorem listedTheory_direct_of_listed {e : ManifestEntry} (h : Listed source s.content e) :
    ((listedTheory s e).direct source).toOption =
      some ((listedOutcome source s.content e).value,
        e.files.map fun file => s.content.manifestFile e.id file.path) := by
  have hfiles := listedFiles_direct_of_usable source s h.usable
  rw [listedTheory, direct_bind]
  cases hdirect : (listedFiles s e.id e.files).direct source with
  | error err =>
    rw [hdirect] at hfiles
    cases hfiles
  | ok found =>
    rw [hdirect] at hfiles
    cases Option.some.inj hfiles
    have hempty : Records.isEmpty
        ⟨e.files.flatMap fun file => (fileRecords source s.content e.id file).definitions,
          e.files.flatMap fun file =>
            (fileRecords source s.content e.id file).theorems⟩ = false := by
      obtain ⟨file, hfile, hrecords⟩ := h.inhabited
      rw [← Bool.not_eq_true, isEmpty_flatMap]
      intro hall
      rw [hall file hfile] at hrecords
      cases hrecords
    simp only [hempty]
    rfl

/-- A theory that is not listed goes on to the next level. -/
theorem listedTheory_direct_of_not_listed {e : ManifestEntry} (h : ¬Listed source s.content e) :
    ((listedTheory s e).direct source).toOption = none := by
  rw [listedTheory, direct_bind]
  by_cases husable : ∀ file ∈ e.files, (fileRecords? source s.content e.id file).isSome = true
  · have hfiles := listedFiles_direct_of_usable source s husable
    have hall : ∀ file ∈ e.files, (fileRecords source s.content e.id file).isEmpty = true := by
      intro file hfile
      rw [← Bool.not_eq_false]
      intro hrecords
      exact h ⟨husable, file, hfile, hrecords⟩
    cases hdirect : (listedFiles s e.id e.files).direct source with
    | error err => rfl
    | ok found =>
      rw [hdirect] at hfiles
      cases Option.some.inj hfiles
      simp only [(isEmpty_flatMap _).mpr hall]
      rfl
  · simp only [Classical.not_forall, Bool.not_eq_true, Option.isSome_eq_false_iff,
      Option.isNone_iff_eq_none] at husable
    obtain ⟨file, hfile, hnone⟩ := husable
    have hfiles := listedFiles_direct_of_unusable source s hfile hnone
    cases hdirect : (listedFiles s e.id e.files).direct source with
    | error err => rfl
    | ok found =>
      rw [hdirect] at hfiles
      cases hfiles

/-- Probing gives the first path that can be read, and the paths before it. -/
theorem probe_direct (paths : List String) :
    (probe s paths).direct source =
      (firstReadable? source paths, paths.takeWhile fun path =>
        (readable? source path).isNone) := by
  induction paths with
  | nil => rfl
  | cons path rest ih =>
    rw [probe, direct_bind, json_direct, firstReadable?, List.findSome?_cons, List.takeWhile_cons]
    cases hanswer : answered path (source path) with
    | ok j =>
      simp only [readable?, hanswer, Except.toOption]
      rfl
    | error e =>
      simp only [readable?, hanswer, Except.toOption]
      rw [direct_bind, ih]
      rfl

theorem takeWhile_of_firstReadable?_eq_none {paths : List String}
    (h : firstReadable? source paths = none) :
    (paths.takeWhile fun path => (readable? source path).isNone) = paths := by
  rw [List.takeWhile_eq_self_iff]
  intro path hpath
  rw [firstReadable?, List.findSome?_eq_none_iff] at h
  rw [Option.isNone_iff_eq_none]
  exact Option.map_eq_none_iff.mp (h path hpath)

/-- What probing finds. -/
theorem probeTheory_direct (id name : String) :
    (probeTheory s id name).direct source =
      probedTheory name
        (firstReadable? source (s.content.theoryCandidates id .definitions),
          (s.content.theoryCandidates id .definitions).takeWhile fun path =>
            (readable? source path).isNone)
        (firstReadable? source (s.content.theoryCandidates id .theorems),
          (s.content.theoryCandidates id .theorems).takeWhile fun path =>
            (readable? source path).isNone) := by
  rw [probeTheory, direct_bind, direct_bind, probe_direct, probe_direct]
  rfl

/-- The manifest decides how to go on. -/
theorem theory_direct (reference : String) :
    (Loading.theory s reference).direct source =
      (entryOf? source s.content (Path.theoryId reference)).elim
        ((probeTheory s (Path.theoryId reference)
          (String.ofList (Text.title (Path.theoryId reference).toList))).direct source)
        fun e => (((listedTheory s e).direct source).toOption.map fun listed =>
            ⟨listed.1, .loaded listed.2⟩).getD
          ((probeTheory s (Path.theoryId reference) e.name).direct source) := by
  rw [Loading.theory, direct_bind, entryOf?_eq]
  cases (manifest s).direct source with
  | error err => rfl
  | ok m =>
    dsimp only [Except.toOption, Option.bind_some]
    cases m.find? (Path.theoryId reference) with
    | none => rfl
    | some e =>
      dsimp only [Option.elim_some]
      rw [direct_bind]
      cases (listedTheory s e).direct source <;> rfl

/-- Loading stops at the first level if that gives a theory. -/
theorem theory_direct_of_listed {reference : String} {e : ManifestEntry}
    (hentry : entryOf? source s.content (Path.theoryId reference) = some e)
    (hlisted : Listed source s.content e) :
    (Loading.theory s reference).direct source = listedOutcome source s.content e := by
  rw [theory_direct, hentry, Option.elim_some, listedTheory_direct_of_listed source s hlisted]
  rfl

/-- Otherwise paths are probed. -/
theorem theory_direct_of_not_listed {reference : String}
    (h : ∀ e, entryOf? source s.content (Path.theoryId reference) = some e →
      ¬Listed source s.content e) :
    (Loading.theory s reference).direct source =
      (probeTheory s (Path.theoryId reference)
        (displayName source s.content (Path.theoryId reference))).direct source := by
  rw [theory_direct, displayName]
  cases hentry : entryOf? source s.content (Path.theoryId reference) with
  | none => rfl
  | some e =>
    rw [Option.elim_some, listedTheory_direct_of_not_listed source s (h e hentry)]
    rfl

end Direct

/-! ## Programs that do not use the cache -/

section Uncached

variable {α β : Type}

/-- The program only fetches. -/
def Uncached : Loading α → Prop
  | done _ => True
  | lookup _ _ => False
  | fetch _ next => ∀ response, Uncached (next response)
  | keep _ _ _ => False

/-- Such a program gives its direct value in every run. -/
theorem Uncached.run {program : Loading α} (h : Uncached program) (source : String → Response)
    (now : Nat) (t : Trace) : (program.run source now t).1 = program.direct source := by
  induction program generalizing t with
  | done a => rfl
  | lookup path next ih => cases h
  | fetch path next ih => exact ih _ (h _) _
  | keep path body next ih => cases h

theorem uncached_pure (a : α) : Uncached (pure a : Loading α) :=
  trivial

/-- One step after another. -/
theorem Uncached.bind {program : Loading α} {next : α → Loading β} (h : Uncached program)
    (hnext : ∀ a, Uncached (next a)) : Uncached (program >>= next) := by
  show Uncached (andThen next program)
  induction program with
  | done a => exact hnext a
  | lookup path rest ih => cases h
  | fetch path rest ih => exact fun response => ih response (h response)
  | keep path body rest ih => cases h

variable {s : Settings} (hdisabled : s.cache.enabled = false)

include hdisabled

/-- The step that all others are made of. -/
theorem json_uncached (path : String) : Uncached (json s path) := by
  unfold json
  rw [hdisabled]
  intro response
  unfold received
  rw [hdisabled]
  split
  · exact uncached_pure _
  · split
    · exact uncached_pure _
    · split
      · exact uncached_pure _
      · exact uncached_pure _

theorem manifest_uncached : Uncached (manifest s) := by
  refine (json_uncached hdisabled _).bind fun answer => ?_
  split
  · exact uncached_pure _
  · split
    · exact uncached_pure _
    · exact uncached_pure _

theorem listedFiles_uncached (id : String) (files : List ManifestFile) :
    Uncached (listedFiles s id files) := by
  induction files with
  | nil => exact uncached_pure _
  | cons file rest ih =>
    refine (json_uncached hdisabled _).bind fun answer => ?_
    split
    · exact uncached_pure _
    · split
      · exact uncached_pure _
      · refine ih.bind fun found => ?_
        split
        · exact uncached_pure _
        · exact uncached_pure _

theorem listedTheory_uncached (e : ManifestEntry) : Uncached (listedTheory s e) := by
  refine (listedFiles_uncached hdisabled _ _).bind fun found => ?_
  split
  · exact uncached_pure _
  · split
    · exact uncached_pure _
    · exact uncached_pure _

theorem probe_uncached (paths : List String) : Uncached (probe s paths) := by
  induction paths with
  | nil => exact uncached_pure _
  | cons path rest ih =>
    refine (json_uncached hdisabled _).bind fun answer => ?_
    split
    · exact uncached_pure _
    · exact ih.bind fun _ => uncached_pure _

theorem probeTheory_uncached (id name : String) : Uncached (probeTheory s id name) := by
  refine (probe_uncached hdisabled _).bind fun definitions => ?_
  exact (probe_uncached hdisabled _).bind fun theorems => uncached_pure _

/-- All three levels together. -/
theorem theory_uncached (reference : String) : Uncached (Loading.theory s reference) := by
  refine (manifest_uncached hdisabled).bind fun found => ?_
  dsimp only
  split
  · exact probeTheory_uncached hdisabled _ _
  · refine (listedTheory_uncached hdisabled _).bind fun listed => ?_
    split
    · exact uncached_pure _
    · exact probeTheory_uncached hdisabled _ _

theorem categories_uncached : Uncached (categories s) := by
  refine (manifest_uncached hdisabled).bind fun found => ?_
  cases found <;> exact uncached_pure _

end Uncached

/-- Without the cache a program never asks it; with it, what the program finds there is what the
source says. -/
theorem run_eq_direct {α : Type} {source : String → Response} {s : Settings} {program : Loading α}
    {cache : Cache} (huncached : s.cache.enabled = false → Uncached program)
    (htransparent : Transparent source program)
    (hcache : s.cache.enabled = true → NormalSource source ∧ cache.Mirrors source) (now : Nat) :
    (program.run source now (.start cache)).1 = program.direct source := by
  cases henabled : s.cache.enabled with
  | false => exact (huncached henabled).run source now _
  | true =>
    obtain ⟨hsource, hmirrors⟩ := hcache henabled
    exact (htransparent.run hsource now _ (.start cache) hmirrors).1

/-! ## Loading a theory -/

/-- The records that a readable path has, and none without a path. -/
def recordsAt {α : Type} (read : Json → List α) (found : Option (String × Json)) : List α :=
  (found.map fun entry => read entry.2).getD []

/-- A theory is what the manifest lists, or what stands at the first readable candidates, or a
placeholder. A source answers by the normalized path if the cache is in use, and the cache is one
that calls on the source lead to. -/
theorem theory_three_levels (source : String → Response) (s : Settings) (reference : String)
    (now : Nat) (cache : Cache)
    (hcache : s.cache.enabled = true → NormalSource source ∧ Reachable source cache) :
    let outcome := ((Loading.theory s reference).run source now (.start cache)).1
    let id := Path.theoryId reference
    let name := displayName source s.content id
    let definitionPaths := s.content.theoryCandidates id .definitions
    let theoremPaths := s.content.theoryCandidates id .theorems
    let definitions := firstReadable? source definitionPaths
    let theorems := firstReadable? source theoremPaths
    (∀ e, entryOf? source s.content id = some e → Listed source s.content e →
      outcome = listedOutcome source s.content e) ∧
    ((∀ e, entryOf? source s.content id = some e → ¬Listed source s.content e) →
      ((definitions.isSome = true ∨ theorems.isSome = true) →
        outcome =
          ⟨⟨name, recordsAt Records.definitionsOf definitions,
            recordsAt Records.theoremsOf theorems⟩,
            .loaded (definitions.toList.map (·.1) ++ theorems.toList.map (·.1))⟩) ∧
      (definitions = none → theorems = none →
        outcome =
          ⟨⟨name ++ " (Not Found)", [⟨name ++ " (Not Found)",
              "Content for **" ++ name ++ "** could not be located. " ++
                LoadError.number (definitionPaths ++ theoremPaths).length ++
                " candidate paths were tried.", "Placeholder", []⟩], []⟩,
            .notFound (definitionPaths ++ theoremPaths)⟩)) := by
  intro outcome id name definitionPaths theoremPaths definitions theorems
  have hdirect : outcome = (Loading.theory s reference).direct source :=
    run_eq_direct (fun hdisabled => theory_uncached hdisabled reference)
      (theory_alike rfl reference).left
      (fun henabled => (hcache henabled).imp_right (·.mirrors (hcache henabled).1)) now
  rw [hdirect]
  refine ⟨fun e hentry hlisted => theory_direct_of_listed source s hentry hlisted, fun hnot => ?_⟩
  rw [theory_direct_of_not_listed source s hnot, probeTheory_direct]
  constructor
  · intro hfound
    show probedTheory name (definitions, _) (theorems, _) = _
    cases hdefinitions : definitions with
    | some d => rfl
    | none =>
      cases htheorems : theorems with
      | some t => rfl
      | none =>
        rw [hdefinitions, htheorems] at hfound
        rcases hfound with h | h <;> cases h
  · intro hdefinitions htheorems
    show probedTheory name (definitions, _) (theorems, _) = _
    rw [takeWhile_of_firstReadable?_eq_none source hdefinitions,
      takeWhile_of_firstReadable?_eq_none source htheorems, hdefinitions, htheorems]
    rfl

/-! ## A theory whose listing fails -/

/-- A manifest that lists a file that is there and one that is missing, and definitions below a
base. -/
def halfListed : MemoryFiles :=
  [("/a/logic/definitions.json", ⟨200, Response.jsonType, "[\x7b\"name\": \"Set\"\x7d]"⟩),
    ("/definitions.json", ⟨200, Response.jsonType, "[\x7b\"name\": \"Group\"\x7d]"⟩),
    ("/manifest.json", ⟨200, Response.jsonType,
      "[[[\"logic\", \"Logic\", 2, [[\"/definitions.json\"], [\"/missing.json\"]]]]]"⟩)]

def halfListedSettings : Settings :=
  { content := { theoryBases := ["/a"] } }

/-- The record of the listed file that can be read is not used: the theory is probed for. -/
theorem theory_three_levels_halfListed :
    NormalSource halfListed.fetch ∧ Reachable halfListed.fetch .empty ∧
      ((Loading.theory halfListedSettings "logic.json").run halfListed.fetch 1 (.start .empty)).1 =
        ⟨⟨"Logic", [⟨"Set", "", "Unknown", []⟩], []⟩, .loaded ["/a/logic/definitions.json"]⟩ := by
  have hsource : NormalSource halfListed.fetch := MemoryFiles.normalSource _
  refine ⟨hsource, .empty, ?_⟩
  have hlevels := theory_three_levels halfListed.fetch halfListedSettings "logic.json" 1 .empty
    fun _ => ⟨hsource, .empty⟩
  have hentry : entryOf? halfListed.fetch halfListedSettings.content
        (Path.theoryId "logic.json") =
      some ⟨"logic", "Logic", 2, [⟨"/definitions.json", ""⟩, ⟨"/missing.json", ""⟩]⟩ := by
    decide +kernel
  have hrecords : recordsAt Records.definitionsOf (firstReadable? halfListed.fetch
        (halfListedSettings.content.theoryCandidates (Path.theoryId "logic.json") .definitions)) =
      [⟨"Set", "", "Unknown", []⟩] := by
    decide +kernel
  have hpaths : (firstReadable? halfListed.fetch (halfListedSettings.content.theoryCandidates
        (Path.theoryId "logic.json") .definitions)).map (·.1) =
      some "/a/logic/definitions.json" := by
    decide +kernel
  have htheorems : firstReadable? halfListed.fetch (halfListedSettings.content.theoryCandidates
        (Path.theoryId "logic.json") .theorems) = none := by
    decide +kernel
  obtain ⟨-, hprobed⟩ := hlevels
  refine ((hprobed fun e he hlisted => ?_).1 (.inl ?_)).trans ?_
  · cases Option.some.inj (hentry.symm.trans he)
    have hmissing := hlisted.usable ⟨"/missing.json", ""⟩ (by decide)
    revert hmissing
    decide +kernel
  · rw [← Option.isSome_map, hpaths]
    rfl
  · rw [htheorems, displayName, hentry, ← Option.toList_map, hpaths, hrecords]
    rfl

/-! ## Bodies that are not the source's -/

def manifestOf (files : String) : Response :=
  ⟨200, Response.jsonType, "[[[\"t\", \"T\", 1, [" ++ files ++ "]]]]"⟩

/-- A source that tells two spellings of one path apart. The manifest lists both. -/
def twoSpellings (path : String) : Response :=
  if path = "/manifest.json" then manifestOf "[\"/t.json\"], [\"//t.json\"]"
  else if path = "/t.json" then ⟨200, Response.jsonType, "[]"⟩
  else if path = "//t.json" then ⟨200, Response.jsonType, "[\x7b\"name\": \"Set\"\x7d]"⟩
  else .failed 404

def oneListed : MemoryFiles :=
  [("/manifest.json", manifestOf "[\"/t.json\"]"),
    ("/t.json", ⟨200, Response.jsonType, "[\x7b\"name\": \"Set\"\x7d]"⟩)]

/-- A theory whose listing can be used is not found if the cache has another body for one of the
files: the body of another spelling of its path, or one that never came from the source. -/
theorem kept_body_hides_listing :
    (∃ e, entryOf? twoSpellings ({} : ContentSettings) "t" = some e ∧ Listed twoSpellings {} e ∧
      ((Loading.theory {} "t").run twoSpellings 1 (.start .empty)).1.value.name = "T (Not Found)") ∧
    ∃ e, entryOf? oneListed.fetch ({} : ContentSettings) "t" = some e ∧
      Listed oneListed.fetch {} e ∧ ((Loading.theory {} "t").run oneListed.fetch 1
        (.start (Cache.empty.keep 0 "/t.json" "[]"))).1.value.name = "T (Not Found)" := by
  refine ⟨⟨⟨"t", "T", 1, [⟨"/t.json", ""⟩, ⟨"//t.json", ""⟩]⟩, by decide +kernel,
    ⟨by decide +kernel, ?_⟩, by decide +kernel⟩,
      ⟨⟨"t", "T", 1, [⟨"/t.json", ""⟩]⟩, by decide +kernel, ⟨by decide +kernel, ?_⟩,
    by decide +kernel⟩⟩
  · exact ⟨⟨"//t.json", ""⟩, by decide, by decide +kernel⟩
  · exact ⟨⟨"/t.json", ""⟩, by decide, by decide +kernel⟩

end Loading

end Compendium
