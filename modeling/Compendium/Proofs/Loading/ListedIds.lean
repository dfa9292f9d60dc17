import Compendium.Proofs.Loading.Answering
import Compendium.Proofs.Route
import Compendium.Proofs.Text.Tidy

/-!
# Opening the theories that a manifest lists

A theory is opened by a reference, which is stripped of its decoration first; what is left is
compared with the ids of the manifest as they stand there, and then with the identifiers of the
names. So an id of the manifest opens the first theory with that id if it is tidy. An id with
decoration does so only where the id without it is the identifier of the theory's name: else it
opens another theory, or none.
-/

namespace Compendium

/-! ## The theory that an id finds -/

namespace Manifest

variable {m : Manifest} {e : ManifestEntry}

/-- The first theory with an id is found by this id, and by another one only through its name. -/
theorem find?_eq_first_iff {listed : String}
    (hfirst : m.theories.find? (fun x => x.id == listed) = some e) (id : String) :
    m.find? id = some e ↔ id = listed ∨
      ((∀ x ∈ m.theories, x.id ≠ id) ∧ m.theories.find? (fun x => x.slug == id) = some e) := by
  have hid : e.id = listed := by simpa using List.find?_some hfirst
  rw [find?]
  cases hfound : m.theories.find? (fun x => x.id == id) with
  | some x =>
    have hx : x.id = id := by simpa using List.find?_some hfound
    have hmem : x ∈ m.theories := List.mem_of_find?_eq_some hfound
    constructor
    · intro h
      obtain rfl : x = e := Option.some.inj h
      exact .inl (hx.symm.trans hid)
    · rintro (rfl | ⟨hnone, -⟩)
      · exact hfound.symm.trans hfirst
      · exact absurd hx (hnone x hmem)
  | none =>
    have hnone : ∀ x ∈ m.theories, x.id ≠ id := by simpa using hfound
    constructor
    · intro h
      exact .inr ⟨hnone, h⟩
    · rintro (rfl | ⟨-, hslug⟩)
      · rw [hfirst] at hfound
        cases hfound
      · exact hslug

end Manifest

/-! ## The name of what is loaded -/

/-- The outcome goes by a name: a theory has it, and a placeholder says that the theory is not
found. -/
def Outcome.Named (outcome : Outcome Theory) (name : String) : Prop :=
  outcome.value.name = if outcome.provenance.isLoaded then name else name ++ " (Not Found)"

namespace Loading

variable {source : String → Response} {s : Settings} {now : Nat}

theorem probedTheory_named (name : String)
    (definitions theorems : Option (String × Json) × List String) :
    (probedTheory name definitions theorems).Named name := by
  obtain ⟨d, _⟩ := definitions
  obtain ⟨t, _⟩ := theorems
  cases d <;> cases t <;> rfl

theorem probeTheory_named (id name : String) (t : Trace) :
    ((probeTheory s id name).run source now t).1.Named name := by
  rw [probeTheory, run_bind, run_bind]
  exact probedTheory_named name _ _

theorem listedTheory_name {e : ManifestEntry} {t : Trace} {found : Theory × List String}
    (h : ((listedTheory s e).run source now t).1 = .ok found) : found.1.name = e.name := by
  rw [listedTheory, run_bind] at h
  split at h
  · cases h
  · split at h
    · cases h
    · cases h
      rfl

/-- A theory goes by the name of the entry that its id finds, or by one made from the id. The files
that are read after the manifest do not matter for it. -/
theorem theory_named {m : Manifest} {t : Trace}
    (hmanifest : ((manifest s).run source now t).1 = .ok m) (reference : String) :
    ((Loading.theory s reference).run source now t).1.Named
      ((m.find? (Path.theoryId reference)).elim
        (String.ofList (Text.title (Path.theoryId reference).toList)) (·.name)) := by
  rw [Loading.theory, run_bind, hmanifest]
  dsimp only
  cases m.find? (Path.theoryId reference) with
  | none => exact probeTheory_named _ _ _
  | some e =>
    dsimp only [Option.elim_some]
    rw [run_bind]
    split
    · rename_i found paths hlisted
      exact listedTheory_name hlisted
    · exact probeTheory_named _ _ _

/-! ## The manifest that is read -/

theorem Answering.manifest {I : List String → Trace → Prop} (hI : Answering source s now I)
    {t : Trace} (hstart : I [s.content.manifestPath] t) {m : Manifest}
    (hmanifest : (readable? source s.content.manifestPath).bind Manifest.decode.read = some m) :
    ((manifest s).run source now t).1 = .ok m := by
  obtain ⟨j, hj, hdecode⟩ := Option.bind_eq_some_iff.mp hmanifest
  have hanswer : answered s.content.manifestPath (source s.content.manifestPath) = .ok j := by
    rw [readable?] at hj
    cases hresult : answered s.content.manifestPath (source s.content.manifestPath) with
    | error e =>
      rw [hresult] at hj
      cases hj
    | ok j' =>
      rw [hresult] at hj
      cases hj
      rfl
  rw [Loading.manifest, run_bind, hI.value hstart, hanswer]
  dsimp only
  rw [hdecode]
  rfl

theorem categories_run {m : Manifest} {t : Trace}
    (hmanifest : ((manifest s).run source now t).1 = .ok m) :
    ((Loading.categories s).run source now t).1 = m.theories.map (·.id) := by
  rw [categories, run_bind, hmanifest]
  rfl

end Loading

/-! ## Opening a listed theory -/

namespace Loading

/-- The ids of the manifest are listed as they are. Each finds the first theory with that id exactly
if it is tidy, or no theory has the id without its decoration and that theory is the first whose
name gives it. What is opened goes by the name of the theory that is found. The link to it leads to
the id exactly if this is one segment of a path. -/
theorem listed_id_opens_iff (source : String → Response) (s : Settings) (now : Nat) (cache : Cache)
    (hcache : s.cache.enabled = true → (NormalSource source ∧ Reachable source cache) ∨
      Unkept cache [s.content.manifestPath])
    (m : Manifest)
    (hmanifest : (readable? source s.content.manifestPath).bind Manifest.decode.read = some m) :
    ((Loading.categories s).run source now (.start cache)).1 = m.theories.map (·.id) ∧
    ∀ t ∈ m.theories, ∃ e, m.theories.find? (fun x => x.id == t.id) = some e ∧
      let id := Path.theoryId t.id
      let outcome := ((Loading.theory s t.id).run source now (.start cache)).1
      (m.find? id = some e ↔ Path.Tidy t.id ∨
        ((∀ x ∈ m.theories, x.id ≠ id) ∧ m.theories.find? (fun x => x.slug == id) = some e)) ∧
      (∀ found, m.find? id = some found → outcome.Named found.name) ∧
      (m.find? id = none → outcome.Named (String.ofList (Text.title id.toList))) ∧
      (Route.parse (Route.theory t.id).path = .theory t.id ↔
        t.id ≠ "" ∧ ∀ c ∈ t.id.toList, c ≠ '/' ∧ c ≠ '?' ∧ c ≠ '#') := by
  obtain ⟨I, hI, hstart⟩ := exists_answering now hcache
  have hread := hI.manifest hstart hmanifest
  refine ⟨categories_run hread, fun t ht => ?_⟩
  have hsome : (m.theories.find? fun x => x.id == t.id).isSome = true := by
    rw [List.find?_isSome]
    exact ⟨t, ht, beq_self_eq_true t.id⟩
  obtain ⟨e, hfirst⟩ := Option.isSome_iff_exists.mp hsome
  have hnamed := theory_named hread t.id
  refine ⟨e, hfirst, ?_, fun found hfound => ?_, fun hnone => ?_, Route.parse_theory_path_iff t.id⟩
  · rw [← Path.theoryId_eq_self_iff]
    exact Manifest.find?_eq_first_iff hfirst _
  · rw [hfound] at hnamed
    exact hnamed
  · rw [hnone] at hnamed
    exact hnamed

/-! ## Tidy ids and others -/

/-- Two theories with one id, after a theory whose name gives that id. -/
def sharedId : MemoryFiles :=
  [("/manifest.json", ⟨200, Response.jsonType,
      "[[[\"c\", \"Rings\"], [\"rings\", \"Ring Theory\"], [\"rings\", \"More Rings\"]]]"⟩)]

def sharedIdManifest : Manifest :=
  ⟨[⟨"c", "Rings", 0, []⟩, ⟨"rings", "Ring Theory", 0, []⟩, ⟨"rings", "More Rings", 0, []⟩]⟩

/-- Both theories with the id are opened as the first of them, from a cache that has the
manifest. -/
theorem listed_id_opens_iff_sharedId :
    let source := sharedId.fetch
    let cache := ((Call.ask .categories).perform source {} 1 .empty).2
    NormalSource source ∧ Reachable source cache ∧ Path.Tidy "rings" ∧
      (readable? source "/manifest.json").bind Manifest.decode.read = some sharedIdManifest ∧
      ((Loading.categories {}).run source 2 (.start cache)).1 = ["c", "rings", "rings"] ∧
      ((Loading.theory {} "rings").run source 2 (.start cache)).1.Named "Ring Theory" := by
  intro source cache
  have hsource : NormalSource source := MemoryFiles.normalSource sharedId
  have hreachable : Reachable source cache := .perform {} 1 _ .empty .empty
  have htidy : Path.Tidy "rings" := (Path.theoryId_eq_self_iff "rings").mp (by decide +kernel)
  have hmanifest : (readable? source "/manifest.json").bind Manifest.decode.read =
      some sharedIdManifest := by
    decide +kernel
  obtain ⟨hcategories, hopen⟩ := listed_id_opens_iff source {} 2 cache
    (fun _ => .inl ⟨hsource, hreachable⟩) sharedIdManifest hmanifest
  obtain ⟨e, hfirst, hfind, hnamed, -, -⟩ := hopen ⟨"rings", "More Rings", 0, []⟩ (by decide)
  have hname : e.name = "Ring Theory" := by
    cases hfirst
    rfl
  refine ⟨hsource, hreachable, htidy, hmanifest, hcategories, ?_⟩
  rw [← hname]
  exact hnamed e (hfind.mpr (.inl htidy))

/-- A theory whose id ends as a file does. -/
def ringsFile : MemoryFiles :=
  [("/manifest.json", ⟨200, Response.jsonType,
      "[[[\"rings.json\", \"Ring Theory\", 1, [[\"/r.json\"]]], [\"fields\", \"Fields\"]]]"⟩),
    ("/r.json", ⟨200, Response.jsonType, "[\x7b\"name\": \"Ideal\"\x7d]"⟩)]

def ringsSettings : Settings :=
  { content := { theoryBases := ["/t"] } }

/-- The id is listed, and the theory is not opened by it: without the ending it is no id, and not
the identifier of a name. -/
theorem listed_id_with_ending_not_found :
    let source := ringsFile.fetch
    (readable? source "/manifest.json").bind Manifest.decode.read =
        some ⟨[⟨"rings.json", "Ring Theory", 1, [⟨"/r.json", ""⟩]⟩, ⟨"fields", "Fields", 0, []⟩]⟩ ∧
      ((Loading.categories ringsSettings).run source 1 (.start .empty)).1 =
        ["rings.json", "fields"] ∧
      ((Loading.theory ringsSettings "rings.json").run source 1 (.start .empty)).1.value.name =
        "Rings (Not Found)" := by
  refine ⟨?_, ?_, ?_⟩ <;> decide +kernel

end Loading

end Compendium
