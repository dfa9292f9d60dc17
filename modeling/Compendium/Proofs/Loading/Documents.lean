import Compendium.Proofs.Loading.Answering

/-!
# Loading a document

A document is the first one among its candidate paths, whatever stands at the paths before it. If
there is none, the placeholder names the candidates that were granted as JSON, since none of them is
a document; and if no candidate was granted so, it names them all.

With the cache in use this holds of every source that answers by the normalized path, from every
cache that calls on it lead to. It holds of every other source too, from a cache that has none of
the candidates, if these are different paths.
-/

namespace Compendium

namespace Loading

section Candidates

variable (source : String → Response)

/-- The document at a path: it is granted as JSON, and its body is the JSON of a document. -/
def documentAt? (path : String) : Option Document :=
  if (source path).isUsable then (Json.parse? (source path).body).bind
    Document.decode.read else none

def firstDocument? (paths : List String) : Option (String × Document) :=
  paths.findSome? fun path => (documentAt? source path).map (Prod.mk path)

/-- The misses of a search, with those of some more paths that hold no document. -/
def missesAfter (m : Misses) (paths : List String) : Misses :=
  ⟨(paths.filter fun path => !(source path).isUsable).reverse ++ m.tried,
    (paths.filter fun path => (source path).isUsable).reverse ++ m.malformed⟩

def searchOutcome (id : String) (m : Misses) (paths : List String) : Outcome Document :=
  (firstDocument? source paths).elim (missingDocument id (missesAfter source m paths))
    fun found => ⟨found.2, .loaded [found.1]⟩

variable {source} {path : String}

/-- What the answer for a path can be: none that is JSON, no document, or a document. -/
theorem answered_cases (source : String → Response) (path : String) :
    ((source path).isUsable = false ∧ documentAt? source path = none ∧
      ∃ e, answered path (source path) = .error e ∧ ∀ other, e ≠ .malformed other) ∨
    ((source path).isUsable = true ∧ documentAt? source path = none ∧
      answered path (source path) = .error (.malformed path)) ∨
    ((source path).isUsable = true ∧ ∃ j, answered path (source path) = .ok j ∧
      documentAt? source path = Document.decode.read j) := by
  cases husable : (source path).isUsable with
  | false =>
    have hnone : documentAt? source path = none := by rw [documentAt?, husable]; rfl
    refine .inl ⟨rfl, hnone, ?_⟩
    unfold answered
    cases hok : (source path).isOk with
    | false => exact ⟨_, rfl, fun _ h => by cases h⟩
    | true =>
      have hjson : (source path).isJson = false := by
        rw [Response.isUsable, hok] at husable
        exact husable
      rw [hjson]
      exact ⟨_, rfl, fun _ h => by cases h⟩
  | true =>
    rw [answered_of_isUsable husable, documentAt?, husable, if_pos rfl, parseBody]
    cases Json.parse? (source path).body with
    | none => exact .inr (.inl ⟨rfl, rfl, rfl⟩)
    | some j => exact .inr (.inr ⟨rfl, j, rfl, rfl⟩)

variable {id : String} {m : Misses} {rest : List String}

theorem searchOutcome_of_document {d : Document} (h : documentAt? source path = some d) :
    searchOutcome source id m (path :: rest) = ⟨d, .loaded [path]⟩ := by
  simp [searchOutcome, firstDocument?, h]

theorem searchOutcome_of_refused (h : documentAt? source path = none)
    (husable : (source path).isUsable = false) :
    searchOutcome source id m (path :: rest) =
      searchOutcome source id { m with tried := path :: m.tried } rest := by
  simp [searchOutcome, firstDocument?, missesAfter, h, husable]

theorem searchOutcome_of_malformed (h : documentAt? source path = none)
    (husable : (source path).isUsable = true) :
    searchOutcome source id m (path :: rest) =
      searchOutcome source id { m with malformed := path :: m.malformed } rest := by
  simp [searchOutcome, firstDocument?, missesAfter, h, husable]

end Candidates

/-! ## Searching among paths -/

section Search

variable {source : String → Response} {s : Settings} {now : Nat}

/-- A search whose paths are answered by the source gives the first document among them. -/
theorem Answering.documentFrom {I : List String → Trace → Prop} (hI : Answering source s now I)
    (id : String) (m : Misses) {paths : List String} {t : Trace} (h : I paths t) :
    ((documentFrom s id m paths).run source now t).1 = searchOutcome source id m paths := by
  induction paths generalizing m t with
  | nil => rfl
  | cons path rest ih =>
    have hnext := hI.next h
    rw [Loading.documentFrom, run_bind, hI.value h]
    obtain ⟨husable, hnone, e, hanswer, hother⟩ | ⟨husable, hnone, hanswer⟩ |
      ⟨husable, j, hanswer, hread⟩ := answered_cases source path
    · rw [searchOutcome_of_refused hnone husable, ← ih _ hnext, hanswer]
      cases e with
      | malformed other => exact absurd rfl (hother other)
      | _ => rfl
    · rw [searchOutcome_of_malformed hnone husable, ← ih _ hnext, hanswer]
    · rw [hanswer]
      dsimp only
      cases hdocument : Document.decode.read j with
      | some d =>
        rw [searchOutcome_of_document (hread.trans hdocument)]
        rfl
      | none =>
        rw [searchOutcome_of_malformed (hread.trans hdocument) husable, ← ih _ hnext]

end Search

/-! ## Loading a document -/

theorem firstDocument?_append {source : String → Response} {before : List String}
    (hbefore : ∀ path ∈ before, documentAt? source path = none) {path : String} {d : Document}
    (hpath : documentAt? source path = some d) (rest : List String) :
    firstDocument? source (before ++ path :: rest) = some (path, d) := by
  have hnone :
      before.findSome? (fun path => (documentAt? source path).map (Prod.mk path)) = none := by
    rw [List.findSome?_eq_none_iff]
    intro other hother
    rw [hbefore other hother]
    rfl
  rw [firstDocument?, List.findSome?_append, hnone, Option.none_or, List.findSome?_cons, hpath]
  rfl

theorem searchOutcome_of_none {source : String → Response} {paths : List String}
    (hnone : ∀ path ∈ paths, documentAt? source path = none) (id : String) (m : Misses) :
    searchOutcome source id m paths = missingDocument id (missesAfter source m paths) := by
  have hfirst : firstDocument? source paths = none := by
    rw [firstDocument?, List.findSome?_eq_none_iff]
    intro path hpath
    rw [hnone path hpath]
    rfl
  rw [searchOutcome, hfirst]
  rfl

/-- A document is the first one among its candidates, whatever stands at the candidates before it.
If there is none, the placeholder says that it cannot be read and names the candidates that were
granted as JSON, in their order, if there are any; and else that it is not found and names all
candidates. -/
theorem document_first_candidate (source : String → Response) (s : Settings) (id : String)
    (now : Nat) (cache : Cache)
    (hcache : s.cache.enabled = true → (NormalSource source ∧ Reachable source cache) ∨
      Unkept cache (s.content.documentCandidates id)) :
    let outcome := ((Loading.document s id).run source now (.start cache)).1
    let candidates := s.content.documentCandidates id
    let granted := candidates.filter fun path => (source path).isUsable
    (∀ before path rest d, candidates = before ++ path :: rest →
      (∀ other ∈ before, documentAt? source other = none) → documentAt? source path = some d →
        outcome = ⟨d, .loaded [path]⟩) ∧
    ((∀ path ∈ candidates, documentAt? source path = none) →
      (granted ≠ [] → outcome =
        ⟨.placeholder id "Unavailable" "This document exists but could not be read.",
          .placeholder ("malformed document at " ++ ", ".intercalate granted)⟩) ∧
      (granted = [] → outcome =
        ⟨.placeholder id "Not Found" "This document could not be located.",
          .notFound candidates⟩)) := by
  intro outcome candidates granted
  have houtcome : outcome = searchOutcome source id ⟨[], []⟩ candidates := by
    obtain ⟨I, hI, hstart⟩ := exists_answering now hcache
    exact hI.documentFrom id _ hstart
  rw [houtcome]
  refine ⟨fun before path rest d hsplit hbefore hpath => ?_, fun hnone => ?_⟩
  · rw [hsplit, searchOutcome, firstDocument?_append hbefore hpath]
    rfl
  · have hmisses : missesAfter source ⟨[], []⟩ candidates =
        ⟨(candidates.filter fun path => !(source path).isUsable).reverse, granted.reverse⟩ := by
      simp [missesAfter, granted]
    rw [searchOutcome_of_none hnone, hmisses, missingDocument, List.isEmpty_reverse]
    refine ⟨fun hgranted => ?_, fun hgranted => ?_⟩
    · rw [if_neg (by simpa using hgranted), List.reverse_reverse]
    · have hall : (candidates.filter fun path => !(source path).isUsable) = candidates := by
        rw [List.filter_eq_self]
        intro path hpath
        have hrefused := List.filter_eq_nil_iff.mp hgranted path hpath
        simpa using hrefused
      rw [if_pos (by simpa using hgranted), List.reverse_reverse, hall]

/-! ## A document after a broken one -/

def textFile (text : String) : FileTree :=
  .file (Text.utf8 text.toList)

/-- A folder in which the first candidate for a document is no JSON and the second one is the
document. -/
def introFolder : FileTree :=
  .folder [("documents", .folder
    [("intro", .folder [("document.json",
        textFile
          "\x7b\"id\":\"intro\",\"title\":\"Introduction\",\"document_type\":\"Article\"\x7d")]),
      ("intro.json", textFile "[true")])]

/-- The broken file is passed over, in a session that has met it before. -/
theorem document_first_candidate_intro :
    let source := introFolder.fetch "content"
    let cache := ((Call.ask (.json "/documents/intro.json")).perform source {} 1 .empty).2
    NormalSource source ∧ Reachable source cache ∧
      documentAt? source "/documents/intro.json" = none ∧
      (((Loading.document {} "/intro.json").run source 2 (.start cache)).1.value.title,
          ((Loading.document {} "/intro.json").run source 2 (.start cache)).1.provenance) =
        ("Introduction", .loaded ["/documents/intro/document.json"]) := by
  intro source cache
  have hsource : NormalSource source := FileTree.normalSource "content" introFolder
  have hreachable : Reachable source cache := .perform {} 1 _ .empty .empty
  have hbroken : documentAt? source "/documents/intro.json" = none := by
    rw [← Option.isNone_iff_eq_none]
    decide +kernel
  have hread : (documentAt? source "/documents/intro/document.json").map (·.title) =
      some "Introduction" := by
    decide +kernel
  obtain ⟨d, hd, htitle⟩ := Option.map_eq_some_iff.mp hread
  obtain ⟨hfirst, -⟩ := document_first_candidate source {} "/intro.json" 2 cache
    fun _ => .inl ⟨hsource, hreachable⟩
  have hcandidates : (({} : Settings).content.documentCandidates "/intro.json") =
      ["/documents/intro.json"] ++ "/documents/intro/document.json" ::
        ["/subjects/math/documents/intro.json", "/subjects/math/documents/intro/document.json",
          "/content/documents/intro.json", "/content/documents/intro/document.json"] := by
    decide
  refine ⟨hsource, hreachable, hbroken, ?_⟩
  rw [hfirst _ _ _ d hcandidates (by simpa using hbroken) hd]
  exact congrArg (fun title => (title, _)) htitle

/-! ## Bodies that are not the source's -/

def noteText : String :=
  "\x7b\"id\":\"note\",\"title\":\"Note\",\"document_type\":\"Article\"\x7d"

/-- A source that tells two spellings of one path apart: only the second one is that of a
document. -/
def twoNotes (path : String) : Response :=
  if path = "/documents/note.json" then ⟨200, Response.jsonType, "\x7b\"title\": 3\x7d"⟩
  else if path = "//documents/note.json" then ⟨200, Response.jsonType, noteText⟩
  else .failed 404

def twoNotesSettings : Settings :=
  { content := { documentBases := ["/documents", "//documents"] } }

def oneNote : MemoryFiles :=
  [("/documents/note.json", ⟨200, Response.jsonType, noteText⟩)]

/-- A document that stands at a candidate is said to be unreadable if the cache has another body for
it: the body of another spelling of its path, or one that never came from the source. -/
theorem kept_body_hides_document :
    ("//documents/note.json" ∈ twoNotesSettings.content.documentCandidates "note" ∧
      (documentAt? twoNotes "//documents/note.json").isSome = true ∧
      ((Loading.document twoNotesSettings "note").run twoNotes 1 (.start .empty)).1.value.title =
        "note (Unavailable)") ∧
    "/documents/note.json" ∈ ({} : ContentSettings).documentCandidates "note" ∧
      (documentAt? oneNote.fetch "/documents/note.json").isSome = true ∧
      ((Loading.document {} "note").run oneNote.fetch 1
        (.start (Cache.empty.keep 0 "/documents/note.json"
        "\x7b\"title\": 3\x7d"))).1.value.title = "note (Unavailable)" := by
  decide +kernel

end Loading

end Compendium
