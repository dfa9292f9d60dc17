import Compendium.Proofs.Text.Slug
import Compendium.Route
import Mathlib.Data.List.TakeWhile

/-!
# Canonical paths of routes

The route of an address is decided by the segments before its query and its fragment, except that a
route that is not found keeps the text. The path of a route is written from the segments that lead
to it. So the path of a route that was parsed is parsed to this route again: it is the canonical one
among all the addresses of the route. Nothing is escaped in it, so a route that was not parsed comes
back only if what it names is one segment of a path.
-/

namespace Compendium.Route

/-- The text can stand between two slashes of a path. -/
def IsSegment (s : String) : Prop :=
  s ≠ "" ∧ ∀ c ∈ s.toList, c ≠ '/' ∧ c ≠ '?' ∧ c ≠ '#'

def segments? : Route → Option (List String)
  | home => some []
  | math => some ["math"]
  | theory id => some ["math", id]
  | document id => some ["docs", id]
  | roadmap => some ["roadmap"]
  | developer => some ["developer"]
  | foundations => some ["foundations"]
  | logic => some ["logic"]
  | notFound _ => none

/-! ## Routes and segments -/

theorem ofSegments?_eq_some_iff {pieces : List String} {route : Route} :
    ofSegments? pieces = some route ↔ route.segments? = some pieces := by
  constructor
  · intro h
    unfold ofSegments? at h
    split at h <;> cases h <;> rfl
  · intro h
    cases route <;> cases h <;> rfl

/-- The path of a route is written from the segments that lead to it. -/
theorem path_eq {route : Route} {pieces : List String} (h : route.segments? = some pieces) :
    route.path = Path.ofSegments (pieces.map String.toList) := by
  cases route <;> cases h <;> simp [path, Path.ofSegments, List.intercalate, ← String.toList_inj]

/-! ## Segments of addresses -/

theorem endsPath_eq_false_iff {c : Char} : endsPath c = false ↔ c ≠ '?' ∧ c ≠ '#' := by
  simp [endsPath]

theorem pathOf_of_free {address : String} (h : ∀ c ∈ address.toList, endsPath c = false) :
    pathOf address = address := by
  have hall : ∀ c ∈ address.toList, (!endsPath c) = true := fun c hc => by rw [h c hc]; rfl
  rw [pathOf, List.takeWhile_eq_self_iff.mpr hall, String.ofList_toList]

theorem endsPath_of_mem_pathOf {address : String} {c : Char} (hc : c ∈ (pathOf address).toList) :
    endsPath c = false := by
  rw [pathOf, String.toList_ofList] at hc
  simpa using List.mem_takeWhile_imp hc

theorem pathOf_pathOf (address : String) : pathOf (pathOf address) = pathOf address :=
  pathOf_of_free fun _ => endsPath_of_mem_pathOf

theorem parse_pathOf (address : String) : parse (pathOf address) = parse address := by
  rw [parse, parse, pathOf_pathOf]

theorem isSegment_of_mem {address piece : String} (h : piece ∈ Path.segments (pathOf address)) :
    IsSegment piece := by
  obtain ⟨chars, hchars, rfl⟩ := List.mem_map.mp h
  obtain ⟨hnonempty, hslash⟩ := Text.segments_spec _ chars hchars
  refine ⟨by simpa using hnonempty, fun c hc => ?_⟩
  rw [String.toList_ofList] at hc
  have hmem := (Text.mem_of_mem_splitOnP (List.mem_filter.mp hchars).1 hc).1
  exact ⟨ne_of_beq_false (hslash c hc), endsPath_eq_false_iff.mp (endsPath_of_mem_pathOf hmem)⟩

/-- A path that is written from segments has these segments, and nothing ends it early. -/
theorem segments_ofSegments {pieces : List String} (h : ∀ piece ∈ pieces, IsSegment piece) :
    Path.segments (pathOf (Path.ofSegments (pieces.map String.toList))) = pieces := by
  have hpieces : ∀ q ∈ pieces.map String.toList, q ≠ [] ∧ ∀ c ∈ q, (c == '/') = false := by
    intro q hq
    obtain ⟨piece, hpiece, rfl⟩ := List.mem_map.mp hq
    obtain ⟨hnonempty, hfree⟩ := h piece hpiece
    exact ⟨by simpa using hnonempty, fun c hc => beq_false_of_ne (hfree c hc).1⟩
  have hfree : ∀ c ∈ (Path.ofSegments (pieces.map String.toList)).toList, endsPath c = false := by
    intro c hc
    rw [Path.ofSegments, String.toList_ofList] at hc
    rcases List.mem_cons.mp hc with rfl | hc
    · rfl
    · obtain hslash | ⟨q, hq, hc⟩ := Text.mem_of_mem_intercalate hc
      · obtain rfl := List.mem_singleton.mp hslash
        rfl
      · obtain ⟨piece, hpiece, rfl⟩ := List.mem_map.mp hq
        exact endsPath_eq_false_iff.mpr ((h piece hpiece).2 c hc).2
  rw [pathOf_of_free hfree, Path.segments, Path.ofSegments, String.toList_ofList,
    Text.segments_join hpieces, List.map_map]
  simp

/-! ## Canonical paths -/

/-- A route comes back from its path exactly if it leads through segments of a path. -/
theorem parse_path_iff {route : Route} {pieces : List String} (h : route.segments? = some pieces) :
    parse route.path = route ↔ ∀ piece ∈ pieces, IsSegment piece := by
  constructor
  · intro hparse piece hpiece
    rw [parse] at hparse
    cases hfound : ofSegments? (Path.segments (pathOf route.path)) with
    | none =>
      rw [hfound] at hparse
      rw [← hparse] at h
      cases h
    | some found =>
      rw [hfound] at hparse
      obtain rfl : found = route := hparse
      have hsame := (ofSegments?_eq_some_iff.mp hfound).symm.trans h
      rw [← Option.some.inj hsame] at hpiece
      exact isSegment_of_mem hpiece
  · intro hpieces
    rw [parse, path_eq h, segments_ofSegments hpieces, ofSegments?_eq_some_iff.mpr h]
    rfl

/-- The check that a word is a segment. -/
theorem isSegment_of_all {word : String}
    (h : (word != "" && word.toList.all fun c => c != '/' && c != '?' && c != '#') = true) :
    IsSegment word := by
  simpa [IsSegment, and_assoc] using h

/-- Plain text is a segment. -/
theorem isSegment_of_plain {word : String} (hword : word ≠ "")
    (h : ∀ c ∈ word.toList, Text.isPlain c = true) : IsSegment word := by
  refine ⟨hword, fun c hc => ?_⟩
  have hother : ∀ {mark : Char}, Text.isPlain mark = false → c ≠ mark := fun hmark =>
    ne_of_beq_false (Text.beq_of_isPlain (h c hc) hmark)
  exact ⟨hother (by decide), hother (by decide), hother (by decide)⟩

theorem isSegment_pair_iff {word : String} (hword : IsSegment word) (id : String) :
    (∀ piece ∈ [word, id], IsSegment piece) ↔ IsSegment id := by
  simp [hword]

/-- The address of a theory leads to it exactly if its id is one segment of a path. -/
theorem parse_theory_path_iff (id : String) :
    parse (theory id).path = .theory id ↔
      id ≠ "" ∧ ∀ c ∈ id.toList, c ≠ '/' ∧ c ≠ '?' ∧ c ≠ '#' :=
  (parse_path_iff rfl).trans (isSegment_pair_iff (isSegment_of_all (by decide)) id)

theorem parse_path_parse (address : String) : parse (parse address).path = parse address := by
  cases hfound : ofSegments? (Path.segments (pathOf address)) with
  | none =>
    have hparse : parse address = .notFound (pathOf address) := by rw [parse, hfound]; rfl
    rw [hparse, path, parse_pathOf, hparse]
  | some route =>
    have hparse : parse address = route := by rw [parse, hfound]; rfl
    rw [hparse]
    exact (parse_path_iff (ofSegments?_eq_some_iff.mp hfound)).mpr fun _ => isSegment_of_mem

/-- Parsing forgets the spelling of an address: the path of the route is parsed to the route again,
addresses with the same segments before query and fragment have the same route or are both not
found, and a theory or a document comes back from its path exactly if its id is one segment. -/
theorem parse_canonical :
    (∀ address, parse (parse address).path = parse address) ∧
    (∀ address other, Path.segments (pathOf address) = Path.segments (pathOf other) →
      parse address = parse other ∨
        (∃ text, parse address = .notFound text) ∧ ∃ text, parse other = .notFound text) ∧
    (∀ id, parse (theory id).path = .theory id ↔ IsSegment id) ∧
    ∀ id, parse (document id).path = .document id ↔ IsSegment id := by
  refine ⟨parse_path_parse, fun address other hsame => ?_, parse_theory_path_iff, fun id => ?_⟩
  · rw [parse, parse, hsame]
    cases ofSegments? (Path.segments (pathOf other)) with
    | none => exact .inr ⟨⟨_, rfl⟩, _, rfl⟩
    | some route => exact .inl rfl
  · exact (parse_path_iff rfl).trans (isSegment_pair_iff (isSegment_of_all (by decide)) id)

/-- Extra slashes, a query and a fragment do not change a route; an id with a slash is another
address. -/
theorem parse_canonical_spellings :
    Path.segments (pathOf "//math/rings/?tab=1") = Path.segments (pathOf "math/rings#ideal") ∧
      (parse "//math/rings/?tab=1" = parse "math/rings#ideal" ∨
        (∃ text, parse "//math/rings/?tab=1" = .notFound text) ∧
          ∃ text, parse "math/rings#ideal" = .notFound text) ∧
      parse (parse "//math/rings/?tab=1").path = .theory "rings" ∧
      parse (document "a/b").path ≠ .document "a/b" := by
  obtain ⟨hpath, hspelling, -, hdocument⟩ := parse_canonical
  have hsame : Path.segments (pathOf "//math/rings/?tab=1") =
      Path.segments (pathOf "math/rings#ideal") := by decide +kernel
  have hslash : ¬IsSegment "a/b" := fun h => (h.2 '/' (by decide)).1 rfl
  exact ⟨hsame, hspelling _ _ hsame, (hpath _).trans (by decide +kernel), fun h =>
    hslash ((hdocument _).mp h)⟩

end Compendium.Route
