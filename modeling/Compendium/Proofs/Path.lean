import Compendium.Path

/-!
# Normalized paths

A path written from nonempty segments without slashes has just these segments again. So normalizing
a path twice is normalizing it once, and normalized paths are one to one with lists of segments.
-/

namespace Compendium

namespace Text

/-- The characters of a piece are characters of the text, and none of them is a separator. -/
theorem mem_of_mem_splitOnP {p : Char → Bool} {s piece : List Char} (hpiece : piece ∈ s.splitOnP p)
    {c : Char} (hc : c ∈ piece) : c ∈ s ∧ p c = false := by
  induction s generalizing piece with
  | nil =>
    rw [List.splitOnP_nil, List.mem_singleton] at hpiece
    subst hpiece
    cases hc
  | cons d rest ih =>
    have hrest : ∀ {q}, q ∈ rest.splitOnP p → c ∈ q → c ∈ d :: rest ∧ p c = false :=
      fun hq hcq => (ih hq hcq).imp_left (List.mem_cons_of_mem d)
    rw [List.splitOnP_cons_eq_if_modifyHead] at hpiece
    split at hpiece
    · rcases List.mem_cons.mp hpiece with rfl | hpiece
      · cases hc
      · exact hrest hpiece hc
    · next hd =>
      obtain ⟨first, pieces, hpieces⟩ := List.exists_cons_of_ne_nil (List.splitOnP_ne_nil p rest)
      rw [hpieces, List.modifyHead_cons] at hpiece
      rw [hpieces] at hrest
      rcases List.mem_cons.mp hpiece with rfl | hpiece
      · rcases List.mem_cons.mp hc with rfl | hc
        · exact ⟨List.mem_cons_self, Bool.eq_false_iff.mpr hd⟩
        · exact hrest List.mem_cons_self hc
      · exact hrest (List.mem_cons_of_mem _ hpiece) hc

/-- Words that were joined are the nonempty pieces of the result. -/
theorem filter_splitOnP_intercalate {p : Char → Bool} (sep : Char) (hsep : p sep = true)
    {words : List (List Char)} (h : ∀ word ∈ words, word ≠ [] ∧ ∀ c ∈ word, p c = false) :
    (([sep].intercalate words).splitOnP p).filter (fun word => !word.isEmpty) = words := by
  induction words with
  | nil => rfl
  | cons word words ih =>
    obtain ⟨⟨hne, hfree⟩, hwords⟩ := List.forall_mem_cons.mp h
    cases words with
    | nil =>
      rw [List.intercalate_singleton, List.splitOnP_eq_singleton hfree,
        List.filter_cons_of_pos (by simpa using hne)]
      rfl
    | cons next words =>
      rw [List.intercalate_cons_cons, List.append_assoc, List.singleton_append,
        List.splitOnP_append_cons_of_forall_mem hfree sep hsep,
        List.filter_cons_of_pos (by simpa using hne), ih hwords]

theorem segments_slash (path : List Char) : segments ('/' :: path) = segments path := by
  rw [segments, List.splitOn_cons_eq_if_modifyHead, if_pos (beq_self_eq_true _)]
  rfl

theorem segments_spec (path : List Char) :
    ∀ q ∈ segments path, q ≠ [] ∧ ∀ c ∈ q, (c == '/') = false := by
  intro q hq
  obtain ⟨hmem, hnonempty⟩ := List.mem_filter.mp hq
  exact ⟨by simpa using hnonempty, fun c hc => (mem_of_mem_splitOnP hmem hc).2⟩

/-- The path of segments has these segments. -/
theorem segments_join {pieces : List (List Char)}
    (h : ∀ q ∈ pieces, q ≠ [] ∧ ∀ c ∈ q, (c == '/') = false) :
    segments ('/' :: ['/'].intercalate pieces) = pieces := by
  rw [segments_slash]
  exact filter_splitOnP_intercalate '/' (by decide) h

end Text

namespace Path

theorem normalize_normalize (path : String) : normalize (normalize path) = normalize path := by
  have hsegments : Text.segments (normalize path).toList = Text.segments path.toList := by
    rw [normalize, ofSegments, String.toList_ofList]
    exact Text.segments_join (Text.segments_spec path.toList)
  rw [normalize, hsegments, normalize]

/-- A nonempty text without slashes. -/
abbrev Segment := { s : List Char // s ≠ [] ∧ ∀ c ∈ s, (c == '/') = false }

/-- Where a path leads: through these segments. -/
abbrev Location := List Segment

def location (path : String) : Location :=
  (Text.segments path.toList).attachWith _ (Text.segments_spec path.toList)

def ofLocation (l : Location) : String :=
  ofSegments (l.map (·.val))

theorem location_val (path : String) : (location path).map (·.val) = Text.segments path.toList := by
  rw [location, List.attachWith_map_subtype_val]

theorem ofLocation_location (path : String) : ofLocation (location path) = normalize path := by
  rw [ofLocation, location_val, normalize]

theorem location_ofLocation (l : Location) : location (ofLocation l) = l := by
  have hspec : ∀ q ∈ l.map (·.val), q ≠ [] ∧ ∀ c ∈ q, (c == '/') = false := by
    intro q hq
    obtain ⟨segment, -, rfl⟩ := List.mem_map.mp hq
    exact segment.property
  apply (List.map_inj_right fun a b h => Subtype.ext h).mp
  rw [location_val, ofLocation, ofSegments, String.toList_ofList, Text.segments_join hspec]

theorem ofLocation_inj {l l' : Location} : ofLocation l = ofLocation l' ↔ l = l' := by
  refine ⟨fun h => ?_, fun h => h ▸ rfl⟩
  rw [← location_ofLocation l, h, location_ofLocation]

theorem segments_eq_of_normalize_eq {path other : String} (h : normalize path = normalize other) :
    segments path = segments other := by
  rw [← ofLocation_location, ← ofLocation_location, ofLocation_inj] at h
  rw [segments, segments, ← location_val, ← location_val, h]

theorem normalize_ofLocation (l : Location) : normalize (ofLocation l) = ofLocation l := by
  rw [← ofLocation_location, location_ofLocation]

end Path

end Compendium
