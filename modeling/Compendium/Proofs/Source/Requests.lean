import Compendium.Proofs.Path
import Compendium.Source

/-!
# Requests stay below the root

A request path is followed step by step from the root of a tree of files. It leads nowhere exactly
if one of its pieces climbs. Otherwise it leads through its pieces, less the empty ones and the
dots, so it ends below the root, wherever in a larger tree the root is. Paths with the same
normalized form lead to the same place.
-/

namespace Compendium

namespace Text

theorem segments_dropWhile (path : List Char) :
    segments (path.dropWhile (· == '/')) = segments path := by
  induction path with
  | nil => rfl
  | cons c rest ih =>
    by_cases hc : c = '/'
    · rw [hc, List.dropWhile_cons_of_pos (by decide), ih, segments_slash]
    · rw [List.dropWhile_cons_of_neg (by simpa using hc)]

theorem head?_dropWhile_slash (path : List Char) :
    (path.dropWhile (· == '/')).head? ≠ some '/' := by
  intro h
  have hslash := List.head?_dropWhile_not (· == '/') path
  rw [h] at hslash
  simp at hslash

end Text

namespace Path

/-- All pieces of a path between its slashes, the empty ones too. -/
def pieces (path : String) : List String :=
  (path.toList.splitOn '/').map String.ofList

theorem segments_eq_filter (path : String) : segments path = (pieces path).filter (· != "") := by
  rw [segments, Text.segments, pieces, List.filter_map]
  congr 2
  funext piece
  cases piece with
  | nil => rfl
  | cons c rest => simp

namespace Step

theorem names?_stay (rest : List Step) : names? (stay :: rest) = names? rest := by
  rw [names?]

/-- The steps of segments enter all of them but the dots, unless one of them climbs. -/
theorem names?_filterMap (segments : List String) :
    names? (segments.filterMap ofSegment?) =
      if ".." ∈ segments then none else some (segments.filter (· != ".")) := by
  induction segments with
  | nil => rfl
  | cons segment rest ih =>
    by_cases hdot : segment = "."
    · have hstep : ofSegment? segment = none := by rw [ofSegment?, if_pos hdot]
      rw [List.filterMap_cons_none hstep, ih]
      subst hdot
      simp
    · by_cases hclimb : segment = ".."
      · have hstep : ofSegment? segment = some climb := by
          rw [ofSegment?, if_neg hdot, if_pos hclimb]
        rw [List.filterMap_cons_some hstep, names?]
        · simp [hclimb]
        all_goals simp
      · have hstep : ofSegment? segment = some (enter segment) := by
          rw [ofSegment?, if_neg hdot, if_neg hclimb]
        rw [List.filterMap_cons_some hstep, names?, ih]
        by_cases hrest : ".." ∈ rest
        · simp [hrest]
        · simp [hrest, hdot, Ne.symm hclimb]

end Step

/-- A path that does not go to the top is followed segment by segment: a dot in front changes
nothing. -/
theorem names?_steps {path : List Char} (h : path.head? ≠ some '/') :
    Step.names? (steps path) =
      Step.names? (((Text.segments path).map String.ofList).filterMap Step.ofSegment?) := by
  rw [List.filterMap_map]
  unfold steps
  split
  · exact absurd rfl h
  · exact Step.names?_stay _
  · exact Step.names?_stay _
  · rfl

end Path

namespace FileTree

theorem requestNames?_eq (path : String) :
    requestNames? path = if ".." ∈ Path.segments path then none
      else some ((Path.segments path).filter (· != ".")) := by
  rw [requestNames?, Path.names?_steps (Text.head?_dropWhile_slash _), Text.segments_dropWhile,
    Path.Step.names?_filterMap]
  rfl

/-- Paths with the same normalized form lead through the same names. -/
theorem requestNames?_congr {path other : String} (h : Path.normalize path = Path.normalize other) :
    requestNames? path = requestNames? other := by
  rw [requestNames?_eq, requestNames?_eq, Path.segments_eq_of_normalize_eq h]

/-- What is found at a list of names is found in two parts. -/
theorem find?_append (t : FileTree) (front back : List String) :
    t.find? (front ++ back) = (t.find? front).bind fun inner => inner.find? back := by
  induction front generalizing t with
  | nil => rw [List.nil_append, find?, Option.bind_some]
  | cons name rest ih =>
    rw [List.cons_append, find?, find?, Option.bind_assoc]
    congr 1
    funext inner
    exact ih inner

/-- Where a request path leads, if its root is at a list of names. -/
def resolve? (root : List String) (path : String) : Option (List String) :=
  (requestNames? path).map (root ++ ·)

def answerAt (t : FileTree) (location : List String) : Response :=
  (t.read? location).elim (.failed 404) (answer (location.getLastD ""))

theorem resolve?_eq_none_iff (root : List String) (path : String) :
    resolve? root path = none ↔ ".." ∈ Path.pieces path := by
  have hmem : ".." ∈ Path.segments path ↔ ".." ∈ Path.pieces path := by
    rw [Path.segments_eq_filter, List.mem_filter]
    simp
  rw [resolve?, Option.map_eq_none_iff, requestNames?_eq, ← hmem]
  by_cases hclimb : ".." ∈ Path.segments path
  · simp [hclimb]
  · simp [hclimb]

theorem eq_of_resolve? {root location : List String} {path : String}
    (h : resolve? root path = some location) :
    location = root ++ (Path.pieces path).filter fun piece => piece != "" && piece != "." := by
  obtain ⟨names, hnames, rfl⟩ := Option.map_eq_some_iff.mp h
  rw [requestNames?_eq] at hnames
  split at hnames
  · cases hnames
  · rw [← Option.some.inj hnames, Path.segments_eq_filter, List.filter_filter]
    congr 2
    funext piece
    exact Bool.and_comm _ _

/-- A request is answered with the file at its place in the larger tree. -/
theorem fetch_eq_answerAt {whole t : FileTree} {root : List String}
    (hroot : whole.find? root = some t) (path : String) :
    fetch (root.getLastD "") t path = (resolve? root path).elim (.failed 403) whole.answerAt := by
  unfold fetch resolve?
  cases requestNames? path with
  | none => rfl
  | some names =>
    have hread : whole.read? (root ++ names) = t.read? names := by
      rw [read?, find?_append, hroot, Option.bind_some, read?]
    have hlast : (root ++ names).getLastD "" = names.getLastD (root.getLastD "") := by
      cases names <;> simp [List.getLastD_eq_getLast?]
    rw [Option.map_some, Option.elim_some, answerAt, hread, hlast]
    cases hfile : t.read? names with
    | none => simp [hfile]
    | some octets => simp [hfile]

/-- Requests stay below the root. A path leads nowhere exactly if one of its pieces climbs;
otherwise it leads from the root through its pieces that are neither empty nor a dot, and nothing
that it adds to the root climbs. It leads where its normalized form leads, and the answer is made
from the file at that place, so paths with the same normalized form have the same answer. -/
theorem requests_stay_below_root (root : List String) (path : String) :
    (resolve? root path = none ↔ ".." ∈ Path.pieces path) ∧
    (∀ location, resolve? root path = some location →
      location = root ++ (Path.pieces path).filter (fun piece => piece != "" && piece != ".") ∧
        ".." ∉ location.drop root.length) ∧
    resolve? root (Path.normalize path) = resolve? root path ∧
    ∀ whole t : FileTree, whole.find? root = some t →
      fetch (root.getLastD "") t path = (resolve? root path).elim (.failed 403) whole.answerAt ∧
      ∀ other, Path.normalize other = Path.normalize path →
        fetch (root.getLastD "") t other = fetch (root.getLastD "") t path := by
  refine ⟨resolve?_eq_none_iff root path, fun location h => ?_, ?_, fun whole t hroot => ?_⟩
  · refine ⟨eq_of_resolve? h, ?_⟩
    rw [eq_of_resolve? h, List.drop_left]
    intro hclimb
    have hnone := (resolve?_eq_none_iff root path).mpr (List.mem_filter.mp hclimb).1
    rw [h] at hnone
    cases hnone
  · rw [resolve?, resolve?, requestNames?_congr (Path.normalize_normalize path)]
  · refine ⟨fetch_eq_answerAt hroot path, fun other hother => ?_⟩
    rw [fetch_eq_answerAt hroot, fetch_eq_answerAt hroot, resolve?, resolve?,
      requestNames?_congr hother]

def servedFolder : FileTree :=
  folder [("math", folder [("a.json", file [91, 93])])]

def aroundServed : FileTree :=
  folder [("private.json", file [49]), ("site", servedFolder)]

/-- A file of the folder is found through dots and repeated slashes, and a file outside of it is
not. -/
theorem requests_stay_below_root_served :
    aroundServed.find? ["site"] = some servedFolder ∧
      resolve? ["site"] "//math/./a.json" = some ["site", "math", "a.json"] ∧
      ".." ∉ ["math", "a.json"] ∧
      fetch "site" servedFolder "//math/./a.json" = ⟨200, Response.jsonType, "[]"⟩ ∧
      fetch "site" servedFolder "math/.//a.json" = ⟨200, Response.jsonType, "[]"⟩ ∧
      fetch "site" servedFolder "/math/../../private.json" = .failed 403 := by
  have hroot : aroundServed.find? ["site"] = some servedFolder := rfl
  obtain ⟨-, hleads, -, hanswer⟩ := requests_stay_below_root ["site"] "//math/./a.json"
  obtain ⟨hclimbs, -, -, hrefused⟩ := requests_stay_below_root ["site"] "/math/../../private.json"
  have hresolved : resolve? ["site"] "//math/./a.json" = some ["site", "math", "a.json"] := by
    decide +kernel
  have hfile : fetch "site" servedFolder "//math/./a.json" = ⟨200, Response.jsonType, "[]"⟩ := by
    refine (hanswer aroundServed servedFolder hroot).1.trans ?_
    rw [hresolved]
    decide +kernel
  refine ⟨hroot, hresolved, (hleads _ hresolved).2, hfile, ?_, ?_⟩
  · exact ((hanswer aroundServed servedFolder hroot).2 "math/.//a.json"
      (by decide +kernel)).trans hfile
  · refine (hrefused aroundServed servedFolder hroot).1.trans ?_
    rw [hclimbs.mpr (by decide +kernel)]
    rfl

end FileTree

end Compendium
