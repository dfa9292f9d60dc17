import Compendium.Proofs.Dict.Ordered
import Compendium.Proofs.Path
import Compendium.Proofs.Text.ByteOrder
import Compendium.Proofs.Text.Joined
import Compendium.Proofs.Text.Slug
import Compendium.Source
import Mathlib.Data.List.Induction

/-!
# What files in memory list

The files below a path are found by comparing normalized paths as texts. The text of one path begins
another if all its names begin the other's names, but also if the last of them is only the beginning
of the name in its place. So the listing holds all files below the path, and besides them those
whose path goes on inside its last name.
-/

namespace Compendium

namespace Text

variable {a b s : List Char}

/-- A name is no longer than the name at the front of a path that it begins. -/
theorem prefix_before_slash (ha : '/' ∉ a) (rest : List Char) :
    a <+: s ++ '/' :: rest ↔ a <+: s := by
  constructor
  · intro h
    by_cases hlen : a.length ≤ s.length
    · exact List.prefix_of_prefix_length_le h (List.prefix_append s _) hlen
    · have hslash : s ++ ['/'] <+: s ++ '/' :: rest := ⟨rest, by simp⟩
      have hin : s ++ ['/'] <+: a := List.prefix_of_prefix_length_le hslash h (by simp; omega)
      exact absurd (hin.subset (by simp)) ha
  · intro h
    exact h.trans (List.prefix_append s _)

theorem prefix_through_slash (ha : '/' ∉ a) (hs : '/' ∉ s) (more rest : List Char) :
    a ++ '/' :: more <+: s ++ '/' :: rest ↔ a = s ∧ more <+: rest := by
  constructor
  · rintro ⟨tail, htail⟩
    rw [List.append_assoc, List.cons_append, append_cons_eq_iff] at htail
    obtain ⟨heq, hrest⟩ | ⟨part, rfl, -⟩ | ⟨part, rfl, -⟩ := htail
    · exact ⟨heq, tail, hrest⟩
    · simp at hs
    · simp at ha
  · rintro ⟨rfl, tail, rfl⟩
    exact ⟨tail, by simp⟩

/-- The names of one path begin those of another as texts: all but the last are the same, and the
last begins the name in its place. -/
def NamesBegin (names path : List (List Char)) : Prop :=
  names = [] ∨ ∃ front last name rest, names = front ++ [last] ∧
    path = front ++ name :: rest ∧ last <+: name

theorem namesBegin_cons {next : List Char} {names : List (List Char)} {path : List (List Char)} :
    NamesBegin (a :: next :: names) path ↔ ∃ rest, path = a :: rest ∧
      NamesBegin (next :: names) rest := by
  constructor
  · rintro (h | ⟨front, last, name, rest, hnames, rfl, hlast⟩)
    · cases h
    · cases front with
      | nil => cases hnames
      | cons first front =>
        obtain ⟨rfl, hinner⟩ := List.cons.inj hnames
        exact ⟨front ++ name :: rest, rfl, .inr ⟨front, last, name, rest, hinner, rfl, hlast⟩⟩
  · rintro ⟨rest, rfl, h | ⟨front, last, name, more, hnames, rfl, hlast⟩⟩
    · cases h
    · exact .inr ⟨a :: front, last, name, more, by rw [hnames]; rfl, rfl, hlast⟩

theorem namesBegin_singleton {path : List (List Char)} :
    NamesBegin [a] path ↔ ∃ name rest, path = name :: rest ∧ a <+: name := by
  constructor
  · rintro (h | ⟨front, last, name, rest, hnames, rfl, hlast⟩)
    · cases h
    · obtain ⟨rfl, rfl⟩ : front = [] ∧ last = a := by
        simpa [List.singleton_eq_append_iff] using hnames
      exact ⟨name, rest, rfl, hlast⟩
  · rintro ⟨name, rest, rfl, hlast⟩
    exact .inr ⟨[], a, name, rest, rfl, rfl, hlast⟩

/-- Joined names begin a joined path exactly if the names begin the names of the path. -/
theorem intercalate_prefix_iff {names path : List (List Char)}
    (hnames : ∀ q ∈ names, q ≠ [] ∧ '/' ∉ q) (hpath : ∀ q ∈ path, q ≠ [] ∧ '/' ∉ q) :
    ['/'].intercalate names <+: ['/'].intercalate path ↔ NamesBegin names path := by
  induction names generalizing path with
  | nil => exact ⟨fun _ => .inl rfl, fun _ => List.nil_prefix⟩
  | cons a names ih =>
    obtain ⟨⟨hne, ha⟩, hrest⟩ := List.forall_mem_cons.mp hnames
    cases names with
    | nil =>
      -- a single name: it ends before the first slash of the path
      rw [namesBegin_singleton, List.intercalate_singleton]
      cases path with
      | nil => simpa using hne
      | cons name rest =>
        cases rest with
        | nil => simp
        | cons next rest => simp [prefix_before_slash ha]
    | cons next names =>
      -- more names: the path goes on after the same first name
      rw [namesBegin_cons, List.intercalate_cons_cons, List.append_assoc, List.singleton_append]
      cases path with
      | nil => simp
      | cons name rest =>
        obtain ⟨⟨-, hname⟩, hmore⟩ := List.forall_mem_cons.mp hpath
        cases rest with
        | nil =>
          have hslash : ¬a ++ '/' :: ['/'].intercalate (next :: names) <+: name := fun h =>
            hname (h.subset (by simp))
          have hnone : ¬NamesBegin (next :: names) [] := by
            rintro (h | ⟨front, last, name, rest, -, h, -⟩)
            · cases h
            · simp at h
          simp [hslash, hnone]
        | cons other rest =>
          rw [List.intercalate_cons_cons, List.append_assoc, List.singleton_append,
            prefix_through_slash ha hname, ih hrest hmore]
          simp [eq_comm]

/-- Names that begin a path as texts are its first names, or the path goes on inside the last of
them. -/
theorem namesBegin_iff {names path : List (List Char)} :
    NamesBegin names path ↔ names <+: path ∨
      ∃ front last name rest, names = front ++ [last] ∧ path = front ++ name :: rest ∧
        last <+: name ∧ last ≠ name := by
  constructor
  · rintro (rfl | ⟨front, last, name, rest, rfl, rfl, hlast⟩)
    · exact .inl List.nil_prefix
    · by_cases hsame : last = name
      · exact .inl ⟨rest, by simp [hsame]⟩
      · exact .inr ⟨front, last, name, rest, rfl, rfl, hlast, hsame⟩
  · rintro (⟨rest, rfl⟩ | ⟨front, last, name, rest, rfl, rfl, hlast, -⟩)
    · cases names using List.reverseRecOn with
      | nil => exact .inl rfl
      | append_singleton front last =>
        exact .inr ⟨front, last, last, rest, rfl, by simp, List.prefix_rfl⟩
    · exact .inr ⟨front, last, name, rest, rfl, rfl, hlast⟩

end Text

namespace Path

/-- A path goes on inside the last name of another one: it has a longer name in its place. -/
def GoesOnInside (under path : String) : Prop :=
  ∃ front last name rest, segments under = front ++ [last] ∧ segments path = front ++ name :: rest ∧
    last.toList <+: name.toList ∧ last ≠ name

/-- The first names of a path leave no room for a longer name. -/
theorem GoesOnInside.not_prefix {under path : String} (h : GoesOnInside under path) :
    ¬segments under <+: segments path := by
  obtain ⟨front, last, name, rest, hunder, hpath, -, hne⟩ := h
  rw [hunder, hpath, List.prefix_append_right_inj, List.cons_prefix_cons]
  exact fun h => hne h.1

theorem segments_toList (path : String) : (segments path).map String.toList =
    Text.segments path.toList := by
  rw [segments, List.map_map]
  exact List.map_id'' (fun s => String.toList_ofList) _

/-- The names of paths begin one another as texts. -/
theorem namesBegin_segments (under path : String) :
    Text.NamesBegin (Text.segments under.toList) (Text.segments path.toList) ↔
      segments under <+: segments path ∨ GoesOnInside under path := by
  rw [Text.namesBegin_iff, ← segments_toList, ← segments_toList]
  refine or_congr ?_ ⟨?_, ?_⟩
  · exact List.prefix_map_iff_of_injective fun _ _ => String.toList_inj.mp
  · rintro ⟨front, last, name, rest, hunder, hpath, hlast, hne⟩
    obtain ⟨before, final, hnames, rfl, hfinal⟩ := List.map_eq_append_iff.mp hunder
    obtain ⟨own, rfl, rfl⟩ := List.map_eq_singleton_iff.mp hfinal
    obtain ⟨same, after, hall, hsame, hafter⟩ := List.map_eq_append_iff.mp hpath
    obtain ⟨longer, more, rfl, rfl, -⟩ := List.map_eq_cons_iff.mp hafter
    obtain rfl := (List.map_inj_right fun _ _ => String.toList_inj.mp).mp hsame
    exact ⟨same, own, longer, more, hnames, hall, hlast, fun h => hne (congrArg _ h)⟩
  · rintro ⟨front, last, name, rest, hunder, hpath, hlast, hne⟩
    refine ⟨front.map String.toList, last.toList, name.toList, rest.map String.toList, ?_,
      ?_, hlast, ?_⟩
    · rw [hunder, List.map_append, List.map_singleton]
    · rw [hpath, List.map_append, List.map_cons]
    · exact fun h => hne (String.toList_inj.mp h)

/-- The normalized text of a path begins another exactly if its names are the first names there, or
the other path goes on inside the last of them. -/
theorem isPrefixOf_normalize_iff (under path : String) :
    (normalize under).toList.isPrefixOf (normalize path).toList = true ↔
      segments under <+: segments path ∨ GoesOnInside under path := by
  have hslash : ∀ s : String, ∀ q ∈ Text.segments s.toList, q ≠ [] ∧ '/' ∉ q := fun s q hq =>
    ⟨(Text.segments_spec s.toList q hq).1, fun hin => by
      simpa using (Text.segments_spec s.toList q hq).2 '/' hin⟩
  have htext : ∀ s : String, (normalize s).toList =
      '/' :: ['/'].intercalate (Text.segments s.toList) :=
    fun s => String.toList_ofList
  rw [htext, htext, List.isPrefixOf_iff_prefix, List.cons_prefix_cons, and_iff_right rfl,
    Text.intercalate_prefix_iff (hslash under) (hslash path), namesBegin_segments]

end Path

namespace MemoryFiles

/-- The files after answers were set one after the other. -/
def stored (entries : List (String × Response)) : MemoryFiles :=
  entries.foldl (fun files entry => files.put entry.1 entry.2) []

theorem stored_eq (entries : List (String × Response)) :
    stored entries = Dict.ofList (entries.map fun entry => (Path.normalize entry.1, entry.2)) := by
  rw [stored, Dict.ofList, List.foldl_map]
  rfl

theorem mem_keys_stored {entries : List (String × Response)} {path : String} :
    path ∈ (stored entries).keys ↔ ∃ entry ∈ entries, Path.normalize entry.1 = path := by
  rw [stored_eq, Dict.mem_keys_iff, Dict.get?_ofList, ← Dict.mem_keys_iff, Dict.keys,
    List.map_reverse, List.mem_reverse, List.map_map, List.mem_map]
  rfl

/-- A file is listed if its path is stored, its text begins with that of the other path, and it has
the extension. -/
theorem mem_list_stored {entries : List (String × Response)} {under extension path : String} :
    path ∈ (stored entries).list under extension ↔
      (∃ entry ∈ entries, Path.normalize entry.1 = path) ∧ '.' :: extension.toList <:+ path.toList ∧
        (Path.segments under <+: Path.segments path ∨ Path.GoesOnInside under path) := by
  rw [list, List.mem_filter, mem_keys_stored, Bool.and_eq_true, List.isSuffixOf_iff_suffix]
  refine and_congr_right ?_
  rintro ⟨entry, -, rfl⟩
  rw [and_comm, ← Path.isPrefixOf_normalize_iff, Path.normalize_normalize]

/-- A listing is in ascending order of octets, so it lists no path twice. It holds the stored paths
with the extension whose first names are the names asked for, and besides them those that go on
inside the last of these names. So it lists just the files below a path exactly if no stored path
with the extension goes on inside the last name. -/
theorem listing_compares_texts (entries : List (String × Response)) (under extension : String) :
    ((stored entries).list under extension).Pairwise
      (fun a b => Text.utf8 a.toList < Text.utf8 b.toList) ∧
    (∀ path, path ∈ (stored entries).list under extension ↔
      (∃ entry ∈ entries, Path.normalize entry.1 = path) ∧ '.' :: extension.toList <:+ path.toList ∧
        (Path.segments under <+: Path.segments path ∨ Path.GoesOnInside under path)) ∧
    ((∀ path, path ∈ (stored entries).list under extension ↔
      (∃ entry ∈ entries, Path.normalize entry.1 = path) ∧ '.' :: extension.toList <:+ path.toList ∧
        Path.segments under <+: Path.segments path) ↔
      ∀ entry ∈ entries, '.' :: extension.toList <:+ (Path.normalize entry.1).toList →
        ¬Path.GoesOnInside under (Path.normalize entry.1)) := by
  refine ⟨?_, fun path => mem_list_stored, ?_, ?_⟩
  · have hkeys : (stored entries).keys.Pairwise (· < ·) := by
      rw [stored_eq]
      exact Dict.ordered_ofList _
    refine (hkeys.filter _).imp fun {a b} hlt => ?_
    rw [Text.utf8_lt_utf8]
    exact String.lt_iff_toList_lt.mp hlt
  · intro h entry hentry hends hinside
    have hlisted := mem_list_stored.mpr ⟨⟨entry, hentry, rfl⟩, hends, .inr hinside⟩
    exact hinside.not_prefix ((h _).mp hlisted).2.2
  · intro h path
    rw [mem_list_stored]
    refine and_congr_right ?_
    rintro ⟨entry, hentry, rfl⟩
    refine and_congr_right fun hends => ?_
    exact or_iff_left (h entry hentry hends)

/-- The listing of a folder holds a file of another folder whose name begins with its name. -/
theorem listing_enters_longer_name :
    (stored [("/theories2/x.json", ⟨200, Response.jsonType, "[]"⟩)]).list "/theories" "json" =
        ["/theories2/x.json"] ∧
      ¬Path.segments "/theories" <+: Path.segments "/theories2/x.json" := by
  decide +kernel

end MemoryFiles

end Compendium
