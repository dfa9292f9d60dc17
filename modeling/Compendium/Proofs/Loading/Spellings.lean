import Compendium.Loading.Theory
import Compendium.Proofs.Text.Tidy

/-!
# Spellings of a reference to a theory

A reference may have blanks and slashes of both kinds around it, the folder `theories` in front of
the id, and `.json` endings after it. The steps that strip it come in a fixed order. Each of them
takes its own part of the decoration and stops there: what the next part or a tidy id begins and
ends with is not what the step takes away. So every decoration of a tidy id spells the id, and names
the same theory.
-/

namespace Compendium

namespace Text

variable {p : Char → Bool} {s t : List Char}

/-! ## Fronts and endings -/

theorem isPrefixOf?_append (front rest : List Char) :
    front.isPrefixOf? (front ++ rest) = some rest :=
  List.isPrefixOf?_eq_some_iff_append_eq.mpr rfl

/-- More text behind makes no new front, if the last character of the front is not in it. -/
theorem not_prefix_append {front : List Char} (h : ¬front <+: s)
    (hlast : ∀ c ∈ front.getLast?, c ∉ t) : ¬front <+: s ++ t := by
  rintro ⟨rest, hrest⟩
  rcases List.append_eq_append_iff.mp hrest with ⟨between, hs, -⟩ | ⟨between, hfront, ht⟩
  · exact h ⟨between, hs.symm⟩
  · cases hmore : between.getLast? with
    | none =>
      rw [List.getLast?_eq_none_iff.mp hmore, List.append_nil] at hfront
      exact h (hfront ▸ List.prefix_rfl)
    | some c =>
      have hc : front.getLast? = some c := by
        rw [hfront, List.getLast?_append, hmore, Option.some_or]
      refine hlast c hc ?_
      rw [ht]
      exact List.mem_append_left _ (List.mem_of_getLast? hmore)

/-- More text in front makes no new ending, if the first character of the ending is not in it. -/
theorem not_suffix_append {tail : List Char} (h : ¬tail <:+ s)
    (hfirst : ∀ c ∈ tail.head?, c ∉ t) : ¬tail <:+ t ++ s := by
  rw [← List.reverse_prefix] at h ⊢
  rw [List.reverse_append]
  refine not_prefix_append h fun c hc hmem => ?_
  rw [List.getLast?_reverse] at hc
  exact hfirst c hc (List.mem_reverse.mp hmem)

theorem dropReversed_repeated {tail : List Char} (h : ¬tail <+: s) (count : Nat) {rounds : Nat}
    (hrounds : count ≤ rounds) :
    dropReversed tail rounds ((List.replicate count tail).flatten ++ s) = s := by
  induction count generalizing rounds with
  | zero =>
    cases rounds with
    | zero => rfl
    | succ rounds =>
      show dropReversed tail (rounds + 1) s = s
      rw [dropReversed, isPrefixOf?_eq_none_iff.mpr h]
  | succ count ih =>
    obtain ⟨rounds, rfl⟩ : ∃ n, rounds = n + 1 := ⟨rounds - 1, by omega⟩
    rw [List.replicate_succ, List.flatten_cons, List.append_assoc, dropReversed, isPrefixOf?_append]
    exact ih (by omega)

/-- All repetitions of an ending are dropped. -/
theorem dropEndings_repeated {tail : List Char} (htail : tail ≠ []) (h : ¬tail <:+ s)
    (count : Nat) :
    dropEndings tail (s ++ (List.replicate count tail).flatten) = s := by
  have hempty : tail.isEmpty = false := by simpa using htail
  have hreversed : (s ++ (List.replicate count tail).flatten).reverse =
      (List.replicate count tail.reverse).flatten ++ s.reverse := by
    rw [List.reverse_append, List.reverse_flatten, List.map_replicate, List.reverse_replicate]
  have hcount : count ≤ (s ++ (List.replicate count tail).flatten).length := by
    have hpos : 0 < tail.length := List.length_pos_iff.mpr htail
    have hle : count ≤ count * tail.length := Nat.le_mul_of_pos_right count hpos
    rw [List.length_append, List.length_flatten, List.map_replicate, List.sum_replicate_nat]
    omega
  rw [← List.reverse_prefix] at h
  rw [dropEndings, hempty, if_neg Bool.false_ne_true, hreversed,
    dropReversed_repeated h count hcount, List.reverse_reverse]

end Text

namespace Path

/-! ## Decorations -/

/-- Both kinds of slashes. -/
def isSlash (c : Char) : Bool :=
  c == '/' || c == '\\'

theorem slashed_of_isSlash {c : Char} (h : isSlash c = true) :
    slashed c = '/' ∧ Text.isBlank c = false := by
  rw [isSlash, Bool.or_eq_true, beq_iff_eq, beq_iff_eq] at h
  rcases h with rfl | rfl <;> exact ⟨rfl, rfl⟩

theorem map_slashed_of_slashes {s : List Char} (h : ∀ c ∈ s, isSlash c = true) :
    s.map slashed = List.replicate s.length '/' :=
  List.map_eq_replicate_iff.mpr fun c hc => (slashed_of_isSlash (h c hc)).1

theorem Tidy.endsFail {id : String} (h : Tidy id) :
    Text.EndsFail Text.isBlank id.toList ∧ Text.EndsFail (· == '/') id.toList :=
  ⟨⟨fun c hc => (h.front c hc).1, fun c hc => (h.back c hc).1⟩,
    ⟨fun c hc => beq_false_of_ne (h.front c hc).2, fun c hc => beq_false_of_ne (h.back c hc).2⟩⟩

/-- What may stand around the id of a theory: blanks outside, then slashes, and next to the id the
folder `theories` with slashes after it and any number of `.json` endings. -/
structure Decoration where
  blanksBefore : List Char
  slashesBefore : List Char
  /-- The slashes after the folder, if there is one. -/
  folder : Option (List Char)
  endings : Nat
  slashesAfter : List Char
  blanksAfter : List Char
  areBlanks : (blanksBefore ++ blanksAfter).all Text.isBlank = true
  areSlashes : (slashesBefore ++ folder.getD [] ++ slashesAfter).all isSlash = true
  folder_ne : folder ≠ some []

namespace Decoration

/-- What stands directly in front of the id. -/
def front (d : Decoration) : List Char :=
  match d.folder with
  | some slashes => "theories".toList ++ slashes
  | none => []

/-- What stands directly after the id. -/
def back (d : Decoration) : List Char :=
  (List.replicate d.endings jsonEnding).flatten

def around (d : Decoration) (id : String) : String :=
  String.ofList (d.blanksBefore ++
    ((d.slashesBefore ++ ((d.front ++ (id.toList ++ d.back)) ++ d.slashesAfter)) ++ d.blanksAfter))

variable (d : Decoration)

theorem blanks : (∀ c ∈ d.blanksBefore, Text.isBlank c = true) ∧
    ∀ c ∈ d.blanksAfter, Text.isBlank c = true := by
  have hall := List.all_eq_true.mp d.areBlanks
  exact ⟨fun c hc => hall c (List.mem_append_left _ hc), fun c hc =>
    hall c (List.mem_append_right _ hc)⟩

theorem slashes : (∀ c ∈ d.slashesBefore, isSlash c = true) ∧
    (∀ c ∈ d.folder.getD [], isSlash c = true) ∧ ∀ c ∈ d.slashesAfter, isSlash c = true := by
  have hall := List.all_eq_true.mp d.areSlashes
  refine ⟨fun c hc => ?_, fun c hc => ?_, fun c hc => hall c (List.mem_append_right _ hc)⟩
  · exact hall c (List.mem_append_left _ (List.mem_append_left _ hc))
  · exact hall c (List.mem_append_left _ (List.mem_append_right _ hc))

theorem mem_back {c : Char} (h : c ∈ d.back) : c ∈ jsonEnding := by
  obtain ⟨ending, hending, hc⟩ := List.mem_flatten.mp h
  exact List.eq_of_mem_replicate hending ▸ hc

theorem front_notBlank : ∀ c ∈ d.front, Text.isBlank c = false := by
  have hword : ("theories".toList.all fun c => !Text.isBlank c) = true := by decide
  intro c hc
  unfold front at hc
  split at hc
  · next slashes hfolder =>
    rcases List.mem_append.mp hc with hc | hc
    · simpa using List.all_eq_true.mp hword c hc
    · have hslash := d.slashes.2.1
      rw [hfolder] at hslash
      exact (slashed_of_isSlash (hslash c hc)).2
  · cases hc

theorem back_notBlank : ∀ c ∈ d.back, Text.isBlank c = false := by
  have hending : (jsonEnding.all fun c => !Text.isBlank c) = true := by decide
  intro c hc
  simpa using List.all_eq_true.mp hending c (d.mem_back hc)

theorem back_notSlash : ∀ c ∈ d.back, c ≠ '/' ∧ c ≠ '\\' := by
  have hending : (jsonEnding.all fun c => c != '/' && c != '\\') = true := by decide
  intro c hc
  simpa using List.all_eq_true.mp hending c (d.mem_back hc)

/-- With its slashes alike, the folder is `theories/` and the slashes that come on top. -/
theorem map_slashed_front : d.front.map slashed = [] ∨
    ∃ more, d.front.map slashed = "theories/".toList ++ List.replicate more '/' := by
  unfold front
  cases hfolder : d.folder with
  | none => exact .inl rfl
  | some slashes =>
    have hslash := d.slashes.2.1
    rw [hfolder, Option.getD_some] at hslash
    have hne : slashes ≠ [] := fun hnil => d.folder_ne (hfolder.trans (congrArg some hnil))
    have hpos : 0 < slashes.length := List.length_pos_iff.mpr hne
    obtain ⟨more, hmore⟩ : ∃ n, slashes.length = n + 1 := ⟨slashes.length - 1, by omega⟩
    refine .inr ⟨more, ?_⟩
    dsimp only
    rw [List.map_append, map_slashed_of_slashes hslash, hmore, List.replicate_succ]
    rfl

variable {id : String}

/-- The blanks are all that the first step takes. -/
theorem trim_around (htidy : Tidy id) : Text.trim (d.around id).toList =
    d.slashesBefore ++ ((d.front ++ (id.toList ++ d.back)) ++ d.slashesAfter) := by
  have hslash : ∀ {s : List Char}, (∀ c ∈ s, isSlash c = true) →
    Text.EndsFail Text.isBlank s := fun h =>
    Text.endsFail_of_forall fun c hc => (slashed_of_isSlash (h c hc)).2
  have hinner : Text.EndsFail Text.isBlank (d.front ++ (id.toList ++ d.back)) :=
    (Text.endsFail_of_forall d.front_notBlank).append
      (htidy.endsFail.1.append (Text.endsFail_of_forall d.back_notBlank))
  rw [around, String.toList_ofList]
  exact Text.trimWhile_surrounded d.blanks.1 d.blanks.2
    ((hslash d.slashes.1).append (hinner.append (hslash d.slashes.2.2)))

/-- Then backslashes are slashes, and those outside are taken away. -/
theorem trimSlashes_around (htidy : Tidy id) (hid : id ≠ "") :
    trimSlashes ((Text.trim (d.around id).toList).map slashed) =
      d.front.map slashed ++ (id.toList ++ d.back) := by
  have hkept : (id.toList ++ d.back).map slashed = id.toList ++ d.back := by
    refine map_slashed_eq_self_iff.mpr fun hmem => ?_
    rcases List.mem_append.mp hmem with hmem | hmem
    · exact htidy.backslash hmem
    · exact (d.back_notSlash _ hmem).2 rfl
  have hback : Text.EndsFail (· == '/') (id.toList ++ d.back) :=
    htidy.endsFail.2.append
      (Text.endsFail_of_forall fun c hc => beq_false_of_ne (d.back_notSlash c hc).1)
  have hne : id.toList ++ d.back ≠ [] := by
    intro hnil
    exact hid (String.toList_eq_nil_iff.mp (List.append_eq_nil_iff.mp hnil).1)
  have hends : Text.EndsFail (· == '/') (d.front.map slashed ++ (id.toList ++ d.back)) := by
    obtain hfront | ⟨more, hfront⟩ := d.map_slashed_front
    · rw [hfront]
      exact hback
    · -- the folder ends with a slash, but the id comes after it
      rw [hfront]
      refine ⟨fun c hc => ?_, fun c hc => ?_⟩
      · cases hc
        rfl
      · rw [List.getLast?_append_of_ne_nil _ hne] at hc
        exact hback.2 c hc
  have hall : ∀ {s : List Char}, (∀ c ∈ s, isSlash c = true) →
      ∀ c ∈ s.map slashed, (c == '/') = true := by
    intro s h c hc
    rw [map_slashed_of_slashes h] at hc
    rw [List.eq_of_mem_replicate hc]
    rfl
  rw [d.trim_around htidy, List.map_append, List.map_append, List.map_append, hkept]
  exact Text.trimWhile_surrounded (hall d.slashes.1) (hall d.slashes.2.2) hends

/-- Of the folder, the slashes after its first one are left. -/
theorem getD_isPrefixOf?_around (htidy : Tidy id) : ∃ more,
    ("theories/".toList.isPrefixOf? (d.front.map slashed ++ (id.toList ++ d.back))).getD
        (d.front.map slashed ++ (id.toList ++ d.back)) =
      List.replicate more '/' ++ (id.toList ++ d.back) := by
  obtain hfront | ⟨more, hfront⟩ := d.map_slashed_front
  · have hlast : ∀ c ∈ "theories/".toList.getLast?, c ∉ d.back := by
      intro c hc hmem
      cases hc
      exact (d.back_notSlash _ hmem).1 rfl
    refine ⟨0, ?_⟩
    rw [hfront, List.nil_append,
      Text.isPrefixOf?_eq_none_iff.mpr (Text.not_prefix_append htidy.folder hlast)]
    rfl
  · exact ⟨more, by rw [hfront, List.append_assoc, Text.isPrefixOf?_append, Option.getD_some]⟩

/-- Every decoration of a tidy id spells the id. -/
theorem theoryId_around_eq (htidy : Tidy id) (hid : id ≠ "") : theoryId (d.around id) = id := by
  obtain ⟨more, hfront⟩ := d.getD_isPrefixOf?_around htidy
  have hslashes : ∀ c ∈ List.replicate more '/', (c == '/') = true := by
    intro c hc
    rw [List.eq_of_mem_replicate hc]
    rfl
  have hending : ¬jsonEnding <:+ List.replicate more '/' ++ id.toList := by
    refine Text.not_suffix_append htidy.ending fun c hc hmem => ?_
    cases hc
    exact absurd (List.eq_of_mem_replicate hmem) (by decide)
  rw [← String.toList_inj, toList_theoryId]
  dsimp only
  rw [d.trimSlashes_around htidy hid, hfront, ← List.append_assoc, back,
    Text.dropEndings_repeated (by decide) hending]
  have hlast := Text.trimWhile_surrounded hslashes (List.forall_mem_nil _) htidy.endsFail.2
  rwa [List.append_nil] at hlast

end Decoration

end Path

namespace Loading

/-- All spellings of a reference to a theory resolve alike: whatever stands around a tidy id, the
reference gives the id, and loading by it is loading by the id. -/
theorem theory_any_spelling (s : Settings) (d : Path.Decoration) {id : String}
    (htidy : Path.Tidy id)
    (hid : id ≠ "") : Path.theoryId (d.around id) = id ∧ theory s (d.around id) = theory s id := by
  have hspelled : Path.theoryId (d.around id) = id := d.theoryId_around_eq htidy hid
  have hself : Path.theoryId id = id := (Path.theoryId_eq_self_iff id).mpr htidy
  refine ⟨hspelled, ?_⟩
  unfold theory
  rw [hspelled, hself]

/-- Blanks, slashes of both kinds, the folder with two slashes, and the ending twice. -/
def heavyDecoration : Path.Decoration where
  blanksBefore := ['\t', ' ']
  slashesBefore := ['\\', '/']
  folder := some ['\\', '/']
  endings := 2
  slashesAfter := ['/', '\\']
  blanksAfter := ['\n']
  areBlanks := by decide
  areSlashes := by decide
  folder_ne := by decide

theorem theory_any_spelling_heavy :
    heavyDecoration.around "rings/theories" = "\t \\/theories\\/rings/theories.json.json/\\\n" ∧
      Path.Tidy "rings/theories" ∧ "rings/theories" ≠ "" ∧
      Path.theoryId "\t \\/theories\\/rings/theories.json.json/\\\n" = "rings/theories" ∧
      theory {} "\t \\/theories\\/rings/theories.json.json/\\\n" = theory {} "rings/theories" := by
  have haround : heavyDecoration.around "rings/theories" =
      "\t \\/theories\\/rings/theories.json.json/\\\n" := by decide
  have htidy : Path.Tidy "rings/theories" := by
    refine ⟨?_, ?_, by decide, by decide, by decide⟩
    · intro c hc
      cases hc
      decide
    · intro c hc
      cases hc
      decide
  have hid : "rings/theories" ≠ "" := by decide
  have hspelling := theory_any_spelling {} heavyDecoration htidy hid
  rw [haround] at hspelling
  exact ⟨haround, htidy, hid, hspelling⟩

end Loading

end Compendium
