import Compendium.Proofs.Route

/-!
# Display names and identifiers

A plain id is made of words of small letters and digits with an underscore between neighbours. Its
display name has the same words, capitalized, with spaces between, and the identifier of that is the
id again: both ways cut a text at characters that no word holds, and capital letters become small
ones. The identifier of any text at all has the form of words with an underscore between neighbours,
so it can stand in an address as it is.
-/

namespace Compendium.Text

/-! ## Words -/

/-- A text of nonempty words of certain characters, with one underscore between neighbours. -/
def IsWords (p : Char → Bool) (s : List Char) : Prop :=
  ∃ words, s = ['_'].intercalate words ∧ ∀ word ∈ words, word ≠ [] ∧ ∀ c ∈ word, p c = true

/-- The check that words make such a text. -/
theorem isWords_of_all {p : Char → Bool} {words : List (List Char)}
    (h : (words.all fun word => !word.isEmpty && word.all p) = true) :
    IsWords p (['_'].intercalate words) := by
  refine ⟨words, rfl, fun word hword => ?_⟩
  simpa using List.all_eq_true.mp h word hword

/-- The small letters and the digits of ASCII. -/
def isIdChar (c : Char) : Bool :=
  ('a' ≤ c && c ≤ 'z') || ('0' ≤ c && c ≤ '9')

/-- No underscore stands first, last or next to another one. -/
structure SingleUnderscores (s : List Char) : Prop where
  first : s.head? ≠ some '_'
  last : s.getLast? ≠ some '_'
  apart : ¬['_', '_'] <:+: s

/-- Each of these would leave an empty piece between underscores. -/
theorem singleUnderscores_of_splitOn {s : List Char} (h : [] ∉ s.splitOn '_') :
    SingleUnderscores s := by
  have hcut (before after : List Char) :
      (before ++ '_' :: after).splitOn '_' = before.splitOn '_' ++ after.splitOn '_' :=
    List.splitOn_append_cons_self before after
  refine ⟨fun hfirst => h ?_, fun hlast => h ?_, ?_⟩
  · obtain ⟨rest, rfl⟩ := List.head?_eq_some_iff.mp hfirst
    have hempty := hcut [] rest
    rw [List.nil_append] at hempty
    rw [hempty]
    exact List.mem_append_left _ List.mem_cons_self
  · obtain ⟨front, rfl⟩ := List.getLast?_eq_some_iff.mp hlast
    rw [hcut]
    exact List.mem_append_right _ List.mem_cons_self
  · rintro ⟨before, after, rfl⟩
    have hempty := hcut [] after
    rw [List.nil_append] at hempty
    apply h
    rw [List.append_assoc, List.cons_append, List.singleton_append, hcut, hempty]
    exact List.mem_append_right _ (List.mem_append_left _ List.mem_cons_self)

theorem IsWords.singleUnderscores {p : Char → Bool} (hp : p '_' = false) {s : List Char}
    (h : IsWords p s) :
    SingleUnderscores s := by
  obtain ⟨words, rfl, hwords⟩ := h
  cases words with
  | nil => exact ⟨by simp, by simp, by simp⟩
  | cons word words =>
    have hfree : ∀ q ∈ word :: words, '_' ∉ q := by
      intro q hq hmem
      rw [(hwords q hq).2 '_' hmem] at hp
      cases hp
    apply singleUnderscores_of_splitOn
    rw [List.splitOn_intercalate '_' hfree (List.cons_ne_nil _ _)]
    exact fun hempty => (hwords [] hempty).1 rfl

/-! ## Identifiers of any text -/

theorem identifier_isWords (name : List Char) : IsWords isAlphanumeric (identifier name) := by
  refine ⟨_, rfl, fun word hword => ?_⟩
  obtain ⟨hpiece, hnonempty⟩ := List.mem_filter.mp hword
  refine ⟨by simpa using hnonempty, fun c hc => ?_⟩
  simpa using (mem_of_mem_splitOnP hpiece hc).2

/-- Whether an address or markup gives the character a meaning of its own. -/
def isReserved (c : Char) : Bool :=
  "/?#&<>\"'".toList.contains c

theorem isReserved_of_isPlain {c : Char} (h : isPlain c = true) : isReserved c = false := by
  have hall : ("/?#&<>\"'".toList.all fun mark => !isPlain mark) = true := by decide
  rw [isReserved, ← Bool.not_eq_true, List.contains_iff_mem]
  intro hc
  have hplain := List.all_eq_true.mp hall c hc
  rw [h] at hplain
  cases hplain

/-! ## Lowercase of ASCII -/

theorem lowerAfter_ascii {s : List Char} (h : ∀ c ∈ s, c.toNat < 128) (before : List Char) :
    lowerAfter before s = lowerAscii s := by
  induction s generalizing before with
  | nil => rfl
  | cons c rest ih =>
    have hc : c.toNat < 128 := h c List.mem_cons_self
    have hsigma : (c == 'Σ') = false := by
      rw [beq_eq_false_iff_ne]
      rintro rfl
      exact absurd hc (by decide)
    rw [lowerAfter, ih fun d hd => h d (List.mem_cons_of_mem _ hd), hsigma, lowerChar, if_pos hc]
    rfl

theorem map_intercalate (f : Char → Char) (sep : List Char) (words : List (List Char)) :
    (sep.intercalate words).map f = (sep.map f).intercalate (words.map (List.map f)) := by
  induction words with
  | nil => rfl
  | cons word rest ih =>
    cases rest with
    | nil => simp
    | cons next rest =>
      rw [List.intercalate_cons_cons, List.map_append, List.map_append, ih]
      simp [List.intercalate_cons_cons]

/-! ## Plain ids -/

/-- What holds of small letters and digits can be checked one by one. -/
theorem isIdChar_induction {P : Char → Prop}
    (h : ∀ n < 123, isIdChar (Char.ofNat n) = true → P (Char.ofNat n)) {c : Char}
    (hc : isIdChar c = true) : P c := by
  have hbound : c.toNat < 123 := by
    simp only [isIdChar, Bool.or_eq_true, Bool.and_eq_true, decide_eq_true_eq] at hc
    rcases hc with ⟨-, hle⟩ | ⟨-, hle⟩
    · have hz : c.toNat ≤ 122 := hle
      omega
    · have hnine : c.toNat ≤ 57 := hle
      omega
  have hP := h c.toNat hbound
  rw [Char.ofNat_toNat] at hP
  exact hP hc

/-- Small letters and digits are alphanumeric ASCII characters that no display name is cut at. -/
theorem isIdChar_word {c : Char} (h : isIdChar c = true) :
    isAlphanumeric c = true ∧ (c == '_' || c == '-' || c == ' ') = false ∧ c.toNat < 128 :=
  isIdChar_induction (P := fun c => isAlphanumeric c = true ∧
    (c == '_' || c == '-' || c == ' ') = false ∧ c.toNat < 128) (by decide +kernel) h

/-- They are their own lowercase forms, and those of their uppercase forms. -/
theorem isIdChar_lower {c : Char} (h : isIdChar c = true) :
    lowerAscii [c] = [c] ∧ lowerAscii (upperChar c) = [c] ∧
      ((upperChar c).all fun d => d.toNat < 128) = true :=
  isIdChar_induction (P := fun c => lowerAscii [c] = [c] ∧ lowerAscii (upperChar c) = [c] ∧
    ((upperChar c).all fun d => d.toNat < 128) = true) (by decide +kernel) h

section Word

variable {word : List Char} (h : ∀ c ∈ word, isIdChar c = true)

include h

theorem lowerAscii_word : lowerAscii word = word := by
  refine (List.map_congr_left fun c hc => ?_).trans (List.map_id' word)
  exact List.singleton_inj.mp (isIdChar_lower (h c hc)).1

theorem lowerAscii_capitalize : lowerAscii (capitalize word) = word := by
  cases word with
  | nil => rfl
  | cons c rest =>
    have hfirst : lowerAscii (upperChar c) = [c] := (isIdChar_lower (h c List.mem_cons_self)).2.1
    have hrest : lowerAscii rest = rest :=
      lowerAscii_word fun d hd => h d (List.mem_cons_of_mem _ hd)
    rw [lowerAscii] at hfirst hrest ⊢
    rw [capitalize, List.map_append, hfirst, hrest, List.singleton_append]

theorem ascii_capitalize : ∀ d ∈ capitalize word, d.toNat < 128 := by
  cases word with
  | nil => exact List.forall_mem_nil _
  | cons c rest =>
    intro d hd
    rw [capitalize] at hd
    rcases List.mem_append.mp hd with hfirst | hrest
    · have hall := List.all_eq_true.mp (isIdChar_lower (h c List.mem_cons_self)).2.2 d hfirst
      exact of_decide_eq_true hall
    · exact (isIdChar_word (h d (List.mem_cons_of_mem _ hrest))).2.2

end Word

section Words

variable {words : List (List Char)} (h : ∀ word ∈ words, word ≠ [] ∧ ∀ c ∈ word, isIdChar c = true)

include h

/-- The display name of an id has its words. -/
theorem title_intercalate :
    title (['_'].intercalate words) = [' '].intercalate (words.map capitalize) := by
  have hwords : ∀ word ∈ words, word ≠ [] ∧ ∀ c ∈ word, (c == '_' || c == '-' || c == ' ') =
      false :=
    fun word hword => ⟨(h word hword).1, fun c hc => (isIdChar_word ((h word hword).2 c hc)).2.1⟩
  exact congrArg (fun pieces => [' '].intercalate (pieces.map capitalize))
    (filter_splitOnP_intercalate '_' (by decide) hwords)

/-- In small letters again, the words are those of the id. -/
theorem lower_intercalate :
    lower ([' '].intercalate (words.map capitalize)) = [' '].intercalate words := by
  have hascii : ∀ c ∈ [' '].intercalate (words.map capitalize), c.toNat < 128 := by
    intro c hc
    rcases mem_of_mem_intercalate hc with hspace | ⟨piece, hpiece, hc⟩
    · obtain rfl := List.mem_singleton.mp hspace
      decide
    · obtain ⟨word, hword, rfl⟩ := List.mem_map.mp hpiece
      exact ascii_capitalize (h word hword).2 c hc
  rw [lower, lowerAfter_ascii hascii, lowerAscii, map_intercalate, List.map_map]
  have hwords : words.map (lowerAscii ∘ capitalize) = words :=
    (List.map_congr_left fun word hword => lowerAscii_capitalize (h word hword).2).trans
      (List.map_id' words)
  exact congrArg (List.intercalate [' ']) hwords

theorem identifier_title :
    identifier (title (['_'].intercalate words)) = ['_'].intercalate words := by
  have hwords : ∀ word ∈ words, word ≠ [] ∧ ∀ c ∈ word, (!isAlphanumeric c) = false := by
    intro word hword
    refine ⟨(h word hword).1, fun c hc => ?_⟩
    rw [(isIdChar_word ((h word hword).2 c hc)).1]
    rfl
  rw [title_intercalate h, identifier, lower_intercalate h]
  exact congrArg (List.intercalate ['_']) (filter_splitOnP_intercalate ' ' (by decide) hwords)

end Words

/-- Display names and identifiers invert each other on plain ids. The identifier of any text is made
of words of letters and numerals with one underscore between neighbours, so it holds no character
that means something in an address or in markup and no blank, and if it is not empty, its address
leads to the theory of that id. -/
theorem identifiers_invert_names :
    (∀ id, IsWords isIdChar id → identifier (title id) = id) ∧
    ∀ name : List Char,
      IsWords isAlphanumeric (identifier name) ∧ SingleUnderscores (identifier name) ∧
      (∀ c ∈ identifier name, isReserved c = false ∧ isBlank c = false) ∧
      (identifier name ≠ [] → Route.parse ("/math/" ++ String.ofList (identifier name)) =
        .theory (String.ofList (identifier name))) := by
  refine ⟨?_, fun name =>
    ⟨identifier_isWords name, (identifier_isWords name).singleUnderscores (by decide),
    fun c hc => ?_, fun hname => ?_⟩⟩
  · rintro id ⟨words, rfl, hwords⟩
    exact identifier_title hwords
  · have hplain := identifier_plain name c hc
    exact ⟨isReserved_of_isPlain hplain, isBlank_of_isPlain hplain⟩
  · have hsegment : Route.IsSegment (String.ofList (identifier name)) := by
      apply Route.isSegment_of_plain
      · simpa using hname
      · rw [String.toList_ofList]
        exact identifier_plain name
    exact (Route.parse_theory_path_iff _).mpr hsegment

/-- A plain id with a digit in front of a word, and a name with accents, marks and a capital
sigma. -/
theorem identifiers_invert_names_accents :
    IsWords isIdChar "group_theory_2b".toList ∧
      title "group_theory_2b".toList = "Group Theory 2b".toList ∧
      identifier (title "group_theory_2b".toList) = "group_theory_2b".toList ∧
      identifier " Größe? <ΟΔΟΣ>/2".toList = "größe_οδος_2".toList ∧
      Route.parse ("/math/" ++ String.ofList (identifier " Größe? <ΟΔΟΣ>/2".toList)) =
        .theory (String.ofList (identifier " Größe? <ΟΔΟΣ>/2".toList)) := by
  obtain ⟨hinverse, hidentifier⟩ := identifiers_invert_names
  have hjoin : ['_'].intercalate ["group".toList, "theory".toList, "2b".toList] =
      "group_theory_2b".toList := by decide +kernel
  have hwords : IsWords isIdChar "group_theory_2b".toList := by
    rw [← hjoin]
    exact isWords_of_all (by decide +kernel)
  have hname : identifier " Größe? <ΟΔΟΣ>/2".toList = "größe_οδος_2".toList := by decide +kernel
  obtain ⟨-, -, -, hparse⟩ := hidentifier " Größe? <ΟΔΟΣ>/2".toList
  exact ⟨hwords, by decide +kernel, hinverse _ hwords, hname, hparse (by rw [hname]; decide)⟩

end Compendium.Text
