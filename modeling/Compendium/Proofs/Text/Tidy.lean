import Compendium.Proofs.Text.Slug
import Mathlib.Data.List.DropRight

/-!
# Tidy theory ids

A reference to a theory is stripped of its decoration in six steps, each of which drops characters
or changes them one by one. So the whole leaves a text as it is exactly if each of the steps does,
which is said here of the text itself.
-/

namespace Compendium

namespace Text

variable {p : Char → Bool} {s : List Char}

/-! ## What the steps drop -/

theorem dropEndWhile_eq_rdropWhile (p : Char → Bool) (s : List Char) :
    dropEndWhile p s = s.rdropWhile p :=
  rfl

theorem trimWhile_sublist (p : Char → Bool) (s : List Char) : (trimWhile p s).Sublist s := by
  rw [trimWhile, dropEndWhile_eq_rdropWhile]
  exact (List.rdropWhile_prefix p _).sublist.trans (List.dropWhile_sublist p)

theorem dropReversed_suffix (tail : List Char) (rounds : Nat) (s : List Char) :
    dropReversed tail rounds s <:+ s := by
  induction rounds generalizing s with
  | zero => exact List.suffix_rfl
  | succ rounds ih =>
    rw [dropReversed]
    split
    · rename_i rest hrest
      exact (ih rest).trans ⟨tail, List.append_eq_of_isPrefixOf?_eq_some hrest⟩
    · exact List.suffix_rfl

theorem dropEndings_sublist (tail s : List Char) : (dropEndings tail s).Sublist s := by
  rw [dropEndings]
  split
  · exact List.Sublist.refl s
  · simpa using (dropReversed_suffix tail.reverse s.length s.reverse).sublist.reverse

theorem getD_isPrefixOf?_sublist (front s : List Char) :
    ((front.isPrefixOf? s).getD s).Sublist s := by
  cases hfront : front.isPrefixOf? s with
  | none => exact List.Sublist.refl s
  | some rest =>
    rw [Option.getD_some, ← List.append_eq_of_isPrefixOf?_eq_some hfront]
    exact List.sublist_append_right front rest

/-! ## What the steps leave alone -/

/-- Trimming leaves a text alone exactly if neither of its ends passes the test. -/
theorem trimWhile_eq_self_iff :
    trimWhile p s = s ↔ (∀ c ∈ s.head?, p c = false) ∧ ∀ c ∈ s.getLast?, p c = false := by
  have hends : (s.dropWhile p = s ↔ ∀ c ∈ s.head?, p c = false) ∧
      (s.rdropWhile p = s ↔ ∀ c ∈ s.getLast?, p c = false) := by
    refine ⟨?_, ?_⟩
    · cases s with
      | nil => simp
      | cons c rest => simp [List.dropWhile_eq_self_iff]
    · rw [List.rdropWhile_eq_self_iff]
      cases s with
      | nil => simp
      | cons c rest => simp [List.getLast?_eq_some_getLast]
  rw [← hends.1, ← hends.2, trimWhile, dropEndWhile_eq_rdropWhile]
  constructor
  · intro h
    have hfront : s.dropWhile p = s := by
      refine (List.dropWhile_sublist p).eq_of_length
        (le_antisymm (List.dropWhile_sublist p).length_le ?_)
      calc s.length = ((s.dropWhile p).rdropWhile p).length := by rw [h]
        _ ≤ (s.dropWhile p).length := (List.rdropWhile_prefix p _).length_le
    rw [hfront] at h
    exact ⟨hfront, h⟩
  · rintro ⟨hfront, hback⟩
    rw [hfront, hback]

/-! ## Ends of a text -/

/-- Neither end of the text passes the test. -/
def EndsFail (p : Char → Bool) (s : List Char) : Prop :=
  (∀ c ∈ s.head?, p c = false) ∧ ∀ c ∈ s.getLast?, p c = false

theorem endsFail_of_forall (h : ∀ c ∈ s, p c = false) : EndsFail p s :=
  ⟨fun c hc => h c (List.mem_of_head? hc), fun c hc => h c (List.mem_of_getLast? hc)⟩

theorem EndsFail.append {t : List Char} (hs : EndsFail p s) (ht : EndsFail p t) :
    EndsFail p (s ++ t) := by
  constructor
  · intro c hc
    rw [List.head?_append] at hc
    cases hhead : s.head? with
    | none =>
      rw [hhead, Option.none_or] at hc
      exact ht.1 c hc
    | some d =>
      rw [hhead, Option.some_or] at hc
      exact hs.1 c (hhead.trans hc)
  · intro c hc
    rw [List.getLast?_append] at hc
    cases hlast : t.getLast? with
    | none =>
      rw [hlast, Option.none_or] at hc
      exact hs.2 c hc
    | some d =>
      rw [hlast, Option.some_or] at hc
      exact ht.2 c (hlast.trans hc)

/-- Trimming takes away what passes the test on both sides, up to a text whose ends fail it. -/
theorem trimWhile_surrounded {before after : List Char} (hbefore : ∀ c ∈ before, p c = true)
    (hafter : ∀ c ∈ after, p c = true) (hs : EndsFail p s) :
    trimWhile p (before ++ (s ++ after)) = s := by
  have hself := trimWhile_eq_self_iff.mpr hs
  rw [trimWhile, dropEndWhile_eq_rdropWhile] at hself ⊢
  rw [List.dropWhile_append_of_pos hbefore]
  cases s with
  | nil =>
    have hall : after.dropWhile p = [] := List.dropWhile_eq_nil_iff.mpr hafter
    rw [List.nil_append, hall]
    rfl
  | cons c rest =>
    have hc : p c = false := hs.1 c rfl
    have hkept : ∀ more, ((c :: rest) ++ more).dropWhile p = (c :: rest) ++ more := fun more =>
      List.dropWhile_cons_of_neg (by rw [hc]; exact Bool.false_ne_true)
    have hreversed : ∀ d ∈ after.reverse, p d = true :=
      fun d hd => hafter d (List.mem_reverse.mp hd)
    have hown := hkept []
    rw [List.append_nil] at hown
    rw [hown] at hself
    rw [hkept after, List.rdropWhile, List.reverse_append, List.dropWhile_append_of_pos hreversed]
    exact hself

/-- A text is its trimmed text with characters that pass the test on both sides. -/
theorem exists_surrounded (p : Char → Bool) (s : List Char) :
    ∃ before core after, s = before ++ (core ++ after) ∧ (∀ c ∈ before, p c = true) ∧
      (∀ c ∈ after, p c = true) ∧ EndsFail p core := by
  let rest := s.dropWhile p
  let after := (rest.reverse.takeWhile p).reverse
  have hrest : rest = rest.rdropWhile p ++ after := by
    rw [List.rdropWhile, ← List.reverse_append, List.takeWhile_append_dropWhile,
      List.reverse_reverse]
  refine ⟨s.takeWhile p, rest.rdropWhile p, after, ?_, fun c hc => List.mem_takeWhile_imp hc,
    fun c hc => List.mem_takeWhile_imp (List.mem_reverse.mp hc), fun c hc => ?_, fun c hc => ?_⟩
  · rw [← hrest, List.takeWhile_append_dropWhile]
  · have hhead : rest.head? = some c := by
      rw [hrest, List.head?_append, Option.mem_def.mp hc, Option.some_or]
    have hfirst := List.head?_dropWhile_not p s
    rw [hhead] at hfirst
    exact hfirst
  · have hne : rest.rdropWhile p ≠ [] := fun hnil => by simp [hnil] at hc
    have hlast := List.rdropWhile_last_not p rest hne
    rw [Option.mem_def, List.getLast?_eq_some_getLast hne, Option.some.injEq] at hc
    rw [hc] at hlast
    simpa using hlast

/-! ## Fronts and endings -/

theorem isPrefixOf?_eq_none_iff {front : List Char} :
    front.isPrefixOf? s = none ↔ ¬front <+: s := by
  rw [← Option.not_isSome_iff_eq_none, List.isSome_isPrefixOf?_eq_isPrefixOf,
    List.isPrefixOf_iff_prefix]

theorem getD_isPrefixOf?_eq_self_iff {front : List Char} (hfront : front ≠ []) :
    (front.isPrefixOf? s).getD s = s ↔ ¬front <+: s := by
  rw [← isPrefixOf?_eq_none_iff]
  cases hdrop : front.isPrefixOf? s with
  | none => simp
  | some rest =>
    have hs := List.append_eq_of_isPrefixOf?_eq_some hdrop
    have hne : rest ≠ s := by
      intro heq
      rw [heq] at hs
      exact hfront (List.append_left_eq_self.mp hs)
    simp [hne]

theorem dropEndings_eq_self_iff {tail : List Char} (htail : tail ≠ []) :
    dropEndings tail s = s ↔ ¬tail <:+ s := by
  have hempty : tail.isEmpty = false := by simpa using htail
  rw [dropEndings, hempty, if_neg Bool.false_ne_true, List.reverse_eq_iff, ← List.reverse_prefix]
  constructor
  · intro h hending
    obtain ⟨rest, hrest⟩ := hending
    have hdrop : tail.reverse.isPrefixOf? s.reverse ≠ none :=
      fun hnone => isPrefixOf?_eq_none_iff.mp hnone ⟨rest, hrest⟩
    obtain ⟨kept, hkept⟩ := Option.ne_none_iff_exists'.mp hdrop
    have hsplit := List.append_eq_of_isPrefixOf?_eq_some hkept
    have hlength : s.length = tail.length + kept.length := by
      simpa using congrArg List.length hsplit.symm
    have hpos : 0 < tail.length := List.length_pos_iff.mpr htail
    obtain ⟨rounds, hrounds⟩ : ∃ rounds, s.length = rounds + 1 :=
      ⟨s.length - 1, by omega⟩
    rw [hrounds, dropReversed, hkept] at h
    have hle := (dropReversed_suffix tail.reverse rounds kept).length_le
    have hsame : dropReversed tail.reverse rounds kept = s.reverse := h
    rw [hsame, List.length_reverse] at hle
    omega
  · intro hending
    cases s.length with
    | zero => rfl
    | succ rounds => rw [dropReversed, isPrefixOf?_eq_none_iff.mpr hending]

end Text

namespace Path

/-- A theory id without decoration: no blank or slash at its ends, no backslash in it, no folder
`theories` in front and no ending `.json`. -/
structure Tidy (id : String) : Prop where
  front : ∀ c ∈ id.toList.head?, Text.isBlank c = false ∧ c ≠ '/'
  back : ∀ c ∈ id.toList.getLast?, Text.isBlank c = false ∧ c ≠ '/'
  backslash : '\\' ∉ id.toList
  folder : ¬"theories/".toList <+: id.toList
  ending : ¬jsonEnding <:+ id.toList

theorem trimSlashes_sublist (s : List Char) : (trimSlashes s).Sublist s :=
  Text.trimWhile_sublist _ s

theorem map_slashed_eq_self_iff {s : List Char} : s.map slashed = s ↔ '\\' ∉ s := by
  constructor
  · intro h hmem
    have hfixed := List.map_inj_left.mp (h.trans (List.map_id s).symm) '\\' hmem
    exact absurd hfixed (by decide)
  · intro h
    refine (List.map_congr_left fun c hc => ?_).trans (List.map_id s)
    rw [slashed, if_neg]
    · rfl
    · intro heq
      exact h (eq_of_beq heq ▸ hc)

theorem toList_theoryId (reference : String) :
    (theoryId reference).toList =
      let bare := trimSlashes ((Text.trim reference.toList).map slashed)
      trimSlashes (Text.dropEndings jsonEnding (("theories/".toList.isPrefixOf? bare).getD bare)) :=
  String.toList_ofList

/-- The steps leave a text alone together exactly if each of them does. -/
theorem theoryId_eq_self_iff_steps (id : String) :
    theoryId id = id ↔ Text.trim id.toList = id.toList ∧ id.toList.map slashed = id.toList ∧
      trimSlashes id.toList = id.toList ∧
      ("theories/".toList.isPrefixOf? id.toList).getD id.toList = id.toList ∧
      Text.dropEndings jsonEnding id.toList = id.toList := by
  rw [← String.toList_inj, toList_theoryId]
  generalize id.toList = s
  dsimp only
  constructor
  · intro h
    -- no step makes the text longer, and after the last one it has its first length again
    generalize hbare : trimSlashes ((Text.trim s).map slashed) = bare at h
    generalize hinner : ("theories/".toList.isPrefixOf? bare).getD bare = inner at h
    generalize hcut : Text.dropEndings jsonEnding inner = cut at h
    have htrim : (Text.trim s).Sublist s := Text.trimWhile_sublist _ s
    have hbareSub : bare.Sublist ((Text.trim s).map slashed) := hbare ▸ trimSlashes_sublist _
    have hinnerSub : inner.Sublist bare := hinner ▸ Text.getD_isPrefixOf?_sublist _ bare
    have hcutSub : cut.Sublist inner := hcut ▸ Text.dropEndings_sublist _ inner
    have hlastSub : s.Sublist cut := h ▸ trimSlashes_sublist cut
    have hmapLength : ((Text.trim s).map slashed).length = (Text.trim s).length := List.length_map _
    have htrimLength := htrim.length_le
    have hbareLength := hbareSub.length_le
    have hinnerLength := hinnerSub.length_le
    have hcutLength := hcutSub.length_le
    have hlastLength := hlastSub.length_le
    have htrimEq : Text.trim s = s := htrim.eq_of_length (by omega)
    have hbareEq : bare = (Text.trim s).map slashed := hbareSub.eq_of_length (by omega)
    obtain rfl : inner = bare := hinnerSub.eq_of_length (by omega)
    obtain rfl : cut = inner := hcutSub.eq_of_length (by omega)
    obtain rfl : s = cut := hlastSub.eq_of_length (by omega)
    rw [htrimEq] at hbareEq
    exact ⟨htrimEq, hbareEq.symm, h, hinner, hcut⟩
  · rintro ⟨htrim, hmap, hslashes, hfront, hending⟩
    rw [htrim, hmap, hslashes, hfront, hending, hslashes]

/-- Exactly the tidy texts are the ids that they spell. -/
theorem theoryId_eq_self_iff (id : String) : theoryId id = id ↔ Tidy id := by
  rw [theoryId_eq_self_iff_steps, Text.trim, trimSlashes, Text.trimWhile_eq_self_iff,
    Text.trimWhile_eq_self_iff, map_slashed_eq_self_iff,
    Text.getD_isPrefixOf?_eq_self_iff (by decide), Text.dropEndings_eq_self_iff (by decide)]
  constructor
  · rintro ⟨⟨hblank, hblank'⟩, hbackslash, ⟨hslash, hslash'⟩, hfolder, hending⟩
    exact ⟨fun c hc => ⟨hblank c hc, ne_of_beq_false (hslash c hc)⟩,
      fun c hc => ⟨hblank' c hc, ne_of_beq_false (hslash' c hc)⟩, hbackslash, hfolder, hending⟩
  · intro h
    exact ⟨⟨fun c hc => (h.front c hc).1, fun c hc => (h.back c hc).1⟩, h.backslash,
      ⟨fun c hc => beq_false_of_ne (h.front c hc).2, fun c hc => beq_false_of_ne (h.back c hc).2⟩,
      h.folder, h.ending⟩

/-- Plain text is the theory id that it spells. -/
theorem theoryId_of_plain {s : List Char} (h : ∀ c ∈ s, Text.isPlain c = true) :
    theoryId (String.ofList s) = String.ofList s := by
  have hnone (mark : Char) (hmark : Text.isPlain mark = false) : mark ∉ s := by
    intro hin
    rw [h mark hin] at hmark
    cases hmark
  have hends : ∀ c ∈ s, Text.isBlank c = false ∧ c ≠ '/' := fun c hc =>
    ⟨Text.isBlank_of_isPlain (h c hc), ne_of_mem_of_not_mem hc (hnone '/' (by decide))⟩
  have hs : (String.ofList s).toList = s := String.toList_ofList
  rw [theoryId_eq_self_iff]
  constructor <;> rw [hs]
  · exact fun c hc => hends c (List.mem_of_head? hc)
  · exact fun c hc => hends c (List.mem_of_getLast? hc)
  · exact hnone '\\' (by decide)
  · exact fun hfolder => hnone '/' (by decide) (hfolder.subset (by decide))
  · exact fun hending => hnone '.' (by decide) (hending.subset (by decide))

end Path

end Compendium
