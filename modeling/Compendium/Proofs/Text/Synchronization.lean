import Compendium.Proofs.Text.Utf8

/-!
# Where UTF-8 can be cut

The octets that continue a character are never the first of one. So octets at the end of a text are
the UTF-8 of an end of the text, unless they begin with an octet that continues a character; and a
text in front can always be cut off.
-/

namespace Compendium.Text

variable {s t : List Char} {c : Char}

theorem utf8_cons (c : Char) (s : List Char) : utf8 (c :: s) = utf8Char c ++ utf8 s :=
  List.flatMap_cons

theorem utf8_append (s t : List Char) : utf8 (s ++ t) = utf8 s ++ utf8 t :=
  List.flatMap_append

theorem utf8_inj : utf8 s = utf8 t ↔ s = t := by
  refine ⟨fun h => ?_, fun h => h ▸ rfl⟩
  have hread := ofUtf8?_utf8 s
  rw [h, ofUtf8?_utf8] at hread
  exact (Option.some.inj hread).symm

/-! ## The octets of one character -/

/-- One octet begins a character, and the others continue it. -/
theorem exists_utf8Char_eq_cons (c : Char) :
    ∃ first trail, utf8Char c = first :: trail ∧ isTrail first = false ∧
      ∀ b ∈ trail, isTrail b = true := by
  have hrange := toNat_range c
  have hfirst {n : Nat} (h : n < 0x80 ∨ 0xBF < n ∧ n < 256) : isTrail n.toUInt8 = false := by
    rw [Bool.eq_false_iff, Ne, isTrail_iff, toNat_octet (by omega)]
    omega
  have htrail (n : Nat) : isTrail (0x80 + n % 64).toUInt8 = true := by
    rw [isTrail_iff, toNat_octet (by omega)]
    omega
  unfold utf8Char
  generalize c.toNat = n at hrange
  simp only
  by_cases h1 : n < 0x80
  · rw [if_pos h1]
    exact ⟨_, _, rfl, hfirst (by omega), List.forall_mem_nil _⟩
  rw [if_neg h1]
  by_cases h2 : n < 0x800
  · rw [if_pos h2]
    refine ⟨_, _, rfl, hfirst (by omega), ?_⟩
    simp only [List.forall_mem_cons, htrail, true_and]
    exact List.forall_mem_nil _
  rw [if_neg h2]
  by_cases h3 : n < 0x10000
  · rw [if_pos h3]
    refine ⟨_, _, rfl, hfirst (by omega), ?_⟩
    simp only [List.forall_mem_cons, htrail, true_and]
    exact List.forall_mem_nil _
  · rw [if_neg h3]
    refine ⟨_, _, rfl, hfirst (by omega), ?_⟩
    simp only [List.forall_mem_cons, htrail, true_and]
    exact List.forall_mem_nil _

/-- An octet below 128 stands for nothing but its own character. -/
theorem toNat_of_mem_utf8Char {b : UInt8} (hb : b ∈ utf8Char c) (hlow : b.toNat < 0x80) :
    c.toNat = b.toNat := by
  have hrange := toNat_range c
  have hhigh {n : Nat} (hn : n < 256) (h : 0x80 ≤ n) : b ≠ n.toUInt8 := by
    rintro rfl
    rw [toNat_octet hn] at hlow
    omega
  unfold utf8Char at hb
  generalize c.toNat = n at hrange hb
  simp only at hb
  by_cases h1 : n < 0x80
  · rw [if_pos h1, List.mem_singleton] at hb
    rw [hb, toNat_octet (by omega)]
  rw [if_neg h1] at hb
  exfalso
  by_cases h2 : n < 0x800
  · rw [if_pos h2] at hb
    simp only [List.mem_cons, List.not_mem_nil, or_false] at hb
    rcases hb with hb | hb <;> exact hhigh (by omega) (by omega) hb
  rw [if_neg h2] at hb
  by_cases h3 : n < 0x10000
  · rw [if_pos h3] at hb
    simp only [List.mem_cons, List.not_mem_nil, or_false] at hb
    rcases hb with hb | hb | hb <;> exact hhigh (by omega) (by omega) hb
  · rw [if_neg h3] at hb
    simp only [List.mem_cons, List.not_mem_nil, or_false] at hb
    rcases hb with hb | hb | hb | hb <;> exact hhigh (by omega) (by omega) hb

theorem length_utf8Char (c : Char) : (utf8Char c).length = c.utf8Size := by
  have hle {n : UInt32} : c.val ≤ n ↔ c.toNat ≤ n.toNat := UInt32.le_iff_toNat_le
  have hlt {n : UInt32} : n < c.val ↔ n.toNat < c.toNat := UInt32.lt_iff_toNat_lt
  have hbounds : (0x7F : UInt32).toNat = 0x7F ∧ (0x7FF : UInt32).toNat = 0x7FF ∧
      (0xFFFF : UInt32).toNat = 0xFFFF := ⟨rfl, rfl, rfl⟩
  unfold utf8Char
  simp only
  by_cases h1 : c.toNat < 0x80
  · rw [if_pos h1, Char.utf8Size_eq_one_iff.mpr (hle.mpr (by omega))]
    rfl
  rw [if_neg h1]
  by_cases h2 : c.toNat < 0x800
  · rw [if_pos h2, Char.utf8Size_eq_two_iff.mpr ⟨hlt.mpr (by omega), hle.mpr (by omega)⟩]
    rfl
  rw [if_neg h2]
  by_cases h3 : c.toNat < 0x10000
  · rw [if_pos h3, Char.utf8Size_eq_three_iff.mpr ⟨hlt.mpr (by omega), hle.mpr (by omega)⟩]
    rfl
  · rw [if_neg h3, Char.utf8Size_eq_four_iff.mpr (hlt.mpr (by omega))]
    rfl

theorem length_utf8 (s : List Char) : (utf8 s).length = (String.ofList s).utf8ByteSize := by
  induction s with
  | nil => rfl
  | cons c rest ih =>
    rw [utf8_cons, List.length_append, length_utf8Char, ih]
    simp

/-- The texts of one octet are the single characters below 128. -/
theorem utf8ByteSize_eq_one_iff {text : String} :
    text.utf8ByteSize = 1 ↔ ∃ c : Char, c.toNat < 128 ∧ text = String.singleton c := by
  have hlow {c : Char} : c.utf8Size = 1 ↔ c.toNat < 128 := by
    rw [Char.utf8Size_eq_one_iff, UInt32.le_iff_toNat_le]
    exact Nat.lt_succ_iff.symm
  constructor
  · intro hsize
    rw [← String.ofList_toList (s := text), ← length_utf8] at hsize
    rw [← String.ofList_toList (s := text)]
    cases hchars : text.toList with
    | nil =>
      rw [hchars] at hsize
      cases hsize
    | cons c rest =>
      have hpos := c.utf8Size_pos
      rw [hchars, utf8_cons, List.length_append, length_utf8Char] at hsize
      have hrest : (utf8 rest).length = 0 := by omega
      obtain rfl : rest = [] := utf8_inj.mp (List.length_eq_zero_iff.mp hrest)
      exact ⟨c, hlow.mp (by omega), String.toList_inj.mp (by simp)⟩
  · rintro ⟨c, hc, rfl⟩
    simpa using hlow.mpr hc

/-! ## Cutting a text -/

/-- A text in front of other octets can be cut off. -/
theorem eq_append_of_utf8_eq {octets : List UInt8} (h : utf8 s = utf8 t ++ octets) :
    ∃ rest, s = t ++ rest ∧ octets = utf8 rest := by
  have hread : ofUtf8? (utf8 t ++ octets) = (ofUtf8? octets).map (t ++ ·) := by
    clear h
    induction t with
    | nil => simp [utf8]
    | cons c t ih =>
      rw [utf8_cons, List.append_assoc, ofUtf8?_utf8Char, ih, Option.map_map]
      rfl
  rw [← h, ofUtf8?_utf8] at hread
  obtain ⟨rest, hrest, hs⟩ := Option.map_eq_some_iff.mp hread.symm
  exact ⟨rest, hs.symm, utf8_of_ofUtf8? hrest⟩

theorem isTrail_head_utf8 (s : List Char) : ∀ b ∈ (utf8 s).head?, isTrail b = false := by
  cases s with
  | nil => simp [utf8]
  | cons c rest =>
    obtain ⟨first, trail, hc, hfirst, -⟩ := exists_utf8Char_eq_cons c
    rw [utf8_cons, hc]
    intro b hb
    cases hb
    exact hfirst

/-- Octets at the end of a text that do not begin inside a character are an end of the text. -/
theorem exists_utf8_of_suffix {octets : List UInt8} (hsuffix : octets <:+ utf8 s)
    (hhead : ∀ b ∈ octets.head?, isTrail b = false) : ∃ t, t <:+ s ∧ octets = utf8 t := by
  induction s with
  | nil =>
    obtain rfl := List.suffix_nil.mp hsuffix
    exact ⟨[], List.suffix_rfl, rfl⟩
  | cons c rest ih =>
    obtain ⟨first, trail, hc, -, htrail⟩ := exists_utf8Char_eq_cons c
    rw [utf8_cons, hc, List.cons_append, List.suffix_cons_iff] at hsuffix
    rcases hsuffix with rfl | hsuffix
    · exact ⟨c :: rest, List.suffix_rfl, by rw [utf8_cons, hc, List.cons_append]⟩
    · obtain ⟨front, hfront⟩ := hsuffix
      obtain ⟨between, rfl, hrest⟩ | ⟨between, -, hrest⟩ := List.append_eq_append_iff.mp hfront
      · -- the octets begin with one of those that continue the character, or after all of them
        cases between with
        | nil =>
          rw [List.nil_append] at hrest
          obtain ⟨t, ht, heq⟩ := ih ⟨[], hrest⟩
          exact ⟨t, ht.trans (List.suffix_cons c rest), heq⟩
        | cons b between =>
          rw [hrest] at hhead
          have hb := htrail b (by simp)
          rw [hhead b rfl] at hb
          cases hb
      · obtain ⟨t, ht, heq⟩ := ih ⟨between, hrest.symm⟩
        exact ⟨t, ht.trans (List.suffix_cons c rest), heq⟩

end Compendium.Text
