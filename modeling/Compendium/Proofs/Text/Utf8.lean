import Compendium.Text.Utf8

/-!
# UTF-8 is read as it is written

Octets are the UTF-8 of a text exactly if they are read as that text. In particular a text has one
spelling only, and every other list of octets is refused.
-/

namespace Compendium.Text

/-- A number in a range of characters is that of its character. -/
theorem toNat_ofNat {n : Nat} (h : n < 0xD800 ∨ 0xDFFF < n ∧ n < 0x110000) :
    (Char.ofNat n).toNat = n := by
  have hvalid : n.isValidChar := h
  rw [Char.ofNat, dif_pos hvalid]
  rfl

theorem toNat_range (c : Char) : c.toNat < 0xD800 ∨ 0xDFFF < c.toNat ∧ c.toNat < 0x110000 :=
  c.valid

theorem toNat_octet {n : Nat} (h : n < 256) : n.toUInt8.toNat = n := by
  show n % 256 = n
  omega

theorem octet_eq {n : Nat} {a : UInt8} (h : n = a.toNat) : n.toUInt8 = a := by
  have ha := a.toNat_lt
  apply UInt8.toNat_inj.mp
  rw [toNat_octet (by omega), h]

theorem between_iff {low high a : UInt8} :
    (decide (low ≤ a) && decide (a ≤ high)) = true ↔ low.toNat ≤ a.toNat ∧
      a.toNat ≤ high.toNat := by
  simp [UInt8.le_iff_toNat_le]

theorem isTrail_iff (b : UInt8) : isTrail b = true ↔ 0x80 ≤ b.toNat ∧ b.toNat ≤ 0xBF :=
  between_iff

/-! ## The four lengths of a character -/

section Lengths

variable {a b c d : UInt8} (rest : List UInt8)

theorem not_ascii (ha : 0x80 ≤ a.toNat) : ¬a < 0x80 := by
  rw [UInt8.lt_iff_toNat_lt]
  exact Nat.not_lt.mpr ha

theorem not_between {low high : UInt8} (ha : high.toNat < a.toNat) :
    ¬(decide (low ≤ a) && decide (a ≤ high)) = true := by
  rw [between_iff]
  omega

theorem ofUtf8?_one (ha : a.toNat < 0x80) :
    ofUtf8? (a :: rest) = (ofUtf8? rest).map (Char.ofNat a.toNat :: ·) := by
  have h1 : a < 0x80 := UInt8.lt_iff_toNat_lt.mpr ha
  rw [ofUtf8?.eq_def]
  simp only [h1, if_true]

theorem utf8Char_one (ha : a.toNat < 0x80) : utf8Char (Char.ofNat a.toNat) = [a] := by
  simp only [utf8Char, toNat_ofNat (n := a.toNat) (by omega)]
  rw [if_pos ha, octet_eq rfl]

section Two

variable (ha : 0xC2 ≤ a.toNat ∧ a.toNat ≤ 0xDF) (hb : isTrail b = true)

include ha hb

theorem ofUtf8?_two :
    ofUtf8? (a :: b :: rest) =
      (ofUtf8? rest).map (Char.ofNat ((a.toNat - 0xC0) * 64 + (b.toNat - 0x80)) :: ·) := by
  have h1 := not_ascii (a := a) (by omega)
  have h2 := (@between_iff 0xC2 0xDF a).mpr ha
  rw [ofUtf8?.eq_def]
  simp only [h1, h2, hb, if_true, if_false]

theorem utf8Char_two :
    utf8Char (Char.ofNat ((a.toNat - 0xC0) * 64 + (b.toNat - 0x80))) = [a, b] := by
  rw [isTrail_iff] at hb
  generalize hn : (a.toNat - 0xC0) * 64 + (b.toNat - 0x80) = n
  simp only [utf8Char, toNat_ofNat (n := n) (by omega)]
  rw [if_neg (by omega), if_pos (by omega), octet_eq (a := a) (by omega),
    octet_eq (a := b) (by omega)]

end Two

section Three

variable {n : Nat} (ha : 0xE0 ≤ a.toNat ∧ a.toNat ≤ 0xEF) (hb : isTrail b = true)
  (hc : isTrail c = true)
  (hn : n = (a.toNat - 0xE0) * 4096 + (b.toNat - 0x80) * 64 + (c.toNat - 0x80))
  (hrange : 0x800 ≤ n ∧ ¬(0xD800 ≤ n ∧ n ≤ 0xDFFF))

include ha hb hc hn hrange

theorem ofUtf8?_three :
    ofUtf8? (a :: b :: c :: rest) = (ofUtf8? rest).map (Char.ofNat n :: ·) := by
  have h1 := not_ascii (a := a) (by omega)
  have h2 : ¬(decide (0xC2 ≤ a) && decide (a ≤ 0xDF)) = true := not_between ha.1
  have h3 := (@between_iff 0xE0 0xEF a).mpr ha
  rw [ofUtf8?.eq_def]
  simp only [h1, h2, h3, hb, hc, ← hn, if_true, if_false]
  simp [hrange]

theorem utf8Char_three : utf8Char (Char.ofNat n) = [a, b, c] := by
  rw [isTrail_iff] at hb hc
  simp only [utf8Char, toNat_ofNat (n := n) (by omega)]
  rw [if_neg (by omega), if_neg (by omega), if_pos (by omega), octet_eq (a := a) (by omega),
    octet_eq (a := b) (by omega), octet_eq (a := c) (by omega)]

end Three

section Four

variable {n : Nat} (ha : 0xF0 ≤ a.toNat ∧ a.toNat ≤ 0xF4) (hb : isTrail b = true)
  (hc : isTrail c = true) (hd : isTrail d = true)
  (hn : n = (a.toNat - 0xF0) * 262144 + (b.toNat - 0x80) * 4096 + (c.toNat - 0x80) * 64 +
    (d.toNat - 0x80)) (hrange : 0x10000 ≤ n ∧ n ≤ 0x10FFFF)

include ha hb hc hd hn hrange

theorem ofUtf8?_four :
    ofUtf8? (a :: b :: c :: d :: rest) = (ofUtf8? rest).map (Char.ofNat n :: ·) := by
  have h1 := not_ascii (a := a) (by omega)
  have h2 : ¬(decide (0xC2 ≤ a) && decide (a ≤ 0xDF)) = true :=
    not_between (Nat.lt_of_lt_of_le (by decide) ha.1)
  have h3 : ¬(decide (0xE0 ≤ a) && decide (a ≤ 0xEF)) = true := not_between ha.1
  have h4 := (@between_iff 0xF0 0xF4 a).mpr ha
  rw [ofUtf8?.eq_def]
  simp only [h1, h2, h3, h4, hb, hc, hd, ← hn, if_true, if_false]
  simp [hrange]

theorem utf8Char_four : utf8Char (Char.ofNat n) = [a, b, c, d] := by
  rw [isTrail_iff] at hb hc hd
  simp only [utf8Char, toNat_ofNat (n := n) (by omega)]
  rw [if_neg (by omega), if_neg (by omega), if_neg (by omega), octet_eq (a := a) (by omega),
    octet_eq (a := b) (by omega), octet_eq (a := c) (by omega), octet_eq (a := d) (by omega)]

end Four

end Lengths

/-! ## Reading what was written -/

/-- The octets of a character in front of others are read as that character. -/
theorem ofUtf8?_utf8Char (c : Char) (rest : List UInt8) :
    ofUtf8? (utf8Char c ++ rest) = (ofUtf8? rest).map (c :: ·) := by
  have hrange := toNat_range c
  have hchar : Char.ofNat c.toNat = c := Char.ofNat_toNat c
  have htrail (n : Nat) : isTrail (0x80 + n % 64).toUInt8 = true := by
    rw [isTrail_iff, toNat_octet (by omega)]
    omega
  generalize hn : c.toNat = n at hrange hchar
  simp only [utf8Char, hn]
  by_cases h1 : n < 0x80
  · have ha : n.toUInt8.toNat = n := toNat_octet (by omega)
    rw [if_pos h1, List.singleton_append, ofUtf8?_one rest (by omega), ha, hchar]
  rw [if_neg h1]
  by_cases h2 : n < 0x800
  · have ha : (0xC0 + n / 64).toUInt8.toNat = 0xC0 + n / 64 := toNat_octet (by omega)
    have hb : (0x80 + n % 64).toUInt8.toNat = 0x80 + n % 64 := toNat_octet (by omega)
    have hsum : (0xC0 + n / 64 - 0xC0) * 64 + (0x80 + n % 64 - 0x80) = n := by omega
    rw [if_pos h2, List.cons_append, List.singleton_append, ofUtf8?_two rest (by omega) (htrail _),
      ha, hb, hsum, hchar]
  rw [if_neg h2]
  by_cases h3 : n < 0x10000
  · have ha : (0xE0 + n / 4096).toUInt8.toNat = 0xE0 + n / 4096 := toNat_octet (by omega)
    have hb : (0x80 + n / 64 % 64).toUInt8.toNat = 0x80 + n / 64 % 64 := toNat_octet (by omega)
    have hc : (0x80 + n % 64).toUInt8.toNat = 0x80 + n % 64 := toNat_octet (by omega)
    rw [if_pos h3, List.cons_append, List.cons_append, List.singleton_append]
    rw [ofUtf8?_three (n := n) rest (by omega) (htrail _) (htrail _) (by omega) (by omega), hchar]
  · have ha : (0xF0 + n / 262144).toUInt8.toNat = 0xF0 + n / 262144 := toNat_octet (by omega)
    have hb : (0x80 + n / 4096 % 64).toUInt8.toNat = 0x80 + n / 4096 % 64 := toNat_octet (by omega)
    have hc : (0x80 + n / 64 % 64).toUInt8.toNat = 0x80 + n / 64 % 64 := toNat_octet (by omega)
    have hd : (0x80 + n % 64).toUInt8.toNat = 0x80 + n % 64 := toNat_octet (by omega)
    rw [if_neg h3, List.cons_append, List.cons_append, List.cons_append, List.singleton_append]
    rw [ofUtf8?_four (n := n) rest (by omega) (htrail _) (htrail _) (htrail _) (by omega)
      (by omega), hchar]

theorem ofUtf8?_utf8 (s : List Char) : ofUtf8? (utf8 s) = some s := by
  induction s with
  | nil => rfl
  | cons c rest ih =>
    rw [utf8, List.flatMap_cons, ofUtf8?_utf8Char]
    rw [utf8] at ih
    rw [ih, Option.map_some]

/-! ## Writing what was read -/

theorem utf8_of_ofUtf8? {octets : List UInt8} {s : List Char} (h : ofUtf8? octets = some s) :
    octets = utf8 s := by
  have hcons {first rest : List UInt8} {char : Char} {s : List Char}
      (hfirst : utf8Char char = first) (ih : ∀ {s}, ofUtf8? rest = some s → rest = utf8 s)
      (h : (ofUtf8? rest).map (char :: ·) = some s) : first ++ rest = utf8 s := by
    obtain ⟨t, ht, rfl⟩ := Option.map_eq_some_iff.mp h
    rw [utf8, List.flatMap_cons, hfirst, ih ht]
    rfl
  fun_induction ofUtf8? octets generalizing s with
  | case1 =>
    cases h
    rfl
  | case2 a rest ha ih => exact hcons (utf8Char_one (UInt8.lt_iff_toNat_lt.mp ha)) ih h
  | case3 a h1 ha b rest hb ih => exact hcons (utf8Char_two (between_iff.mp ha) hb) ih h
  | case6 a h1 h2 ha b c rest n hn =>
    rename_i ih
    simp only [Bool.and_eq_true, Bool.not_eq_true', decide_eq_true_eq] at hn
    obtain ⟨⟨⟨hb, hc⟩, hlow⟩, hsurrogate⟩ := hn
    have hrange : 0x800 ≤ n ∧ ¬(0xD800 ≤ n ∧ n ≤ 0xDFFF) := ⟨hlow, by simpa using hsurrogate⟩
    exact hcons (utf8Char_three (between_iff.mp ha) hb hc rfl hrange) ih h
  | case9 a h1 h2 h3 ha b c d rest n hn =>
    rename_i ih
    simp only [Bool.and_eq_true, decide_eq_true_eq] at hn
    obtain ⟨⟨⟨⟨hb, hc⟩, hd⟩, hlow⟩, hhigh⟩ := hn
    exact hcons (utf8Char_four (between_iff.mp ha) hb hc hd rfl ⟨hlow, hhigh⟩) ih h
  | _ => cases h

theorem ofUtf8?_eq_some_iff {octets : List UInt8} {s : List Char} :
    ofUtf8? octets = some s ↔ octets = utf8 s :=
  ⟨utf8_of_ofUtf8?, fun h => h ▸ ofUtf8?_utf8 s⟩

end Compendium.Text
