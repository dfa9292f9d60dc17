import Compendium.Proofs.Text.Utf8
import Mathlib.Data.String.Basic

/-!
# The order of octets

UTF-8 keeps the order of texts: comparing the octets of two texts one by one comes to the same as
comparing their characters.
-/

namespace Compendium.Text

section Octets

variable {n m : Nat} (hn : n < 256) (hm : m < 256) {x y : List UInt8}

include hn hm

theorem octet_cons_lt (h : n < m) : n.toUInt8 :: x < m.toUInt8 :: y := by
  refine List.cons_lt_cons_iff.mpr (.inl ?_)
  rw [UInt8.lt_iff_toNat_lt, toNat_octet hn, toNat_octet hm]
  exact h

/-- Octets after the first decide between two characters only if the first ones are the same. -/
theorem octet_cons_lt_of_le (hle : n ≤ m) (h : n = m → x < y) :
    n.toUInt8 :: x < m.toUInt8 :: y := by
  by_cases hsame : n = m
  · subst hsame
    exact List.cons_lt_cons_iff.mpr (.inr ⟨rfl, h rfl⟩)
  · exact octet_cons_lt hn hm (by omega)

end Octets

/-- The octets of the smaller character come first, whatever follows them. -/
theorem utf8Char_append_lt {c d : Char} (h : c < d) (x y : List UInt8) :
    utf8Char c ++ x < utf8Char d ++ y := by
  have hlt : c.toNat < d.toNat := h
  have hc := toNat_range c
  have hd := toNat_range d
  unfold utf8Char
  generalize c.toNat = n at hlt hc
  generalize d.toNat = m at hlt hd
  simp only
  -- a longer character starts with a greater octet; else the first difference decides
  by_cases hm1 : m < 0x80
  · rw [if_pos hm1, if_pos (show n < 0x80 by omega)]
    exact octet_cons_lt (by omega) (by omega) hlt
  rw [if_neg hm1]
  by_cases hn1 : n < 0x80
  · rw [if_pos hn1]
    split_ifs <;> exact octet_cons_lt (by omega) (by omega) (by omega)
  rw [if_neg hn1]
  by_cases hm2 : m < 0x800
  · rw [if_pos hm2, if_pos (show n < 0x800 by omega)]
    refine octet_cons_lt_of_le (by omega) (by omega) (by omega) fun _ => ?_
    exact octet_cons_lt (by omega) (by omega) (by omega)
  rw [if_neg hm2]
  by_cases hn2 : n < 0x800
  · rw [if_pos hn2]
    split_ifs <;> exact octet_cons_lt (by omega) (by omega) (by omega)
  rw [if_neg hn2]
  by_cases hm3 : m < 0x10000
  · rw [if_pos hm3, if_pos (show n < 0x10000 by omega)]
    refine octet_cons_lt_of_le (by omega) (by omega) (by omega) fun _ => ?_
    refine octet_cons_lt_of_le (by omega) (by omega) (by omega) fun _ => ?_
    exact octet_cons_lt (by omega) (by omega) (by omega)
  rw [if_neg hm3]
  by_cases hn3 : n < 0x10000
  · rw [if_pos hn3]
    exact octet_cons_lt (by omega) (by omega) (by omega)
  · rw [if_neg hn3]
    refine octet_cons_lt_of_le (by omega) (by omega) (by omega) fun _ => ?_
    refine octet_cons_lt_of_le (by omega) (by omega) (by omega) fun _ => ?_
    refine octet_cons_lt_of_le (by omega) (by omega) (by omega) fun _ => ?_
    exact octet_cons_lt (by omega) (by omega) (by omega)

theorem utf8Char_ne_nil (c : Char) : utf8Char c ≠ [] := by
  unfold utf8Char
  simp only
  split_ifs <;> exact List.cons_ne_nil _ _

theorem utf8_lt_of_lt {s t : List Char} (h : s < t) : utf8 s < utf8 t := by
  induction h with
  | @nil c rest =>
    obtain ⟨octet, more, hoctets⟩ := List.exists_cons_of_ne_nil (utf8Char_ne_nil c)
    rw [utf8, utf8, List.flatMap_cons, hoctets]
    exact List.nil_lt_cons _ _
  | @rel c s d t hlt =>
    rw [utf8, utf8, List.flatMap_cons, List.flatMap_cons]
    exact utf8Char_append_lt hlt _ _
  | cons _ ih =>
    rw [utf8, utf8, List.flatMap_cons, List.flatMap_cons]
    exact List.append_left_lt ih

/-- Texts are in the order of their octets. -/
theorem utf8_lt_utf8 {s t : List Char} : utf8 s < utf8 t ↔ s < t := by
  refine ⟨fun h => ?_, utf8_lt_of_lt⟩
  rcases lt_trichotomy s t with hlt | heq | hgt
  · exact hlt
  · rw [heq] at h
    exact absurd h (List.lt_irrefl _)
  · exact absurd h (List.lt_asymm (utf8_lt_of_lt hgt))

end Compendium.Text
