import Compendium.Proofs.Path
import Compendium.Text.Slug

/-!
# Identifiers in addresses

An identifier holds letters, numerals and underscores only. So nothing of it is lost where an
address is cut at its marks or a reference is stripped of its decoration: it is one segment of a
path, and it is the theory id that it spells.
-/

namespace Compendium

namespace Text

variable {p : Char → Bool} {s : List Char}

/-- A character that identifiers are made of. -/
def isPlain (c : Char) : Bool :=
  isAlphanumeric c || c == '_'

/-- The code points of white space. -/
def blanks : List Nat :=
  [0x09, 0x0A, 0x0B, 0x0C, 0x0D, 0x20, 0x85, 0xA0, 0x1680, 0x2000, 0x2001, 0x2002, 0x2003, 0x2004,
   0x2005, 0x2006, 0x2007, 0x2008, 0x2009, 0x200A, 0x2028, 0x2029, 0x202F, 0x205F, 0x3000]

theorem toNat_mem_blanks {c : Char} (h : isBlank c = true) : c.toNat ∈ blanks := by
  simp only [isBlank, Bool.or_eq_true, Bool.and_eq_true, decide_eq_true_eq, beq_iff_eq] at h
  simp only [blanks, List.mem_cons, List.not_mem_nil, or_false]
  omega

theorem isPlain_of_isBlank {c : Char} (h : isBlank c = true) : isPlain c = false := by
  have hall : ∀ n ∈ blanks, isPlain (Char.ofNat n) = false := by decide +kernel
  rw [← Char.ofNat_toNat c]
  exact hall _ (toNat_mem_blanks h)

theorem isBlank_of_isPlain {c : Char} (h : isPlain c = true) : isBlank c = false := by
  rw [← Bool.not_eq_true]
  intro hblank
  rw [isPlain_of_isBlank hblank] at h
  cases h

/-- A character that is not plain does not occur in plain text. -/
theorem beq_of_isPlain {c mark : Char} (h : isPlain c = true) (hmark : isPlain mark = false) :
    (c == mark) = false := by
  rw [beq_eq_false_iff_ne]
  rintro rfl
  rw [h] at hmark
  cases hmark

theorem mem_of_mem_intercalate {sep : List Char} {pieces : List (List Char)} {c : Char}
    (h : c ∈ sep.intercalate pieces) : c ∈ sep ∨ ∃ piece ∈ pieces, c ∈ piece := by
  induction pieces with
  | nil => cases h
  | cons piece rest ih =>
    cases rest with
    | nil =>
      rw [List.intercalate_singleton] at h
      exact .inr ⟨piece, List.mem_cons_self, h⟩
    | cons next rest =>
      rw [List.intercalate_cons_cons] at h
      rcases List.mem_append.mp h with h | h
      · rcases List.mem_append.mp h with h | h
        · exact .inr ⟨piece, List.mem_cons_self, h⟩
        · exact .inl h
      · obtain hsep | ⟨other, hother, hc⟩ := ih h
        · exact .inl hsep
        · exact .inr ⟨other, List.mem_cons_of_mem _ hother, hc⟩

theorem identifier_plain (name : List Char) : ∀ c ∈ identifier name, isPlain c = true := by
  intro c hc
  rw [isPlain, Bool.or_eq_true]
  obtain hsep | ⟨piece, hpiece, hmem⟩ := mem_of_mem_intercalate hc
  · obtain rfl := List.mem_singleton.mp hsep
    exact .inr rfl
  · have hword := (mem_of_mem_splitOnP (List.mem_filter.mp hpiece).1 hmem).2
    exact .inl (by simpa using hword)

end Text

end Compendium
