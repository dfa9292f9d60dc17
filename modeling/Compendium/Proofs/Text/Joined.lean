/-!
# Two texts joined by a separator

A text `a ++ sep ++ b` does not tell where it was joined if `a` and `b` may hold the separator. Two
pairs that give the same text are equal, or one of them is cut at a later separator than the other.
A front without separators can be told, and so can a back.
-/

namespace Compendium.Text

/-- The second pair is the first one cut at a later separator: its front goes on with a part of the
first pair's back. -/
def CutLater (sep a b a' b' : String) : Prop :=
  ∃ part, a' = a ++ sep ++ part ∧ b = part ++ sep ++ b'

theorem append_cons_eq_iff {α : Type} {mark : α} {a b a' b' : List α} :
    a ++ mark :: b = a' ++ mark :: b' ↔
      (a = a' ∧ b = b') ∨ (∃ part, a' = a ++ mark :: part ∧ b = part ++ mark :: b') ∨
        ∃ part, a = a' ++ mark :: part ∧ b' = part ++ mark :: b := by
  rw [List.append_eq_append_iff]
  simp only [List.cons_eq_append_iff]
  constructor
  · rintro (⟨between, ha, ⟨rfl, hb⟩ | ⟨part, rfl, hb⟩⟩ | ⟨between, ha, ⟨rfl, hb⟩ | ⟨part, rfl, hb⟩⟩)
    · exact .inl ⟨by simpa using ha.symm, by simpa using hb.symm⟩
    · exact .inr (.inl ⟨part, ha, hb⟩)
    · exact .inl ⟨by simpa using ha, by simpa using hb⟩
    · exact .inr (.inr ⟨part, ha, hb⟩)
  · rintro (⟨rfl, rfl⟩ | ⟨part, ha, hb⟩ | ⟨part, ha, hb⟩)
    · exact .inl ⟨[], by simp, .inl ⟨rfl, rfl⟩⟩
    · exact .inl ⟨mark :: part, ha, .inr ⟨part, rfl, hb⟩⟩
    · exact .inr ⟨mark :: part, ha, .inr ⟨part, rfl, hb⟩⟩

/-- Two marks tell where a text was cut, if it was cut at the same place before each of them. -/
theorem front_eq_of_two_marks {α : Type} {mark other : α} (hne : mark ≠ other)
    {a b c a' b' c' : List α}
    (hmark : a ++ mark :: b = a' ++ mark :: b') (hother : a ++ other :: c = a' ++ other :: c') :
    a = a' := by
  obtain ⟨ha, -⟩ | ⟨part, rfl, -⟩ | ⟨part, rfl, -⟩ := append_cons_eq_iff.mp hmark
  · exact ha
  · rw [List.append_assoc, List.append_cancel_left_eq, List.cons_append, List.cons.injEq] at hother
    exact absurd hother.1.symm hne
  · rw [List.append_assoc, List.append_cancel_left_eq, List.cons_append, List.cons.injEq] at hother
    exact absurd hother.1 hne

section Separator

variable {sep : String} {mark : Char} (hsep : sep.toList = [mark])
variable {a b a' b' : String}

include hsep

theorem toList_joined (a b : String) : (a ++ sep ++ b).toList = a.toList ++ mark :: b.toList := by
  rw [String.toList_append, String.toList_append, hsep, List.append_assoc, List.singleton_append]

theorem cutLater_iff :
    CutLater sep a b a' b' ↔
      ∃ part, a'.toList = a.toList ++ mark :: part ∧ b.toList = part ++ mark :: b'.toList := by
  unfold CutLater
  simp only [← String.toList_inj, toList_joined hsep]
  constructor
  · rintro ⟨part, ha, hb⟩
    exact ⟨part.toList, ha, hb⟩
  · rintro ⟨part, ha, hb⟩
    refine ⟨String.ofList part, ?_, ?_⟩
    · rw [String.toList_ofList]
      exact ha
    · rw [String.toList_ofList]
      exact hb

/-- Two pairs give the same text exactly if they are equal or one is cut later than the other. -/
theorem joined_eq_iff :
    a ++ sep ++ b = a' ++ sep ++ b' ↔
      (a = a' ∧ b = b') ∨ CutLater sep a b a' b' ∨ CutLater sep a' b' a b := by
  rw [cutLater_iff hsep, cutLater_iff hsep, ← String.toList_inj, toList_joined hsep,
    toList_joined hsep, append_cons_eq_iff, String.toList_inj, String.toList_inj]

theorem CutLater.mem_front (h : CutLater sep a b a' b') : mark ∈ a'.toList := by
  obtain ⟨part, ha, -⟩ := (cutLater_iff hsep).mp h
  simp [ha]

theorem CutLater.mem_back (h : CutLater sep a b a' b') : mark ∈ b.toList := by
  obtain ⟨part, -, hb⟩ := (cutLater_iff hsep).mp h
  simp [hb]

/-- A later cut has a longer front. -/
theorem CutLater.ne (h : CutLater sep a b a' b') : a ≠ a' := by
  obtain ⟨part, ha, -⟩ := (cutLater_iff hsep).mp h
  rintro rfl
  simp at ha

/-- Fronts without separators can be told. -/
theorem joined_inj (ha : mark ∉ a.toList) (ha' : mark ∉ a'.toList) :
    a ++ sep ++ b = a' ++ sep ++ b' ↔ a = a' ∧ b = b' := by
  rw [joined_eq_iff hsep]
  refine ⟨?_, .inl⟩
  rintro (h | h | h)
  · exact h
  · exact absurd (h.mem_front hsep) ha'
  · exact absurd (h.mem_front hsep) ha

/-- Backs without separators can be told. -/
theorem joined_inj_of_backs (hb : mark ∉ b.toList) (hb' : mark ∉ b'.toList) :
    a ++ sep ++ b = a' ++ sep ++ b' ↔ a = a' ∧ b = b' := by
  rw [joined_eq_iff hsep]
  refine ⟨?_, .inl⟩
  rintro (h | h | h)
  · exact h
  · exact absurd (h.mem_back hsep) hb
  · exact absurd (h.mem_back hsep) hb'

end Separator

end Compendium.Text
