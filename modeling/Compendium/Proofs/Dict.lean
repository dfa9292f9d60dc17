import Compendium.Dict

/-!
# Entries of dictionaries

What `get?`, `insert` and `erase` do to the entries of a dictionary. Nothing here needs the entries
to be in the order of their keys.
-/

namespace Compendium.Dict

variable {α : Type} {d : Dict α} {key k : String} {a v : α}

theorem mem_of_get? (h : d.get? key = some a) : (key, a) ∈ d := by
  induction d with
  | nil => cases h
  | cons first rest ih =>
    rw [get?] at h
    split at h
    · rename_i hkey
      cases h
      subst hkey
      exact List.mem_cons_self
    · exact List.mem_cons_of_mem _ (ih h)

@[simp] theorem get?_append (a b : Dict α) (key : String) :
    get? (a ++ b) key = (get? a key).or (get? b key) := by
  induction a with
  | nil => simp [get?]
  | cons first rest ih =>
    obtain ⟨k, v⟩ := first
    by_cases hk : k = key <;> simp [get?, hk, ih]

theorem get?_insert (d : Dict α) (key k : String) (a : α) :
    (d.insert key a).get? k = if k = key then some a else d.get? k := by
  induction d with
  | nil => simp [insert, get?, eq_comm]
  | cons first rest ih =>
    obtain ⟨k', v⟩ := first
    unfold insert
    split
    next hlt =>
      have hne : k' ≠ key := by
        rintro rfl
        exact String.lt_irrefl _ hlt
      by_cases hk : k' = k
      · subst hk
        simp [get?, hne]
      · simp [get?, hk, ih]
    next =>
      split
      next heq =>
        subst heq
        by_cases hk : k' = k
        · subst hk
          simp [get?]
        · simp [get?, hk, Ne.symm hk]
      next => simp [get?, eq_comm]

theorem mem_insert (h : (k, a) ∈ d.insert key v) : (k, a) = (key, v) ∨ (k, a) ∈ d := by
  induction d with
  | nil => exact .inl (List.mem_singleton.mp h)
  | cons first rest ih =>
    unfold insert at h
    split at h
    · rcases List.mem_cons.mp h with hfirst | hrest
      · exact .inr (hfirst ▸ List.mem_cons_self)
      · exact (ih hrest).imp_right (List.mem_cons_of_mem _)
    · split at h
      · exact (List.mem_cons.mp h).imp_right (List.mem_cons_of_mem _)
      · exact List.mem_cons.mp h

theorem mem_erase (h : (k, a) ∈ d.erase key) : (k, a) ∈ d := by
  induction d with
  | nil => cases h
  | cons first rest ih =>
    unfold erase at h
    split at h
    · exact List.mem_cons_of_mem _ h
    · rcases List.mem_cons.mp h with hfirst | hrest
      · exact hfirst ▸ List.mem_cons_self
      · exact List.mem_cons_of_mem _ (ih hrest)

theorem exists_of_mem_keys (h : k ∈ d.keys) : ∃ a, (k, a) ∈ d := by
  obtain ⟨⟨k', a⟩, hmem, rfl⟩ := List.mem_map.mp h
  exact ⟨a, hmem⟩

end Compendium.Dict
