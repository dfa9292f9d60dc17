import Compendium.Proofs.Dict

/-!
# Dictionaries in order

`insert` and `erase` keep the keys in ascending order, each once. A dictionary in order is
determined by the values at its keys, so that it can be made again from its entries in any order.
-/

namespace Compendium.Dict

variable {α : Type} {d e : Dict α} {key k : String} {a v : α}

/-- The keys are in ascending order, each once. -/
def Ordered (d : Dict α) : Prop :=
  d.keys.Pairwise (· < ·)

theorem ordered_nil : Ordered ([] : Dict α) :=
  .nil

theorem ordered_cons : Ordered ((k, a) :: d) ↔ (∀ other ∈ d.keys, k < other) ∧ Ordered d :=
  List.pairwise_cons

theorem mem_keys_of_mem (h : (k, a) ∈ d) : k ∈ d.keys :=
  List.mem_map.mpr ⟨(k, a), h, rfl⟩

theorem mem_keys_insert : k ∈ (d.insert key v).keys ↔ k = key ∨ k ∈ d.keys := by
  induction d with
  | nil => simp [insert, keys]
  | cons first rest ih =>
    obtain ⟨k', v'⟩ := first
    simp only [keys] at ih ⊢
    unfold insert
    split
    · simp only [List.map_cons, List.mem_cons, ih]
      grind
    · split
      · simp only [List.map_cons, List.mem_cons]
        grind
      · simp only [List.map_cons, List.mem_cons]

theorem Ordered.insert (h : Ordered d) (key : String) (v : α) : Ordered (d.insert key v) := by
  induction d with
  | nil => exact ordered_cons.mpr ⟨by simp [keys], ordered_nil⟩
  | cons first rest ih =>
    obtain ⟨k', v'⟩ := first
    obtain ⟨hfirst, hrest⟩ := ordered_cons.mp h
    unfold Dict.insert
    split
    next hlt =>
      refine ordered_cons.mpr ⟨fun other hother => ?_, ih hrest⟩
      rcases mem_keys_insert.mp hother with rfl | hother
      · exact hlt
      · exact hfirst other hother
    next hnot =>
      split
      next heq => exact ordered_cons.mpr ⟨heq ▸ hfirst, hrest⟩
      next hne =>
        have hlt : key < k' := by grind
        refine ordered_cons.mpr ⟨fun other hother => ?_, h⟩
        rcases List.mem_cons.mp hother with rfl | hother
        · exact hlt
        · exact String.lt_trans hlt (hfirst other hother)

theorem Ordered.erase (h : Ordered d) (key : String) : Ordered (d.erase key) := by
  induction d with
  | nil => exact ordered_nil
  | cons first rest ih =>
    obtain ⟨k', v'⟩ := first
    obtain ⟨hfirst, hrest⟩ := ordered_cons.mp h
    unfold Dict.erase
    split
    · exact hrest
    · refine ordered_cons.mpr ⟨fun other hother => ?_, ih hrest⟩
      obtain ⟨a, hmem⟩ := exists_of_mem_keys hother
      exact hfirst other (mem_keys_of_mem (mem_erase hmem))

theorem Ordered.nodup (h : Ordered d) : d.keys.Nodup := by
  refine List.Pairwise.imp ?_ h
  rintro k other hlt rfl
  exact String.lt_irrefl _ hlt

theorem Ordered.nodup_entries (h : Ordered d) : d.Nodup := by
  refine (List.pairwise_map.mp h.nodup).imp ?_
  rintro x y hne rfl
  exact hne rfl

/-! ## Values at keys -/

theorem mem_keys_iff : k ∈ d.keys ↔ (d.get? k).isSome = true := by
  induction d with
  | nil => simp [keys, get?]
  | cons first rest ih =>
    obtain ⟨k', v'⟩ := first
    simp only [keys] at ih ⊢
    by_cases hk : k' = k
    · simp [get?, hk]
    · simp [get?, hk, Ne.symm hk, ih]

/-- Where keys do not repeat, the entries are the values at the keys. -/
theorem get?_eq_some_iff (h : d.keys.Nodup) : d.get? k = some a ↔ (k, a) ∈ d := by
  refine ⟨mem_of_get?, fun hmem => ?_⟩
  induction d with
  | nil => cases hmem
  | cons first rest ih =>
    obtain ⟨k', v'⟩ := first
    obtain ⟨hfirst, hrest⟩ := List.nodup_cons.mp h
    rcases List.mem_cons.mp hmem with heq | hmem
    · cases heq
      simp [get?]
    · have hne : k' ≠ k := by
        rintro rfl
        exact hfirst (mem_keys_of_mem hmem)
      rw [get?, if_neg hne]
      exact ih hrest hmem

theorem Ordered.get?_erase (h : Ordered d) (key k : String) :
    (d.erase key).get? k = if k = key then none else d.get? k := by
  induction d with
  | nil => simp [Dict.erase, get?]
  | cons first rest ih =>
    obtain ⟨k', v'⟩ := first
    obtain ⟨hfirst, hrest⟩ := ordered_cons.mp h
    unfold Dict.erase
    split
    next heq =>
      subst heq
      by_cases hk : k = k'
      · subst hk
        have hnone : get? rest k = none := by
          rw [← Option.not_isSome_iff_eq_none, ← mem_keys_iff]
          exact fun hmem => String.lt_irrefl _ (hfirst k hmem)
        rw [hnone, if_pos rfl]
      · rw [if_neg hk, get?, if_neg (Ne.symm hk)]
    next hne =>
      by_cases hk : k' = k
      · subst hk
        simp [get?, hne]
      · simp only [get?, hk, if_false, ih hrest]

/-- Dictionaries in order that hold the same values at all keys are equal. -/
theorem Ordered.ext (hd : Ordered d) (he : Ordered e) (h : ∀ k, d.get? k = e.get? k) : d = e := by
  have hperm : d.Perm e := by
    apply (List.perm_ext_iff_of_nodup hd.nodup_entries he.nodup_entries).mpr
    rintro ⟨k, a⟩
    rw [← get?_eq_some_iff hd.nodup, ← get?_eq_some_iff he.nodup, h k]
  have hd' : d.Pairwise fun x y => x.1 < y.1 := List.pairwise_map.mp hd
  have he' : e.Pairwise fun x y => x.1 < y.1 := List.pairwise_map.mp he
  refine List.Perm.eq_of_pairwise ?_ hd' he' hperm
  intro x y _ _ hxy hyx
  exact absurd hyx (String.lt_asymm hxy)

/-! ## Entries in any order -/

section OfList

variable {entries : List (String × α)}

theorem ordered_foldl (h : Ordered d) :
    Ordered (entries.foldl (fun d entry => d.insert entry.1 entry.2) d) := by
  induction entries generalizing d with
  | nil => exact h
  | cons entry rest ih => exact ih (h.insert _ _)

theorem ordered_ofList (entries : List (String × α)) : Ordered (ofList entries) :=
  ordered_foldl ordered_nil

/-- The last entry of a key counts. -/
theorem get?_foldl (d : Dict α) (k : String) :
    (entries.foldl (fun d entry => d.insert entry.1 entry.2) d).get? k =
      (get? entries.reverse k).or (d.get? k) := by
  induction entries generalizing d with
  | nil => rfl
  | cons entry rest ih =>
    obtain ⟨key, v⟩ := entry
    rw [List.foldl_cons, ih, List.reverse_cons, get?_append, Option.or_assoc, get?_insert]
    by_cases hk : key = k
    · simp [get?, hk]
    · simp [get?, hk, Ne.symm hk]

/-- The dictionary of entries holds the last value of each key. -/
theorem get?_ofList (entries : List (String × α)) (k : String) :
    (ofList entries).get? k = get? entries.reverse k := by
  rw [ofList, get?_foldl]
  exact Option.or_none

/-- The entries of a dictionary in order give it back, whatever order they are in. -/
theorem ofList_of_perm (hd : Ordered d) (h : entries.Perm d) : ofList entries = d := by
  apply (ordered_ofList entries).ext hd
  intro k
  rw [get?_ofList]
  have hperm : entries.reverse.Perm d := (List.reverse_perm entries).trans h
  have hnodup : (keys entries.reverse).Nodup := (hperm.map _).nodup_iff.mpr hd.nodup
  apply Option.ext
  intro a
  rw [get?_eq_some_iff hnodup, get?_eq_some_iff hd.nodup, hperm.mem_iff]

end OfList

end Compendium.Dict
