/-!
# Functions that go item by item

A function on trees comes with a companion on lists of trees, which goes through the list item by
item. What follows for lists that are put together is proved here for all such companions.
-/

namespace Compendium

variable {α β γ : Type}

/-- A companion that gives one result for each item. -/
theorem eq_map_of_cons {all : List α → List β} {one : α → β} (hnil : all [] = [])
    (hcons : ∀ a l, all (a :: l) = one a :: all l) : all = List.map one := by
  funext l
  induction l with
  | nil => exact hnil
  | cons a l ih => rw [hcons, ih, List.map_cons]

section Lists

variable {all : List α → List β} {one : α → List β}

/-- A companion that gives a list of results for each item. -/
theorem eq_flatMap_of_cons (l : List α) (hnil : all [] = [])
    (hcons : ∀ a l, all (a :: l) = one a ++ all l) : all l = l.flatMap one := by
  induction l with
  | nil => exact hnil
  | cons a l ih => rw [hcons, ih, List.flatMap_cons]

theorem append_of_cons (l m : List α) (hnil : all [] = [])
    (hcons : ∀ a l, all (a :: l) = one a ++ all l) :
    all (l ++ m) = all l ++ all m := by
  simp only [eq_flatMap_of_cons _ hnil hcons, List.flatMap_append]

theorem flatMap_of_cons (l : List γ) (f : γ → List α) (hnil : all [] = [])
    (hcons : ∀ a l, all (a :: l) = one a ++ all l) :
    all (l.flatMap f) = l.flatMap fun c => all (f c) := by
  simp only [eq_flatMap_of_cons _ hnil hcons, List.flatMap_assoc]

end Lists

section Predicates

variable {All : List α → Prop} {One : α → Prop}

/-- A companion that asks for the same of every item. -/
theorem iff_forall_of_cons (l : List α) (hnil : All [])
    (hcons : ∀ a l, All (a :: l) ↔ One a ∧ All l) :
    All l ↔ ∀ a ∈ l, One a := by
  induction l with
  | nil => exact iff_of_true hnil (List.forall_mem_nil _)
  | cons a l ih => rw [hcons, ih, List.forall_mem_cons]

theorem and_of_append (l m : List α) (hnil : All [])
    (hcons : ∀ a l, All (a :: l) ↔ One a ∧ All l) :
    All (l ++ m) ↔ All l ∧ All m := by
  simp only [iff_forall_of_cons _ hnil hcons, List.forall_mem_append]

theorem all_flatMap {l : List γ} {f : γ → List α} (h : ∀ c ∈ l, All (f c))
    (hnil : All [])
    (hcons : ∀ a l, All (a :: l) ↔ One a ∧ All l) : All (l.flatMap f) := by
  simp only [iff_forall_of_cons _ hnil hcons, List.forall_mem_flatMap] at h ⊢
  exact h

end Predicates

end Compendium
