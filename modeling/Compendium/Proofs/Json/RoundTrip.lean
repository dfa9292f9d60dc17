import Compendium.Proofs.Json.Locality
import Mathlib.Data.List.Forall2

/-!
# Reading what was written

`Inverse` says that a reader takes back every value that the writer writes, in every manner. Readers
of bounded numbers only take back what they can read at all; `Exact` is the weaker law for those.
Objects are read by looking their fields up: the `simp` lemmas here compute what a lookup finds
among the written fields.
-/

namespace Compendium.Json

/-! ## Looking up written fields -/

@[simp] theorem get?_field (name key : String) (j : Json) :
    Dict.get? (field name j) key = if name = key then some j else none := by
  simp [field, Dict.get?]

@[simp] theorem get?_fieldIf (name key : String) (j : Option Json) :
    Dict.get? (fieldIf name j) key = if name = key then j else none := by
  cases j <;> simp [fieldIf, Dict.get?]

@[simp] theorem tagged?_variant (tags : List String) (m : Manner) (tag : String)
    (content : Option Json) :
    tagged? tags m (variant tag content) = some ⟨tag, content, .lenient⟩ := by
  cases content <;> rfl

variable {α : Type}

/-- Reads an optional field, given what stands in its place. -/
def optionalValue (read : Decoder α) (m : Manner) : Option Json → Option (Option α)
  | none => some none
  | some j => Decode.optional read m j

@[simp] theorem optionalValue_none (read : Decoder α) (m : Manner) :
    optionalValue read m none = some none :=
  rfl

@[simp] theorem optionalValue_map {β : Type} (read : Decoder α) (m : Manner) (encode : β → Json)
    (b : Option β) :
    optionalValue read m (b.map encode) = Decode.optional read m (ofOption encode b) := by
  cases b <;> rfl

section Named

variable (m : Manner) (fields : List (String × Json)) (i : Nat) (name : String) (read : Decoder α)

@[simp] theorem required_named :
    (Fields.named m fields).required i name read = (Dict.get? fields name).bind (read m) :=
  rfl

@[simp] theorem defaulted_named (missing : α) :
    (Fields.named m fields).defaulted i name read missing =
      (Dict.get? fields name).elim (some missing) (read m) := by
  simp only [Fields.defaulted, Fields.get?, Fields.manner]
  cases Dict.get? fields name <;> rfl

@[simp] theorem optional_named :
    (Fields.named m fields).optional i name read =
      optionalValue read m (Dict.get? fields name) := by
  simp only [Fields.optional, Fields.defaulted, Fields.get?, Fields.manner]
  cases Dict.get? fields name <;> rfl

@[simp] theorem fields?_obj (arity : Nat) :
    fields? arity m (.obj fields) = some (.named m fields) :=
  rfl

@[simp] theorem namedFields?_obj : namedFields? m (.obj fields) = some (.named m fields) :=
  rfl

end Named

/-! ## Values that are taken back -/

/-- The reader takes back what the writer writes. -/
abbrev Inverse (read : Decoder α) (encode : α → Json) : Prop :=
  ∀ m a, read m (encode a) = some a

/-- The reader takes back what the writer writes of the values it reads. -/
abbrev Exact (read : Decoder α) (encode : α → Json) : Prop :=
  ∀ m j a, read m j = some a → ∀ m', read m' (encode a) = some a

variable {read : Decoder α} {encode : α → Json}

theorem Inverse.exact (h : Inverse read encode) : Exact read encode :=
  fun _ _ a _ m' => h m' a

@[simp] theorem inverse_string : Inverse Decode.string .str :=
  fun _ _ => rfl

@[simp] theorem inverse_boolean : Inverse Decode.boolean .bool :=
  fun _ _ => rfl

@[simp] theorem inverse_number : Inverse Decode.number .float :=
  fun _ _ => rfl

@[simp] theorem read_any (m : Manner) (j : Json) : Decode.any m j = some j :=
  rfl

theorem inverse_stringPair : Inverse Decode.stringPair (fun p => .arr [.str p.1, .str p.2]) :=
  fun _ _ => rfl

/-- A bounded number was within its bound when it was read. -/
theorem exact_natUpTo (bound : Nat) : Exact (Decode.natUpTo bound) nat := by
  intro m j n h m'
  cases j with
  | int k =>
    simp only [Decode.natUpTo, Bool.and_eq_true, decide_eq_true_eq, Option.ite_none_right_eq_some,
      Option.some.injEq] at h
    obtain ⟨⟨hlow, hhigh⟩, rfl⟩ := h
    simp only [nat, Decode.natUpTo, Bool.and_eq_true, decide_eq_true_eq]
    rw [if_pos (by omega)]
    congr 1
  | _ => cases h

theorem exact_word32 : Exact Decode.word32 nat :=
  exact_natUpTo _

theorem inverse_vocabulary {v : Vocabulary α}
    (h : ∀ a, v.find? (v.name a) = some a) :
    Inverse v.decode v.encode :=
  fun _ a => h a

/-! ## Lists and optional values -/

theorem items_eq_some_iff {read : Json → Option α} {js : List Json} {l : List α} :
    Decode.items read js = some l ↔ List.Forall₂ (fun j a => read j = some a) js l := by
  induction js generalizing l with
  | nil => simp [Decode.items, eq_comm]
  | cons j rest ih =>
    rw [Decode.items]
    cases hj : read j with
    | none =>
      constructor
      · intro h
        cases h
      · rintro (_ | ⟨hread, _⟩)
        rw [hj] at hread
        cases hread
    | some a =>
      simp only [Option.map_eq_some_iff, ih]
      constructor
      · rintro ⟨l', hrest, rfl⟩
        exact .cons hj hrest
      · rintro (_ | ⟨hread, hrest⟩)
        rw [hj] at hread
        cases hread
        exact ⟨_, hrest, rfl⟩

theorem list_eq_some {m : Manner} {j : Json} {l : List α} (h : Decode.list read m j = some l) :
    ∃ js, j = .arr js ∧ List.Forall₂ (fun j a => read m j = some a) js l := by
  cases j with
  | arr js => exact ⟨js, rfl, items_eq_some_iff.mp h⟩
  | _ => cases h

/-- A list is taken back item by item. -/
theorem list_written {m : Manner} {l l' : List α}
    (h : List.Forall₂ (fun a b => read m (encode a) = some b) l l') :
    Decode.list read m (.arr (l.map encode)) = some l' := by
  rw [Decode.list, items_eq_some_iff]
  induction h with
  | nil => exact .nil
  | cons hread _ ih => exact .cons hread ih

theorem optional_of_ne_null {m : Manner} {j : Json} (h : j ≠ .null) :
    Decode.optional read m j = (read m j).map some := by
  cases j <;> first | rfl | exact absurd rfl h

theorem Exact.list (h : Exact read encode) :
    Exact (Decode.list read) (fun l => .arr (l.map encode)) := by
  intro m j l hl m'
  obtain ⟨js, rfl, hjs⟩ := list_eq_some hl
  apply list_written
  clear hl
  induction hjs with
  | nil => exact .nil
  | cons hread _ ih => exact .cons (h m _ _ hread m') ih

theorem Inverse.list (h : Inverse read encode) :
    Inverse (Decode.list read) (fun l => .arr (l.map encode)) := by
  intro m l
  apply list_written
  induction l with
  | nil => exact .nil
  | cons a rest ih => exact .cons (h m a) ih

theorem Exact.optional (h : Exact read encode) (hnull : ∀ a, encode a ≠ .null) :
    Exact (Decode.optional read) (ofOption encode) := by
  intro m j a ha m'
  cases a with
  | none => rfl
  | some a =>
    rw [ofOption, optional_of_ne_null (hnull a)]
    have hread : read m j = some a := by
      cases j with
      | null => cases ha
      | _ => simpa [Decode.optional] using ha
    rw [h m j a hread m']
    rfl

theorem Inverse.optional (h : Inverse read encode) (hnull : ∀ a, encode a ≠ .null) :
    Inverse (Decode.optional read) (ofOption encode) := by
  intro m a
  cases a with
  | none => rfl
  | some a =>
    rw [ofOption, optional_of_ne_null (hnull a), h m a]
    rfl

@[simp] theorem inverse_optional_string : Inverse (Decode.optional Decode.string) (ofOption .str) :=
  inverse_string.optional (by simp)

@[simp] theorem inverse_optional_boolean :
    Inverse (Decode.optional Decode.boolean) (ofOption .bool) :=
  inverse_boolean.optional (by simp)

@[simp] theorem inverse_optional_number :
    Inverse (Decode.optional Decode.number) (ofOption .float) :=
  inverse_number.optional (by simp)

@[simp] theorem inverse_list_string :
    Inverse (Decode.list Decode.string) (fun l => .arr (l.map .str)) :=
  inverse_string.list

/-! ## Fields of records -/

theorem required_eq_some {f : Fields} {i : Nat} {name : String} {a : α}
    (h : f.required i name read = some a) :
      ∃ j, f.get? i name = some j ∧ read f.manner j = some a :=
  Option.bind_eq_some_iff.mp h

theorem defaulted_eq_some {f : Fields} {i : Nat} {name : String} {missing a : α}
    (h : f.defaulted i name read missing = some a) :
    a = missing ∨ ∃ j, f.get? i name = some j ∧ read f.manner j = some a := by
  unfold Fields.defaulted at h
  split at h
  · cases h
    exact .inl rfl
  · rename_i j hj
    exact .inr ⟨j, hj, h⟩

theorem Exact.required {f : Fields} {i : Nat} {name : String} {a : α} (hexact : Exact read encode)
    (h : f.required i name read = some a) (m : Manner) : read m (encode a) = some a := by
  obtain ⟨j, _, hread⟩ := required_eq_some h
  exact hexact _ j a hread m

theorem Exact.defaulted {f : Fields} {i : Nat} {name : String} {missing a : α}
    (hexact : Exact read encode) (h : f.defaulted i name read missing = some a)
    (hmissing : ∀ m, read m (encode missing) = some missing) (m : Manner) :
    read m (encode a) = some a := by
  rcases defaulted_eq_some h with rfl | ⟨j, _, hread⟩
  · exact hmissing m
  · exact hexact _ j a hread m

/-- A value of any kind in an optional field is not null, as null stands for no value. -/
theorem optionalValue_any {f : Fields} {i : Nat} {name : String} {a : Option Json}
    (h : f.optional i name Decode.any = some a) (m : Manner) :
    optionalValue Decode.any m a = some a := by
  rcases defaulted_eq_some h with rfl | ⟨j, _, hread⟩
  · rfl
  · cases j <;> cases hread <;> rfl

theorem Exact.optionalField {f : Fields} {i : Nat} {name : String} {a : Option α}
    (hexact : Exact read encode) (hnull : ∀ a, encode a ≠ .null)
    (h : f.optional i name read = some a) (m : Manner) :
    Decode.optional read m (ofOption encode a) = some a :=
  (hexact.optional hnull).defaulted h (fun _ => rfl) m

end Compendium.Json
