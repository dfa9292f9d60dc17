import Compendium.Json.Decoder
import Compendium.Proofs.Dict

/-!
# What a decoder looks at

The fields of a record and the content of a variant are nested less deep than the value they stand
in. So two readers of a record agree on a value as soon as the readers of its fields agree on less
deeply nested values. A pointer leads from a value to one inside it, by the names of fields and the
positions of items.
-/

namespace Compendium.Json

/-- A step into a value. -/
inductive Step where
  | field (name : String)
  | item (index : Nat)
  deriving DecidableEq, Repr

/-- Steps into a value, the outermost first. -/
abbrev Pointer := List Step

/-- The value that a step leads to. -/
def child? (j : Json) (s : Step) : Option Json :=
  match j, s with
  | .obj fields, .field name => Dict.get? fields name
  | .arr items, .item index => items[index]?
  | _, _ => none

/-- The value that a pointer leads to. -/
def at? (j : Json) : Pointer → Option Json
  | [] => some j
  | s :: rest => (j.child? s).bind fun part => part.at? rest

/-- The step leads to the field with a position and a name. -/
def Step.Selects (position : Nat) (name : String) (s : Step) : Prop :=
  s = .field name ∨ s = .item position

theorem depth_le_depthList {j : Json} {items : List Json} (h : j ∈ items) :
    j.depth ≤ depthList items := by
  induction items with
  | nil => cases h
  | cons first rest ih =>
    rw [depthList]
    rcases List.mem_cons.mp h with rfl | hrest
    · exact Nat.le_max_left _ _
    · exact Nat.le_trans (ih hrest) (Nat.le_max_right _ _)

theorem depth_le_depthFields {name : String} {j : Json} {fields : List (String × Json)}
    (h : (name, j) ∈ fields) : j.depth ≤ depthFields fields := by
  induction fields with
  | nil => cases h
  | cons first rest ih =>
    rw [depthFields]
    rcases List.mem_cons.mp h with rfl | hrest
    · exact Nat.le_max_left _ _
    · exact Nat.le_trans (ih hrest) (Nat.le_max_right _ _)

theorem depth_of_child? {j part : Json} {s : Step} (h : j.child? s = some part) :
    part.depth < j.depth := by
  unfold child? at h
  split at h
  · rw [depth]
    exact Nat.lt_succ_of_le (depth_le_depthFields (Dict.mem_of_get? h))
  · rw [depth]
    exact Nat.lt_succ_of_le (depth_le_depthList (List.mem_of_getElem? h))
  · cases h

/-! ## Fields and contents -/

/-- The fields stand in a value, where their positions or their names lead to. -/
def Fields.Of (whole : Json) (f : Fields) : Prop :=
  ∀ i name j, f.get? i name = some j → ∃ s : Step, s.Selects i name ∧ whole.child? s = some j

theorem Fields.Of.depth_lt {whole j : Json} {f : Fields} {i : Nat} {name : String} (hf : f.Of whole)
    (h : f.get? i name = some j) : j.depth < whole.depth := by
  obtain ⟨s, -, hs⟩ := hf i name j h
  exact depth_of_child? hs

theorem of_fields? {arity : Nat} {m : Manner} {j : Json} {f : Fields}
    (h : fields? arity m j = some f) : f.Of j := by
  unfold fields? at h
  split at h
  · cases h
    exact fun _ name _ hget => ⟨.field name, .inl rfl, hget⟩
  · split at h
    · cases h
      exact fun i _ _ hget => ⟨.item i, .inr rfl, hget⟩
    · cases h
  · cases h

theorem of_namedFields? {m : Manner} {j : Json} {f : Fields} (h : namedFields? m j = some f) :
    f.Of j := by
  unfold namedFields? at h
  split at h
  · cases h
    exact fun _ name _ hget => ⟨.field name, .inl rfl, hget⟩
  · cases h

/-- The content of a variant stands in a value. -/
def Tagged.Of (whole : Json) (t : Tagged) : Prop :=
  ∀ content, t.content = some content → ∃ s : Step, s.Selects 1 "content" ∧
    whole.child? s = some content

theorem Tagged.Of.depth_lt {whole j : Json} {t : Tagged} (ht : t.Of whole)
    (h : t.content = some j) :
    j.depth < whole.depth := by
  obtain ⟨s, -, hs⟩ := ht j h
  exact depth_of_child? hs

theorem of_tagged? {tags : List String} {m : Manner} {j : Json} {t : Tagged}
    (h : tagged? tags m j = some t) : t.Of j := by
  intro content hcontent
  unfold tagged? at h
  split at h
  · obtain ⟨tag, -, rfl⟩ := Option.map_eq_some_iff.mp h
    exact ⟨.field "content", .inl rfl, hcontent⟩
  · obtain ⟨tag, -, rfl⟩ := Option.map_eq_some_iff.mp h
    exact ⟨.item 1, .inr rfl, hcontent⟩
  · cases h

/-! ## Agreement below a depth -/

variable {α : Type}

/-- Two readers agree on the values that are nested less deep than a bound. -/
def AgreeBelow (d : Nat) (read read' : Decoder α) : Prop :=
  ∀ m j, j.depth < d → read m j = read' m j

variable {d : Nat} {read read' : Decoder α}

theorem AgreeBelow.list (h : AgreeBelow d read read') :
    AgreeBelow d (Decode.list read) (Decode.list read') := by
  intro m j hj
  cases j with
  | arr items =>
    simp only [Decode.list]
    have hall : ∀ j ∈ items, j.depth < d := fun j hmem => by
      rw [depth] at hj
      exact Nat.lt_of_le_of_lt (depth_le_depthList hmem) (by omega)
    clear hj
    induction items with
    | nil => rfl
    | cons first rest ih =>
      simp only [Decode.items, h m first (hall first List.mem_cons_self),
        ih fun j hmem => hall j (List.mem_cons_of_mem _ hmem)]
  | _ => rfl

theorem AgreeBelow.optional (h : AgreeBelow d read read') :
    AgreeBelow d (Decode.optional read) (Decode.optional read') := by
  intro m j hj
  cases j <;> simp [Decode.optional, h m _ hj]

section Fields

variable {whole : Json} {f : Fields} (hf : f.Of whole) (hd : whole.depth ≤ d)
  (h : AgreeBelow d read read')

include hf hd h

theorem AgreeBelow.defaultedField (i : Nat) (name : String) (missing : α) :
    f.defaulted i name read missing = f.defaulted i name read' missing := by
  unfold Fields.defaulted
  split
  · rfl
  · rename_i j hj
    exact h f.manner j (Nat.lt_of_lt_of_le (hf.depth_lt hj) hd)

theorem AgreeBelow.requiredField (i : Nat) (name : String) :
    f.required i name read = f.required i name read' := by
  unfold Fields.required
  cases hj : f.get? i name with
  | none => rfl
  | some j => exact h f.manner j (Nat.lt_of_lt_of_le (hf.depth_lt hj) hd)

theorem AgreeBelow.optionalField (i : Nat) (name : String) :
    f.optional i name read = f.optional i name read' :=
  h.optional.defaultedField hf hd i name none

end Fields

theorem AgreeBelow.payload {whole : Json} {t : Tagged} (ht : t.Of whole) (hd : whole.depth ≤ d)
    (h : AgreeBelow d read read') : t.payload read = t.payload read' := by
  unfold Tagged.payload
  cases hc : t.content with
  | none => rfl
  | some j => exact h t.manner j (Nat.lt_of_lt_of_le (ht.depth_lt hc) hd)

theorem AgreeBelow.pred (h : AgreeBelow (d + 1) read read') : AgreeBelow d read read' :=
  fun m j hj => h m j (by omega)

section Record

variable {k k' : Fields → Option α} (h : ∀ whole f, f.Of whole → whole.depth ≤ d → k f = k' f)

include h

/-- Readers of a record agree below a depth if they agree on fields nested less deep. -/
theorem agreeBelow_next {fields : Decoder Fields} (hof : ∀ {m j f}, fields m j = some f → f.Of j) :
    AgreeBelow (d + 1) (fun m j => fields m j >>= k) (fun m j => fields m j >>= k') := by
  intro m j hj
  simp only
  cases hf : fields m j with
  | none => rfl
  | some f => exact h j f (hof hf) (by omega)

theorem agreeBelow_record {arity : Nat} :
    AgreeBelow d (fun m j => fields? arity m j >>= k) (fun m j => fields? arity m j >>= k') :=
  (agreeBelow_next h of_fields?).pred

theorem agreeBelow_named :
    AgreeBelow d (fun m j => namedFields? m j >>= k) (fun m j => namedFields? m j >>= k') :=
  (agreeBelow_next h of_namedFields?).pred

end Record

end Compendium.Json
