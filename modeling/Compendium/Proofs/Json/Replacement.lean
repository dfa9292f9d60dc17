import Compendium.Proofs.Json.RoundTrip

/-!
# Replacing a value inside another one

`replaceAt` puts another value at the end of a pointer and leaves all others as they are. A record
reader that looks at a field only to read its value (`Reads`) reads the record with another value in
the field as the same record with another part.
-/

namespace Compendium.Json

def setField (name : String) (new : Json) : List (String × Json) → List (String × Json)
  | [] => []
  | (key, j) :: rest =>
    if key = name then (key, new) :: rest else (key, j) :: setField name new rest

/-- The value with another one where a step leads to. -/
def setChild (j : Json) (s : Step) (new : Json) : Json :=
  match j, s with
  | .obj fields, .field name => .obj (setField name new fields)
  | .arr items, .item index => .arr (items.set index new)
  | _, _ => j

/-- The value with another one where a pointer leads to. -/
def replaceAt (j : Json) (new : Json) : Pointer → Json
  | [] => new
  | s :: rest =>
    match j.child? s with
    | some part => j.setChild s (part.replaceAt new rest)
    | none => j

theorem get?_setField (name key : String) (new : Json) (fields : List (String × Json)) :
    Dict.get? (setField name new fields) key =
      if key = name then (Dict.get? fields name).map fun _ => new else Dict.get? fields key := by
  induction fields with
  | nil => simp [setField, Dict.get?]
  | cons first rest ih =>
    obtain ⟨k, j⟩ := first
    rw [setField]
    by_cases hk : k = name
    · subst hk
      by_cases hkey : key = k
      · simp [Dict.get?, hkey]
      · simp [Dict.get?, hkey, Ne.symm hkey]
    · by_cases hkey : key = name
      · subst hkey
        simp [Dict.get?, hk, ih]
      · simp [Dict.get?, hk, ih, hkey]

theorem setField_self {name : String} {j : Json} {fields : List (String × Json)}
    (h : Dict.get? fields name = some j) : setField name j fields = fields := by
  induction fields with
  | nil => rfl
  | cons first rest ih =>
    obtain ⟨k, v⟩ := first
    rw [setField]
    rw [Dict.get?] at h
    split
    next hk =>
      rw [if_pos hk] at h
      cases h
      rfl
    next hk =>
      rw [if_neg hk] at h
      rw [ih h]

theorem setChild_self {j old : Json} {s : Step} (h : j.child? s = some old) :
    j.setChild s old = j := by
  unfold child? at h
  split at h
  · rw [setChild, setField_self h]
  · obtain ⟨hlt, rfl⟩ := List.getElem?_eq_some_iff.mp h
    rw [setChild, List.set_getElem_self]
  · cases h

/-- A value that is not null does not become null, unless it is replaced by null itself. -/
theorem replaceAt_ne_null {j new : Json} (pointer : Pointer) (hj : j ≠ .null) (hnew : new ≠ .null) :
    j.replaceAt new pointer ≠ .null := by
  cases pointer with
  | nil => exact hnew
  | cons s rest =>
    rw [replaceAt]
    split
    · unfold setChild
      split
      · nofun
      · nofun
      · exact hj
    · exact hj

/-! ## Records -/

namespace Fields

variable {α β : Type} {f : Fields} {i i' : Nat} {name name' : String} {old new : Json}

/-- The fields with another value in one of them. -/
def set (f : Fields) (position : Nat) (name : String) (new : Json) : Fields :=
  match f with
  | named m fields => .named m (setField name new fields)
  | listed m items => .listed m (items.set position new)

@[simp] theorem manner_set : (f.set i name new).manner = f.manner := by
  cases f <;> rfl

theorem get?_set_self (h : f.get? i name = some old) (new : Json) :
    (f.set i name new).get? i name = some new := by
  cases f with
  | named m fields =>
    rw [get?] at h
    simp [set, get?, get?_setField, h]
  | listed m items =>
    rw [get?] at h
    obtain ⟨hlt, -⟩ := List.getElem?_eq_some_iff.mp h
    simp [set, get?, hlt]

theorem get?_set_ne (hi : i' ≠ i) (hname : name' ≠ name) :
    (f.set i name new).get? i' name' = f.get? i' name' := by
  cases f with
  | named m fields => simp [set, get?, get?_setField, hname]
  | listed m items => simp [set, get?, Ne.symm hi]

/-- What is read from fields does not depend on the value of one of them. -/
def Ignores (position : Nat) (name : String) (read : Fields → Option α) : Prop :=
  ∀ f new, read (f.set position name new) = read f

section Others

variable (hi : i' ≠ i) (hname : name' ≠ name) (read : Decoder α)

include hi hname

theorem ignores_required : Ignores i name fun f => f.required i' name' read := by
  intro f new
  show (f.set i name new).required i' name' read = f.required i' name' read
  rw [required, required, get?_set_ne hi hname, manner_set]

theorem ignores_defaulted (missing : α) : Ignores i name fun f =>
    f.defaulted i' name' read missing := by
  intro f new
  show (f.set i name new).defaulted i' name' read missing = f.defaulted i' name' read missing
  rw [defaulted, defaulted, get?_set_ne hi hname, manner_set]

end Others

/-- Records are made of their fields so that one field is looked at only to read the part in it: a
part that is refused refuses the record, another part gives the record with that part put in, and a
field that is missing stands for a certain part or refuses the record. -/
structure Separates (make : Fields → Option α) (position : Nat) (name : String) (part : Decoder β)
    (get : α → β) (put : β → α → α) (absent : Option β) : Prop where
  refuses : ∀ {f old}, f.get? position name = some old → part f.manner old = none → make f = none
  replaces : ∀ {f old new b b'}, f.get? position name = some old → part f.manner old = some b →
    part f.manner new = some b' → make (f.set position name new) = (make f).map (put b')
  gets : ∀ {f old b}, f.get? position name = some old → part f.manner old = some b →
    (make f).map get = (make f).map fun _ => b
  missing : ∀ {f}, f.get? position name = none →
    (make f).map (fun a => some (get a)) = (make f).map fun _ => absent

/-- What is made of a part and the fields after it: the part stands in the record as it is, and the
fields are read without another look at it. -/
structure Follows (position : Nat) (name : String) (get : α → β) (put : β → α → α)
    (rest : β → Fields → Option α) : Prop where
  ignores : ∀ x, Ignores position name (rest x)
  puts : ∀ x x' f, (rest x f).map (put x') = rest x' f
  gets : ∀ x f, (rest x f).map get = (rest x f).map fun _ => x

section Chain

variable {γ : Type} {part : Decoder β} {get : α → β} {put : β → α → α} {absent : Option β}

theorem Follows.last {mk : β → α} (hput : ∀ x x', put x' (mk x) = mk x')
    (hget : ∀ x, get (mk x) = x) :
    Follows i name get put fun x _ => pure (mk x) where
  ignores _ _ _ := rfl
  puts x x' _ := congrArg some (hput x x')
  gets x _ := congrArg some (hget x)

theorem Follows.bind {read : Fields → Option γ} {rest : γ → β → Fields → Option α}
    (hread : Ignores i name read) (h : ∀ y, Follows i name get put (rest y)) :
    Follows i name get put fun x f => read f >>= fun y => rest y x f where
  ignores x f new := by
    show (read (f.set i name new) >>= fun y => rest y x (f.set i name new)) =
      read f >>= fun y => rest y x f
    rw [hread f new]
    cases read f with
    | none => rfl
    | some y => exact (h y).ignores x f new
  puts x x' f := by
    cases read f with
    | none => rfl
    | some y => exact (h y).puts x x' f
  gets x f := by
    cases read f with
    | none => rfl
    | some y => exact (h y).gets x f

theorem Separates.bind {read : Fields → Option γ} {rest : γ → Fields → Option α}
    (hread : Ignores i name read) (h : ∀ y, Separates (rest y) i name part get put absent) :
    Separates (fun f => read f >>= fun y => rest y f) i name part get put absent where
  refuses {f old} hold hnone := by
    cases read f with
    | none => rfl
    | some y => exact (h y).refuses hold hnone
  replaces {f old new b b'} hold hb hb' := by
    rw [hread f new]
    cases read f with
    | none => rfl
    | some y => exact (h y).replaces hold hb hb'
  gets {f old b} hold hb := by
    cases read f with
    | none => rfl
    | some y => exact (h y).gets hold hb
  missing {f} hnone := by
    cases read f with
    | none => rfl
    | some y => exact (h y).missing hnone

/-- A reader that reads the part if the field is there separates it, whatever it does if it is
not. -/
theorem Follows.separates {read : Fields → Option β} {rest : β → Fields → Option α}
    (h : Follows i name get put rest)
    (hpresent : ∀ {f old}, f.get? i name = some old → read f = part f.manner old)
    (habsent : ∀ {f}, f.get? i name = none → read f = absent) :
    Separates (fun f => read f >>= fun x => rest x f) i name part get put absent where
  refuses {f old} hold hnone := by
    rw [hpresent hold, hnone]
    rfl
  replaces {f old new b b'} hold hb hb' := by
    rw [hpresent hold, hpresent (get?_set_self hold new), manner_set, hb, hb']
    exact ((h.ignores b' f new).trans (h.puts b b' f).symm)
  gets {f old b} hold hb := by
    rw [hpresent hold, hb]
    exact h.gets b f
  missing {f} hnone := by
    rw [habsent hnone]
    cases absent with
    | none => rfl
    | some x =>
      have hget := congrArg (Option.map some) (h.gets x f)
      rw [Option.map_map, Option.map_map] at hget
      exact hget

theorem Separates.required {rest : β → Fields → Option α} (h : Follows i name get put rest) :
    Separates (fun f => f.required i name part >>= fun x => rest x f) i name part get put none :=
  h.separates (fun hold => by rw [Fields.required, hold, Option.bind_some])
    (fun hnone => by rw [Fields.required, hnone, Option.bind_none])

theorem Separates.defaulted {missing : β} {rest : β → Fields → Option α}
    (h : Follows i name get put rest) :
    Separates (fun f => f.defaulted i name part missing >>= fun x => rest x f) i name part get put
      (some missing) :=
  h.separates (fun hold => by rw [Fields.defaulted, hold])
    (fun hnone => by rw [Fields.defaulted, hnone])

end Chain

end Fields

/-- What reading a record says about one of its fields, as `Fields.Separates` does, with a step into
the value that leads to the field. -/
structure Reads {α β : Type} (read : Decoder α) (position : Nat) (name : String) (part : Decoder β)
    (get : α → β) (put : β → α → α) (absent : Option β) : Prop where
  refuses : ∀ {m j s old}, s.Selects position name → j.child? s = some old → part m old = none →
    read m j = none
  replaces : ∀ {m j s old new b b'}, s.Selects position name → j.child? s = some old →
    part m old = some b → part m new = some b' → read m (j.setChild s new) = (read m j).map (put b')
  gets : ∀ {m j s old a b}, s.Selects position name → j.child? s = some old → part m old = some b →
    read m j = some a → get a = b
  missing : ∀ {m j a}, (∀ s : Step, s.Selects position name → j.child? s = none) →
    read m j = some a → absent = some (get a)

theorem child?_cases {i : Nat} {name : String} {j old : Json} {s : Step} (hs : s.Selects i name)
    (hold : j.child? s = some old) (new : Json) :
    (∃ fields, j = .obj fields ∧ Dict.get? fields name = some old ∧
        j.setChild s new = .obj (setField name new fields)) ∨
      ∃ items, j = .arr items ∧ items[i]? = some old ∧
        j.setChild s new = .arr (items.set i new) := by
  unfold child? at hold
  split at hold
  next fields key =>
    obtain hs | hs := hs <;> cases hs
    exact .inl ⟨fields, rfl, hold, rfl⟩
  next items index =>
    obtain hs | hs := hs <;> cases hs
    exact .inr ⟨items, rfl, hold, rfl⟩
  next => cases hold

/-- A way to see the fields of a value. A step that leads to a field leads to its value, and changes
that field only. -/
structure Opens (open? : Manner → Json → Option Fields) : Prop where
  manner : ∀ {m j f}, open? m j = some f → f.manner = m
  present : ∀ {m j f s i name old}, open? m j = some f → s.Selects i name → j.child? s = some old →
    f.get? i name = some old
  absent : ∀ {m j f i name}, open? m j = some f →
    (∀ s : Step, s.Selects i name → j.child? s = none) → f.get? i name = none
  set : ∀ {m j s i name old new}, s.Selects i name → j.child? s = some old →
    open? m (j.setChild s new) = (open? m j).map (·.set i name new)

theorem opens_namedFields? : Opens namedFields? where
  manner {m j f} hf := by
    cases j <;> cases hf
    rfl
  present {m j f s i name old} hf hs hold := by
    obtain ⟨fields, rfl, hget, -⟩ | ⟨items, rfl, -, -⟩ := child?_cases hs hold old
    · cases hf
      exact hget
    · cases hf
  absent {m j f i name} hf hnone := by
    cases j <;> cases hf
    exact hnone (.field name) (.inl rfl)
  set {m j s i name old new} hs hold := by
    obtain ⟨fields, rfl, -, hset⟩ | ⟨items, rfl, -, hset⟩ := child?_cases hs hold new <;>
      rw [hset] <;> rfl

theorem opens_fields? (arity : Nat) : Opens (fields? arity) where
  manner {m j f} hf := by
    unfold fields? at hf
    split at hf
    · cases hf
      rfl
    · split at hf <;> cases hf
      rfl
    · cases hf
  present {m j f s i name old} hf hs hold := by
    obtain ⟨fields, rfl, hget, -⟩ | ⟨items, rfl, hget, -⟩ := child?_cases hs hold old
    · cases hf
      exact hget
    · rw [fields?] at hf
      split at hf <;> cases hf
      exact hget
  absent {m j f i name} hf hnone := by
    unfold fields? at hf
    split at hf
    · cases hf
      exact hnone (.field name) (.inl rfl)
    · split at hf <;> cases hf
      exact hnone (.item i) (.inr rfl)
    · cases hf
  set {m j s i name old new} hs hold := by
    obtain ⟨fields, rfl, -, hset⟩ | ⟨items, rfl, -, hset⟩ := child?_cases hs hold new
    · rw [hset]
      rfl
    · rw [hset, fields?, fields?, List.length_set]
      split <;> rfl

theorem reads_of_separates {α β : Type} {open? : Manner → Json → Option Fields}
    {make : Fields → Option α} {i : Nat} {name : String} {part : Decoder β} {get : α → β}
    {put : β → α → α} {absent : Option β} (hopen : Opens open?)
    (h : Fields.Separates make i name part get put absent) :
    Reads (fun m j => open? m j >>= make) i name part get put absent where
  refuses {m j s old} hs hold hnone := by
    cases hf : open? m j with
    | none => simp
    | some f =>
      rw [← hopen.manner hf] at hnone
      simpa [hf] using h.refuses (hopen.present hf hs hold) hnone
  replaces {m j s old new b b'} hs hold hb hb' := by
    cases hf : open? m j with
    | none => simp [hf, hopen.set hs hold]
    | some f =>
      rw [← hopen.manner hf] at hb hb'
      simpa [hf, hopen.set hs hold] using h.replaces (hopen.present hf hs hold) hb hb'
  gets {m j s old a b} hs hold hb ha := by
    obtain ⟨f, hf, hmake⟩ := Option.bind_eq_some_iff.mp ha
    rw [← hopen.manner hf] at hb
    simpa [hmake] using h.gets (hopen.present hf hs hold) hb
  missing {m j a} hnone ha := by
    obtain ⟨f, hf, hmake⟩ := Option.bind_eq_some_iff.mp ha
    simpa [hmake, eq_comm] using h.missing (hopen.absent hf hnone)

/-! ## Lists, optional values and variants -/

section Items

variable {α : Type} {read : Decoder α} {m : Manner}

theorem list_set {items : List Json} {i : Nat} {j : Json} {as : List α}
    (h : Decode.list read m (.arr items) = some as) (hj : items[i]? = some j) :
    ∃ before a after, as = before ++ a :: after ∧ before.length = i ∧ read m j = some a ∧
      ∀ new a', read m new = some a' →
        Decode.list read m (.arr (items.set i new)) = some (before ++ a' :: after) := by
  simp only [Decode.list, items_eq_some_iff] at h ⊢
  induction h generalizing i with
  | nil => simp at hj
  | @cons first a rest as hfirst hrest ih =>
    cases i with
    | zero =>
      cases hj
      exact ⟨[], a, as, rfl, rfl, hfirst, fun new a' hnew => .cons hnew hrest⟩
    | succ i =>
      obtain ⟨before, b, after, rfl, rfl, hb, hset⟩ := ih hj
      exact ⟨a :: before, b, after, rfl, rfl, hb, fun new b' hnew =>
        .cons hfirst (hset new b' hnew)⟩

theorem exists_item {items : List Json} {as : List α} {a : α}
    (h : Decode.list read m (.arr items) = some as) (ha : a ∈ as) :
    ∃ (i : Nat) (part : Json), items[i]? = some part ∧ read m part = some a := by
  simp only [Decode.list, items_eq_some_iff] at h
  induction h with
  | nil => cases ha
  | cons hfirst _ ih =>
    rcases List.mem_cons.mp ha with rfl | hrest
    · exact ⟨0, _, rfl, hfirst⟩
    · obtain ⟨i, part, hpart, hread⟩ := ih hrest
      exact ⟨i + 1, part, hpart, hread⟩

end Items

theorem tagged?_setChild {tags : List String} {m : Manner} {j content : Json} {t : Tagged}
    {s : Step} (h : tagged? tags m j = some t) (hs : s.Selects 1 "content")
    (hcontent : j.child? s = some content) (new : Json) :
    t.content = some content ∧ tagged? tags m (j.setChild s new) =
      some { t with content := some new } := by
  obtain ⟨fields, rfl, hget, hset⟩ | ⟨items, rfl, hget, hset⟩ := child?_cases hs hcontent new
  · obtain ⟨tag, htag, rfl⟩ := Option.map_eq_some_iff.mp h
    refine ⟨hget, ?_⟩
    rw [hset]
    simp [tagged?, get?_setField, htag, hget]
  · rw [hset]
    unfold tagged? at h
    split at h
    next heq => cases heq
    next tag content' heq =>
      cases heq
      obtain ⟨tag, htag, rfl⟩ := Option.map_eq_some_iff.mp h
      cases hget
      refine ⟨rfl, ?_⟩
      simp [tagged?, htag]
    next => cases h

end Compendium.Json
