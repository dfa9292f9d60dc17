import Mathlib.Data.List.Nodup
import Compendium.Document.Encode
import Compendium.Document.Parts
import Compendium.Proofs.Document.Plain
import Compendium.Proofs.Document.Readers

/-!
# What documents keep without understanding it

Five unions keep a value that fits none of their variants. A kept value is written as an object,
whatever it was read from, and an object is read more leniently than an array: so a value kept from
an array may be understood when it is read again. `Kept.understood` says whether it is. `Reread`
relates a value to the one that is read after writing it: they are equal exactly if nothing kept is
understood. Each kept value stood at a place of its own in what was read, and what is understood
stood there as an array (`Placed`).
-/

namespace Compendium

open Json

/-- The unions that keep what they do not understand. -/
inductive OpenUnion where
  | inline
  | target
  | block
  | arrangement
  | control
  deriving DecidableEq, Repr

/-- Whether one of the known variants of the union fits. -/
def OpenUnion.knows (t : Tagged) : OpenUnion → Bool
  | inline => (Readers.all.knownInline t).isSome
  | target => (Readers.all.knownTarget t).isSome
  | block => (Readers.all.knownBlock t).isSome
  | arrangement => (PanelArrangement.decodeKnown t).isSome
  | control => (ControlKind.decodeKnown t).isSome

/-- A value that a union has kept. -/
structure Kept where
  union : OpenUnion
  value : Unrecognized

namespace Kept

/-- Whether the union understands the value when it is written as an object. -/
def understood (k : Kept) : Bool :=
  k.union.knows ⟨k.value.tag, k.value.content, .lenient⟩

/-- Nothing of what was kept is understood when it is written as an object. -/
def Settled (kept : List Kept) : Prop :=
  ∀ k ∈ kept, k.understood = false

@[simp] theorem settled_nil : Settled [] := by
  simp [Settled]

@[simp] theorem settled_append (a b : List Kept) :
    Settled (a ++ b) ↔ Settled a ∧ Settled b := by
  simp [Settled, or_imp, forall_and]

@[simp] theorem settled_singleton (k : Kept) : Settled [k] ↔ k.understood = false := by
  simp [Settled]

/-! ### Places -/

/-- The value was kept from what stands at a place: from an array, if it is understood when it is
written as an object. -/
def StoodAt (whole : Json) (place : Pointer) (k : Kept) : Prop :=
  ∃ j, whole.at? place = some j ∧ Unrecognized.decode .indexed j = some k.value ∧
    (k.understood = true → ∃ items, j = .arr items)

/-- Each of the values was kept from a place of its own, among the places that are given. -/
def Placed (whole : Json) (among : Pointer → Prop) (kept : List Kept) : Prop :=
  ∃ placed : List (Pointer × Kept), (placed.map Prod.snd).Perm kept ∧ (placed.map Prod.fst).Nodup ∧
    ∀ p ∈ placed, among p.1 ∧ p.2.StoodAt whole p.1

/-- The place lies in one of the fields, which are given by their positions and names. -/
def Under (slots : List (Nat × String)) (place : Pointer) : Prop :=
  ∃ slot ∈ slots, ∃ s rest, place = s :: rest ∧ Step.Selects slot.1 slot.2 s

variable {whole : Json} {A B : Pointer → Prop} {a b : List Kept}

@[simp] theorem placed_nil : Placed whole A [] :=
  ⟨[], .nil, .nil, by simp⟩

theorem Placed.mono (h : Placed whole A a) (hAB : ∀ p, A p → B p) : Placed whole B a := by
  obtain ⟨placed, hperm, hnodup, hall⟩ := h
  exact ⟨placed, hperm, hnodup, fun p hp => ⟨hAB _ (hall p hp).1, (hall p hp).2⟩⟩

theorem Placed.perm (h : Placed whole A a) (hab : a.Perm b) : Placed whole (fun _ => True) b := by
  obtain ⟨placed, hperm, hnodup, hall⟩ := h
  exact ⟨placed, hperm.trans hab, hnodup, fun p hp => ⟨trivial, (hall p hp).2⟩⟩

/-- Values that are kept at places apart from each other. -/
theorem Placed.append (ha : Placed whole A a) (hb : Placed whole B b) (hAB : ∀ p, A p → ¬B p) :
    Placed whole (fun p => A p ∨ B p) (a ++ b) := by
  obtain ⟨placed, hperm, hnodup, hall⟩ := ha
  obtain ⟨placed', hperm', hnodup', hall'⟩ := hb
  refine ⟨placed ++ placed', ?_, ?_, ?_⟩
  · rw [List.map_append]
    exact hperm.append hperm'
  · rw [List.map_append]
    refine hnodup.append hnodup' fun p hp hp' => ?_
    obtain ⟨x, hx, rfl⟩ := List.mem_map.mp hp
    obtain ⟨y, hy, hxy⟩ := List.mem_map.mp hp'
    exact hAB _ (hall x hx).1 (hxy ▸ (hall' y hy).1)
  · intro p hp
    rcases List.mem_append.mp hp with hp | hp
    · exact ⟨.inl (hall p hp).1, (hall p hp).2⟩
    · exact ⟨.inr (hall' p hp).1, (hall' p hp).2⟩

/-- Values that are kept in different fields. -/
theorem Placed.fields {slots slots' : List (Nat × String)} (ha : Placed whole (Under slots) a)
    (hb : Placed whole (Under slots') b) (hne : ∀ x ∈ slots, ∀ y ∈ slots', x.1 ≠ y.1 ∧ x.2 ≠ y.2) :
    Placed whole (Under (slots ++ slots')) (a ++ b) := by
  refine (ha.append hb ?_).mono ?_
  · rintro p ⟨x, hx, s, rest, rfl, hs⟩ ⟨y, hy, s', rest', heq, hs'⟩
    obtain ⟨rfl, -⟩ := List.cons.inj heq
    have hxy := hne x hx y hy
    rcases hs with rfl | rfl <;> rcases hs' with h | h <;> simp_all
  · rintro p (⟨x, hx, h⟩ | ⟨x, hx, h⟩)
    · exact ⟨x, List.mem_append_left _ hx, h⟩
    · exact ⟨x, List.mem_append_right _ hx, h⟩

/-- A step further out. -/
theorem Placed.below {j : Json} {s : Step} (hs : whole.child? s = some j) (h : Placed j A a) :
    Placed whole (fun p => ∃ rest, p = s :: rest) a := by
  obtain ⟨placed, hperm, hnodup, hall⟩ := h
  refine ⟨placed.map fun p => (s :: p.1, p.2), ?_, ?_, ?_⟩
  · simpa [Function.comp_def] using hperm
  · have hcons := hnodup.map (List.cons_injective (a := s))
    simpa [List.map_map, Function.comp_def] using hcons
  · intro p hp
    obtain ⟨q, hq, rfl⟩ := List.mem_map.mp hp
    obtain ⟨part, hpart, hkept⟩ := (hall q hq).2
    exact ⟨⟨q.1, rfl⟩, part, by simp [at?, hs, hpart], hkept⟩

end Kept

def PanelArrangement.kept : PanelArrangement → List Kept
  | .unknown u => [⟨.arrangement, u⟩]
  | _ => []

def ControlKind.kept : ControlKind → List Kept
  | .unknown u => [⟨.control, u⟩]
  | _ => []

def ControlGroup.kept (g : ControlGroup) : List Kept :=
  g.controls.flatMap fun c => c.kind.kept

def LinkTarget.ownKept : LinkTarget → List Kept
  | .unknown u => [⟨.target, u⟩]
  | _ => []

/-- What a part itself keeps, the parts inside it left out. -/
def Part.kept : Part → List Kept
  | .text (.unknown u) => [⟨.inline, u⟩]
  | .text (.link _ target _) => target.ownKept
  | .block (.unknown u) => [⟨.block, u⟩]
  | .block (.panels p) => p.arrangement.kept
  | .block (.controls g) => g.kept
  | _ => []

def keptIn (parts : List Part) : List Kept :=
  parts.flatMap Part.kept

@[simp] theorem keptIn_nil : keptIn [] = [] :=
  rfl

@[simp] theorem keptIn_cons (p : Part) (rest : List Part) :
    keptIn (p :: rest) = p.kept ++ keptIn rest :=
  rfl

@[simp] theorem keptIn_append (a b : List Part) : keptIn (a ++ b) = keptIn a ++ keptIn b := by
  simp [keptIn]

/-- What a piece of inline text keeps. -/
def Inline.kept (i : Inline) : List Kept :=
  keptIn i.parts

def Block.kept (b : Block) : List Kept :=
  keptIn b.parts

/-- What a link's target keeps, in itself and in the document that it shows. -/
def LinkTarget.kept (t : LinkTarget) : List Kept :=
  t.ownKept ++ keptIn t.parts

def PanelLayout.kept (p : PanelLayout) : List Kept :=
  p.arrangement.kept ++ keptIn p.parts

/-! ## Reading again -/

variable {α : Type}

/-- What is read after writing `a` is `b`, where `a` was read from `whole` and keeps `kept`, in
places among the ones that are given. -/
structure Reread (read : Decoder α) (encode : α → Json) (kept : List Kept) (whole : Json)
    (among : Pointer → Prop) (a b : α) : Prop where
  written : ∀ m, read m (encode a) = some b
  same : b = a ↔ Kept.Settled kept
  origin : Kept.Placed whole among kept

/-- The value can be read again, wherever it was kept from. -/
def Rereads (read : Decoder α) (encode : α → Json) (kept : List Kept) (whole : Json)
    (a : α) : Prop :=
  ∃ b, Reread read encode kept whole (fun _ => True) a b

/-- Every value nested less deep than a bound can be read, written and read again. -/
def RereadBelow (d : Nat) (read : Decoder α) (encode : α → Json) (kept : α → List Kept) : Prop :=
  ∀ m j a, j.depth < d → read m j = some a → Rereads read encode (kept a) j a

variable {d : Nat} {read : Decoder α} {encode : α → Json} {kept : α → List Kept} {whole : Json}
  {among : Pointer → Prop}

/-- What is read again stands in a field. -/
theorem Reread.inField {ks : List Kept} {j : Json} {a b : α} {i : Nat} {name : String}
    (h : Reread read encode ks j among a b)
    (hj : ∃ s : Step, s.Selects i name ∧ whole.child? s = some j) :
    Reread read encode ks whole (Kept.Under [(i, name)]) a b := by
  obtain ⟨s, hselects, hs⟩ := hj
  refine ⟨h.written, h.same, (h.origin.below hs).mono ?_⟩
  rintro p ⟨rest, rfl⟩
  exact ⟨(i, name), List.mem_singleton_self _, s, rest, rfl, hselects⟩

/-- A record of which one field may be read again differently. -/
theorem Reread.field {β : Type} {readField : Decoder β} {encodeField : β → Json}
    {ks ks' : List Kept}
    {x y : β} (h : Reread readField encodeField ks whole among x y) (make : β → α)
    (hmake : ∀ x y, make x = make y → x = y) (hkept : ks' = ks)
    (hwritten : ∀ m, read m (encode (make x)) = some (make y)) :
    Rereads read encode ks' whole (make x) := by
  subst hkept
  refine ⟨make y, hwritten, ?_, h.origin.perm (.refl _)⟩
  rw [← h.same]
  exact ⟨hmake y x, congrArg make⟩

theorem RereadBelow.pred (h : RereadBelow (d + 1) read encode kept) :
    RereadBelow d read encode kept :=
  fun m j a hj => h m j a (by omega)

theorem rereadBelow_of_exact (h : Exact read encode) (d : Nat) :
    RereadBelow d read encode fun _ => [] :=
  fun m j a _ ha => ⟨a, h m j a ha, by simp, by simp⟩

theorem reread_nil :
    Reread (Decode.list read) (fun l => .arr (l.map encode))
      (List.flatMap kept []) whole among [] [] :=
  ⟨fun _ => rfl, by simp, by simp⟩

/-- Lists are read again item by item. -/
theorem RereadBelow.list (h : RereadBelow d read encode kept) :
    RereadBelow d (Decode.list read) (fun l => .arr (l.map encode)) (List.flatMap kept) := by
  intro m j l hj hl
  obtain ⟨js, rfl, hjs⟩ := list_eq_some hl
  have hdepth : ∀ i ∈ js, i.depth < d := fun i hi => by
    have hle := depth_le_depthList hi
    simp only [depth] at hj
    omega
  have hchild : ∀ i j, js[i]? = some j → (Json.arr js).child? (.item (0 + i)) = some j :=
    fun i j hi => by rwa [Nat.zero_add]
  -- the items that are left stand in the array from an offset on
  suffices hrest : ∀ offset whole,
    (∀ i j, js[i]? = some j → child? whole (.item (offset + i)) = some j) →
      ∃ l', Reread (Decode.list read) (fun l => .arr (l.map encode)) (l.flatMap kept) whole
        (fun p => ∃ i rest, offset ≤ i ∧ p = .item i :: rest) l l' by
    obtain ⟨l', hl'⟩ := hrest 0 _ hchild
    exact ⟨l', hl'.written, hl'.same, hl'.origin.perm (.refl _)⟩
  clear hl hj hchild
  induction hjs with
  | nil => exact fun _ _ _ => ⟨[], reread_nil⟩
  | @cons i a js l hread _ ih =>
    intro offset whole hchild
    obtain ⟨b, hb⟩ := h m i a (hdepth i List.mem_cons_self) hread
    obtain ⟨l', hl'⟩ := ih (fun i hi => hdepth i (List.mem_cons_of_mem _ hi)) (offset + 1) whole
      fun n j hn => by
        rw [show offset + 1 + n = offset + (n + 1) by omega]
        exact hchild (n + 1) j hn
    refine ⟨b :: l', fun m => ?_, ?_, ?_⟩
    · have hrest := hl'.written m
      simp only [Decode.list] at hrest
      simp [Decode.list, Decode.items, hb.written m, hrest]
    · rw [List.cons.injEq, hb.same, hl'.same, List.flatMap_cons, Kept.settled_append]
    · refine ((hb.origin.below (hchild 0 i rfl)).append hl'.origin ?_).mono ?_
      · rintro p ⟨rest, rfl⟩ ⟨n, rest', hn, heq⟩
        cases heq
        omega
      · rintro p (⟨rest, rfl⟩ | ⟨n, rest, hn, rfl⟩)
        · exact ⟨_, rest, by omega, rfl⟩
        · exact ⟨n, rest, by omega, rfl⟩

theorem reread_none :
    Reread (Decode.optional read) (ofOption encode)
      ((none : Option α).toList.flatMap kept) whole among
      none none :=
  ⟨fun _ => rfl, by simp, by simp⟩

theorem RereadBelow.optional (h : RereadBelow d read encode kept) (hnull : ∀ a, encode a ≠ .null) :
    RereadBelow d (Decode.optional read) (ofOption encode) (fun o => o.toList.flatMap kept) := by
  intro m j o hj ho
  cases o with
  | none => exact ⟨none, reread_none⟩
  | some a =>
    have hread : read m j = some a := by
      cases j with
      | null => cases ho
      | _ => simpa [Decode.optional] using ho
    obtain ⟨b, hb⟩ := h m j a hj hread
    refine ⟨some b, fun m => ?_, ?_, ?_⟩
    · rw [ofOption, optional_of_ne_null (hnull a), hb.written m]
      rfl
    · simpa using hb.same
    · simpa using hb.origin

/-! ## Records -/

section Fields

variable {f : Fields} {i : Nat} {name : String} (hf : f.Of whole) (hd : whole.depth ≤ d)

include hf hd

theorem RereadBelow.requiredField (h : RereadBelow d read encode kept) {a : α}
    (ha : f.required i name read = some a) :
    ∃ b, Reread read encode (kept a) whole (Kept.Under [(i, name)]) a b := by
  obtain ⟨j, hj, hread⟩ := required_eq_some ha
  obtain ⟨b, hb⟩ := h _ j a (Nat.lt_of_lt_of_le (hf.depth_lt hj) hd) hread
  exact ⟨b, hb.inField (hf i name j hj)⟩

theorem RereadBelow.defaultedField (h : RereadBelow d read encode kept) {missing a : α}
    (hmissing : ∃ b, Reread read encode (kept missing) whole (Kept.Under [(i, name)]) missing b)
    (ha : f.defaulted i name read missing = some a) :
    ∃ b, Reread read encode (kept a) whole (Kept.Under [(i, name)]) a b := by
  rcases defaulted_eq_some ha with rfl | ⟨j, hj, hread⟩
  · exact hmissing
  · obtain ⟨b, hb⟩ := h _ j a (Nat.lt_of_lt_of_le (hf.depth_lt hj) hd) hread
    exact ⟨b, hb.inField (hf i name j hj)⟩

theorem RereadBelow.listField (h : RereadBelow d read encode kept) {l : List α}
    (hl : f.defaulted i name (Decode.list read) [] = some l) :
    ∃ l', Reread (Decode.list read) (fun l => .arr (l.map encode)) (l.flatMap kept) whole
      (Kept.Under [(i, name)]) l l' :=
  h.list.defaultedField hf hd ⟨[], reread_nil⟩ hl

theorem RereadBelow.optionalField (h : RereadBelow d read encode kept)
    (hnull : ∀ a, encode a ≠ .null) {o : Option α} (ho : f.optional i name read = some o) :
    ∃ o', Reread (Decode.optional read) (ofOption encode) (o.toList.flatMap kept) whole
      (Kept.Under [(i, name)]) o o' :=
  (h.optional hnull).defaultedField hf hd ⟨none, reread_none⟩ ho

end Fields

section Record

variable {arity : Nat} {k : Fields → Option α} (h : ∀ whole f a, f.Of whole → whole.depth ≤ d →
  k f = some a → Rereads (fun m j => fields? arity m j >>= k) encode (kept a) whole a)

include h

/-- A record is read again field by field. -/
theorem rereadBelow_next :
    RereadBelow (d + 1) (fun m j => fields? arity m j >>= k) encode kept := by
  intro m j a hj ha
  obtain ⟨f, hf, hk⟩ := Option.bind_eq_some_iff.mp ha
  exact h j f a (of_fields? hf) (by omega) hk

theorem rereadBelow_record : RereadBelow d (fun m j => fields? arity m j >>= k) encode kept :=
  (rereadBelow_next h).pred

end Record

/-! ## Unions -/

namespace Unrecognized

/-- Null stands for no content. -/
theorem content_ne_null {m : Manner} {j : Json} {u : Unrecognized} (h : decode m j = some u) :
    u.content ≠ some .null := by
  simp only [decode, Option.bind_eq_bind, Option.bind_eq_some_iff, Option.pure_def,
    Option.some.injEq] at h
  obtain ⟨f, _, tag, _, content, hcontent, rfl⟩ := h
  rintro rfl
  rcases defaulted_eq_some hcontent with h | ⟨j, _, hread⟩
  · cases h
  · cases j <;> cases hread

theorem exact_decode : Exact decode Unrecognized.encode := by
  rintro m j ⟨tag, content⟩ h m'
  have hcontent := content_ne_null h
  cases content with
  | none => rfl
  | some content =>
    have hread : Decode.optional Decode.any m' content = some (some content) :=
      optional_of_ne_null fun hnull => hcontent (congrArg some hnull)
    have htag : Dict.get? [("content", content), ("type", .str tag)] "type" = some (.str tag) := rfl
    have hget : Dict.get? [("content", content), ("type", .str tag)] "content" = some content := rfl
    simp [decode, Unrecognized.encode, variant, htag, hget, optionalValue, hread]

/-- An object that is kept is not understood when it is written again: its tag and content are read
as they were the first time. -/
theorem known_none_of_obj {tags : List String} {known : Tagged → Option α}
    {fields : List (String × Json)} {u : Unrecognized}
    (huntagged : ∀ content m, known ⟨"", content, m⟩ = none)
    (hnull : ∀ tag, known ⟨tag, some .null, .lenient⟩ = none → known ⟨tag, none, .lenient⟩ = none)
    (hunknown : (tagged? tags .indexed (.obj fields)).bind known = none)
    (hread : decode .indexed (.obj fields) = some u) :
    known ⟨u.tag, u.content, .lenient⟩ = none := by
  simp only [decode, fields?_obj, Option.bind_eq_bind, Option.bind_some, defaulted_named,
    optional_named, Option.bind_eq_some_iff, Option.pure_def, Option.some.injEq] at hread
  obtain ⟨tag, htag, content, hcontent, rfl⟩ := hread
  cases htype : Dict.get? fields "type" with
  | none =>
    rw [htype] at htag
    cases htag
    exact huntagged content .lenient
  | some j =>
    rw [htype] at htag
    cases j with
    | str s =>
      cases htag
      simp only [tagged?, htype, Option.bind_some, name?, Option.map_some] at hunknown
      cases hget : Dict.get? fields "content" with
      | none =>
        rw [hget] at hcontent hunknown
        cases hcontent
        exact hunknown
      | some c =>
        rw [hget] at hcontent hunknown
        cases c with
        | null =>
          cases hcontent
          exact hnull _ hunknown
        | _ =>
          cases hcontent
          exact hunknown
    | _ => cases htag

end Unrecognized

theorem keep_variant {tags : List String} {known : Tagged → Option α} {other : Unrecognized → α}
    {tag : String} {content : Option Json} {b : α} (h : known ⟨tag, content, .lenient⟩ = some b)
    (m : Manner) : Unrecognized.keep tags known other m (variant tag content) = some b := by
  simp [Unrecognized.keep, h]

/-- A union is read again variant by variant; what it keeps is kept again unless it is
understood. -/
theorem rereadBelow_keep (union : OpenUnion) {tags : List String} {known : Tagged → Option α}
    {other : Unrecognized → α}
    (hencode : ∀ u, encode (other u) = u.encode) (hkept : ∀ u, kept (other u) = [⟨union, u⟩])
    (hknows : ∀ t, union.knows t = (known t).isSome) (hknown : ∀ t u, known t ≠ some (other u))
    (huntagged : ∀ content m, known ⟨"", content, m⟩ = none)
    (hnull : ∀ tag, known ⟨tag, some .null, .lenient⟩ = none → known ⟨tag, none, .lenient⟩ = none)
    (hvariant : ∀ whole t a, t.Of whole → whole.depth ≤ d → known t = some a →
      Rereads (Unrecognized.keep tags known other) encode (kept a) whole a) :
    RereadBelow (d + 1) (Unrecognized.keep tags known other) encode kept := by
  intro m j a hj ha
  rcases Option.or_eq_some_iff.mp ha with hread | ⟨hunknown, hread⟩
  · obtain ⟨t, ht, hread⟩ := Option.bind_eq_some_iff.mp hread
    exact hvariant j t a (of_tagged? ht) (by omega) hread
  · obtain ⟨u, hu, rfl⟩ := Option.map_eq_some_iff.mp hread
    have hwritten : ∀ m, Unrecognized.keep tags known other m (encode (other u)) =
        (known ⟨u.tag, u.content, .lenient⟩).or (some (other u)) := by
      intro m
      have hagain := Unrecognized.exact_decode _ _ _ hu .indexed
      rw [hencode, Unrecognized.keep, hagain]
      simp [Unrecognized.encode]
    have hunderstood : Kept.understood ⟨union, u⟩ = (known ⟨u.tag, u.content, .lenient⟩).isSome :=
      hknows _
    have horigin : Kept.Placed j (fun _ => True) [⟨union, u⟩] := by
      refine ⟨[([], ⟨union, u⟩)], .refl _, by simp, fun p hp => ⟨trivial, ?_⟩⟩
      obtain rfl := List.mem_singleton.mp hp
      refine ⟨j, rfl, hu, fun hyes => ?_⟩
      cases j with
      | arr items => exact ⟨items, rfl⟩
      | obj fields =>
        rw [hunderstood, Unrecognized.known_none_of_obj huntagged hnull hunknown hu] at hyes
        cases hyes
      | _ => cases hu
    unfold Rereads
    rw [hkept]
    cases hagain : known ⟨u.tag, u.content, .lenient⟩ with
    | none =>
      refine ⟨other u, fun m => ?_, ?_, horigin⟩
      · rw [hwritten, hagain]
        rfl
      · simp [hunderstood, hagain]
    | some b =>
      refine ⟨b, fun m => ?_, ?_, horigin⟩
      · rw [hwritten, hagain]
        rfl
      · have hne : b ≠ other u := fun h => hknown _ u (h ▸ hagain)
        simp [hunderstood, hagain, hne]

end Compendium
