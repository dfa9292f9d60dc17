import Compendium.Proofs.Document.Shapes

/-!
# The places of blocks

`Leads` says that a pointer leads to a block, at any depth, past values that are all understood;
`Place` says what it is for a value to have a block in one place. A value with another block at the
end of the pointer is read as before, with that block in that place.
-/

namespace Compendium

open Json
open Readers (all)

/-- Blocks are read alike in every manner. -/
theorem block_manner (m : Manner) (j : Json) : all.block m j = Block.decode.read j := by
  show all.block m j = all.block .strict j
  rw [Readers.all_block]
  rfl

/-- The pointer leads to a block in a value that is read with a decoder. Every union value on the
way is one of the known variants. -/
inductive Leads : {α : Type} → Decoder α → Manner → Json → Pointer → Prop where
  | here {m : Manner} {j : Json} : Leads all.block m j []
  | item {α : Type} {read : Decoder α} {m : Manner} {items : List Json} {i : Nat} {j : Json}
      {rest : Pointer} : items[i]? = some j → Leads read m j rest →
      Leads (Decode.list read) m (.arr items) (.item i :: rest)
  | present {α : Type} {read : Decoder α} {m : Manner} {j : Json} {pointer : Pointer} : j ≠ .null →
      Leads read m j pointer → Leads (Decode.optional read) m j pointer
  | field {shape : Shape} {slot : Slot shape.read} {m : Manner} {j part : Json} {s : Step}
      {rest : Pointer} : shape ∈ shapes → slot ∈ shape.slots → s.Selects slot.position slot.name →
      j.child? s = some part → Leads slot.part m part rest → Leads shape.read m j (s :: rest)
  | variant {u : Union} {v : Variant u.Whole} {m m' : Manner} {j content : Json} {s : Step}
      {rest : Pointer} : u ∈ unions → v ∈ u.variants →
      tagged? u.tags .indexed j = some ⟨v.tag, some content, m'⟩ →
      (v.part m' content).isSome = true → s.Selects 1 "content" →
      j.child? s = some content → Leads v.part m' content rest → Leads u.read m j (s :: rest)

/-- The function puts a block in one place of a value, where the pointer leads to, and all else in
the value is fixed. -/
inductive Place : {α : Type} → Pointer → (Block → α) → Prop where
  | here : Place [] fun b => b
  | item {α : Type} {rest : Pointer} {place : Block → α} (before after : List α) :
      Place rest place → Place (.item before.length :: rest) fun b => before ++ place b :: after
  | present {α : Type} {pointer : Pointer} {place : Block → α} : Place pointer place →
      Place pointer fun b => some (place b)
  | field {shape : Shape} {slot : Slot shape.read} {s : Step} {rest : Pointer}
      {place : Block → slot.Held}
      (whole : shape.Whole) : shape ∈ shapes → slot ∈ shape.slots →
        s.Selects slot.position slot.name →
      Place rest place → Place (s :: rest) fun b => slot.put (place b) whole
  | variant {u : Union} {v : Variant u.Whole} {s : Step} {rest : Pointer} {place : Block → v.Held} :
      u ∈ unions → v ∈ u.variants → s.Selects 1 "content" → Place rest place →
      Place (s :: rest) fun b => v.make (place b)

/-- Other blocks in a place make other values. -/
theorem Place.injective {α : Type} {pointer : Pointer} {place : Block → α}
    (h : Place pointer place) :
    Function.Injective place := by
  induction h with
  | here => exact Function.injective_id
  | item before after _ ih =>
    intro b b' hb
    exact ih (List.cons.inj (List.append_cancel_left hb)).1
  | present _ ih =>
    intro b b' hb
    exact ih (Option.some.inj hb)
  | @field shape slot s rest place whole hshape hslot hs _ ih =>
    intro b b' hb
    have hget := congrArg slot.get hb
    rw [slot.get_put, slot.get_put] at hget
    exact ih hget
  | @variant u v s rest place hu hv hs _ ih =>
    intro b b' hb
    exact ih ((unions_lawful u hu).make_injective v hv hb)

/-- The value holds the block at the end of the pointer in one place, and is read with another block
in that place if the block at the end of the pointer is replaced. -/
structure HoldsBlock {α : Type} (read : Decoder α) (m : Manner) (j : Json)
    (pointer : Pointer) (a : α) (place : Block → α) (old : Block) : Prop where
  isPlace : Place pointer place
  found : (j.at? pointer).bind Block.decode.read = some old
  whole : a = place old
  replaced : ∀ new n, Block.decode.read new = some n →
    read m (j.replaceAt new pointer) = some (place n)

theorem ne_null_of_block {j : Json} {b : Block} (h : Block.decode.read j = some b) : j ≠ .null := by
  rintro rfl
  cases h

theorem HoldsBlock.field {shape : Shape} {slot : Slot shape.read} {m : Manner} {j part : Json}
    {s : Step}
    {rest : Pointer} {a : shape.Whole} {x : slot.Held} {place : Block → slot.Held} {old : Block}
    (hshape : shape ∈ shapes) (hslot : slot ∈ shape.slots) (hs : s.Selects slot.position slot.name)
    (hpart : j.child? s = some part) (ha : shape.read m j = some a) (hx : slot.part m part = some x)
    (h : HoldsBlock slot.part m part rest x place old) :
    HoldsBlock shape.read m j (s :: rest) a (fun b => slot.put (place b) a) old := by
  have hlawful := shapes_lawful shape hshape slot hslot
  refine ⟨.field a hshape hslot hs h.isPlace, ?_, ?_, ?_⟩
  · rw [at?, hpart, Option.bind_some]
    exact h.found
  · have hsame := hlawful.replaces hs hpart hx hx
    rw [setChild_self hpart, ha, Option.map_some, Option.some.injEq] at hsame
    rw [← h.whole]
    exact hsame
  · intro new n hn
    rw [replaceAt, hpart, hlawful.replaces hs hpart hx (h.replaced new n hn), ha, Option.map_some]

theorem HoldsBlock.variant {u : Union} {v : Variant u.Whole} {m m' : Manner} {j content : Json}
    {s : Step}
    {rest : Pointer} {x : v.Held} {place : Block → v.Held} {old : Block} (hu : u ∈ unions)
    (hv : v ∈ u.variants) (ht : tagged? u.tags .indexed j = some ⟨v.tag, some content, m'⟩)
    (hs : s.Selects 1 "content") (hcontent : j.child? s = some content)
    (h : HoldsBlock v.part m' content rest x place old) :
    HoldsBlock u.read m j (s :: rest) (v.make x) (fun b => v.make (place b)) old := by
  have hlawful := unions_lawful u hu
  refine ⟨.variant hu hv hs h.isPlace, ?_, ?_, ?_⟩
  · rw [at?, hcontent, Option.bind_some]
    exact h.found
  · exact congrArg v.make h.whole
  · intro new n hn
    rw [replaceAt, hcontent, hlawful.read_eq, Unrecognized.keep,
      (tagged?_setChild ht hs hcontent _).2, Option.bind_some, hlawful.known_eq v hv,
      h.replaced new n hn]
    rfl

/-- A pointer that leads to a block leads to one place of the value that is read. -/
theorem Leads.holds {α : Type} {read : Decoder α} {m : Manner} {j : Json} {pointer : Pointer}
    (h : Leads read m j pointer) {a : α} (ha : read m j = some a) :
    ∃ place old, HoldsBlock read m j pointer a place old := by
  induction h with
  | @here m j =>
    refine ⟨fun b => b, a, .here, ?_, rfl, ?_⟩
    · rw [at?, Option.bind_some, ← block_manner m]
      exact ha
    · intro new n hn
      rw [replaceAt, block_manner]
      exact hn
  | @item _ read m items i j rest hj _ ih =>
    obtain ⟨before, x, after, rfl, rfl, hx, hset⟩ := list_set ha hj
    obtain ⟨place, old, hplace, hfound, hwhole, hreplaced⟩ := ih hx
    refine ⟨fun b => before ++ place b :: after, old, .item before after hplace, ?_, ?_, ?_⟩
    · rw [at?, child?, hj, Option.bind_some]
      exact hfound
    · rw [hwhole]
    · intro new n hn
      rw [replaceAt, child?, hj]
      exact hset _ _ (hreplaced new n hn)
  | @present _ read m j pointer hnull _ ih =>
    rw [optional_of_ne_null hnull] at ha
    obtain ⟨x, hx, rfl⟩ := Option.map_eq_some_iff.mp ha
    obtain ⟨place, old, hplace, hfound, hwhole, hreplaced⟩ := ih hx
    refine ⟨fun b => some (place b), old, .present hplace, hfound, congrArg some hwhole, ?_⟩
    intro new n hn
    rw [optional_of_ne_null (replaceAt_ne_null pointer hnull (ne_null_of_block hn)),
      hreplaced new n hn, Option.map_some]
  | @field shape slot m j part s rest hshape hslot hs hpart _ ih =>
    cases hx : slot.part m part with
    | none =>
      rw [(shapes_lawful shape hshape slot hslot).refuses hs hpart hx] at ha
      cases ha
    | some x =>
      obtain ⟨place, old, hholds⟩ := ih hx
      exact ⟨_, old, hholds.field hshape hslot hs hpart ha hx⟩
  | @variant u v m m' j content s rest hu hv ht hsome hs hcontent _ ih =>
    have hlawful := unions_lawful u hu
    obtain ⟨x, hx⟩ := Option.isSome_iff_exists.mp hsome
    have hread : u.read m j = some (v.make x) := by
      rw [hlawful.read_eq, Unrecognized.keep, ht, Option.bind_some, hlawful.known_eq v hv, hx]
      rfl
    cases ha.symm.trans hread
    obtain ⟨place, old, hholds⟩ := ih hx
    exact ⟨_, old, hholds.variant hu hv ht hs hcontent⟩

end Compendium
