import Compendium.Proofs.Document.Places
import Compendium.Proofs.Render.Inner

/-!
# A pointer to every block

The fields and variants that are listed for records and unions hold all the blocks inside them. So
every block among the parts of a value is at the end of a pointer that leads to it. The proof is by
induction on how deep values are nested, and for each of them by cases on what reads it.
-/

namespace Compendium

open Json
open Readers (all)

/-! ## Every block is in a listed field or variant -/

/-- Every block inside the record is inside one of the fields that are listed. -/
def Shape.Complete (shape : Shape) : Prop :=
  ∀ a b, Part.block b ∈ shape.inside a → ∃ slot ∈ shape.slots,
    Part.block b ∈ slot.inside (slot.get a)

/-- Every block inside the union value is inside the content of a variant that is listed. -/
structure Union.Complete (u : Union) : Prop where
  inside_make : ∀ v ∈ u.variants, ∀ x, u.inside (v.make x) = v.inside x
  known_bare : ∀ v ∈ u.variants, ∀ m, u.known ⟨v.tag, none, m⟩ = none
  known_plain : ∀ t a, (∀ v ∈ u.variants, t.tag ≠ v.tag) → u.known t = some a →
    ∀ b, Part.block b ∉ u.inside a
  other : ∀ k b, Part.block b ∉ u.inside (u.other k)

theorem Shape.complete_mk {Whole : Type} {read : Decoder Whole} {inside : Whole → List Part}
    {slots : List (Slot read)}
    (h : ∀ a b, Part.block b ∈ inside a →
      Part.block b ∈ slots.flatMap fun slot => slot.inside (slot.get a)) :
    (Shape.mk read inside slots).Complete :=
  fun a b hb => List.mem_flatMap.mp (h a b hb)

theorem linkShape_complete : linkShape.Complete := by
  refine Shape.complete_mk fun a b hb => ?_
  cases a with
  | link => simpa [Slot.required, Inline.linkContent, Inline.linkTarget, Inline.parts] using hb
  | _ => simp [Inline.parts] at hb

theorem shapes_complete : ∀ shape ∈ shapes, shape.Complete := by
  simp only [shapes, List.forall_mem_cons]
  refine ⟨linkShape_complete, ?_⟩
  and_intros
  all_goals first
    | exact List.forall_mem_nil _
    | refine Shape.complete_mk ?_
      rintro ⟨⟩ b hb
      simpa [Slot.required, Slot.defaulted, Slot.optional, Slot.blocks, Slot.inlines,
        Document.parts, Section.parts, Footnote.parts, GlossaryEntry.parts, ListItem.parts,
        Listing.parts, TableCell.parts, TableRow.parts, Table.parts, GridItem.parts, Grid.parts,
        Column.parts, Columns.parts, Panel.parts, SideBySide.parts, PanelLayout.parts,
        Statement.parts, Collapsible.parts, Quote.parts, Alert.parts, Component.parts,
        OverlayNote.parts, Overlay.parts, Paragraph.parts, Equation.parts, CodeBlock.parts,
        Image.parts, Diagram.parts] using hb

theorem knownInline_plain {t : Tagged} {a : Inline} (hne : t.tag ≠ "Link")
    (h : all.knownInline t = some a) (b : Block) : Part.block b ∉ a.parts := by
  cases a with
  | link content target tooltip =>
    unfold Readers.knownInline at h
    split at h
    case h_4 htag => exact absurd htag hne
    all_goals simp [Tagged.payload, Option.bind_eq_some_iff] at h
  | _ => simp [Inline.parts]

theorem inlineUnion_complete : inlineUnion.Complete where
  inside_make := List.forall_mem_cons.mpr ⟨fun _ => rfl, List.forall_mem_nil _⟩
  known_bare := List.forall_mem_cons.mpr ⟨fun _ => rfl, List.forall_mem_nil _⟩
  known_plain _ _ hne ha := knownInline_plain (hne _ List.mem_cons_self) ha
  other k b := by simp [inlineUnion, Inline.parts]

theorem knownTarget_plain {t : Tagged} {a : LinkTarget} (hne : t.tag ≠ "TooltipDocument")
    (h : all.knownTarget t = some a) (b : Block) : Part.block b ∉ a.parts := by
  cases a with
  | tooltip d =>
    unfold Readers.knownTarget at h
    split at h
    case h_10 htag => exact absurd htag hne
    all_goals simp [Tagged.payload, Option.bind_eq_some_iff] at h
  | _ => simp [LinkTarget.parts]

theorem targetUnion_complete : targetUnion.Complete where
  inside_make := List.forall_mem_cons.mpr ⟨fun _ => rfl, List.forall_mem_nil _⟩
  known_bare := List.forall_mem_cons.mpr ⟨fun _ => rfl, List.forall_mem_nil _⟩
  known_plain _ _ hne ha := knownTarget_plain (hne _ List.mem_cons_self) ha
  other k b := by simp [targetUnion, LinkTarget.parts]

theorem parts_of_mem : ∀ v ∈ blockVariants, ∀ x, (v.make x).parts.tail = v.inside x := by
  simp only [blockVariants, List.forall_mem_cons]
  and_intros
  all_goals first
    | exact List.forall_mem_nil _
    | exact fun _ => rfl

theorem knownBlock_bare : ∀ v ∈ blockVariants, ∀ m, all.knownBlock ⟨v.tag, none, m⟩ = none := by
  simp only [blockVariants, List.forall_mem_cons]
  and_intros
  all_goals first
    | exact List.forall_mem_nil _
    | exact fun _ => rfl

theorem knownBlock_plain {t : Tagged} {a : Block} (hne : ∀ v ∈ blockVariants, t.tag ≠ v.tag)
    (h : all.knownBlock t = some a) : a.parts.tail = [] := by
  simp only [blockVariants, List.forall_mem_cons] at hne
  unfold Readers.knownBlock at h
  split at h
  -- a break, a reference, controls, and a tag that nobody knows
  case h_12 =>
    unfold Tagged.bare at h
    split at h <;> cases h <;> rfl
  case h_16 | h_21 =>
    obtain ⟨x, -, rfl⟩ := Option.map_eq_some_iff.mp h
    rfl
  case h_23 => cases h
  all_goals
    rename_i htag
    simp only [htag, ne_eq, not_true_eq_false, false_and, and_false] at hne

theorem blockUnion_complete : blockUnion.Complete where
  inside_make := parts_of_mem
  known_bare := knownBlock_bare
  known_plain t a hne ha b hb := by
    rw [show blockUnion.inside a = [] from knownBlock_plain hne ha] at hb
    cases hb
  other k b := by simp [blockUnion, Block.parts]

theorem unions_complete : ∀ u ∈ unions, u.Complete := by
  simp only [unions, List.forall_mem_cons]
  exact ⟨inlineUnion_complete, targetUnion_complete, blockUnion_complete, List.forall_mem_nil _⟩

/-- A union value with a block inside is a known variant with the block inside its content. -/
theorem Union.Complete.exists_variant {u : Union} (h : u.Complete) (hlawful : u.Lawful) {m : Manner}
    {j : Json} {a : u.Whole} {b : Block} (ha : u.read m j = some a)
    (hb : Part.block b ∈ u.inside a) :
    ∃ v ∈ u.variants, ∃ content m' x, tagged? u.tags .indexed j = some ⟨v.tag, some content, m'⟩ ∧
      v.part m' content = some x ∧ Part.block b ∈ v.inside x := by
  rw [hlawful.read_eq, Unrecognized.keep, Option.or_eq_some_iff] at ha
  obtain ha | ⟨-, ha⟩ := ha
  · obtain ⟨⟨tag, content?, m'⟩, ht, hknown⟩ := Option.bind_eq_some_iff.mp ha
    by_cases hlisted : ∃ v ∈ u.variants, tag = v.tag
    · obtain ⟨v, hv, rfl⟩ := hlisted
      cases content? with
      | none =>
        rw [h.known_bare v hv] at hknown
        cases hknown
      | some content =>
        rw [hlawful.known_eq v hv] at hknown
        obtain ⟨x, hx, rfl⟩ := Option.map_eq_some_iff.mp hknown
        rw [h.inside_make v hv] at hb
        exact ⟨v, hv, content, m', x, ht, hx, hb⟩
    · have hne : ∀ v ∈ u.variants, tag ≠ v.tag := fun v hv htag => hlisted ⟨v, hv, htag⟩
      exact absurd hb (h.known_plain _ a hne hknown b)
  · obtain ⟨k, -, rfl⟩ := Option.map_eq_some_iff.mp ha
    exact absurd hb (h.other k b)

/-! ## What readers carry -/

/-- The reader reads values with parts of documents inside, and the function lists them. -/
inductive Carries : {α : Type} → Decoder α → (α → List Part) → Prop where
  | record {shape : Shape} : shape ∈ shapes → Carries shape.read shape.inside
  | union {u : Union} : u ∈ unions → Carries u.read u.inside
  | block : Carries all.block Block.parts
  | list {α : Type} {read : Decoder α} {one : α → List Part} {every : List α → List Part} :
      (∀ l, every l = l.flatMap one) → Carries read one → Carries (Decode.list read) every
  | optional {α : Type} {read : Decoder α} {one : α → List Part} {option : Option α → List Part} :
      option none = [] → (∀ a, option (some a) = one a) → Carries read one →
      Carries (Decode.optional read) option

theorem Shape.carry_mk {Whole : Type} {read : Decoder Whole} {inside : Whole → List Part}
    {slots : List (Slot read)} (h : ∀ slot ∈ slots, Carries slot.part slot.inside) :
    ∀ slot ∈ (Shape.mk read inside slots).slots, Carries slot.part slot.inside :=
  h

theorem carries_inlines : Carries all.inlines Inline.partsList :=
  .list Inline.partsList_eq_flatMap (@Carries.union inlineUnion (by simp [unions]))

theorem carries_blocks : Carries all.blocks Block.partsList :=
  .list Block.partsList_eq_flatMap .block

theorem shapes_carry : ∀ shape ∈ shapes, ∀ slot ∈ shape.slots, Carries slot.part slot.inside := by
  have hrecord : ∀ shape ∈ shapes, Carries shape.read shape.inside := fun _ => .record
  have htarget : Carries targetUnion.read targetUnion.inside := .union (by simp [unions])
  have hinlines := carries_inlines
  have hblocks := carries_blocks
  simp only [shapes, List.forall_mem_cons] at hrecord
  obtain ⟨-, -, hsection, hfootnote, hentry, hitem, -, hcell, hrow, -, hgridItem, -, hcolumn, -,
    hpanel, -, -, -, -, -, -, -, hnote, -⟩ := hrecord
  have hrows : Carries (Decode.list all.tableRow) TableRow.partsList :=
    .list (eq_flatMap_of_cons · rfl fun _ _ => rfl) hrow
  simp only [shapes, List.forall_mem_cons]
  and_intros
  all_goals first
    | exact List.forall_mem_nil _
    | refine Shape.carry_mk ?_
      simp only [List.forall_mem_cons, Slot.required, Slot.defaulted, Slot.optional, Slot.blocks,
        Slot.inlines]
      and_intros
      all_goals first
        | exact List.forall_mem_nil _
        | assumption
        | exact .optional rfl (fun _ => rfl) (by assumption)
        | exact .list (eq_flatMap_of_cons · rfl fun _ _ => rfl) (by assumption)

theorem blockVariants_carry : ∀ v ∈ blockVariants, Carries v.part v.inside := by
  have hrecord : ∀ shape ∈ shapes, Carries shape.read shape.inside := fun _ => .record
  simp only [shapes, List.forall_mem_cons] at hrecord
  obtain ⟨-, hdocument, hsection, -, -, -, hlisting, -, -, htable, -, hgrid, -, hcolumns, -, hsides,
    hpanels, hstatement, hfolded, hquote, halert, hcomponent, -, hoverlay, hparagraph, hequation,
    hcode, himage, hdiagram, -⟩ := hrecord
  simp only [blockVariants, List.forall_mem_cons]
  and_intros
  all_goals first
    | exact List.forall_mem_nil _
    | assumption

theorem unions_carry : ∀ u ∈ unions, ∀ v ∈ u.variants, Carries v.part v.inside := by
  simp only [unions, List.forall_mem_cons]
  refine ⟨?_, ?_, blockVariants_carry, List.forall_mem_nil _⟩
  · exact List.forall_mem_cons.mpr
      ⟨@Carries.record linkShape List.mem_cons_self, List.forall_mem_nil _⟩
  · exact List.forall_mem_cons.mpr
      ⟨@Carries.record documentShape documentShape_mem, List.forall_mem_nil _⟩

/-! ## The pointers -/

/-- A pointer leads to the block in the value. -/
def PointsTo {α : Type} (read : Decoder α) (m : Manner) (j : Json) (b : Block) : Prop :=
  ∃ pointer, Leads read m j pointer ∧ (j.at? pointer).bind Block.decode.read = some b

section Steps

variable {m : Manner} {j part : Json} {s : Step} {b : Block}

theorem PointsTo.field {shape : Shape} {slot : Slot shape.read} (hshape : shape ∈ shapes)
    (hslot : slot ∈ shape.slots) (hs : s.Selects slot.position slot.name)
    (hpart : j.child? s = some part)
    (h : PointsTo slot.part m part b) : PointsTo shape.read m j b := by
  obtain ⟨pointer, hleads, hfound⟩ := h
  refine ⟨s :: pointer, .field hshape hslot hs hpart hleads, ?_⟩
  rw [at?, hpart, Option.bind_some]
  exact hfound

theorem PointsTo.variant {u : Union} {v : Variant u.Whole} {m' : Manner} (hu : u ∈ unions)
    (hv : v ∈ u.variants) (ht : tagged? u.tags .indexed j = some ⟨v.tag, some part, m'⟩)
    (hsome : (v.part m' part).isSome = true) (hs : s.Selects 1 "content")
    (hpart : j.child? s = some part) (h : PointsTo v.part m' part b) : PointsTo u.read m j b := by
  obtain ⟨pointer, hleads, hfound⟩ := h
  refine ⟨s :: pointer, .variant hu hv ht hsome hs hpart hleads, ?_⟩
  rw [at?, hpart, Option.bind_some]
  exact hfound

theorem PointsTo.item {α : Type} {read : Decoder α} {items : List Json} {i : Nat}
    (hpart : items[i]? = some part) (h : PointsTo read m part b) :
    PointsTo (Decode.list read) m (.arr items) b := by
  obtain ⟨pointer, hleads, hfound⟩ := h
  refine ⟨.item i :: pointer, .item hpart hleads, ?_⟩
  rw [at?, child?, hpart, Option.bind_some]
  exact hfound

end Steps

/-- Every block inside a value that is nested less deep than a bound has a pointer that leads to
it. -/
def PointsBelow (n : Nat) : Prop :=
  ∀ {α : Type} {read : Decoder α} {inside : α → List Part}, Carries read inside →
    ∀ {m j a b}, j.depth < n → read m j = some a → Part.block b ∈ inside a → PointsTo read m j b

section Depth

variable {n : Nat} (ih : PointsBelow n)

include ih

theorem pointsTo_record {shape : Shape} (hshape : shape ∈ shapes) {m : Manner} {j : Json}
    {a : shape.Whole} {b : Block} (hj : j.depth ≤ n) (ha : shape.read m j = some a)
    (hb : Part.block b ∈ shape.inside a) : PointsTo shape.read m j b := by
  obtain ⟨slot, hslot, hb⟩ := shapes_complete shape hshape a b hb
  have hlawful := shapes_lawful shape hshape slot hslot
  have hcarries := shapes_carry shape hshape slot hslot
  by_cases hpresent : ∃ s part, s.Selects slot.position slot.name ∧ j.child? s = some part
  · obtain ⟨s, part, hs, hpart⟩ := hpresent
    cases hx : slot.part m part with
    | none =>
      rw [hlawful.refuses hs hpart hx] at ha
      cases ha
    | some x =>
      rw [hlawful.gets hs hpart hx ha] at hb
      have hdepth := depth_of_child? hpart
      exact (ih hcarries (by omega) hx hb).field hshape hslot hs hpart
  · have hnone : ∀ s : Step, s.Selects slot.position slot.name → j.child? s = none := by
      intro s hs
      cases hpart : j.child? s with
      | none => rfl
      | some part => exact absurd ⟨s, part, hs, hpart⟩ hpresent
    rw [slot.inside_absent _ (hlawful.missing hnone ha)] at hb
    cases hb

theorem pointsTo_union {u : Union} (hu : u ∈ unions) {m : Manner} {j : Json} {a : u.Whole}
    {b : Block} (hj : j.depth ≤ n) (ha : u.read m j = some a) (hb : Part.block b ∈ u.inside a) :
    PointsTo u.read m j b := by
  obtain ⟨v, hv, content, m', x, ht, hx, hb⟩ :=
    (unions_complete u hu).exists_variant (unions_lawful u hu) ha hb
  obtain ⟨s, hs, hcontent⟩ := of_tagged? ht _ rfl
  have hdepth := depth_of_child? hcontent
  have hsome : (v.part m' content).isSome = true := by rw [hx, Option.isSome_some]
  exact (ih (unions_carry u hu v hv) (by omega) hx hb).variant hu hv ht hsome hs hcontent

theorem pointsTo_block {m : Manner} {j : Json} {a b : Block} (hj : j.depth ≤ n)
    (ha : all.block m j = some a) (hb : Part.block b ∈ a.parts) : PointsTo all.block m j b := by
  have hparts : a.parts = .block a :: a.parts.tail := by cases a <;> rfl
  rw [hparts, List.mem_cons] at hb
  obtain hself | hinside := hb
  · cases hself
    refine ⟨[], .here, ?_⟩
    rw [at?, Option.bind_some, ← block_manner m, ha]
  · exact pointsTo_union ih (u := blockUnion) (by simp [unions]) hj ha hinside

end Depth

/-- By induction on the bound, and for each bound on what reads the value: lists and optional values
pass it on. -/
theorem pointsBelow (n : Nat) : PointsBelow n := by
  induction n with
  | zero => exact fun _ _ _ _ _ hj => absurd hj (Nat.not_lt_zero _)
  | succ n ih =>
    intro α read inside h
    induction h with
    | record hshape => exact fun hj ha hb => pointsTo_record ih hshape (by omega) ha hb
    | union hu => exact fun hj ha hb => pointsTo_union ih hu (by omega) ha hb
    | block => exact fun hj ha hb => pointsTo_block ih (by omega) ha hb
    | list hevery _ ih =>
      intro m j as b hj ha hb
      rw [hevery, List.mem_flatMap] at hb
      obtain ⟨a, hmem, hb⟩ := hb
      obtain ⟨items, rfl, -⟩ := list_eq_some ha
      obtain ⟨i, part, hpart, hread⟩ := exists_item ha hmem
      have hdepth : part.depth < (Json.arr items).depth := depth_of_child? (s := .item i) hpart
      exact (ih (by omega) hread hb).item hpart
    | optional hnone hsome _ ih =>
      intro m j a b hj ha hb
      by_cases hnull : j = .null
      · subst hnull
        cases ha
        rw [hnone] at hb
        cases hb
      · rw [optional_of_ne_null hnull] at ha
        obtain ⟨x, hx, rfl⟩ := Option.map_eq_some_iff.mp ha
        rw [hsome] at hb
        obtain ⟨pointer, hleads, hfound⟩ := ih hj hx hb
        exact ⟨pointer, .present hnull hleads, hfound⟩

/-- Every block among the parts of a document has a pointer that leads to it. -/
theorem Document.pointsTo {m : Manner} {j : Json} {d : Document} {b : Block}
    (hd : Document.decode m j = some d) (hb : Part.block b ∈ d.parts) :
    PointsTo Document.decode m j b := by
  have hcarries : Carries documentShape.read documentShape.inside := .record documentShape_mem
  exact pointsBelow _ hcarries (Nat.lt_succ_self _) hd hb

end Compendium
