import Compendium.Loading.Theory
import Compendium.Proofs.Text.Slug

/-!
# Flat files and bundles

A listed file may hold its records as a list, or as a bundle around the list. A bundle takes the
kind of its records from the declared content type: the words for theorems and the word for
definitions count in any case. A flat file knows the one word `theorem` only, and in small letters;
whatever else is declared, its records are definitions. So the two agree on definitions, and on
theorems that are called so; records that are declared as lemmas, or as `Theorems`, are theorems in
a bundle and definitions in a flat file.
-/

namespace Compendium

open Json

namespace RecordKind

theorem ofLabel?_of_theorem {label : String} (h : "theorem".toList <+: label.toList) :
    ofLabel? label = some theorem_ := by
  have hword : Text.lowerAscii "theorem".toList <+: Text.lowerAscii label.toList := h.map _
  have hother : "definition".toList.isPrefixOf (Text.lowerAscii label.toList) = false := by
    obtain ⟨rest, hrest⟩ := hword
    rw [← hrest]
    rfl
  have htheorem : theoremWords.any
      (fun w => w.toList.isPrefixOf (Text.lowerAscii label.toList)) = true :=
    List.any_eq_true.mpr ⟨"theorem", List.mem_cons_self, by rwa [List.isPrefixOf_iff_prefix]⟩
  unfold ofLabel?
  simp only [hother, htheorem, if_true, Bool.false_eq_true, if_false]

theorem ne_empty_of_ofLabel? {label : String} {kind : RecordKind} (h : ofLabel? label = some kind) :
    label ≠ "" := by
  rintro rfl
  have hnone : ofLabel? "" = none := by decide
  rw [hnone] at h
  cases h

end RecordKind

/-! ## Records of one kind -/

/-- The items that are records, all of them taken as one kind. -/
def Records.ofKind : RecordKind → List Json → Records
  | .definition, items => ⟨items.filterMap Definition.ofRecord?, []⟩
  | .theorem_, items => ⟨[], items.filterMap Theorem.ofRecord?⟩

theorem Definition.ofRecord?_eq_none {j : Json} :
    Definition.ofRecord? j = none ↔ j.isObj = false := by
  unfold Definition.ofRecord?
  cases j.isObj <;> simp

theorem Theorem.ofRecord?_eq_none {j : Json} : Theorem.ofRecord? j = none ↔ j.isObj = false := by
  unfold Theorem.ofRecord?
  cases j.isObj <;> simp

/-- The same items make the same records of both kinds only if none of them is a record. -/
theorem Records.ofKind_eq_iff {kind other : RecordKind} {items : List Json} :
    ofKind kind items = ofKind other items ↔ kind = other ∨ ∀ item ∈ items, item.isObj = false := by
  have hnone : (ofKind .definition items = ofKind .theorem_ items) ↔
      ∀ item ∈ items, item.isObj = false := by
    have hdefinitions : items.filterMap Definition.ofRecord? = [] ↔
        ∀ item ∈ items, item.isObj = false := by
      simp only [List.filterMap_eq_nil_iff, Definition.ofRecord?_eq_none]
    have htheorems : items.filterMap Theorem.ofRecord? = [] ↔
        ∀ item ∈ items, item.isObj = false := by
      simp only [List.filterMap_eq_nil_iff, Theorem.ofRecord?_eq_none]
    simp only [ofKind, Records.mk.injEq, eq_comm (a := ([] : List Theorem)), hdefinitions,
      htheorems, and_self]
  cases kind <;> cases other
  · simp
  · simp [hnone]
  · simp [eq_comm (a := ofKind .theorem_ items), hnone]
  · simp

namespace Loading

/-! ## The two shapes of a file -/

def flatKind (contentType : String) : RecordKind :=
  if "theorem".toList.isPrefixOf contentType.toList then .theorem_ else .definition

def bundled (items : List Json) : Json :=
  .obj [("content", .arr items)]

theorem listedType_of_declared {declared : String} (h : declared ≠ "") (path : String) :
    listedType declared path = declared := by
  unfold listedType
  rw [if_pos h]

theorem listedRecords_flat (path contentType : String) (items : List Json) :
    listedRecords path contentType (.arr items) = .ok (.ofKind (flatKind contentType) items) := by
  show Except.ok (flatRecords contentType (.arr items)) = _
  unfold flatRecords flatKind
  split <;> rfl

theorem read_bundled (items : List Json) :
    Bundle.decode.read (bundled items) = some ⟨items, ""⟩ := by
  have hitems : Decode.items (Decode.any .strict) items = some items := by
    induction items with
    | nil => rfl
    | cons item rest ih => rw [Decode.items, ih]; rfl
  show (Decode.items (Decode.any .strict) items).bind
    (fun content => some (Bundle.mk content "")) = _
  rw [hitems]
  rfl

/-- A bundle takes all its items as the kind that is declared. -/
theorem records_of_declared {contentType : String} {kind : RecordKind}
    (hkind : RecordKind.ofLabel? contentType = some kind) (items : List Json) (version : String) :
    Bundle.records ⟨items, version⟩ contentType = .ofKind kind items := by
  unfold Bundle.records
  rw [hkind]
  induction items with
  | nil => cases kind <;> rfl
  | cons item rest ih =>
    rw [List.foldr_cons, ih]
    cases kind with
    | definition => cases hitem : Definition.ofRecord? item <;>
        simp [Bundle.itemRecords, Records.append, Records.ofKind, hitem]
    | theorem_ => cases hitem : Theorem.ofRecord? item <;>
        simp [Bundle.itemRecords, Records.append, Records.ofKind, hitem]

theorem listedRecords_bundled (path : String) {contentType : String} {kind : RecordKind}
    (hkind : RecordKind.ofLabel? contentType = some kind) (items : List Json) :
    listedRecords path contentType (bundled items) = .ok (.ofKind kind items) := by
  have hcontent : ((bundled items).field? "content").isSome = true := rfl
  unfold listedRecords
  rw [if_pos hcontent, read_bundled]
  exact congrArg Except.ok (records_of_declared hkind items "")

/-- The kind of a flat file is the declared one for definitions, and for theorems that are called
so. -/
theorem flatKind_eq_iff {contentType : String} {kind : RecordKind}
    (hkind : RecordKind.ofLabel? contentType = some kind) :
    flatKind contentType = kind ↔ kind = .definition ∨ "theorem".toList <+: contentType.toList := by
  unfold flatKind
  by_cases hword : "theorem".toList <+: contentType.toList
  · rw [RecordKind.ofLabel?_of_theorem hword] at hkind
    rw [if_pos (by rwa [List.isPrefixOf_iff_prefix])]
    exact ⟨fun _ => .inr hword, fun _ => Option.some.inj hkind⟩
  · rw [if_neg (by rwa [List.isPrefixOf_iff_prefix])]
    exact ⟨fun h => .inl h.symm, fun h => (h.resolve_right hword).symm⟩

/-- The records of a file whose declared content type names a kind: each object of the list, as one
kind. The kind is the declared one in a bundle. In a flat file it is that only for definitions and
for theorems that are called so, so otherwise the two shapes agree on lists without objects only. -/
theorem flat_bundled_agree_iff (path declared : String) (items : List Json) {kind : RecordKind}
    (hkind : RecordKind.ofLabel? declared = some kind) :
    ∃ flat bundle : Records,
      listedRecords path (listedType declared path) (.arr items) = .ok flat ∧
      listedRecords path (listedType declared path) (bundled items) = .ok bundle ∧
      flat = .ofKind (flatKind declared) items ∧ bundle = .ofKind kind items ∧
      (flat = bundle ↔ kind = .definition ∨ "theorem".toList <+: declared.toList ∨
        ∀ item ∈ items, item.isObj = false) := by
  rw [listedType_of_declared (RecordKind.ne_empty_of_ofLabel? hkind)]
  refine ⟨_, _, listedRecords_flat path declared items,
    listedRecords_bundled path hkind items, rfl, rfl, ?_⟩
  rw [Records.ofKind_eq_iff, flatKind_eq_iff hkind, or_assoc]

def lemmaItems : List Json :=
  [.obj [("name", .str "Zorn"), ("statement", .str "Chains are bounded")], .str "note"]

theorem flat_bundled_agree_iff_theorems :
    RecordKind.ofLabel? "theorems" = some .theorem_ ∧
      ∃ flat bundle : Records,
        listedRecords "/t.json" (listedType "theorems" "/t.json") (.arr lemmaItems) = .ok flat ∧
        listedRecords "/t.json" (listedType "theorems" "/t.json") (bundled lemmaItems) =
        .ok bundle ∧ flat = bundle ∧ flat.theorems.map (·.name) = ["Zorn"] := by
  have hkind : RecordKind.ofLabel? "theorems" = some .theorem_ := by decide
  obtain ⟨flat, bundle, hflat, hbundle, hrecords, -, hagree⟩ :=
    flat_bundled_agree_iff "/t.json" "theorems" lemmaItems hkind
  have hword : "theorem".toList <+: "theorems".toList := by decide
  refine ⟨hkind, flat, bundle, hflat, hbundle, hagree.mpr (.inr (.inl hword)), ?_⟩
  rw [hrecords]
  rfl

/-- Declared as lemmas, the same list holds a theorem in a bundle and a definition in a flat
file. -/
theorem flat_lemmas_are_definitions :
    RecordKind.ofLabel? "lemmas" = some .theorem_ ∧
      listedRecords "/l.json" (listedType "lemmas" "/l.json") (.arr lemmaItems) =
        .ok ⟨[⟨"Zorn", "", "Unknown", []⟩], []⟩ ∧
      listedRecords "/l.json" (listedType "lemmas" "/l.json") (bundled lemmaItems) =
        .ok ⟨[], [⟨"Zorn", "Chains are bounded", "", [], []⟩]⟩ :=
  ⟨by decide, rfl, rfl⟩

end Loading

end Compendium
