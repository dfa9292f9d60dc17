import Compendium.Markup
import Compendium.Proofs.Path
import Compendium.Proofs.Text.Tidy
import Mathlib.Data.List.Forall2

/-!
# Reading styles

A style is read by cutting it at its semicolons. What stands between them, less the blanks in front,
are its declarations, and what stands in front of the first colon of a declaration is the property
it declares. A style that is put together from single declarations is read back as just these, in
order. A value has lost every character that could end its declaration, so it makes no further one,
and it takes none away.
-/

namespace Compendium.Css

/-- What stands between the semicolons of a style, without the blanks in front. -/
def pieces (style : String) : List (List Char) :=
  (style.toList.splitOn ';').map (·.dropWhile Text.isBlank)

def properties (style : String) : List String :=
  (pieces style).map fun piece => String.ofList (piece.takeWhile (· != ':'))

/-- A name of small letters and hyphens. -/
def IsProperty (name : String) : Prop :=
  name.toList ≠ [] ∧ name.toList.all (fun c => c.isLower || c == '-') = true

/-- The style is cut into declarations of these properties with these values, and nothing else. -/
structure Declares (style : String) (written : List (String × String)) : Prop where
  cut : pieces style = written.map fun w => (w.1 ++ ": " ++ w.2).toList
  names : ∀ w ∈ written, IsProperty w.1

/-- The text is a single declaration of the property. -/
def IsDeclaration (name text : String) : Prop :=
  IsProperty name ∧ (name ++ ": ").toList <+: text.toList ∧ ';' ∉ text.toList

instance (name : String) : Decidable (IsProperty name) :=
  inferInstanceAs (Decidable (_ ∧ _))

instance (name text : String) : Decidable (IsDeclaration name text) :=
  inferInstanceAs (Decidable (_ ∧ _ ∧ _))

/-! ## Single declarations -/

theorem IsProperty.plain {name : String} (h : IsProperty name) :
    ∀ c ∈ name.toList, Text.isBlank c = false ∧ c ≠ ':' ∧ c ≠ ';' := by
  intro c hc
  have hletter := List.all_eq_true.mp h.2 c hc
  rw [Bool.or_eq_true] at hletter
  rcases hletter with hlower | hhyphen
  · have hbounds : (decide (c.val ≥ 97) && decide (c.val ≤ 122)) = true := hlower
    have hrange : 97 ≤ c.toNat ∧ c.toNat ≤ 122 := by
      simpa [UInt32.le_iff_toNat_le] using hbounds
    refine ⟨?_, ?_, ?_⟩
    · simp only [Text.isBlank, Bool.or_eq_false_iff, Bool.and_eq_false_iff, decide_eq_false_iff_not,
        beq_eq_false_iff_ne]
      omega
    · rintro rfl
      exact absurd hrange.1 (by decide)
    · rintro rfl
      exact absurd hrange.1 (by decide)
  · obtain rfl := beq_iff_eq.mp hhyphen
    decide

theorem semicolon_notMem_value (s : String) : ';' ∉ (value s).toList := by
  intro h
  rw [value, String.toList_ofList] at h
  have hkept := (Text.trimWhile_sublist Text.isBlank _).subset h
  have hbreaks := (List.mem_filter.mp hkept).2
  revert hbreaks
  decide

theorem isDeclaration_mk {name : String} (hname : IsProperty name) {v : String}
    (hv : ';' ∉ v.toList) :
    IsDeclaration name (name ++ ": " ++ v) := by
  refine ⟨hname, ⟨v.toList, String.toList_append.symm⟩, ?_⟩
  have hfront : ';' ∉ name.toList := fun h => (hname.plain _ h).2.2 rfl
  rw [String.toList_append, String.toList_append, List.mem_append, List.mem_append]
  simp [hfront, hv]

/-- A declaration from its front, the property and the colon, and a value. -/
theorem isDeclaration_append {name front : String} (hname : IsProperty name)
    (hfront : name ++ ": " = front)
    {v : String} (hv : ';' ∉ v.toList) : IsDeclaration name (front ++ v) :=
  hfront ▸ isDeclaration_mk hname hv

theorem isDeclaration_declaration {name : String} (hname : IsProperty name) (s : String) :
    IsDeclaration name (declaration name s) :=
  isDeclaration_mk hname (semicolon_notMem_value s)

theorem IsDeclaration.exists_value {name text : String} (h : IsDeclaration name text) :
    ∃ v, text = name ++ ": " ++ v := by
  obtain ⟨-, ⟨rest, hrest⟩, -⟩ := h
  refine ⟨String.ofList rest, ?_⟩
  rw [← String.toList_inj, String.toList_append, String.toList_ofList, hrest]

theorem IsDeclaration.dropWhile {name text : String} (h : IsDeclaration name text) :
    text.toList.dropWhile Text.isBlank = text.toList := by
  obtain ⟨v, rfl⟩ := h.exists_value
  rw [String.toList_append, String.toList_append]
  cases hname : name.toList with
  | nil => exact absurd hname h.1.1
  | cons c rest =>
    have hc := (h.1.plain c (hname ▸ List.mem_cons_self)).1
    rw [List.cons_append, List.cons_append, List.dropWhile_cons_of_neg (by rw [hc]; decide)]

theorem IsDeclaration.takeWhile {name text : String} (h : IsDeclaration name text) :
    String.ofList (text.toList.takeWhile (· != ':')) = name := by
  obtain ⟨v, rfl⟩ := h.exists_value
  have hname : ∀ c ∈ name.toList, (c != ':') = true :=
    fun c hc => bne_iff_ne.mpr (h.1.plain c hc).2.1
  rw [String.append_assoc, String.toList_append, List.takeWhile_append_of_pos hname,
    String.toList_append]
  have hcolon : ((": ").toList ++ v.toList).takeWhile (· != ':') = [] := rfl
  rw [hcolon, List.append_nil, String.ofList_toList]

/-! ## Styles -/

variable {names declarations : List String}

/-- The blank after a semicolon is the first character of the next piece. -/
theorem split_style {front : List Char} (hfront : ';' ∉ front) {first : String} {rest : List String}
    (h : ∀ d ∈ first :: rest, ';' ∉ d.toList) :
    (front ++ (style (first :: rest)).toList).splitOn ';' =
      (front ++ first.toList) :: rest.map fun d => ' ' :: d.toList := by
  have hpieces : ∀ {front : List Char} {d : String}, ';' ∉ front → ';' ∉ d.toList →
      ∀ c ∈ front ++ d.toList, (c == ';') = false := by
    intro front d hfront hd c hc
    rw [beq_eq_false_iff_ne]
    rintro rfl
    exact (List.mem_append.mp hc).elim hfront hd
  induction rest generalizing front first with
  | nil =>
    rw [style, String.intercalate_singleton]
    exact List.splitOnP_eq_singleton (hpieces hfront (h first List.mem_cons_self))
  | cons next rest ih =>
    obtain ⟨hfirst, hothers⟩ := List.forall_mem_cons.mp h
    have hmark : (style (first :: next :: rest)).toList =
        first.toList ++ ';' :: ([' '] ++ (style (next :: rest)).toList) := by
      rw [style, String.intercalate_cons_cons, String.toList_append, String.toList_append,
        List.append_assoc]
      rfl
    rw [hmark, ← List.append_assoc, List.splitOn,
      List.splitOnP_append_cons_of_forall_mem (hpieces hfront hfirst) ';' (by decide)]
    exact congrArg (_ :: ·) (ih (by decide) hothers)

/-- A style is cut into the declarations it was put together from. -/
theorem pieces_style (h : List.Forall₂ IsDeclaration names declarations)
    (hsome : declarations ≠ []) :
    pieces (style declarations) = declarations.map String.toList := by
  cases h with
  | nil => exact absurd rfl hsome
  | @cons name first names declarations hfirst hrest =>
    have hall : ∀ d ∈ declarations, ∃ name, IsDeclaration name d := by
      intro d hd
      obtain ⟨i, hi, rfl⟩ := List.mem_iff_getElem.mp hd
      exact ⟨_, hrest.get (by rw [hrest.length_eq]; exact hi) hi⟩
    have hsplit : (style (first :: declarations)).toList.splitOn ';' =
        first.toList :: declarations.map fun d => ' ' :: d.toList :=
      split_style List.not_mem_nil (List.forall_mem_cons.mpr
        ⟨hfirst.2.2, fun d hd => (hall d hd).elim fun _ h => h.2.2⟩)
    rw [pieces, hsplit, List.map_cons, List.map_cons, hfirst.dropWhile, List.map_map]
    refine congrArg (_ :: ·) (List.map_congr_left fun d hd => ?_)
    obtain ⟨_, hd⟩ := hall d hd
    exact hd.dropWhile

/-- The properties of a style are those of the declarations it was put together from. -/
theorem properties_style (h : List.Forall₂ IsDeclaration names declarations)
    (hsome : declarations ≠ []) :
    properties (style declarations) = names := by
  rw [properties, pieces_style h hsome, List.map_map]
  clear hsome
  induction h with
  | nil => rfl
  | cons hfirst _ ih =>
    rw [List.map_cons, ih]
    exact congrArg (· :: _) hfirst.takeWhile

example :
    properties (style [declaration "color" "red; position: fixed", declaration "width" "2em"]) =
    ["color", "width"] := by
  decide +kernel

theorem exists_declares (h : List.Forall₂ IsDeclaration names declarations)
    (hsome : declarations ≠ []) :
    ∃ written, written.map Prod.fst = names ∧ Declares (style declarations) written := by
  suffices hwritten : ∃ written : List (String × String), written.map Prod.fst = names ∧
      declarations.map String.toList = written.map (fun w => (w.1 ++ ": " ++ w.2).toList) ∧
      ∀ w ∈ written, IsProperty w.1 by
    obtain ⟨written, hnames, htexts, hproper⟩ := hwritten
    exact ⟨written, hnames, (pieces_style h hsome).trans htexts, hproper⟩
  clear hsome
  induction h with
  | nil => exact ⟨[], rfl, rfl, List.forall_mem_nil _⟩
  | @cons name text names declarations hfirst _ ih =>
    obtain ⟨written, hnames, htexts, hproper⟩ := ih
    obtain ⟨v, rfl⟩ := hfirst.exists_value
    exact ⟨(name, v) :: written, congrArg (name :: ·) hnames, congrArg (_ :: ·) htexts,
      List.forall_mem_cons.mpr ⟨hfirst.1, hproper⟩⟩

end Compendium.Css
