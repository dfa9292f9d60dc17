import Compendium.Proofs.Render.NumberChains
import Compendium.Proofs.Text.Utf8
import Compendium.Render.ListMarker
import Mathlib.Data.List.Induction

/-!
# Markers of list items read back

Letters are the digits 1 to 26 of a numeration without a zero, so every number from one on has just
one word, and the label is that word. Roman numerals are read by the subtractive rule: a letter
counts against the next one if that is larger. The greedy choice of numerals never puts a smaller
letter in front of a larger one except inside a numeral, so the values of the numerals add up. Where
there is no word or numeral, the label is in decimal digits, which are neither letters nor roman
digits. So the number of an item can be told from its marker.
-/

namespace Compendium.ListMarker

/-! ## Letters -/

/-- The number that a word stands for, if its letters count from one on, starting with the given
letter. -/
def lettersValue (first : Char) (word : List Char) : Nat :=
  word.foldl (fun n c => 26 * n + (c.toNat - first.toNat + 1)) 0

/-- A word of the 26 letters from the given one on that stands for a number. -/
structure IsLetterNumeral (first : Char) (n : Nat) (word : List Char) : Prop where
  nonempty : word ≠ []
  letters : ∀ c ∈ word, first.toNat ≤ c.toNat ∧ c.toNat < first.toNat + 26
  value : lettersValue first word = n

theorem lettersValue_concat (first : Char) (word : List Char) (c : Char) :
    lettersValue first (word ++ [c]) = 26 * lettersValue first word +
      (c.toNat - first.toNat + 1) := by
  rw [lettersValue, List.foldl_append]
  rfl

theorem lettersReversed_zero : lettersReversed 0 = [] := by
  rw [lettersReversed, dif_pos rfl]

theorem lettersReversed_pos {n : Nat} (h : n ≠ 0) :
    lettersReversed n = Char.ofNat (97 + (n - 1) % 26) :: lettersReversed ((n - 1) / 26) := by
  rw [lettersReversed, dif_neg h]

/-- The letters of a number are letters, and they stand for it. -/
theorem lettersReversed_reads (n : Nat) :
    (∀ c ∈ lettersReversed n, 97 ≤ c.toNat ∧ c.toNat < 97 + 26) ∧
      lettersValue 'a' (lettersReversed n).reverse = n := by
  induction n using Nat.strongRecOn with
  | ind n ih =>
    by_cases hn : n = 0
    · rw [hn, lettersReversed_zero]
      exact ⟨List.forall_mem_nil _, rfl⟩
    · obtain ⟨hletters, hvalue⟩ := ih ((n - 1) / 26) (by omega)
      have hlast : (Char.ofNat (97 + (n - 1) % 26)).toNat = 97 + (n - 1) % 26 :=
        Text.toNat_ofNat (.inl (by omega))
      rw [lettersReversed_pos hn]
      refine ⟨List.forall_mem_cons.mpr ⟨by omega, hletters⟩, ?_⟩
      rw [List.reverse_cons, lettersValue_concat, hvalue, hlast]
      show 26 * ((n - 1) / 26) + (97 + (n - 1) % 26 - 97 + 1) = n
      omega

/-- A word of letters is made of the letters of the number that it stands for. -/
theorem lettersReversed_lettersValue {word : List Char}
    (h : ∀ c ∈ word, 97 ≤ c.toNat ∧ c.toNat < 97 + 26) :
    lettersReversed (lettersValue 'a' word) = word.reverse := by
  induction word using List.reverseRecOn with
  | nil => exact lettersReversed_zero
  | append_singleton word c ih =>
    obtain ⟨hword, hc⟩ := List.forall_mem_append.mp h
    have hvalue : lettersValue 'a' (word ++ [c]) =
        26 * lettersValue 'a' word + (c.toNat - 97 + 1) :=
      lettersValue_concat 'a' word c
    have hlow := hc c List.mem_cons_self
    have hdigit : 97 + (lettersValue 'a' (word ++ [c]) - 1) % 26 = c.toNat := by omega
    have hrest : (lettersValue 'a' (word ++ [c]) - 1) / 26 = lettersValue 'a' word := by omega
    rw [lettersReversed_pos (by omega), hdigit, hrest, ih hword, Char.ofNat_toNat,
      List.reverse_concat]

theorem lettersValue_pos {first : Char} {word : List Char} (h : word ≠ []) :
    1 ≤ lettersValue first word := by
  rw [← List.dropLast_append_getLast h, lettersValue_concat]
  omega

theorem alpha_pos {n : Nat} (h : 1 ≤ n) : alpha n = (lettersReversed n).reverse :=
  if_neg (by omega)

/-- The label of a number from one on is the one word that stands for it. -/
theorem isLetterNumeral_iff (n : Nat) (word : List Char) :
    IsLetterNumeral 'a' n word ↔ 1 ≤ n ∧ word = alpha n := by
  constructor
  · rintro ⟨hne, hletters, rfl⟩
    refine ⟨lettersValue_pos hne, ?_⟩
    rw [alpha_pos (lettersValue_pos hne), lettersReversed_lettersValue hletters,
      List.reverse_reverse]
  · rintro ⟨hn, rfl⟩
    obtain ⟨hletters, hvalue⟩ := lettersReversed_reads n
    rw [alpha_pos hn]
    refine ⟨?_, fun c hc => hletters c (List.mem_reverse.mp hc), hvalue⟩
    rw [lettersReversed_pos (by omega)]
    simp

/-- The capital form of a letter; every other character stays. -/
def capital (c : Char) : Char :=
  if 'a' ≤ c && c ≤ 'z' then Char.ofNat (c.toNat - 32) else c

theorem upperAscii_eq (word : List Char) : Text.upperAscii word = word.map capital :=
  rfl

/-- What holds of the 26 letters and their capitals, and of characters that are their own
capital. -/
theorem capital_induction {P : Char → Char → Prop}
    (hletter : ∀ k < 26, P (Char.ofNat (97 + k)) (Char.ofNat (65 + k)))
    (hother : ∀ c, P c c) (c : Char) :
    P c (capital c) := by
  unfold capital
  split
  · next h =>
    rw [Bool.and_eq_true, decide_eq_true_eq, decide_eq_true_eq] at h
    have hlow : 97 ≤ c.toNat := h.1
    have hhigh : c.toNat ≤ 122 := h.2
    have hP := hletter (c.toNat - 97) (by omega)
    have hsmall : 97 + (c.toNat - 97) = c.toNat := by omega
    have hcapital : 65 + (c.toNat - 97) = c.toNat - 32 := by omega
    rwa [hsmall, hcapital, Char.ofNat_toNat] at hP
  · exact hother c

theorem toNat_capital {c : Char} (h : 97 ≤ c.toNat ∧ c.toNat < 97 + 26) :
    (capital c).toNat = c.toNat - 32 := by
  have hletter : ('a' ≤ c && c ≤ 'z') = true := by
    rw [Bool.and_eq_true, decide_eq_true_eq, decide_eq_true_eq]
    exact ⟨show 97 ≤ c.toNat from h.1, show c.toNat ≤ 122 by omega⟩
  rw [capital, if_pos hletter, Text.toNat_ofNat (.inl (by omega))]

/-- Moving all letters along with the first one keeps the number. -/
theorem lettersValue_map {first other : Char} {f : Char → Char} {word : List Char}
    (h : ∀ c ∈ word, (f c).toNat - other.toNat = c.toNat - first.toNat) :
    lettersValue other (word.map f) = lettersValue first word := by
  induction word using List.reverseRecOn with
  | nil => rfl
  | append_singleton word c ih =>
    obtain ⟨hword, hc⟩ := List.forall_mem_append.mp h
    rw [List.map_append, List.map_singleton, lettersValue_concat, lettersValue_concat, ih hword,
      hc c List.mem_cons_self]

theorem isLetterNumeral_capital_iff (n : Nat) (word : List Char) :
    IsLetterNumeral 'A' n word ↔ 1 ≤ n ∧ word = Text.upperAscii (alpha n) := by
  constructor
  · rintro ⟨hne, hletters, rfl⟩
    -- the small letters of the word are a numeral, and the word is their capital form
    let small := word.map fun c => Char.ofNat (c.toNat + 32)
    have hcode : ∀ c ∈ word, (Char.ofNat (c.toNat + 32)).toNat = c.toNat + 32 := fun c hc => by
      have hrange : 65 ≤ c.toNat ∧ c.toNat < 65 + 26 := hletters c hc
      exact Text.toNat_ofNat (.inl (by omega))
    have hsmall : IsLetterNumeral 'a' (lettersValue 'A' word) small := by
      refine ⟨by simpa [small] using hne, fun d hd => ?_, lettersValue_map fun c hc => ?_⟩
      · obtain ⟨c, hc, rfl⟩ := List.mem_map.mp hd
        have hrange : 65 ≤ c.toNat ∧ c.toNat < 65 + 26 := hletters c hc
        rw [hcode c hc]
        show 97 ≤ c.toNat + 32 ∧ c.toNat + 32 < 97 + 26
        omega
      · rw [hcode c hc]
        show c.toNat + 32 - 97 = c.toNat - 65
        omega
    obtain ⟨hpos, heq⟩ := (isLetterNumeral_iff _ _).mp hsmall
    refine ⟨hpos, ?_⟩
    have hback : ∀ c ∈ word, capital (Char.ofNat (c.toNat + 32)) = c := fun c hc => by
      have hrange : 65 ≤ c.toNat ∧ c.toNat < 65 + 26 := hletters c hc
      apply Char.toNat_inj.mp
      rw [toNat_capital (by rw [hcode c hc]; omega), hcode c hc]
      omega
    calc word = word.map id := (List.map_id word).symm
      _ = small.map capital := by
        rw [List.map_map]
        exact List.map_congr_left fun c hc => (hback c hc).symm
      _ = Text.upperAscii (alpha (lettersValue 'A' word)) := by rw [← heq, upperAscii_eq]
  · rintro ⟨hn, rfl⟩
    obtain ⟨hne, hletters, hvalue⟩ := (isLetterNumeral_iff n _).mpr ⟨hn, rfl⟩
    refine ⟨by simpa [upperAscii_eq] using hne, fun d hd => ?_, ?_⟩
    · obtain ⟨c, hc, rfl⟩ := List.mem_map.mp hd
      have hrange : 97 ≤ c.toNat ∧ c.toNat < 97 + 26 := hletters c hc
      show 65 ≤ (capital c).toNat ∧ (capital c).toNat < 65 + 26
      rw [toNat_capital hrange]
      omega
    · rw [upperAscii_eq]
      refine (lettersValue_map fun c hc => ?_).trans hvalue
      have hrange : 97 ≤ c.toNat ∧ c.toNat < 97 + 26 := hletters c hc
      rw [toNat_capital hrange]
      show c.toNat - 32 - 65 = c.toNat - 97
      omega

/-! ## Roman numerals -/

/-- The value of a roman digit; other characters have none. -/
def romanDigit : Char → Nat
  | 'i' | 'I' => 1
  | 'v' | 'V' => 5
  | 'x' | 'X' => 10
  | 'l' | 'L' => 50
  | 'c' | 'C' => 100
  | 'd' | 'D' => 500
  | 'm' | 'M' => 1000
  | _ => 0

/-- The sum of digits, in which a digit in front of a larger one is taken away. -/
def subtractive : List Nat → Int
  | [] => 0
  | v :: rest => (if v < rest.headD 0 then -(v : Int) else v) + subtractive rest

/-- The number that a word stands for as a roman numeral, if all its characters are roman digits. -/
def readRoman? (word : List Char) : Option Int :=
  if word.all fun c => romanDigit c != 0 then some (subtractive (word.map romanDigit)) else none

theorem subtractive_append {u w : List Nat} (h : u ≠ [] → w.headD 0 ≤ u.getLastD 0) :
    subtractive (u ++ w) = subtractive u + subtractive w := by
  induction u with
  | nil => simp [subtractive]
  | cons v rest ih =>
    cases rest with
    | nil =>
      have hle : ¬v < w.headD 0 := Nat.not_lt.mpr (h (List.cons_ne_nil v []))
      rw [List.singleton_append, subtractive, if_neg hle]
      simp [subtractive]
    | cons v' rest =>
      have hrest := ih fun _ => h (List.cons_ne_nil v _)
      rw [List.cons_append, subtractive, hrest, ← Int.add_assoc]
      rfl

def romanDigits (word : List Char) : List Nat :=
  word.map romanDigit

theorem romanDigits_append (u w : List Char) :
    romanDigits (u ++ w) = romanDigits u ++ romanDigits w :=
  List.map_append

theorem headD_append_le {u w : List Nat} {m : Nat} (hu : u.headD 0 ≤ m) (hw : w.headD 0 ≤ m) :
    (u ++ w).headD 0 ≤ m := by
  cases u with
  | nil => exact hw
  | cons v rest => exact hu

/-- Numerals that may follow one another in this order: each stands for its value, and neither it
nor a later one starts with a digit that is larger than its last. -/
structure Falling (table : List (Nat × List Char)) : Prop where
  reads : ∀ e ∈ table, subtractive (romanDigits e.2) = e.1
  repeats : ∀ e ∈ table, (romanDigits e.2).headD 0 ≤ (romanDigits e.2).getLastD 0
  falls : table.Pairwise fun e f => (romanDigits f.2).headD 0 ≤ (romanDigits e.2).getLastD 0

theorem Falling.tail {e : Nat × List Char} {rest : List (Nat × List Char)}
    (h : Falling (e :: rest)) :
    Falling rest :=
  ⟨fun f hf => h.reads f (List.mem_cons_of_mem e hf), fun f hf =>
    h.repeats f (List.mem_cons_of_mem e hf), (List.pairwise_cons.mp h.falls).2⟩

theorem headD_replicate_le {numeral word : List Char} {m : Nat}
    (hnumeral : (romanDigits numeral).headD 0 ≤ m)
    (hword : (romanDigits word).headD 0 ≤ m) (k : Nat) :
    (romanDigits ((List.replicate k numeral).flatten ++ word)).headD 0 ≤ m := by
  induction k with
  | zero => exact hword
  | succ k ih =>
    rw [List.replicate_succ, List.flatten_cons, List.append_assoc, romanDigits_append]
    exact headD_append_le hnumeral ih

/-- A numeral repeated in front of a word adds its value as often. -/
theorem subtractive_replicate {numeral word : List Char}
    (hself : (romanDigits numeral).headD 0 ≤ (romanDigits numeral).getLastD 0)
    (hword : (romanDigits word).headD 0 ≤ (romanDigits numeral).getLastD 0) (k : Nat) :
    subtractive (romanDigits ((List.replicate k numeral).flatten ++ word)) =
      k * subtractive (romanDigits numeral) + subtractive (romanDigits word) := by
  induction k with
  | zero => simp
  | succ k ih =>
    rw [List.replicate_succ, List.flatten_cons, List.append_assoc, romanDigits_append,
      subtractive_append fun _ =>
      headD_replicate_le hself hword k, ih, Int.natCast_succ, Int.add_mul, Int.one_mul]
    omega

theorem headD_romanWith {table : List (Nat × List Char)} {m : Nat}
    (h : ∀ e ∈ table, (romanDigits e.2).headD 0 ≤ m) (n : Nat) :
    (romanDigits (romanWith table n)).headD 0 ≤ m := by
  induction table generalizing n with
  | nil => exact Nat.zero_le m
  | cons e rest ih =>
    obtain ⟨he, hrest⟩ := List.forall_mem_cons.mp h
    exact headD_replicate_le he (ih hrest (n % e.1)) (n / e.1)

/-- What is left of a number when all numerals of a table are written. -/
def leftOver (table : List (Nat × List Char)) (n : Nat) : Nat :=
  table.foldl (fun n e => n % e.1) n

/-- The numerals add up to the number, but for what is left. -/
theorem subtractive_romanWith {table : List (Nat × List Char)} (h : Falling table) (n : Nat) :
    subtractive (romanDigits (romanWith table n)) + leftOver table n = n := by
  induction table generalizing n with
  | nil => simp [romanWith, romanDigits, subtractive, leftOver]
  | cons e rest ih =>
    have hnext := headD_romanWith (List.pairwise_cons.mp h.falls).1 (n % e.1)
    have hself := h.repeats e List.mem_cons_self
    have hvalue := h.reads e List.mem_cons_self
    have hrest := ih h.tail (n % e.1)
    have hleft : leftOver (e :: rest) n = leftOver rest (n % e.1) := rfl
    have hdiv : ((n / e.1 : Nat) : Int) * e.1 + (n % e.1 : Nat) = n := by
      exact_mod_cast Nat.div_add_mod' n e.1
    rw [romanWith, subtractive_replicate hself hnext, hvalue, hleft]
    omega

theorem falling_numerals : Falling numerals :=
  ⟨by decide, by decide, by decide⟩

theorem mem_romanWith {table : List (Nat × List Char)} {n : Nat} {c : Char}
    (h : c ∈ romanWith table n) :
    c ∈ table.flatMap (·.2) := by
  induction table generalizing n with
  | nil => exact h
  | cons e rest ih =>
    rw [List.flatMap_cons, List.mem_append]
    obtain hown | hrest := List.mem_append.mp h
    · obtain ⟨numeral, hnumeral, hc⟩ := List.mem_flatten.mp hown
      exact .inl ((List.mem_replicate.mp hnumeral).2 ▸ hc)
    · exact .inr (ih hrest)

/-- Decimal digits are neither roman digits nor letters with a capital. -/
theorem isDigit_plain {c : Char} (h : c.isDigit = true) : romanDigit c = 0 ∧ capital c = c := by
  have hall : ∀ k < 10, romanDigit (Char.ofNat (48 + k)) = 0 ∧
      capital (Char.ofNat (48 + k)) = Char.ofNat (48 + k) := by decide
  rw [Char.isDigit, Bool.and_eq_true, decide_eq_true_eq, decide_eq_true_eq] at h
  have hlow : 48 ≤ c.toNat := h.1
  have hhigh : c.toNat ≤ 57 := h.2
  have hc := hall (c.toNat - 48) (by omega)
  have hcode : 48 + (c.toNat - 48) = c.toNat := by omega
  rwa [hcode, Char.ofNat_toNat] at hc

theorem isDigit_of_mem_natText {n : Nat} {c : Char} (h : c ∈ Decimal.natText n) :
    c.isDigit = true :=
  Nat.isDigit_of_mem_toDigits (by decide) (by decide) h

/-- A number in the range of roman numerals is read back, and any other label is no numeral. -/
theorem readRoman?_roman (n : Nat) :
    readRoman? (roman n) = if 1 ≤ n ∧ n ≤ 3999 then some (n : Int) else none := by
  unfold roman
  by_cases hn : 1 ≤ n ∧ n ≤ 3999
  · have hletters : (romanWith numerals n).all (fun c => romanDigit c != 0) = true := by
      have htable : (numerals.flatMap (·.2)).all (fun c => romanDigit c != 0) = true := by decide
      rw [List.all_eq_true] at htable ⊢
      exact fun c hc => htable c (mem_romanWith hc)
    have hleft : leftOver numerals n = 0 := Nat.mod_one _
    have hvalue := subtractive_romanWith falling_numerals n
    rw [hleft] at hvalue
    rw [if_pos (by simpa using hn), if_pos hn, readRoman?, if_pos hletters, ← hvalue]
    simp [romanDigits]
  · have hdigits : (Decimal.natText n).all (fun c => romanDigit c != 0) = false := by
      obtain ⟨c, hc⟩ := List.exists_mem_of_ne_nil _ (Nat.toDigits_ne_nil (n := n) (b := 10))
      rw [List.all_eq_false]
      exact ⟨c, hc, by simp [(isDigit_plain (isDigit_of_mem_natText hc)).1]⟩
    rw [if_neg (by simpa using hn), if_neg hn, readRoman?, hdigits, if_neg Bool.false_ne_true]

theorem romanDigit_capital (c : Char) : romanDigit (capital c) = romanDigit c :=
  capital_induction (P := fun c d => romanDigit d = romanDigit c) (by decide) (fun _ => rfl) c

theorem readRoman?_upperAscii (word : List Char) :
    readRoman? (Text.upperAscii word) = readRoman? word := by
  simp only [readRoman?, upperAscii_eq, List.all_map, List.map_map, Function.comp_def,
    romanDigit_capital]

/-! ## Labels and markers -/

theorem natText_injective : Function.Injective Decimal.natText := fun _ _ h =>
  natAttr_injective (congrArg String.ofList h)

/-- Labels that are letter numerals from one on and a digit for zero are all different. -/
theorem injective_of_letters {first : Char} {f : Nat → List Char} (hfirst : '0'.toNat < first.toNat)
    (hzero : f 0 = ['0']) (hf : ∀ n word, IsLetterNumeral first n word ↔ 1 ≤ n ∧ word = f n) :
    Function.Injective f := by
  have hdigit : ∀ n, f n = ['0'] → n = 0 := by
    intro n hn
    by_contra hpos
    have hnumeral := (hf n ['0']).mpr ⟨by omega, hn.symm⟩
    have hletter := hnumeral.letters '0' List.mem_cons_self
    omega
  intro m n h
  by_cases hm : m = 0
  · rw [hm] at h ⊢
    exact (hdigit n (h.symm.trans hzero)).symm
  · by_cases hn : n = 0
    · rw [hn] at h ⊢
      exact hdigit m (h.trans hzero)
    · have hvalue := ((hf m _).mpr ⟨by omega, rfl⟩).value
      rw [h, ((hf n _).mpr ⟨by omega, rfl⟩).value] at hvalue
      exact hvalue.symm

/-- Labels that are roman numerals in their range and decimal digits elsewhere are all different. -/
theorem injective_of_roman {f : Nat → List Char}
    (hread : ∀ n, readRoman? (f n) = if 1 ≤ n ∧ n ≤ 3999 then some (n : Int) else none)
    (hother : ∀ n, ¬(1 ≤ n ∧ n ≤ 3999) → f n = Decimal.natText n) : Function.Injective f := by
  intro m n h
  have hsame := (hread m).symm.trans ((congrArg readRoman? h).trans (hread n))
  by_cases hm : 1 ≤ m ∧ m ≤ 3999
  · rw [if_pos hm] at hsame
    split at hsame
    · exact Int.ofNat.inj (Option.some.inj hsame)
    · cases hsame
  · rw [if_neg hm] at hsame
    split at hsame
    · cases hsame
    · next hn =>
      rw [hother m hm, hother n hn] at h
      exact natText_injective h

theorem roman_of_outside {n : Nat} (h : ¬(1 ≤ n ∧ n ≤ 3999)) : roman n = Decimal.natText n :=
  if_neg (by simpa using h)

theorem readRoman?_label {style : OrderedStyle} (h : style ∈ [OrderedStyle.romanLower, .romanUpper])
    (n : Nat) : readRoman? (label style n) = if 1 ≤ n ∧ n ≤ 3999 then some (n : Int) else none := by
  rw [List.mem_pair] at h
  obtain rfl | rfl := h
  · exact readRoman?_roman n
  · exact (readRoman?_upperAscii (roman n)).trans (readRoman?_roman n)

theorem label_injective (style : OrderedStyle) : Function.Injective (label style) := by
  cases style with
  | decimal => exact natText_injective
  | unknown => exact natText_injective
  | alphaLower => exact injective_of_letters (by decide) rfl isLetterNumeral_iff
  | alphaUpper => exact injective_of_letters (by decide) (by decide) isLetterNumeral_capital_iff
  | romanLower =>
    exact injective_of_roman (readRoman?_label (by simp)) fun n hn => roman_of_outside hn
  | romanUpper =>
    refine injective_of_roman (readRoman?_label (by simp)) fun n hn => ?_
    show Text.upperAscii (roman n) = Decimal.natText n
    rw [roman_of_outside hn, upperAscii_eq, List.map_congr_left fun c hc =>
      (isDigit_plain (isDigit_of_mem_natText hc)).2, List.map_id']

theorem marker_eq_iff (style : OrderedStyle) (start : Option Nat) (i : Nat) (word : List Char) :
    marker (.ordered style) start i = String.ofList (word ++ ['.']) ↔
      word = label style (start.getD 1 + i) := by
  rw [marker, String.ofList_inj, List.append_left_inj, eq_comm]

/-- The markers of an ordered list tell its items apart. In letters, the marker of a number from one
on is the one word that stands for it; in roman numerals, it is read back from 1 to 3999, and is no
numeral outside. -/
theorem markers_identify_items (start : Option Nat) (i : Nat) :
    (∀ style j, marker (.ordered style) start i = marker (.ordered style) start j ↔ i = j) ∧
    (∀ word, IsLetterNumeral 'a' (start.getD 1 + i) word ↔
      1 ≤ start.getD 1 + i ∧ marker (.ordered .alphaLower) start i =
        String.ofList (word ++ ['.'])) ∧
    (∀ word, IsLetterNumeral 'A' (start.getD 1 + i) word ↔
      1 ≤ start.getD 1 + i ∧ marker (.ordered .alphaUpper) start i =
        String.ofList (word ++ ['.'])) ∧
    ∀ style ∈ [OrderedStyle.romanLower, .romanUpper], ∃ word,
      marker (.ordered style) start i = String.ofList (word ++ ['.']) ∧
      readRoman? word = if 1 ≤ start.getD 1 + i ∧ start.getD 1 + i ≤ 3999
        then some ((start.getD 1 + i : Nat) : Int) else none := by
  refine ⟨fun style j => ?_, fun word => ?_, fun word => ?_, fun style hstyle => ?_⟩
  · constructor
    · intro h
      have hlabel := label_injective style ((marker_eq_iff style start i _).mp h)
      omega
    · rintro rfl
      rfl
  · rw [marker_eq_iff]
    exact isLetterNumeral_iff _ _
  · rw [marker_eq_iff]
    exact isLetterNumeral_capital_iff _ _
  · refine ⟨label style (start.getD 1 + i), (marker_eq_iff ..).mpr rfl, ?_⟩
    exact readRoman?_label hstyle _

end Compendium.ListMarker
