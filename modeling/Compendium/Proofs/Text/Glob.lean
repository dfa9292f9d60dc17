import Compendium.Proofs.Path
import Compendium.Proofs.Text.Synchronization
import Compendium.Proofs.Text.Tidy
import Compendium.Text.Glob

/-!
# What glob patterns match

Names are matched octet by octet, so a star may stop inside a character. It gains nothing by that:
what comes after it in the pattern is a character again, or another star, or the end. So a pattern
without question marks matches just what it generates character by character. A question mark takes
one octet, and a run of them takes a text of just as many octets.
-/

namespace Compendium.Text.Glob

/-! ## What a pattern generates -/

/-- The names that a pattern segment stands for: each star is replaced by some text. -/
inductive Expands : List Char → List Char → Prop where
  | nil : Expands [] []
  | star (text : List Char) {pattern name : List Char} (rest : Expands pattern name) :
      Expands ('*' :: pattern) (text ++ name)
  | char {c : Char} (hc : c ≠ '*') {pattern name : List Char} (rest : Expands pattern name) :
      Expands (c :: pattern) (c :: name)

/-- The paths that pattern segments stand for: two stars are replaced by segments, and every other
segment stands for one name. -/
inductive Generates : List (List Char) → List (List Char) → Prop where
  | nil : Generates [] []
  | stars (names : List (List Char)) {pattern path : List (List Char)}
      (rest : Generates pattern path) :
      Generates (['*', '*'] :: pattern) (names ++ path)
  | segment {segment name : List Char} (hsegment : segment ≠ ['*', '*'])
      (hname : Expands segment name)
      {pattern path : List (List Char)} (rest : Generates pattern path) :
      Generates (segment :: pattern) (name :: path)

/-- The segments of a text: without the slashes around it, the text is cut at each slash. -/
def CutAtSlashes (text : List Char) (segments : List (List Char)) : Prop :=
  segments ≠ [] ∧ (∀ segment ∈ segments, '/' ∉ segment) ∧
    ∃ before after, text = before ++ (['/'].intercalate segments ++ after) ∧
      (∀ c ∈ before, c = '/') ∧
      (∀ c ∈ after, c = '/') ∧ (['/'].intercalate segments).head? ≠ some '/' ∧
        (['/'].intercalate segments).getLast? ≠ some '/'

/-! ## Octets -/

theorem anyTail_iff {α : Type} {p : List α → Bool} {l : List α} :
    anyTail p l = true ↔ ∃ tail, tail <:+ l ∧ p tail = true := by
  induction l with
  | nil => simp [anyTail]
  | cons a rest ih =>
    simp only [anyTail, Bool.or_eq_true, ih, List.suffix_cons_iff]
    constructor
    · rintro (h | ⟨tail, htail, h⟩)
      · exact ⟨a :: rest, .inl rfl, h⟩
      · exact ⟨tail, .inr htail, h⟩
    · rintro ⟨tail, rfl | htail, h⟩
      · exact .inl h
      · exact .inr ⟨tail, htail, h⟩

section Octets

variable {pattern name : List UInt8}

theorem matchBytes_star :
    matchBytes (star :: pattern) name = true ↔ ∃ tail, tail <:+ name ∧
      matchBytes pattern tail = true :=
  anyTail_iff

/-- Octets that are no wildcards are matched by themselves. -/
theorem matchBytes_literal {front : List UInt8} (hfront : ∀ b ∈ front, b ≠ star ∧ b ≠ question) :
    matchBytes (front ++ pattern) name = true ↔
      ∃ rest, name = front ++ rest ∧ matchBytes pattern rest = true := by
  induction front generalizing name with
  | nil => simp
  | cons b front ih =>
    obtain ⟨⟨hstar, hquestion⟩, hfront⟩ := List.forall_mem_cons.mp hfront
    cases name with
    | nil => simp [matchBytes, hstar]
    | cons d name =>
      simp only [List.cons_append, matchBytes, beq_iff_eq, hstar, if_false, Bool.and_eq_true,
        Bool.or_eq_true, hquestion, false_or, ih hfront, List.cons.injEq]
      constructor
      · rintro ⟨rfl, rest, rfl, hrest⟩
        exact ⟨rest, ⟨rfl, rfl⟩, hrest⟩
      · rintro ⟨rest, ⟨rfl, rfl⟩, hrest⟩
        exact ⟨rfl, rest, rfl, hrest⟩

/-- Question marks take as many octets as there are of them. -/
theorem matchBytes_questions {n : Nat} :
    matchBytes (List.replicate n question ++ pattern) name = true ↔
      ∃ front rest, name = front ++ rest ∧ front.length = n ∧ matchBytes pattern rest = true := by
  induction n generalizing name with
  | zero => simp
  | succ n ih =>
    have hne : question ≠ star := by decide
    cases name with
    | nil => simp [List.replicate_succ, matchBytes, hne]
    | cons b name =>
      simp only [List.replicate_succ, List.cons_append, matchBytes, beq_iff_eq, hne, if_false,
        Bool.and_eq_true, Bool.or_eq_true, true_or, true_and, ih]
      constructor
      · rintro ⟨front, rest, rfl, rfl, hrest⟩
        exact ⟨b :: front, rest, rfl, rfl, hrest⟩
      · rintro ⟨front, rest, hname, hlength, hrest⟩
        cases front with
        | nil => cases hlength
        | cons d front =>
          obtain ⟨-, rfl⟩ := List.cons.inj hname
          exact ⟨front, rest, rfl, Nat.succ.inj hlength, hrest⟩

end Octets

/-! ## Characters -/

section Characters

variable {pattern name : List Char}

/-- Whether a character of a pattern stands for itself. -/
def IsLiteral (c : Char) : Prop :=
  c ≠ '*' ∧ c ≠ '?'

instance (c : Char) : Decidable (IsLiteral c) :=
  inferInstanceAs (Decidable (c ≠ '*' ∧ c ≠ '?'))

/-- No octet of a character that stands for itself is a wildcard. -/
theorem IsLiteral.octets {c : Char} (hc : IsLiteral c) :
    ∀ b ∈ utf8Char c, b ≠ star ∧ b ≠ question := by
  have hother {d : Char} {b : UInt8} (hb : b ∈ utf8Char c) (hd : d.toNat = b.toNat)
    (hlow : d.toNat < 0x80) :
      c = d := by
    have htoNat := toNat_of_mem_utf8Char hb (by omega)
    rw [← Char.ofNat_toNat c, ← Char.ofNat_toNat d, htoNat, hd]
  intro b hb
  constructor
  · rintro rfl
    exact hc.1 (hother hb rfl (by decide))
  · rintro rfl
    exact hc.2 (hother hb rfl (by decide))

theorem octets_of_literals (h : ∀ c ∈ pattern, IsLiteral c) :
    ∀ b ∈ utf8 pattern, b ≠ star ∧ b ≠ question := by
  intro b hb
  obtain ⟨c, hc, hb⟩ := List.mem_flatMap.mp hb
  exact (h c hc).octets b hb

theorem matchSegment_nil : matchSegment [] name = true ↔ name = [] := by
  have hempty : matchSegment [] name = (utf8 name).isEmpty := rfl
  rw [hempty, List.isEmpty_iff]
  exact utf8_inj (t := [])

/-- A character that stands for itself is matched by itself. -/
theorem matchSegment_literal {c : Char} (hc : IsLiteral c) :
    matchSegment (c :: pattern) name = true ↔
      ∃ rest, name = c :: rest ∧ matchSegment pattern rest = true := by
  rw [matchSegment, utf8_cons, matchBytes_literal hc.octets]
  constructor
  · rintro ⟨rest, hname, hrest⟩
    obtain ⟨kept, rfl, rfl⟩ := eq_append_of_utf8_eq (t := [c]) (by simpa [utf8] using hname)
    exact ⟨kept, rfl, hrest⟩
  · rintro ⟨rest, rfl, hrest⟩
    exact ⟨utf8 rest, utf8_cons c rest, hrest⟩

/-- If octets at the end of a name match, so does an end of the name that is no longer. -/
theorem exists_aligned (hpattern : '?' ∉ pattern) {octets : List UInt8}
    (hsuffix : octets <:+ utf8 name) (hmatch : matchBytes (utf8 pattern) octets = true) :
    ∃ rest, rest <:+ name ∧ utf8 rest <:+ octets ∧ matchSegment pattern rest = true := by
  induction pattern generalizing octets with
  | nil =>
    obtain rfl : octets = [] := List.isEmpty_iff.mp hmatch
    exact ⟨[], List.nil_suffix, List.suffix_rfl, rfl⟩
  | cons c pattern ih =>
    obtain ⟨hquestion, hrest⟩ := not_or.mp (List.mem_cons.not.mp hpattern)
    by_cases hstar : c = '*'
    · subst hstar
      obtain ⟨tail, htail, hmatch⟩ := matchBytes_star.mp hmatch
      obtain ⟨rest, hend, hoctets, hmatch⟩ := ih hrest (htail.trans hsuffix) hmatch
      exact ⟨rest, hend, hoctets.trans htail,
        matchBytes_star.mpr ⟨utf8 rest, List.suffix_rfl, hmatch⟩⟩
    · -- the octets begin like a character, so they do not begin inside of one
      have hc : IsLiteral c := ⟨hstar, fun h => hquestion h.symm⟩
      obtain ⟨tail, htail, -⟩ := (matchBytes_literal hc.octets).mp (utf8_cons c pattern ▸ hmatch)
      obtain ⟨first, trail, hfirst, hlead, -⟩ := exists_utf8Char_eq_cons c
      have hhead : ∀ b ∈ octets.head?, isTrail b = false := by
        rw [htail, hfirst]
        intro b hb
        cases hb
        exact hlead
      obtain ⟨rest, hend, rfl⟩ := exists_utf8_of_suffix hsuffix hhead
      exact ⟨rest, hend, List.suffix_rfl, hmatch⟩

/-- A star stands for a text, and never for a part of a character. -/
theorem matchSegment_star (hpattern : '?' ∉ pattern) :
    matchSegment ('*' :: pattern) name = true ↔
      ∃ text rest, name = text ++ rest ∧ matchSegment pattern rest = true := by
  constructor
  · intro h
    obtain ⟨tail, htail, hmatch⟩ := matchBytes_star.mp h
    obtain ⟨rest, ⟨text, rfl⟩, -, hmatch⟩ := exists_aligned hpattern htail hmatch
    exact ⟨text, rest, rfl, hmatch⟩
  · rintro ⟨text, rest, rfl, hmatch⟩
    exact matchBytes_star.mpr ⟨utf8 rest, ⟨utf8 text, (utf8_append text rest).symm⟩, hmatch⟩

theorem matchSegment_iff_expands (hpattern : '?' ∉ pattern) :
    matchSegment pattern name = true ↔ Expands pattern name := by
  induction pattern generalizing name with
  | nil =>
    rw [matchSegment_nil]
    constructor
    · rintro rfl
      exact .nil
    · rintro ⟨⟩
      rfl
  | cons c pattern ih =>
    obtain ⟨hquestion, hrest⟩ := not_or.mp (List.mem_cons.not.mp hpattern)
    by_cases hstar : c = '*'
    · subst hstar
      rw [matchSegment_star hrest]
      constructor
      · rintro ⟨text, rest, rfl, hmatch⟩
        exact .star text ((ih hrest).mp hmatch)
      · intro h
        cases h with
        | star text rest => exact ⟨text, _, rfl, (ih hrest).mpr rest⟩
        | char hc rest => exact absurd rfl hc
    · rw [matchSegment_literal ⟨hstar, fun h => hquestion h.symm⟩]
      constructor
      · rintro ⟨rest, rfl, hmatch⟩
        exact .char hstar ((ih hrest).mp hmatch)
      · intro h
        cases h with
        | star text rest => exact absurd rfl hstar
        | char hc rest => exact ⟨_, rfl, (ih hrest).mpr rest⟩

end Characters

/-! ## Segments -/

section Segments

variable {segment name : List Char} {pattern path : List (List Char)}

theorem matchSegments_stars :
    matchSegments (['*', '*'] :: pattern) path = true ↔
      ∃ names rest, path = names ++ rest ∧ matchSegments pattern rest = true := by
  have hany : matchSegments (['*', '*'] :: pattern) path =
      anyTail (matchSegments pattern) path := by
    rw [matchSegments.eq_def]
    rfl
  rw [hany, anyTail_iff]
  constructor
  · rintro ⟨tail, ⟨names, rfl⟩, hmatch⟩
    exact ⟨names, tail, rfl, hmatch⟩
  · rintro ⟨names, rest, rfl, hmatch⟩
    exact ⟨rest, ⟨names, rfl⟩, hmatch⟩

theorem matchSegments_segment (hsegment : segment ≠ ['*', '*']) :
    matchSegments (segment :: pattern) path = true ↔
      ∃ name rest, path = name :: rest ∧ matchSegment segment name = true ∧
        matchSegments pattern rest = true := by
  have hstars : (segment == ['*', '*']) = false := beq_eq_false_iff_ne.mpr hsegment
  rw [matchSegments.eq_def]
  cases path with
  | nil => simp [hstars]
  | cons name rest => simp [hstars]

/-- Segments without question marks match just what they generate. -/
theorem matchSegments_iff_generates (hpattern : ∀ segment ∈ pattern, '?' ∉ segment) :
    matchSegments pattern path = true ↔ Generates pattern path := by
  induction pattern generalizing path with
  | nil =>
    rw [matchSegments, List.isEmpty_iff]
    constructor
    · rintro rfl
      exact .nil
    · rintro ⟨⟩
      rfl
  | cons segment pattern ih =>
    obtain ⟨hsegment, hrest⟩ := List.forall_mem_cons.mp hpattern
    by_cases hstars : segment = ['*', '*']
    · subst hstars
      rw [matchSegments_stars]
      constructor
      · rintro ⟨names, rest, rfl, hmatch⟩
        exact .stars names ((ih hrest).mp hmatch)
      · intro h
        cases h with
        | stars names rest => exact ⟨names, _, rfl, (ih hrest).mpr rest⟩
        | segment hne _ _ => exact absurd rfl hne
    · rw [matchSegments_segment hstars]
      constructor
      · rintro ⟨name, rest, rfl, hname, hmatch⟩
        exact .segment hstars ((matchSegment_iff_expands hsegment).mp hname) ((ih hrest).mp hmatch)
      · intro h
        cases h with
        | stars names rest => exact absurd rfl hstars
        | segment _ hname rest =>
          exact ⟨_, _, rfl, (matchSegment_iff_expands hsegment).mpr hname, (ih hrest).mpr rest⟩

end Segments

/-! ## Cutting at slashes -/

theorem endsFail_iff {s : List Char} :
    EndsFail (· == '/') s ↔ s.head? ≠ some '/' ∧ s.getLast? ≠ some '/' := by
  have hoption (o : Option Char) : (∀ c ∈ o, (c == '/') = false) ↔ o ≠ some '/' := by
    cases o <;> simp
  rw [EndsFail, hoption, hoption]

/-- Every text is cut at slashes in one way, and `pieces` finds it. -/
theorem cutAtSlashes_iff {text : List Char} {segments : List (List Char)} :
    CutAtSlashes text segments ↔ pieces text = segments := by
  have hall (s : List Char) : (∀ c ∈ s, c = '/') ↔ ∀ c ∈ s, (c == '/') = true := by simp
  constructor
  · rintro ⟨hne, hsegments, before, after, rfl, hbefore, hafter, hends⟩
    rw [pieces, trimWhile_surrounded ((hall _).mp hbefore) ((hall _).mp hafter)
      (endsFail_iff.mpr hends)]
    exact List.splitOn_intercalate '/' hsegments hne
  · rintro rfl
    obtain ⟨before, core, after, rfl, hbefore, hafter, hends⟩ := exists_surrounded (· == '/') text
    rw [pieces, trimWhile_surrounded hbefore hafter hends]
    refine ⟨List.splitOn_ne_nil _ _, fun q hq hslash =>
      ?_, before, after, ?_, (hall _).mpr hbefore, (hall _).mpr hafter, ?_⟩
    · exact absurd (mem_of_mem_splitOnP hq hslash).2 (by decide)
    · rw [List.intercalate_splitOn]
    · rw [List.intercalate_splitOn]
      exact endsFail_iff.mp hends

/-! ## Whole patterns -/

/-- A pattern without question marks matches a path exactly if its segments generate the segments of
the path; and there is one way to cut each of the two into segments. -/
theorem accepts_iff_generates (pattern path : String) (hpattern : '?' ∉ pattern.toList) :
    (∃! segments, CutAtSlashes pattern.toList segments) ∧
      (∃! names, CutAtSlashes path.toList names) ∧
      ∀ segments names, CutAtSlashes pattern.toList segments → CutAtSlashes path.toList names →
        (accepts pattern path = true ↔ Generates segments names) := by
  simp only [cutAtSlashes_iff]
  refine ⟨⟨_, rfl, fun _ h => h.symm⟩, ⟨_, rfl, fun _ h => h.symm⟩, ?_⟩
  rintro segments names rfl rfl
  refine matchSegments_iff_generates fun segment hsegment hquestion => hpattern ?_
  have htrimmed := (mem_of_mem_splitOnP hsegment hquestion).1
  exact (trimWhile_sublist _ _).subset htrimmed

/-- Stars as a whole segment and inside of one, next to characters of more than one octet; and two
characters whose last octets are the same. -/
theorem accepts_iff_generates_accents :
    '?' ∉ "/**/*é*.json".toList ∧
      CutAtSlashes "/**/*é*.json".toList ["**".toList, "*é*.json".toList] ∧
      CutAtSlashes "a/𝒢/béc.json/".toList ["a".toList, "𝒢".toList, "béc.json".toList] ∧
      Generates ["**".toList, "*é*.json".toList] ["a".toList, "𝒢".toList, "béc.json".toList] ∧
      CutAtSlashes "*©".toList ["*©".toList] ∧ CutAtSlashes "é".toList ["é".toList] ∧
      ¬Generates ["*©".toList] ["é".toList] := by
  have hstars : '?' ∉ "/**/*é*.json".toList := by decide
  have hpattern : CutAtSlashes "/**/*é*.json".toList ["**".toList, "*é*.json".toList] :=
    cutAtSlashes_iff.mpr (by decide +kernel)
  have hpath : CutAtSlashes "a/𝒢/béc.json/".toList ["a".toList, "𝒢".toList, "béc.json".toList] :=
    cutAtSlashes_iff.mpr (by decide +kernel)
  have hsign : CutAtSlashes "*©".toList ["*©".toList] := cutAtSlashes_iff.mpr (by decide +kernel)
  have haccent : CutAtSlashes "é".toList ["é".toList] := cutAtSlashes_iff.mpr (by decide +kernel)
  refine ⟨hstars, hpattern, hpath, ?_, hsign, haccent, fun h => ?_⟩
  · exact ((accepts_iff_generates _ _ hstars).2.2 _ _ hpattern hpath).mp (by decide +kernel)
  · have haccepts := ((accepts_iff_generates "*©" "é" (by decide)).2.2 _ _ hsign haccent).mpr h
    exact absurd haccepts (by decide +kernel)

/-! ## Question marks -/

section Questions

variable {front back name : List Char} {n : Nat}

theorem utf8_replicate_question (n : Nat) :
    utf8 (List.replicate n '?') = List.replicate n question := by
  induction n with
  | zero => rfl
  | succ n ih =>
    rw [List.replicate_succ, utf8_cons, ih]
    rfl

/-- Between characters that stand for themselves, question marks take a text of as many octets. -/
theorem matchSegment_questions (hfront : ∀ c ∈ front, IsLiteral c)
    (hback : ∀ c ∈ back, IsLiteral c) :
    matchSegment (front ++ (List.replicate n '?' ++ back)) name = true ↔
      ∃ text, name = front ++ (text ++ back) ∧ (utf8 text).length = n := by
  have hself {octets : List UInt8} : matchBytes (utf8 back) octets = true ↔ octets = utf8 back := by
    rw [← List.append_nil (utf8 back), matchBytes_literal (octets_of_literals hback)]
    simp [matchBytes]
  rw [matchSegment, utf8_append, utf8_append, utf8_replicate_question,
    matchBytes_literal (octets_of_literals hfront)]
  simp only [matchBytes_questions, hself]
  constructor
  · rintro ⟨octets, hname, taken, left, hoctets, hlength, rfl⟩
    obtain ⟨kept, rfl, rfl⟩ := eq_append_of_utf8_eq hname
    -- what is left begins like a character, so the question marks stop between two characters
    obtain ⟨ending, ⟨text, rfl⟩, hending⟩ :=
      exists_utf8_of_suffix ⟨taken, hoctets.symm⟩ (isTrail_head_utf8 back)
    obtain rfl := utf8_inj.mp hending
    rw [utf8_append, List.append_cancel_right_eq] at hoctets
    exact ⟨text, rfl, hoctets ▸ hlength⟩
  · rintro ⟨text, rfl, hlength⟩
    exact ⟨utf8 (text ++ back), utf8_append _ _, utf8 text, utf8 back,
      utf8_append _ _, hlength, rfl⟩

theorem pieces_of_not_mem (h : '/' ∉ name) : pieces name = [name] := by
  have hnone : ∀ c ∈ name, (c == '/') = false :=
    fun c hc => beq_eq_false_iff_ne.mpr fun heq => h (heq ▸ hc)
  rw [pieces, trimWhile_eq_self_iff.mpr (endsFail_of_forall hnone), List.splitOn_eq_singleton h]

theorem accepts_segment {pattern path : String} (hpattern : '/' ∉ pattern.toList)
    (hstars : pattern.toList ≠ ['*', '*']) (hpath : '/' ∉ path.toList) :
    accepts pattern path = matchSegment pattern.toList path.toList := by
  rw [accepts, pieces_of_not_mem hpattern, pieces_of_not_mem hpath, Bool.eq_iff_iff,
    matchSegments_segment hstars]
  simp [matchSegments]

/-- Whether a text stands for itself as a part of one segment. -/
def IsPlain (s : String) : Prop :=
  ∀ c ∈ s.toList, IsLiteral c ∧ c ≠ '/'

instance (s : String) : Decidable (IsPlain s) :=
  List.decidableBAll _ s.toList

theorem accepts_questions {a b s : String} (ha : IsPlain a) (hb : IsPlain b) (hs : '/' ∉ s.toList) :
    accepts (a ++ String.ofList (List.replicate n '?') ++ b) s = true ↔
      ∃ text, s = a ++ text ++ b ∧ text.utf8ByteSize = n := by
  have hlist : (a ++ String.ofList (List.replicate n '?') ++ b).toList =
      a.toList ++ (List.replicate n '?' ++ b.toList) := by simp
  have hchars : ∀ c ∈ (a ++ String.ofList (List.replicate n '?') ++ b).toList,
      c ≠ '/' ∧ c ≠ '*' := by
    rw [hlist, List.forall_mem_append, List.forall_mem_append]
    refine ⟨fun c hc => ⟨(ha c hc).2, (ha c hc).1.1⟩, fun c hc => ?_,
      fun c hc => ⟨(hb c hc).2, (hb c hc).1.1⟩⟩
    rw [(List.mem_replicate.mp hc).2]
    decide
  have hstars : (a ++ String.ofList (List.replicate n '?') ++ b).toList ≠ ['*', '*'] := fun heq =>
    (hchars '*' (heq ▸ List.mem_cons_self)).2 rfl
  rw [accepts_segment (fun hc => (hchars '/' hc).1 rfl) hstars hs, hlist,
    matchSegment_questions (fun c hc => (ha c hc).1) fun c hc => (hb c hc).1]
  simp only [length_utf8, ← String.toList_inj, String.toList_append, List.append_assoc]
  constructor
  · rintro ⟨text, hname, hlength⟩
    exact ⟨String.ofList text, by rw [hname, String.toList_ofList], hlength⟩
  · rintro ⟨text, hname, hlength⟩
    exact ⟨text.toList, hname, by rw [String.ofList_toList, hlength]⟩

/-- A question mark takes a character of one octet and no other; and a run of them takes any text of
as many octets. -/
theorem question_takes_one_octet (a b s : String) (ha : IsPlain a) (hb : IsPlain b)
    (hs : '/' ∉ s.toList) :
    (accepts (a ++ "?" ++ b) s = true ↔ ∃ c : Char, c.toNat < 128 ∧
      s = a ++ String.singleton c ++ b) ∧
      ∀ n, (accepts (a ++ String.ofList (List.replicate n '?') ++ b) s = true ↔
        ∃ text, s = a ++ text ++ b ∧ text.utf8ByteSize = n) := by
  refine ⟨?_, fun n => accepts_questions ha hb hs⟩
  have hone : "?" = String.ofList (List.replicate 1 '?') := rfl
  rw [hone, accepts_questions ha hb hs]
  constructor
  · rintro ⟨text, hname, hsize⟩
    obtain ⟨c, hc, rfl⟩ := utf8ByteSize_eq_one_iff.mp hsize
    exact ⟨c, hc, hname⟩
  · rintro ⟨c, hc, hname⟩
    exact ⟨String.singleton c, hname, utf8ByteSize_eq_one_iff.mpr ⟨c, hc, rfl⟩⟩

theorem question_takes_one_octet_plural :
    IsPlain "theorem" ∧ IsPlain ".json" ∧ '/' ∉ "theorems.json".toList ∧
      accepts ("theorem" ++ "?" ++ ".json") "theorems.json" = true ∧
      accepts ("theorem" ++ String.ofList (List.replicate 2 '?') ++ ".json")
        "theoremé.json" = true := by
  have hfront : IsPlain "theorem" := by decide
  have hback : IsPlain ".json" := by decide
  refine ⟨hfront, hback, by decide, ?_, ?_⟩
  · exact (question_takes_one_octet _ _ _ hfront hback (by decide)).1.mpr ⟨'s', by decide, rfl⟩
  · exact ((question_takes_one_octet _ _ _ hfront hback (by decide)).2 2).mpr ⟨"é", rfl, by decide⟩

/-- A single character of two octets in the place of the question mark is not matched. -/
theorem question_misses_accent :
    "café" = "caf" ++ String.singleton 'é' ++ "" ∧ accepts ("caf" ++ "?" ++ "") "café" = false := by
  decide +kernel

end Questions

end Compendium.Text.Glob
