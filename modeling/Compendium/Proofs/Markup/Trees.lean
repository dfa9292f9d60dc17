import Compendium.Proofs.Markup.Lexer

/-!
# Clean trees are written as well-formed markup

A tree is clean if its tags, attributes and flags have known names, its scripts hold no end tag, and
nothing in it is raw. Its texts and values are arbitrary: the lexer reads exactly the tags of the
tree back, whatever they hold.
-/

namespace Compendium.Markup

variable {names : Names}

mutual

/-- A tree without raw markup, made of known names. -/
def Clean (names : Names) : Markup → Prop
  | text _ => True
  | element tag attrs flags children =>
    tag ∈ names.elements ∧ (∀ a ∈ attrs, a.1 ∈ names.attrs) ∧ (∀ flag ∈ flags, flag ∈ names.flags) ∧
      CleanList names children
  | void tag attrs flags =>
    tag ∈ names.voids ∧ (∀ a ∈ attrs, a.1 ∈ names.attrs) ∧ ∀ flag ∈ flags, flag ∈ names.flags
  | script json => hasClose json = false
  | raw _ => False

/-- Trees that are all clean. -/
def CleanList (names : Names) : List Markup → Prop
  | [] => True
  | m :: rest => Clean names m ∧ CleanList names rest

end

def tagOf (tag : String) (attrs : List Attr) (flags : List String) : StartTag :=
  ⟨tag.toList, attrs.map fun a => (a.1.toList, escape a.2.toList), flags.map String.toList⟩

mutual

/-- The pieces that a tree is written as, each character of a text by itself. -/
def pieces : Markup → List Token
  | text s => (escape s.toList).map fun c => .text [c]
  | element tag attrs flags children =>
    .start (tagOf tag attrs flags) :: (piecesList children ++ [.close tag.toList])
  | void tag attrs flags => [.start (tagOf tag attrs flags)]
  | script json => [.start .json, .data json, .close "script".toList]
  | raw _ => []

def piecesList : List Markup → List Token
  | [] => []
  | m :: rest => pieces m ++ piecesList rest

end

theorem cleanList_of_forall {ms : List Markup} (h : ∀ m ∈ ms, Clean names m) :
    CleanList names ms := by
  induction ms with
  | nil => trivial
  | cons m rest ih => exact ⟨h m (by simp), ih fun n hn => h n (by simp [hn])⟩

/-! ## Escaped text holds no mark -/

theorem escapeChar_plain (c : Char) : IsPlain (escapeChar c) := by
  unfold escapeChar
  split
  case h_6 h1 h2 h3 h4 h5 =>
    intro d hd
    rw [List.mem_singleton.mp hd]
    simp only [isMark, Bool.or_eq_false_iff, beq_eq_false_iff_ne, ne_eq]
    refine ⟨⟨?_, ?_⟩, ?_⟩
    · rintro rfl; exact h2 rfl
    · rintro rfl; exact h3 rfl
    · rintro rfl; exact h4 rfl
  all_goals decide

theorem escape_plain (s : List Char) : IsPlain (escape s) := by
  intro d hd
  obtain ⟨c, _, hc⟩ := List.mem_flatMap.mp hd
  exact escapeChar_plain c d hc

/-! ## The lexer on written pieces -/

theorem name?_append {name rest : List Char} (hn : IsName name)
    (hstop : ∀ c, rest.head? = some c → isNameChar c = false) :
    name? (name ++ rest) = some (name, rest) := by
  have hdrop : rest.dropWhile isNameChar = rest := by
    cases rest with
    | nil => rfl
    | cons c more => rw [List.dropWhile_cons, hstop c rfl]; rfl
  have htake : rest.takeWhile isNameChar = [] := by
    cases rest with
    | nil => rfl
    | cons c more => rw [List.takeWhile_cons, hstop c rfl]; rfl
  unfold name?
  rw [List.takeWhile_append_of_pos hn.2, List.dropWhile_append_of_pos hn.2, hdrop, htake,
    List.append_nil]
  cases name with
  | nil => exact absurd rfl hn.1
  | cons c more => rfl

theorem attr?_append {a : List Char × List Char} (hn : IsName a.1) (hv : IsPlain a.2)
    (rest : List Char) : attr? (StartTag.attrText a ++ rest) = some (a, rest) := by
  have hname : name? (a.1 ++ '=' :: '"' :: (a.2 ++ '"' :: rest)) =
      some (a.1, '=' :: '"' :: (a.2 ++ '"' :: rest)) := by
    apply name?_append hn
    intro c hc
    cases hc
    decide
  have hplain : ∀ c ∈ a.2, (!isMark c) = true := by
    intro c hc
    rw [hv c hc]
    rfl
  have hdrop : (a.2 ++ '"' :: rest).dropWhile (fun c => !isMark c) = '"' :: rest := by
    rw [List.dropWhile_append_of_pos hplain]
    rfl
  have htake : (a.2 ++ '"' :: rest).takeWhile (fun c => !isMark c) = a.2 := by
    rw [List.takeWhile_append_of_pos hplain]
    exact List.append_nil _
  simp only [StartTag.attrText, List.cons_append, List.append_assoc, List.nil_append, attr?, hname,
    hdrop, htake]

/-- Attributes are read up to where there is no further one. -/
theorem many_attr? {attrs : List (List Char × List Char)}
    (h : ∀ a ∈ attrs, IsName a.1 ∧ IsPlain a.2) {rest : List Char} (hrest : attr? rest = none) :
    many attr? (attrs.flatMap StartTag.attrText ++ rest) = (attrs, rest) := by
  induction attrs with
  | nil => exact many_of_none hrest
  | cons a more ih =>
    have ha := h a (by simp)
    rw [List.flatMap_cons, List.append_assoc, many_of_some (attr?_append ha.1 ha.2 _)]
    · rw [ih fun b hb => h b (by simp [hb])]
    · simp [StartTag.attrText]
      omega

/-- What follows the name of a flag: the next flag or the end of the tag. -/
theorem head_flags (flags : List (List Char)) (rest : List Char) :
    ∃ c more, flags.flatMap StartTag.flagText ++ '>' :: rest = c :: more ∧ (c = ' ' ∨ c = '>') := by
  cases flags with
  | nil => exact ⟨'>', rest, rfl, Or.inr rfl⟩
  | cons flag flags => exact ⟨' ', _, rfl, Or.inl rfl⟩

theorem flag?_append {flag : List Char} (hn : IsName flag) {rest : List Char}
    (hstop : ∀ c, rest.head? = some c → isNameChar c = false) :
    flag? (StartTag.flagText flag ++ rest) = some (flag, rest) :=
  name?_append hn hstop

theorem stop_flags (flags : List (List Char)) (rest : List Char) :
    ∀ c, (flags.flatMap StartTag.flagText ++ '>' :: rest).head? = some c →
      isNameChar c = false := by
  obtain ⟨d, more, he, hd⟩ := head_flags flags rest
  intro c hc
  rw [he] at hc
  cases hc
  rcases hd with rfl | rfl <;> decide

theorem attr?_flags {flags : List (List Char)} (h : ∀ flag ∈ flags, IsName flag)
    (rest : List Char) : attr? (flags.flatMap StartTag.flagText ++ '>' :: rest) = none := by
  cases flags with
  | nil => rfl
  | cons flag flags =>
    obtain ⟨c, more, he, hc⟩ := head_flags flags rest
    have hname : name? (flag ++ c :: more) = some (flag, c :: more) := by
      rw [← he]
      exact name?_append (h flag (by simp)) (stop_flags flags rest)
    rw [List.flatMap_cons, List.append_assoc, he]
    simp only [StartTag.flagText, List.cons_append, attr?, hname]
    rcases hc with rfl | rfl <;> rfl

theorem many_flag? {flags : List (List Char)} (h : ∀ flag ∈ flags, IsName flag) (rest : List Char) :
    many flag? (flags.flatMap StartTag.flagText ++ '>' :: rest) = (flags, '>' :: rest) := by
  induction flags with
  | nil => exact many_of_none rfl
  | cons flag more ih =>
    rw [List.flatMap_cons, List.append_assoc,
      many_of_some (flag?_append (h flag (by simp)) (stop_flags more rest))]
    · rw [ih fun f hf => h f (by simp [hf])]
    · simp only [StartTag.flagText, List.length_append, List.length_cons]
      omega

theorem startTag?_append {tag : StartTag} (h : tag.Proper) (rest : List Char) :
    ∃ body, tag.chars ++ rest = '<' :: body ∧ startTag? body = some (tag, rest) := by
  refine ⟨tag.name ++ (tag.attrs.flatMap StartTag.attrText ++
    (tag.flags.flatMap StartTag.flagText ++ '>' :: rest)), by simp [StartTag.chars], ?_⟩
  have hname : name? (tag.name ++ (tag.attrs.flatMap StartTag.attrText ++
      (tag.flags.flatMap StartTag.flagText ++ '>' :: rest))) =
      some (tag.name, tag.attrs.flatMap StartTag.attrText ++
        (tag.flags.flatMap StartTag.flagText ++ '>' :: rest)) := by
    apply name?_append h.name
    cases hattrs : tag.attrs with
    | nil => exact stop_flags tag.flags rest
    | cons a more =>
      intro c hc
      cases hc
      decide
  simp only [startTag?, hname, many_attr? h.attrs (attr?_flags h.flags rest), many_flag? h.flags]

theorem endTag?_append {name : List Char} (h : IsName name) (rest : List Char) :
    endTag? (name ++ '>' :: rest) = some (name, rest) := by
  have hname : name? (name ++ '>' :: rest) = some (name, '>' :: rest) := by
    apply name?_append h
    intro c hc
    cases hc
    decide
  simp only [endTag?, hname]

theorem data?_append {json : List Char} (h : hasClose json = false) (rest : List Char) :
    data? (json ++ '<' :: '/' :: rest) = some (json, '<' :: '/' :: rest) := by
  induction json with
  | nil => rfl
  | cons c more ih =>
    have hmore : hasClose more = false := by
      unfold hasClose at h
      split at h
      · cases h
      · rename_i he
        cases he
        exact h
      · rename_i he
        cases he
    -- the data may end with the mark of a tag, but then no slash follows it
    have hstep : data? (c :: (more ++ '<' :: '/' :: rest)) =
        (data? (more ++ '<' :: '/' :: rest)).map fun found => (c :: found.1, found.2) := by
      rw [data?.eq_2]
      intro tail hc htail
      subst hc
      cases more with
      | nil => cases htail
      | cons d more =>
        cases htail
        simp [hasClose] at h
    rw [List.cons_append, hstep, ih hmore]
    rfl

/-- A text that is read as certain pieces, whatever follows it. -/
def ReadsAs (cs : List Char) (tokens : List Token) : Prop :=
  ∀ rest, (many piece? (cs ++ rest)).1.flatten = tokens ++ (many piece? rest).1.flatten ∧
    (many piece? (cs ++ rest)).2 = (many piece? rest).2

theorem readsAs_nil : ReadsAs [] [] :=
  fun _ => ⟨rfl, rfl⟩

theorem ReadsAs.append {cs ds : List Char} {ts us : List Token} (h : ReadsAs cs ts)
    (k : ReadsAs ds us) : ReadsAs (cs ++ ds) (ts ++ us) := by
  intro rest
  obtain ⟨h1, h2⟩ := h (ds ++ rest)
  obtain ⟨k1, k2⟩ := k rest
  rw [List.append_assoc, h1, h2, k1, k2, List.append_assoc]
  exact ⟨rfl, rfl⟩

theorem readsAs_of_piece? {cs : List Char} {tokens : List Token} (hne : cs ≠ [])
    (h : ∀ rest, piece? (cs ++ rest) = some (tokens, rest)) : ReadsAs cs tokens := by
  intro rest
  have hlt : rest.length < (cs ++ rest).length := by
    have := List.length_pos_iff.mpr hne
    rw [List.length_append]
    omega
  rw [many_of_some (h rest) hlt]
  exact ⟨rfl, rfl⟩

theorem piece?_text {c : Char} (h : isMark c = false) (rest : List Char) :
    piece? (c :: rest) = some ([.text [c]], rest) := by
  have hlt : c ≠ '<' := by
    rintro rfl
    cases h
  unfold piece?
  split
  · rename_i he
    cases he
  · rename_i he
    cases he
    exact absurd rfl hlt
  · rename_i he
    cases he
    exact absurd rfl hlt
  · rename_i he
    cases he
    rw [h]
    rfl

theorem readsAs_text {run : List Char} (h : IsPlain run) :
    ReadsAs run (run.map fun c => .text [c]) := by
  induction run with
  | nil => exact readsAs_nil
  | cons c more ih =>
    have hc : ReadsAs [c] [.text [c]] :=
      readsAs_of_piece? (by simp) fun rest => piece?_text (h c (by simp)) rest
    exact hc.append (ih fun d hd => h d (by simp [hd]))

theorem readsAs_close {name : List Char} (h : IsName name) :
    ReadsAs ('<' :: '/' :: (name ++ ['>'])) [.close name] := by
  apply readsAs_of_piece? (by simp)
  intro rest
  have he : '<' :: '/' :: (name ++ ['>']) ++ rest = '<' :: '/' :: (name ++ '>' :: rest) := by simp
  rw [he]
  simp only [piece?, endTag?_append h rest, Option.map_some]

/-- A start tag is no end tag, so it is read as one. -/
theorem piece?_start {tag : StartTag} (h : tag.Proper) (rest : List Char) :
    piece? (tag.chars ++ rest) = opened? tag rest := by
  obtain ⟨body, he, hbody⟩ := startTag?_append h rest
  rw [he]
  unfold piece?
  split
  · rename_i hc
    cases hc
  · rename_i hc
    cases hc
    -- a name does not start with a slash
    obtain ⟨hsound, _⟩ := startTag?_sound hbody
    obtain ⟨c, more, hname⟩ := List.exists_cons_of_ne_nil h.name.1
    have hfirst := h.name.2 c (by rw [hname]; simp)
    simp only [StartTag.chars, hname, List.cons_append, List.cons.injEq] at hsound
    rw [← hsound.2.1] at hfirst
    cases hfirst
  · rename_i hc
    cases hc
    rw [hbody]
    rfl
  · rename_i hlt hc
    cases hc
    exact (hlt rfl).elim

theorem readsAs_start {tag : StartTag} (h : tag.Proper) (hname : tag.name ≠ StartTag.json.name) :
    ReadsAs tag.chars [.start tag] := by
  apply readsAs_of_piece? (by simp [StartTag.chars])
  intro rest
  rw [piece?_start h, opened?, if_neg hname]

theorem json_proper : StartTag.json.Proper := by
  refine ⟨by decide, ?_, by decide⟩
  intro a ha
  rw [List.mem_singleton.mp ha]
  exact ⟨by decide, by decide⟩

theorem readsAs_script {json : List Char} (h : hasClose json = false) :
    ReadsAs (StartTag.json.chars ++ json ++ '<' :: '/' :: ("script".toList ++ ['>']))
      [.start .json, .data json, .close "script".toList] := by
  intro rest
  have hclose := readsAs_close (show IsName "script".toList by decide) rest
  have hopen : piece? (StartTag.json.chars ++ (json ++
      ('<' :: '/' :: ("script".toList ++ ['>']) ++ rest))) =
      some ([.start .json, .data json], '<' :: '/' :: ("script".toList ++ ['>']) ++ rest) := by
    rw [piece?_start json_proper, opened?, if_pos rfl, if_pos rfl]
    simp only [List.cons_append, data?_append h, Option.map_some]
  rw [List.append_assoc, List.append_assoc, many_of_some hopen]
  · rw [List.flatten_cons, hclose.1, hclose.2]
    exact ⟨rfl, rfl⟩
  · simp [StartTag.chars]
    omega

/-! ## Trees -/

theorem Token.uses_merged {tokens : List Token} (h : ∀ t ∈ tokens, t.Uses names) :
    ∀ t ∈ merged tokens, t.Uses names := by
  induction tokens with
  | nil => simp [merged]
  | cons t rest ih =>
    have hm : merged (t :: rest) = join t (merged rest) := rfl
    have hrest := ih fun u hu => h u (by simp [hu])
    rw [hm]
    intro u hu
    unfold join at hu
    split at hu
    · rename_i he
      rcases List.mem_cons.mp hu with rfl | hu
      · trivial
      · exact hrest u (by rw [he]; simp [hu])
    · rcases List.mem_cons.mp hu with rfl | hu
      · exact h u (by simp)
      · exact hrest u hu

theorem chars_tagOf (tag : String) (attrs : List Attr) (flags : List String) :
    (tagOf tag attrs flags).chars = startTag tag attrs flags := by
  simp only [StartTag.chars, tagOf, startTag, List.flatMap_map]
  rfl

theorem tagOf_proper {tag : String} {attrs : List Attr} {flags : List String}
    (htag : tag ∈ names.elements ++ names.voids) (hattrs : ∀ a ∈ attrs, a.1 ∈ names.attrs)
    (hflags : ∀ flag ∈ flags, flag ∈ names.flags) : (tagOf tag attrs flags).Proper := by
  have hname : ∀ n, n ∈ names.elements ++ names.voids ∨ n ∈ names.attrs ∨ n ∈ names.flags →
      IsName n.toList := by
    intro n hn
    apply names.areNames
    simp only [List.mem_append] at hn ⊢
    rcases hn with hn | hn | hn
    · exact Or.inl (Or.inl hn)
    · exact Or.inl (Or.inr hn)
    · exact Or.inr hn
  refine ⟨hname tag (Or.inl htag), ?_, ?_⟩
  · intro a ha
    obtain ⟨b, hb, rfl⟩ := List.mem_map.mp ha
    exact ⟨hname _ (Or.inr (Or.inl (hattrs b hb))), escape_plain _⟩
  · intro flag hf
    obtain ⟨g, hg, rfl⟩ := List.mem_map.mp hf
    exact hname _ (Or.inr (Or.inr (hflags g hg)))

theorem ne_script {tag : String} (htag : tag ∈ names.elements ++ names.voids) :
    tag.toList ≠ StartTag.json.name := by
  intro he
  have : tag = "script" := String.toList_injective he
  exact names.noScript (this ▸ htag)

theorem uses_start {tag : String} {attrs : List Attr} {flags : List String}
    (htag : tag ∈ names.elements ++ names.voids) (hattrs : ∀ a ∈ attrs, a.1 ∈ names.attrs)
    (hflags : ∀ flag ∈ flags, flag ∈ names.flags) :
    (Token.start (tagOf tag attrs flags)).Uses names := by
  refine Or.inr ⟨by simpa [tagOf] using htag, ?_, ?_⟩
  · intro a ha
    obtain ⟨b, hb, rfl⟩ := List.mem_map.mp ha
    simpa using hattrs b hb
  · intro flag hf
    obtain ⟨g, hg, rfl⟩ := List.mem_map.mp hf
    simpa using hflags g hg

mutual

/-- A clean tree is read as its pieces. -/
theorem readsAs_chars : ∀ m : Markup, Clean names m → ReadsAs m.chars m.pieces
  | .text s, _ => by
    rw [chars, pieces]
    exact readsAs_text (escape_plain s.toList)
  | .element tag attrs flags children, h => by
    obtain ⟨htag, hattrs, hflags, hchildren⟩ := h
    have hmem : tag ∈ names.elements ++ names.voids := List.mem_append_left _ htag
    have hproper := tagOf_proper hmem hattrs hflags
    have hopen := readsAs_start hproper (ne_script hmem)
    have hclose : ReadsAs (endTag tag) [.close tag.toList] := readsAs_close hproper.name
    rw [chars_tagOf] at hopen
    rw [chars, pieces]
    exact (hopen.append (readsAs_charsList children hchildren)).append hclose
  | .void tag attrs flags, h => by
    obtain ⟨htag, hattrs, hflags⟩ := h
    have hmem : tag ∈ names.elements ++ names.voids := List.mem_append_right _ htag
    rw [chars, pieces, ← chars_tagOf]
    exact readsAs_start (tagOf_proper hmem hattrs hflags) (ne_script hmem)
  | .script json, h => by
    rw [chars, pieces, endTag]
    exact readsAs_script h
  | .raw _, h => h.elim

theorem readsAs_charsList : ∀ ms : List Markup, CleanList names ms →
    ReadsAs (charsList ms) (piecesList ms)
  | [], _ => readsAs_nil
  | m :: rest, h => (readsAs_chars m h.1).append (readsAs_charsList rest h.2)

end

theorem lex_charsList {ms : List Markup} (h : CleanList names ms) :
    lex (charsList ms) = some (Token.merged (piecesList ms)) := by
  obtain ⟨h1, h2⟩ := readsAs_charsList ms h []
  rw [many_of_none (show piece? [] = none from rfl), List.append_nil] at h1 h2
  unfold lex
  split
  · rename_i pieces he
    rw [he] at h1
    rw [h1]
    simp
  · rename_i hne
    exact (hne (many piece? (charsList ms)).1 (Prod.ext rfl h2)).elim

mutual

/-- A clean tree leaves the open elements as they were. -/
theorem nested_pieces (opened : List (List Char)) (rest : List Token) : ∀ m : Markup,
    Clean names m → nested names.voids opened (m.pieces ++ rest) = nested names.voids opened rest
  | .text s, _ => by
    rw [pieces]
    induction escape s.toList with
    | nil => rfl
    | cons c more ih => exact ih
  | .element tag attrs flags children, h => by
    obtain ⟨htag, _, _, hchildren⟩ := h
    have hopen : names.voids.contains (String.ofList (tagOf tag attrs flags).name) = false := by
      simpa [tagOf] using names.apart tag htag
    rw [pieces, List.cons_append, nested, hopen, List.append_assoc]
    have hinner := nested_piecesList (tag.toList :: opened) (.close tag.toList :: rest) children
      hchildren
    simpa [tagOf, nested] using hinner
  | .void tag attrs flags, h => by
    have hvoid : names.voids.contains (String.ofList (tagOf tag attrs flags).name) = true := by
      simpa [tagOf] using h.1
    rw [pieces, List.singleton_append, nested, if_pos hvoid]
  | .script json, _ => by
    have hopen : ¬names.voids.contains (String.ofList StartTag.json.name) = true := by
      intro h
      exact names.noScript (List.mem_append_right _ (List.contains_iff_mem.mp h))
    have hname : (StartTag.json.name == "script".toList) = true := beq_self_eq_true _
    rw [pieces, List.cons_append, nested, if_neg hopen, List.cons_append, nested,
      List.singleton_append, nested, hname, Bool.true_and]
  | .raw _, h => h.elim

theorem nested_piecesList (opened : List (List Char)) (rest : List Token) : ∀ ms : List Markup,
    CleanList names ms →
      nested names.voids opened (piecesList ms ++ rest) = nested names.voids opened rest
  | [], _ => rfl
  | m :: ms, h => by
    rw [piecesList, List.append_assoc, nested_pieces opened _ m h.1,
      nested_piecesList opened _ ms h.2]

end

mutual

theorem uses_pieces : ∀ m : Markup, Clean names m → ∀ t ∈ m.pieces, t.Uses names
  | .text s, _ => by
    intro t ht
    rw [pieces] at ht
    obtain ⟨c, _, rfl⟩ := List.mem_map.mp ht
    trivial
  | .element tag attrs flags children, h => by
    obtain ⟨htag, hattrs, hflags, hchildren⟩ := h
    intro t ht
    rw [pieces] at ht
    rcases List.mem_cons.mp ht with rfl | ht
    · exact uses_start (List.mem_append_left _ htag) hattrs hflags
    · rcases List.mem_append.mp ht with ht | ht
      · exact uses_piecesList children hchildren t ht
      · rw [List.mem_singleton.mp ht]
        trivial
  | .void tag attrs flags, h => by
    obtain ⟨htag, hattrs, hflags⟩ := h
    intro t ht
    rw [List.mem_singleton.mp ht]
    exact uses_start (List.mem_append_right _ htag) hattrs hflags
  | .script json, _ => by
    intro t ht
    simp only [pieces, List.mem_cons, List.not_mem_nil, or_false] at ht
    rcases ht with rfl | rfl | rfl
    · exact Or.inl rfl
    · trivial
    · trivial
  | .raw _, h => h.elim

theorem uses_piecesList : ∀ ms : List Markup, CleanList names ms →
    ∀ t ∈ piecesList ms, t.Uses names
  | [], _ => by simp [piecesList]
  | m :: ms, h => by
    intro t ht
    rcases List.mem_append.mp ht with ht | ht
    · exact uses_pieces m h.1 t ht
    · exact uses_piecesList ms h.2 t ht

end

/-- The text of trees is well formed, and reading it gives back the tags of the trees: no text or
value in them adds, removes or changes one. -/
def WellWritten (names : Names) (ms : List Markup) : Prop :=
  WellFormed names (render ms).toList ∧
    lex (render ms).toList = some (Token.merged (piecesList ms))

/-- Clean trees are well written, whatever texts and values they hold. -/
theorem wellWritten_of_clean {ms : List Markup} (h : CleanList names ms) :
    WellWritten names ms := by
  have hlex := lex_charsList h
  obtain ⟨htext, hproper⟩ := lex_sound hlex
  have hnested := nested_piecesList [] [] ms h
  rw [List.append_nil] at hnested
  rw [WellWritten, render, String.toList_ofList]
  refine ⟨⟨_, hlex, htext, ?_, ?_⟩, hlex⟩
  · intro t ht
    exact ⟨hproper t ht, Token.uses_merged (uses_piecesList ms h) t ht⟩
  · rw [Token.nested_merged, hnested]
    rfl

end Compendium.Markup
