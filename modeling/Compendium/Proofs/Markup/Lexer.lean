import Compendium.Markup
import Mathlib.Data.List.TakeWhile

/-!
# Reading written markup

`lex` cuts written markup into text runs, start tags, end tags and the data of scripts, and refuses
everything else. `nested` follows the open elements over the pieces. Both know nothing about trees:
they are the reader's side of `Markup.chars`.
-/

namespace Compendium.Markup

/-- A start tag as it is written, its values still escaped. -/
structure StartTag where
  name : List Char
  attrs : List (List Char × List Char)
  flags : List (List Char)
  deriving DecidableEq, Repr

/-- A piece of written markup. -/
inductive Token where
  | text (run : List Char)
  | start (tag : StartTag)
  | close (name : List Char)
  | data (json : List Char)
  deriving DecidableEq, Repr

/-- The characters of names. -/
def isNameChar (c : Char) : Bool :=
  c.isAlphanum || c == '-'

/-- The characters that text and values never hold. -/
def isMark (c : Char) : Bool :=
  c == '<' || c == '>' || c == '"'

def IsName (name : List Char) : Prop :=
  name ≠ [] ∧ ∀ c ∈ name, isNameChar c = true

-- over the characters of the list, not over all characters
instance (name : List Char) : Decidable (IsName name) :=
  @instDecidableAnd _ _ inferInstance (List.decidableBAll _ name)

def IsPlain (run : List Char) : Prop :=
  ∀ c ∈ run, isMark c = false

instance (run : List Char) : Decidable (IsPlain run) :=
  List.decidableBAll _ run

/-- Whether an end tag could start inside a text. -/
def hasClose : List Char → Bool
  | '<' :: '/' :: _ => true
  | _ :: rest => hasClose rest
  | [] => false

namespace StartTag

/-- An attribute with a space in front. -/
def attrText (a : List Char × List Char) : List Char :=
  ' ' :: (a.1 ++ '=' :: '"' :: (a.2 ++ ['"']))

/-- A flag with a space in front. -/
def flagText (flag : List Char) : List Char :=
  ' ' :: flag

def chars (tag : StartTag) : List Char :=
  '<' :: (tag.name ++ tag.attrs.flatMap attrText ++ tag.flags.flatMap flagText ++ ['>'])

/-- Names are names, and values hold no mark. -/
structure Proper (tag : StartTag) : Prop where
  name : IsName tag.name
  attrs : ∀ a ∈ tag.attrs, IsName a.1 ∧ IsPlain a.2
  flags : ∀ flag ∈ tag.flags, IsName flag

def json : StartTag :=
  ⟨"script".toList, [("type".toList, "application/json".toList)], []⟩

end StartTag

namespace Token

/-- The text of a piece. -/
def chars : Token → List Char
  | text run => run
  | start tag => tag.chars
  | close name => '<' :: '/' :: (name ++ ['>'])
  | data json => json

/-- What every piece of its kind holds to. -/
def Proper : Token → Prop
  | text run => IsPlain run
  | start tag => tag.Proper
  | close name => IsName name
  | data json => hasClose json = false

/-- A piece in front of others; neighbouring texts are one run. -/
def join : Token → List Token → List Token
  | text a, text b :: rest => text (a ++ b) :: rest
  | t, rest => t :: rest

/-- The pieces with neighbouring texts joined. -/
def merged (tokens : List Token) : List Token :=
  tokens.foldr join []

end Token

/-! ## The lexer -/

/-- Items as long as there are any, and the rest of the text. -/
def many {α : Type} (item? : List Char → Option (α × List Char)) (cs : List Char) :
    List α × List Char :=
  match item? cs with
  | none => ([], cs)
  | some (a, rest) =>
    if rest.length < cs.length then (a :: (many item? rest).1, (many item? rest).2) else ([], cs)
termination_by cs.length

/-- A name at the start of a text. -/
def name? (cs : List Char) : Option (List Char × List Char) :=
  match cs.takeWhile isNameChar with
  | [] => none
  | c :: name => some (c :: name, cs.dropWhile isNameChar)

/-- An attribute with a quoted value at the start of a text. -/
def attr? : List Char → Option ((List Char × List Char) × List Char)
  | ' ' :: cs =>
    match name? cs with
    | some (name, '=' :: '"' :: rest) =>
      match rest.dropWhile fun c => !isMark c with
      | '"' :: after => some ((name, rest.takeWhile fun c => !isMark c), after)
      | _ => none
    | _ => none
  | _ => none

/-- A flag at the start of a text. -/
def flag? : List Char → Option (List Char × List Char)
  | ' ' :: cs => name? cs
  | _ => none

def startTag? (cs : List Char) : Option (StartTag × List Char) :=
  match name? cs with
  | none => none
  | some (name, rest) =>
    let attrs := many attr? rest
    let flags := many flag? attrs.2
    match flags.2 with
    | '>' :: after => some (⟨name, attrs.1, flags.1⟩, after)
    | _ => none

/-- An end tag, after its first two marks. -/
def endTag? (cs : List Char) : Option (List Char × List Char) :=
  match name? cs with
  | some (name, '>' :: after) => some (name, after)
  | _ => none

/-- The text up to the next end tag. -/
def data? : List Char → Option (List Char × List Char)
  | '<' :: '/' :: rest => some ([], '<' :: '/' :: rest)
  | c :: rest => (data? rest).map fun found => (c :: found.1, found.2)
  | [] => none

/-- What a start tag opens. A script holds data, and only data. -/
def opened? (tag : StartTag) (after : List Char) : Option (List Token × List Char) :=
  if tag.name = StartTag.json.name then
    if tag = StartTag.json then
      (data? after).map fun found => ([.start tag, .data found.1], found.2)
    else none
  else some ([.start tag], after)

/-- The pieces at the start of a text. -/
def piece? : List Char → Option (List Token × List Char)
  | [] => none
  | '<' :: '/' :: rest => (endTag? rest).map fun found => ([.close found.1], found.2)
  | '<' :: rest => (startTag? rest).bind fun found => opened? found.1 found.2
  | c :: rest => if isMark c then none else some ([.text [c]], rest)

/-- The pieces of a text, if it is made of pieces to its end. -/
def lex (cs : List Char) : Option (List Token) :=
  match many piece? cs with
  | (pieces, []) => some (Token.merged pieces.flatten)
  | _ => none

/-- Whether every end tag closes the innermost open element, void elements are never closed, and
nothing is open at the end. -/
def nested (voids : List String) : List (List Char) → List Token → Bool
  | opened, [] => opened.isEmpty
  | opened, .start tag :: rest =>
    if voids.contains (String.ofList tag.name) then nested voids opened rest
    else nested voids (tag.name :: opened) rest
  | [], .close _ :: _ => false
  | innermost :: opened, .close name :: rest => innermost == name && nested voids opened rest
  | opened, .text _ :: rest => nested voids opened rest
  | opened, .data _ :: rest => nested voids opened rest

/-! ## Well-formed texts -/

/-- The names that a kind of markup is written with. -/
structure Names where
  elements : List String
  voids : List String
  attrs : List String
  flags : List String
  areNames : ∀ name ∈ elements ++ voids ++ attrs ++ flags, IsName name.toList
  apart : ∀ name ∈ elements, name ∉ voids
  noScript : "script" ∉ elements ++ voids

namespace Token

/-- Whether a piece names nothing but what it is allowed to. -/
def Uses (names : Names) : Token → Prop
  | start tag =>
    tag = StartTag.json ∨
      String.ofList tag.name ∈ names.elements ++ names.voids ∧
        (∀ a ∈ tag.attrs, String.ofList a.1 ∈ names.attrs) ∧
        ∀ flag ∈ tag.flags, String.ofList flag ∈ names.flags
  | _ => True

end Token

/-- A text that is well-formed markup: it is made of pieces to its end, its tags are nested with
exactly the given elements void, and no tag, attribute or flag has another name than the given
ones. -/
def WellFormed (names : Names) (cs : List Char) : Prop :=
  ∃ tokens, lex cs = some tokens ∧ tokens.flatMap Token.chars = cs ∧
    (∀ t ∈ tokens, t.Proper ∧ t.Uses names) ∧ nested names.voids [] tokens = true

/-! ## What the lexer has read is what was written -/

section Sound

variable {α : Type} {item? : List Char → Option (α × List Char)}

theorem many_of_none {cs : List Char} (h : item? cs = none) : many item? cs = ([], cs) := by
  rw [many, h]

theorem many_of_some {cs rest : List Char} {a : α} (h : item? cs = some (a, rest))
    (hlt : rest.length < cs.length) :
    many item? cs = (a :: (many item? rest).1, (many item? rest).2) := by
  rw [many, h]
  simp only [hlt, if_true]

/-- If one item is read off its own text, so are many. -/
theorem many_sound {text : α → List Char} {P : α → Prop}
    (hitem : ∀ cs a rest, item? cs = some (a, rest) → cs = text a ++ rest ∧ P a) (cs : List Char) :
    cs = (many item? cs).1.flatMap text ++ (many item? cs).2 ∧ ∀ a ∈ (many item? cs).1, P a := by
  fun_induction many item? cs with
  | case1 cs h => simp
  | case2 cs a rest h hlt ih =>
    obtain ⟨hcs, ha⟩ := hitem cs a rest h
    refine ⟨?_, ?_⟩
    · rw [List.flatMap_cons, List.append_assoc, ← ih.1]
      exact hcs
    · intro b hb
      rcases List.mem_cons.mp hb with rfl | hb
      · exact ha
      · exact ih.2 b hb
  | case3 cs a rest h hlt => simp

theorem name?_sound {cs name rest : List Char} (h : name? cs = some (name, rest)) :
    cs = name ++ rest ∧ IsName name := by
  unfold name? at h
  split at h
  · cases h
  · rename_i c more hc
    simp only [Option.some.injEq, Prod.mk.injEq] at h
    obtain ⟨rfl, rfl⟩ := h
    refine ⟨?_, by simp, ?_⟩
    · rw [← hc, List.takeWhile_append_dropWhile]
    · intro d hd
      rw [← hc] at hd
      exact List.mem_takeWhile_imp hd

theorem attr?_sound {cs rest : List Char} {a : List Char × List Char}
    (h : attr? cs = some (a, rest)) :
    cs = StartTag.attrText a ++ rest ∧ IsName a.1 ∧ IsPlain a.2 := by
  unfold attr? at h
  split at h
  · split at h
    · rename_i _ cs name value hname
      obtain ⟨hcs, hn⟩ := name?_sound hname
      split at h
      · rename_i after hafter
        simp only [Option.some.injEq, Prod.mk.injEq] at h
        obtain ⟨rfl, rfl⟩ := h
        refine ⟨?_, hn, ?_⟩
        · have hv := List.takeWhile_append_dropWhile (p := fun c => !isMark c) (l := value)
          rw [hafter] at hv
          simp only [StartTag.attrText, List.cons_append, List.append_assoc, List.nil_append]
          rw [hv, hcs]
        · intro c hc
          simpa using List.mem_takeWhile_imp hc
      · cases h
    · cases h
  · cases h

theorem flag?_sound {cs rest flag : List Char} (h : flag? cs = some (flag, rest)) :
    cs = StartTag.flagText flag ++ rest ∧ IsName flag := by
  unfold flag? at h
  split at h
  · obtain ⟨hcs, hn⟩ := name?_sound h
    exact ⟨by rw [hcs]; rfl, hn⟩
  · cases h

theorem startTag?_sound {cs rest : List Char} {tag : StartTag}
    (h : startTag? cs = some (tag, rest)) : '<' :: cs = tag.chars ++ rest ∧ tag.Proper := by
  unfold startTag? at h
  split at h
  · cases h
  · rename_i name body hname
    obtain ⟨hcs, hn⟩ := name?_sound hname
    obtain ⟨hattrs, hpa⟩ := many_sound (fun _ _ _ => attr?_sound) body
    obtain ⟨hflags, hpf⟩ := many_sound (fun _ _ _ => flag?_sound) (many attr? body).2
    dsimp only at h
    split at h
    · rename_i after hafter
      simp only [Option.some.injEq, Prod.mk.injEq] at h
      obtain ⟨rfl, rfl⟩ := h
      refine ⟨?_, hn, hpa, hpf⟩
      rw [hafter] at hflags
      calc '<' :: cs
          = '<' :: (name ++ ((many attr? body).1.flatMap StartTag.attrText ++
              (many attr? body).2)) := by rw [hcs, ← hattrs]
        _ = '<' :: (name ++ ((many attr? body).1.flatMap StartTag.attrText ++
              ((many flag? (many attr? body).2).1.flatMap StartTag.flagText ++ '>' :: after))) := by
            rw [← hflags]
        _ = _ := by
            simp only [StartTag.chars, List.cons_append, List.append_assoc, List.nil_append]
    · cases h

theorem endTag?_sound {cs name rest : List Char} (h : endTag? cs = some (name, rest)) :
    cs = name ++ '>' :: rest ∧ IsName name := by
  unfold endTag? at h
  split at h
  · rename_i n after hname
    simp only [Option.some.injEq, Prod.mk.injEq] at h
    obtain ⟨rfl, rfl⟩ := h
    exact name?_sound hname
  · cases h

theorem data?_sound {cs json rest : List Char} (h : data? cs = some (json, rest)) :
    cs = json ++ rest ∧ hasClose json = false ∧ ∃ after, rest = '<' :: '/' :: after := by
  fun_induction data? cs generalizing json with
  | case1 after =>
    simp only [Option.some.injEq, Prod.mk.injEq] at h
    obtain ⟨rfl, rfl⟩ := h
    exact ⟨rfl, rfl, after, rfl⟩
  | case2 c more hc ih =>
    obtain ⟨⟨found, final⟩, hfound, he⟩ := Option.map_eq_some_iff.mp h
    simp only [Prod.mk.injEq] at he
    obtain ⟨rfl, rfl⟩ := he
    obtain ⟨hmore, hclose, hafter⟩ := ih hfound
    refine ⟨by rw [hmore]; rfl, ?_, hafter⟩
    -- a close across the seam would already have ended the data
    rw [hasClose.eq_2]
    · exact hclose
    · intro tail hlt hslash
      rw [hslash] at hmore
      exact hc _ hlt (by rw [hmore]; rfl)
  | case3 => cases h

theorem opened?_sound {tag : StartTag} {after rest : List Char} {tokens : List Token}
    (h : opened? tag after = some (tokens, rest)) (htag : tag.Proper) :
    tag.chars ++ after = tokens.flatMap Token.chars ++ rest ∧ ∀ t ∈ tokens, t.Proper := by
  unfold opened? at h
  split at h
  · split at h
    · obtain ⟨⟨json, final⟩, hdata, he⟩ := Option.map_eq_some_iff.mp h
      simp only [Prod.mk.injEq] at he
      obtain ⟨rfl, rfl⟩ := he
      obtain ⟨hafter, hclose, _⟩ := data?_sound hdata
      refine ⟨by rw [hafter]; simp [Token.chars], ?_⟩
      simpa using ⟨htag, hclose⟩
    · cases h
  · simp only [Option.some.injEq, Prod.mk.injEq] at h
    obtain ⟨rfl, rfl⟩ := h
    exact ⟨by simp [Token.chars], by simpa [Token.Proper] using htag⟩

theorem piece?_sound {cs rest : List Char} {tokens : List Token}
    (h : piece? cs = some (tokens, rest)) :
    cs = tokens.flatMap Token.chars ++ rest ∧ ∀ t ∈ tokens, t.Proper := by
  unfold piece? at h
  split at h
  · cases h
  · obtain ⟨⟨name, after⟩, hend, he⟩ := Option.map_eq_some_iff.mp h
    simp only [Prod.mk.injEq] at he
    obtain ⟨rfl, rfl⟩ := he
    obtain ⟨hcs, hn⟩ := endTag?_sound hend
    exact ⟨by rw [hcs]; simp [Token.chars], by simpa [Token.Proper] using hn⟩
  · obtain ⟨⟨tag, after⟩, hstart, hopen⟩ := Option.bind_eq_some_iff.mp h
    obtain ⟨hcs, htag⟩ := startTag?_sound hstart
    rw [hcs]
    exact opened?_sound hopen htag
  · rename_i c more _ _
    split at h
    · cases h
    · rename_i hmark
      simp only [Option.some.injEq, Prod.mk.injEq] at h
      obtain ⟨rfl, rfl⟩ := h
      exact ⟨rfl, by simpa [Token.Proper, IsPlain] using hmark⟩

end Sound

namespace Token

/-- Joining a piece keeps the text and what holds of every piece. -/
theorem join_sound (t : Token) (rest : List Token) :
    (join t rest).flatMap chars = t.chars ++ rest.flatMap chars ∧
      (t.Proper → (∀ u ∈ rest, u.Proper) → ∀ u ∈ join t rest, u.Proper) := by
  fun_cases join t rest with
  | case1 a b rest =>
    refine ⟨by simp [chars], ?_⟩
    intro ha hrest u hu
    rcases List.mem_cons.mp hu with rfl | hu
    · have hb : IsPlain b := hrest (.text b) (by simp)
      intro c hc
      rcases List.mem_append.mp hc with hc | hc
      · exact ha c hc
      · exact hb c hc
    · exact hrest u (by simp [hu])
  | case2 =>
    refine ⟨by simp, ?_⟩
    intro ht hrest u hu
    rcases List.mem_cons.mp hu with rfl | hu
    · exact ht
    · exact hrest u hu

theorem merged_sound (tokens : List Token) :
    (merged tokens).flatMap chars = tokens.flatMap chars ∧
      ((∀ t ∈ tokens, t.Proper) → ∀ t ∈ merged tokens, t.Proper) := by
  induction tokens with
  | nil => simp [merged]
  | cons t rest ih =>
    obtain ⟨htext, hproper⟩ := join_sound t (merged rest)
    refine ⟨?_, ?_⟩
    · rw [List.flatMap_cons, ← ih.1, ← htext]
      rfl
    · intro h
      exact hproper (h t (by simp)) (ih.2 fun u hu => h u (by simp [hu]))

/-- Text does not open or close anything, so neither does joining it. -/
theorem nested_merged (voids : List String) (opened : List (List Char)) (tokens : List Token) :
    nested voids opened (merged tokens) = nested voids opened tokens := by
  have hjoin : ∀ (opened : List (List Char)) (t : Token) (rest : List Token),
      nested voids opened (join t rest) = nested voids opened (t :: rest) := by
    intro opened t rest
    fun_cases join t rest with
    | case1 a b rest => simp [nested]
    | case2 => rfl
  induction tokens generalizing opened with
  | nil => rfl
  | cons t rest ih =>
    have hm : merged (t :: rest) = join t (merged rest) := rfl
    rw [hm, hjoin]
    cases t with
    | text run | data json => simpa [nested] using ih opened
    | start tag => simp [nested, ih]
    | close name => cases opened <;> simp [nested, ih]

end Token

/-- The pieces of a text make up the text, and each is proper. -/
theorem lex_sound {cs : List Char} {tokens : List Token} (h : lex cs = some tokens) :
    tokens.flatMap Token.chars = cs ∧ ∀ t ∈ tokens, t.Proper := by
  obtain ⟨hcs, hpieces⟩ := many_sound (fun _ _ _ => piece?_sound) cs
  unfold lex at h
  split at h
  · rename_i pieces hmany
    simp only [Option.some.injEq] at h
    subst h
    rw [hmany] at hcs hpieces
    obtain ⟨htext, hproper⟩ := Token.merged_sound pieces.flatten
    refine ⟨?_, hproper ?_⟩
    · rw [htext, List.flatten_eq_flatMap, List.flatMap_assoc]
      simpa using hcs.symm
    · intro t ht
      obtain ⟨piece, hp, ht⟩ := List.mem_flatten.mp ht
      exact hpieces piece hp t ht
  · cases h

end Compendium.Markup
