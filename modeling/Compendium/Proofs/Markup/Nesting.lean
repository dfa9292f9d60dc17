import Compendium.Proofs.ItemByItem
import Compendium.Proofs.Markup.Trees

/-!
# Elements that never stand inside their like

`apart` follows the open elements over the pieces of a written text and refuses the start tag of a
name that is open. For the text of a clean tree this can be seen on the tree.
-/

namespace Compendium.Markup

/-- Whether no element of the name is opened while one of them is open. -/
def apart (voids : List String) (name : List Char) : List (List Char) → List Token → Bool
  | _, [] => true
  | opened, .start tag :: rest =>
    !(tag.name == name && opened.contains name) &&
      apart voids name
        (if voids.contains (String.ofList tag.name) then opened else tag.name :: opened) rest
  | opened, .close _ :: rest => apart voids name opened.tail rest
  | opened, .text _ :: rest => apart voids name opened rest
  | opened, .data _ :: rest => apart voids name opened rest

/-- A text that is made of nested elements, those of the tag never one inside another. -/
def WrittenApart (names : Names) (tag : String) (ms : List Markup) : Prop :=
  ∃ tokens, lex (render ms).toList = some tokens ∧ nested names.voids [] tokens = true ∧
    apart names.voids tag.toList [] tokens = true

theorem apart_merged (voids : List String) (name : List Char) (opened : List (List Char))
    (tokens : List Token) :
    apart voids name opened (Token.merged tokens) = apart voids name opened tokens := by
  have hjoin : ∀ (opened : List (List Char)) (t : Token) (rest : List Token),
      apart voids name opened (Token.join t rest) = apart voids name opened (t :: rest) := by
    intro opened t rest
    fun_cases Token.join t rest with
    | case1 a b rest => simp only [apart]
    | case2 => rfl
  induction tokens generalizing opened with
  | nil => rfl
  | cons t rest ih =>
    have hm : Token.merged (t :: rest) = Token.join t (Token.merged rest) := rfl
    rw [hm, hjoin]
    cases t with
    | text run | data json | start tag | close name => rw [apart, ih, apart]

/-! ## On trees -/

mutual

/-- No element of the tag stands inside another one, or inside of `within` at all. -/
def Apart (tag : String) (within : Bool) : Markup → Prop
  | element own _ _ content =>
    (own = tag → within = false) ∧ ApartList tag (within || own == tag) content
  | void own _ _ => own ≠ tag
  | text _ => True
  | script _ => True
  | raw _ => True

def ApartList (tag : String) (within : Bool) : List Markup → Prop
  | [] => True
  | m :: rest => Apart tag within m ∧ ApartList tag within rest

end

section Apart

variable {tag : String} {within : Bool}

theorem apartList_append (a b : List Markup) :
    ApartList tag within (a ++ b) ↔ ApartList tag within a ∧ ApartList tag within b :=
  and_of_append a b trivial fun _ _ => .rfl

/-- An element of another tag changes nothing. -/
theorem apart_element {own : String} (hown : own ≠ tag) (attrs : List Attr) (flags : List String)
    (content : List Markup) :
    Apart tag within (.element own attrs flags content) ↔ ApartList tag within content := by
  rw [Apart, beq_eq_false_iff_ne.mpr hown, Bool.or_false]
  exact and_iff_right fun h => absurd h hown

mutual

/-- What holds none of the elements may stand anywhere. -/
theorem Apart.mono : ∀ {m : Markup}, Apart tag true m → Apart tag within m
  | .text _, _ | .script _, _ | .raw _, _ => trivial
  | .void _ _ _, h => h
  | .element own attrs flags content, h => by
    have hown : own ≠ tag := fun heq => Bool.noConfusion (h.1 heq)
    rw [apart_element hown] at h ⊢
    exact ApartList.mono h

theorem ApartList.mono : ∀ {ms : List Markup}, ApartList tag true ms → ApartList tag within ms
  | [], _ => trivial
  | _ :: _, h => ⟨Apart.mono h.1, ApartList.mono h.2⟩

end

end Apart

variable {names : Names} {tag : String}

/-- A start tag that is not refused. -/
theorem apart_start (voids : List String) {own : StartTag} {opened : List (List Char)}
    (h : own.name = tag.toList → opened.contains tag.toList = false) (rest : List Token) :
    apart voids tag.toList opened (.start own :: rest) =
      apart voids tag.toList
        (if voids.contains (String.ofList own.name) then opened else own.name :: opened) rest := by
  have hallowed : (own.name == tag.toList && opened.contains tag.toList) = false := by
    by_cases heq : own.name = tag.toList
    · rw [h heq, Bool.and_false]
    · rw [beq_eq_false_iff_ne.mpr heq, Bool.false_and]
  rw [apart, hallowed, Bool.not_false, Bool.true_and]

mutual

/-- Over the pieces of a tree nothing is refused, and the open elements are as they were. -/
theorem apart_pieces (htag : tag ∈ names.elements) (opened : List (List Char)) (rest : List Token) :
    ∀ m : Markup, Clean names m → Apart tag (opened.contains tag.toList) m →
    apart names.voids tag.toList opened (m.pieces ++ rest) =
      apart names.voids tag.toList opened rest
  | .text s, _, _ => by
    rw [pieces]
    induction escape s.toList with
    | nil => rfl
    | cons c more ih => exact ih
  | .element own attrs flags content, hclean, hapart => by
    obtain ⟨hown, -, -, hcontent⟩ := hclean
    have hopen : names.voids.contains (String.ofList (tagOf own attrs flags).name) = false := by
      simpa [tagOf] using names.apart own hown
    have hinside : (own.toList :: opened).contains tag.toList =
        (opened.contains tag.toList || own == tag) := by
      rw [List.contains_cons, Bool.or_comm]
      congr 1
      rw [Bool.eq_iff_iff, beq_iff_eq, beq_iff_eq, String.toList_inj]
      exact eq_comm
    have hinner := apart_piecesList htag (own.toList :: opened) (.close own.toList :: rest) content
      hcontent (hinside ▸ hapart.2)
    rw [pieces, List.cons_append, List.append_assoc,
      apart_start names.voids fun heq => hapart.1 (String.toList_inj.mp heq), hopen]
    exact hinner
  | .void own attrs flags, hclean, hapart => by
    have hvoid : names.voids.contains (String.ofList (tagOf own attrs flags).name) = true := by
      simpa [tagOf] using hclean.1
    rw [pieces, List.singleton_append,
      apart_start names.voids fun heq => absurd (String.toList_inj.mp heq) hapart, if_pos hvoid]
  | .script json, _, _ => by
    have hname : StartTag.json.name ≠ tag.toList := fun heq => by
      have hscript : "script" = tag := String.toList_inj.mp heq
      exact names.noScript (List.mem_append_left _ (hscript ▸ htag))
    have hopen : ¬names.voids.contains (String.ofList StartTag.json.name) = true := fun h =>
      names.noScript (List.mem_append_right _ (List.contains_iff_mem.mp h))
    rw [pieces, List.cons_append, apart_start names.voids fun heq => absurd heq hname, if_neg hopen]
    rfl
  | .raw _, hclean, _ => hclean.elim

theorem apart_piecesList (htag : tag ∈ names.elements) (opened : List (List Char))
    (rest : List Token) :
    ∀ ms : List Markup, CleanList names ms → ApartList tag (opened.contains tag.toList) ms →
    apart names.voids tag.toList opened (piecesList ms ++ rest) =
      apart names.voids tag.toList opened rest
  | [], _, _ => rfl
  | m :: ms, hclean, hapart => by
    rw [piecesList, List.append_assoc, apart_pieces htag opened _ m hclean.1 hapart.1,
      apart_piecesList htag opened _ ms hclean.2 hapart.2]

end

/-- What is apart in a clean tree is apart in its text. -/
theorem writtenApart_of_clean (htag : tag ∈ names.elements) {ms : List Markup}
    (hclean : CleanList names ms) (hapart : ApartList tag false ms) :
      WrittenApart names tag ms := by
  obtain ⟨⟨tokens, hlex, -, -, hnested⟩, hpieces⟩ := wellWritten_of_clean hclean
  refine ⟨tokens, hlex, hnested, ?_⟩
  have htokens : tokens = Token.merged (piecesList ms) := Option.some.inj (hlex.symm.trans hpieces)
  have hall := apart_piecesList htag [] [] ms hclean hapart
  rw [List.append_nil] at hall
  rw [htokens, apart_merged, hall]
  rfl

end Compendium.Markup
