import Compendium.Proofs.ItemByItem
import Compendium.Proofs.Markup.Trees

/-!
# The text of written markup

What is shown of written markup is the text between its tags, with the character references
resolved. In clean trees every run of text and every value is the escaped form of a text. So
resolving undoes just what escaping has done, and what is shown of the written trees is the text in
the trees. The only other place for characters of one's own choice is the data of scripts, and that
is the data of the scripts in the trees.
-/

namespace Compendium.Markup

/-- Text with the references that escaping makes resolved. -/
def unescape : List Char → List Char
  | '&' :: 'a' :: 'm' :: 'p' :: ';' :: rest => '&' :: unescape rest
  | '&' :: 'l' :: 't' :: ';' :: rest => '<' :: unescape rest
  | '&' :: 'g' :: 't' :: ';' :: rest => '>' :: unescape rest
  | '&' :: 'q' :: 'u' :: 'o' :: 't' :: ';' :: rest => '"' :: unescape rest
  | '&' :: '#' :: '3' :: '9' :: ';' :: rest => Char.ofNat 0x27 :: unescape rest
  | c :: rest => c :: unescape rest
  | [] => []

namespace Token

/-- What is shown of a piece: tags and data are not. -/
def shown : Token → List Char
  | text run => unescape run
  | _ => []

/-- Runs of text and values are escaped texts. -/
def Escaped : Token → Prop
  | text run => ∃ s, run = escape s
  | start tag => ∀ a ∈ tag.attrs, ∃ s, a.2 = escape s
  | _ => True

end Token

def shown? (written : String) : Option String :=
  (lex written.toList).map fun tokens => String.ofList (tokens.flatMap Token.shown)

mutual

def textIn : Markup → List Char
  | text s => s.toList
  | element _ _ _ children => textInList children
  | _ => []

/-- The text in trees, one after the other. -/
def textInList : List Markup → List Char
  | [] => []
  | m :: rest => textIn m ++ textInList rest

end

@[simp] theorem textInList_nil : textInList [] = [] := by
  rw [textInList]

@[simp] theorem textInList_cons (m : Markup) (rest : List Markup) :
    textInList (m :: rest) = textIn m ++ textInList rest := by
  rw [textInList]

theorem textInList_singleton (m : Markup) : textInList [m] = textIn m := by
  rw [textInList_cons, textInList_nil, List.append_nil]

@[simp] theorem textInList_append (l m : List Markup) :
    textInList (l ++ m) = textInList l ++ textInList m :=
  append_of_cons l m rfl fun _ _ => rfl

@[simp] theorem textIn_text (s : String) : textIn (.text s) = s.toList := by
  rw [textIn]

@[simp] theorem textIn_node (tag : String) (attrs : List Attr) (content : List Markup) :
    textIn (.node tag attrs content) = textInList content := by
  rw [node, textIn]

@[simp] theorem textIn_leaf (tag : String) (attrs : List Attr) (s : String) :
    textIn (.leaf tag attrs s) = s.toList := by
  rw [leaf, textIn, textInList_singleton, textIn_text]

/-! ## Resolving undoes escaping -/

theorem unescape_cons {c : Char} (h : c ≠ '&') (rest : List Char) :
    unescape (c :: rest) = c :: unescape rest := by
  rw [unescape]
  all_goals
    intros
    contradiction

theorem unescape_escapeChar (c : Char) (rest : List Char) :
    unescape (escapeChar c ++ rest) = c :: unescape rest := by
  have hchar : ∀ {n : Nat}, c.toNat = n → c = Char.ofNat n := fun h => by rw [← h, Char.ofNat_toNat]
  unfold escapeChar
  split
  case h_6 hamp _ _ _ _ =>
    exact unescape_cons (fun h => hamp (by rw [h]; rfl)) rest
  all_goals
    next h =>
      rw [hchar h]
      rfl

theorem unescape_escape (s : List Char) : unescape (escape s) = s := by
  induction s with
  | nil => rfl
  | cons c rest ih =>
    rw [escape, List.flatMap_cons, unescape_escapeChar]
    exact congrArg (c :: ·) ih

theorem escape_append (s t : List Char) : escape (s ++ t) = escape s ++ escape t :=
  List.flatMap_append

/-! ## Runs of text -/

namespace Token

/-- A text in front of pieces becomes one run with a text that comes first, or a run of its own. -/
theorem join_text (a : List Char) (tokens : List Token) :
    (∃ run rest, tokens = text run :: rest ∧ join (text a) tokens = text (a ++ run) :: rest) ∨
      ∀ a, join (text a) tokens = text a :: tokens := by
  cases tokens with
  | nil => exact .inr fun _ => rfl
  | cons t rest =>
    cases t with
    | text run => exact .inl ⟨run, rest, rfl, rfl⟩
    | _ => exact .inr fun _ => rfl

theorem join_join (a b : List Char) (tokens : List Token) :
    join (text a) (join (text b) tokens) = join (text (a ++ b)) tokens := by
  obtain ⟨run, rest, rfl, hjoin⟩ | hjoin := join_text b tokens
  · rw [hjoin, join, join, List.append_assoc]
  · rw [hjoin, hjoin, join]

/-- The characters of a run are merged to the run. -/
theorem merged_run {run : List Char} (hrun : run ≠ []) (rest : List Token) :
    merged ((run.map fun c => text [c]) ++ rest) = join (text run) (merged rest) := by
  induction run with
  | nil => exact absurd rfl hrun
  | cons c more ih =>
    cases more with
    | nil => rfl
    | cons d more =>
      have hmerged : merged (((c :: d :: more).map fun c => text [c]) ++ rest) =
          join (text [c]) (merged (((d :: more).map fun c => text [c]) ++ rest)) := rfl
      rw [hmerged, ih (List.cons_ne_nil _ _), join_join]
      rfl

/-- An escaped run in front of escaped pieces: what is shown is its text, then what they show. -/
theorem join_escaped (s : List Char) {tokens : List Token} (h : ∀ t ∈ tokens, t.Escaped) :
    (join (text (escape s)) tokens).flatMap shown = s ++ tokens.flatMap shown ∧
      ∀ t ∈ join (text (escape s)) tokens, t.Escaped := by
  obtain ⟨run, rest, rfl, hjoin⟩ | hjoin := join_text (escape s) tokens
  · obtain ⟨⟨u, rfl⟩, hrest⟩ := List.forall_mem_cons.mp h
    rw [hjoin, ← escape_append, List.flatMap_cons, List.flatMap_cons, shown, shown, unescape_escape,
      unescape_escape, List.append_assoc]
    exact ⟨rfl, List.forall_mem_cons.mpr ⟨⟨s ++ u, rfl⟩, hrest⟩⟩
  · rw [hjoin, List.flatMap_cons, shown, unescape_escape]
    exact ⟨rfl, List.forall_mem_cons.mpr ⟨⟨s, rfl⟩, h⟩⟩

/-- The pieces are escaped once they are merged, and the text is what they show. -/
structure Shows (tokens : List Token) (s : List Char) : Prop where
  text : (merged tokens).flatMap shown = s
  escaped : ∀ t ∈ merged tokens, t.Escaped

theorem shows_nil : Shows [] [] :=
  ⟨rfl, List.forall_mem_nil _⟩

/-- A piece that is no text, in front of others. -/
theorem Shows.cons {tokens : List Token} {s : List Char} (h : Shows tokens s) {t : Token}
    (hjoin : merged (t :: tokens) = t :: merged tokens) (hshown : t.shown = []) (ht : t.Escaped) :
    Shows (t :: tokens) s := by
  refine ⟨?_, ?_⟩
  · rw [hjoin, List.flatMap_cons, hshown, h.text, List.nil_append]
  · rw [hjoin]
    exact List.forall_mem_cons.mpr ⟨ht, h.escaped⟩

theorem Shows.run {tokens : List Token} {s : List Char} (h : Shows tokens s) (u : List Char) :
    Shows (((escape u).map fun c => Token.text [c]) ++ tokens) (u ++ s) := by
  by_cases hempty : escape u = []
  · have hu : u = [] := by rw [← unescape_escape u, hempty]; rfl
    rw [hu]
    exact h
  · obtain ⟨htext, hescaped⟩ := join_escaped u h.escaped
    refine ⟨?_, ?_⟩
    · rw [merged_run hempty, htext, h.text]
    · rw [merged_run hempty]
      exact hescaped

end Token

/-! ## Trees -/

variable {names : Names}

theorem escaped_tagOf (tag : String) (attrs : List Attr) (flags : List String) :
    (Token.start (tagOf tag attrs flags)).Escaped := by
  intro a ha
  obtain ⟨b, -, rfl⟩ := List.mem_map.mp ha
  exact ⟨_, rfl⟩

theorem escaped_json : (Token.start .json).Escaped := by
  intro a ha
  obtain rfl := List.mem_singleton.mp ha
  exact ⟨"application/json".toList, by decide⟩

mutual

theorem shows_pieces : ∀ m : Markup, Clean names m → ∀ {tokens : List Token} {s : List Char},
    Token.Shows tokens s → Token.Shows (m.pieces ++ tokens) (m.textIn ++ s)
  | .text u, _, _, _, h => by
    rw [pieces, textIn]
    exact h.run u.toList
  | .element tag attrs flags children, hclean, tokens, s, h => by
    have hclose : Token.Shows (.close tag.toList :: tokens) s := h.cons rfl rfl trivial
    rw [pieces, textIn, List.cons_append, List.append_assoc]
    exact (shows_piecesList children hclean.2.2.2 hclose).cons rfl rfl
      (escaped_tagOf tag attrs flags)
  | .void tag attrs flags, _, _, _, h => by
    rw [pieces, textIn]
    · exact h.cons rfl rfl (escaped_tagOf tag attrs flags)
    all_goals simp
  | .script json, _, tokens, s, h => by
    have hclose : Token.Shows (.close "script".toList :: tokens) s := h.cons rfl rfl trivial
    have hdata : Token.Shows (.data json :: .close "script".toList :: tokens) s :=
      hclose.cons rfl rfl trivial
    rw [pieces, textIn]
    · exact hdata.cons rfl rfl escaped_json
    all_goals simp
  | .raw _, hclean, _, _, _ => hclean.elim

theorem shows_piecesList : ∀ ms : List Markup, CleanList names ms →
    ∀ {tokens : List Token} {s : List Char}, Token.Shows tokens s →
      Token.Shows (piecesList ms ++ tokens) (textInList ms ++ s)
  | [], _, _, _, h => by
    rw [piecesList, textInList_nil]
    exact h
  | m :: rest, hclean, _, _, h => by
    rw [piecesList, textInList_cons, List.append_assoc, List.append_assoc]
    exact shows_pieces m hclean.1 (shows_piecesList rest hclean.2 h)

end

theorem shows_of_clean {ms : List Markup} (h : CleanList names ms) :
    Token.Shows (piecesList ms) (textInList ms) := by
  have hshows := shows_piecesList ms h Token.shows_nil
  rw [List.append_nil, List.append_nil] at hshows
  exact hshows

/-- What is shown of clean trees is the text in them. -/
theorem shown?_render {ms : List Markup} (h : CleanList names ms) :
    shown? (render ms) = some (String.ofList (textInList ms)) := by
  rw [shown?, render, String.toList_ofList, lex_charsList h, Option.map_some,
    (shows_of_clean h).text]

/-! ## Data -/

mutual

/-- The data of the scripts in a tree. -/
def dataIn : Markup → List (List Char)
  | script json => [json]
  | element _ _ _ children => dataInList children
  | _ => []

/-- The data of the scripts in trees, one after the other. -/
def dataInList : List Markup → List (List Char)
  | [] => []
  | m :: rest => dataIn m ++ dataInList rest

end

@[simp] theorem dataInList_nil : dataInList [] = [] := by
  rw [dataInList]

@[simp] theorem dataInList_cons (m : Markup) (rest : List Markup) :
    dataInList (m :: rest) = dataIn m ++ dataInList rest := by
  rw [dataInList]

@[simp] theorem dataIn_text (s : String) : dataIn (.text s) = [] := by
  rw [dataIn]
  all_goals simp

@[simp] theorem dataIn_void (tag : String) (attrs : List Attr) (flags : List String) :
    dataIn (.void tag attrs flags) = [] := by
  rw [dataIn]
  all_goals simp

@[simp] theorem dataIn_node (tag : String) (attrs : List Attr) (content : List Markup) :
    dataIn (.node tag attrs content) = dataInList content := by
  rw [node, dataIn]

@[simp] theorem dataIn_classed (tag cssClass : String) (content : List Markup) :
    dataIn (.classed tag cssClass content) = dataInList content := by
  rw [classed, dataIn]

@[simp] theorem dataIn_leaf (tag : String) (attrs : List Attr) (s : String) :
    dataIn (.leaf tag attrs s) = [] := by
  rw [leaf, dataIn, dataInList_cons, dataIn_text, dataInList_nil, List.append_nil]

theorem dataInList_map {α : Type} {f : α → Markup} (h : ∀ a, dataIn (f a) = []) (l : List α) :
    dataInList (l.map f) = [] := by
  induction l with
  | nil => rw [List.map_nil, dataInList_nil]
  | cons a rest ih => rw [List.map_cons, dataInList_cons, h, ih, List.append_nil]

/-- Merging texts keeps the data. -/
theorem Token.data_of_mem_merged {json : List Char} {tokens : List Token}
    (h : .data json ∈ merged tokens) : .data json ∈ tokens := by
  induction tokens with
  | nil => exact h
  | cons t rest ih =>
    have hjoin : .data json ∈ join t (merged rest) := h
    unfold join at hjoin
    split at hjoin
    · next a b more hmerged =>
      obtain hhead | hmore := List.mem_cons.mp hjoin
      · cases hhead
      · exact List.mem_cons_of_mem _ (ih (hmerged ▸ List.mem_cons_of_mem _ hmore))
    · obtain hhead | hrest := List.mem_cons.mp hjoin
      · exact hhead ▸ List.mem_cons_self
      · exact List.mem_cons_of_mem _ (ih hrest)

mutual

theorem mem_dataIn : ∀ (m : Markup) {json : List Char}, .data json ∈ m.pieces → json ∈ dataIn m
  | .text s, json, h => by
    rw [pieces] at h
    obtain ⟨c, -, hc⟩ := List.mem_map.mp h
    cases hc
  | .element tag attrs flags children, json, h => by
    rw [pieces] at h
    rw [dataIn]
    obtain hstart | hrest := List.mem_cons.mp h
    · cases hstart
    · obtain hinner | hclose := List.mem_append.mp hrest
      · exact mem_dataInList children hinner
      · cases List.mem_singleton.mp hclose
  | .void tag attrs flags, json, h => by
    rw [pieces] at h
    cases List.mem_singleton.mp h
  | .script data, json, h => by
    rw [pieces] at h
    rw [dataIn]
    simpa using h
  | .raw _, json, h => by
    rw [pieces] at h
    cases h

theorem mem_dataInList : ∀ (ms : List Markup) {json : List Char}, .data json ∈ piecesList ms →
    json ∈ dataInList ms
  | [], json, h => by
    rw [piecesList] at h
    cases h
  | m :: rest, json, h => by
    rw [piecesList] at h
    rw [dataInList_cons]
    exact (List.mem_append.mp h).elim (fun hm => List.mem_append_left _ (mem_dataIn m hm))
      fun hrest => List.mem_append_right _ (mem_dataInList rest hrest)

end

/-- A text that is well-formed markup, in which nothing stands but tags with known names, escaped
texts, escaped values and the given data of scripts. -/
def WrittenSafely (names : Names) (scripts : List (List Char)) (cs : List Char) : Prop :=
  WellFormed names cs ∧ ∃ tokens, lex cs = some tokens ∧ (∀ t ∈ tokens, t.Escaped) ∧
    ∀ json, Token.data json ∈ tokens → json ∈ scripts

theorem writtenSafely_of_clean {ms : List Markup} (h : CleanList names ms) :
    WrittenSafely names (dataInList ms) (charsList ms) := by
  obtain ⟨hformed, -⟩ := wellWritten_of_clean h
  rw [render, String.toList_ofList] at hformed
  exact ⟨hformed, _, lex_charsList h, (shows_of_clean h).escaped,
    fun json hjson => mem_dataInList ms (Token.data_of_mem_merged hjson)⟩

end Compendium.Markup
