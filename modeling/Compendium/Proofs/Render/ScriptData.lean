import Compendium.Proofs.Render.WellFormed
import Compendium.Json.Reader

/-!
# Data in scripts

The data of a diagram is JSON text inside a script, where each `</` is written `<\/`. The
replacement looks at the characters only and not at the JSON. It is harmless nevertheless: the lexer
takes a `<` only inside of a text, so what follows it is still in that text, and there an escaped
slash is a slash. So the data is read as the same tokens, and the script ends where it should.
-/

namespace Compendium

/-! ## What is replaced -/

namespace Markup

theorem hasClose_iff {s : List Char} : hasClose s = true ↔ ['<', '/'] <:+: s := by
  induction s with
  | nil => simp [hasClose]
  | cons c rest ih =>
    rw [List.infix_cons_iff]
    by_cases hfirst : ['<', '/'] <+: c :: rest
    · obtain ⟨after, hafter⟩ := hfirst
      cases hafter
      simp [hasClose]
    · rw [hasClose.eq_2, ih, or_iff_right hfirst]
      rintro after rfl rfl
      exact hfirst ⟨after, rfl⟩

theorem hasClose_eq_false_iff {s : List Char} : hasClose s = false ↔ ¬['<', '/'] <:+: s := by
  rw [← hasClose_iff, Bool.not_eq_true]

end Markup

namespace Scope

theorem scriptSafe_cons {c : Char} {rest : List Char} (h : c = '<' → rest.head? ≠ some '/') :
    scriptSafe (c :: rest) = c :: scriptSafe rest := by
  rw [scriptSafe]
  rintro after rfl rfl
  exact h rfl rfl

/-- The pieces between the replaced places stay as they are. -/
theorem scriptSafe_append {piece : List Char} (h : ¬['<', '/'] <:+: piece) (rest : List Char)
    (hrest : rest.head? ≠ some '/') : scriptSafe (piece ++ rest) = piece ++ scriptSafe rest := by
  induction piece with
  | nil => rfl
  | cons c more ih =>
    rw [List.infix_cons_iff, not_or] at h
    rw [List.cons_append, scriptSafe_cons, ih h.2, List.cons_append]
    rintro rfl hslash
    cases more with
    | nil => exact hrest hslash
    | cons d more =>
      cases hslash
      exact h.1 ⟨more, rfl⟩

/-- A text that is put together with `</` becomes the text that is put together with `<\/`. -/
theorem scriptSafe_join {pieces : List (List Char)} (h : ∀ piece ∈ pieces, ¬['<', '/'] <:+: piece) :
    scriptSafe (['<', '/'].intercalate pieces) = ['<', '\\', '/'].intercalate pieces := by
  induction pieces with
  | nil => rfl
  | cons piece rest ih =>
    obtain ⟨hpiece, hrest⟩ := List.forall_mem_cons.mp h
    cases rest with
    | nil =>
      have hlast := scriptSafe_append hpiece [] (by simp)
      rw [List.intercalate_singleton, List.intercalate_singleton]
      rwa [scriptSafe, List.append_nil] at hlast
    | cons next rest =>
      rw [List.intercalate_cons_cons, List.intercalate_cons_cons, List.append_assoc,
        List.append_assoc, scriptSafe_append hpiece _ (by simp), ← ih hrest]
      rfl

end Scope

/-! ## What the lexer reads -/

namespace Json

/-- A `<` is taken only inside of a text. -/
theorem Lexer.feed_less {lx next : Lexer} (h : lx.feed '<' = some next) :
    ∃ acc, next = ⟨.text acc, lx.tokens⟩ := by
  obtain ⟨mode, tokens⟩ := lx
  cases mode with
  | text acc => exact ⟨'<' :: acc, (Option.some.inj h).symm⟩
  | _ => cases h

/-- Inside of a text an escaped slash is a slash. -/
theorem Lexer.run_escapedSlash (acc : List Char) (tokens : List Token) (rest : List Char) :
    Lexer.run ⟨.text acc, tokens⟩ ('\\' :: '/' :: rest) =
      Lexer.run ⟨.text acc, tokens⟩ ('/' :: rest) :=
  rfl

theorem Lexer.run_cons (lx : Lexer) (c : Char) (rest : List Char) :
    lx.run (c :: rest) = (lx.feed c).bind fun next => next.run rest := by
  rw [Lexer.run]
  cases lx.feed c <;> rfl

theorem Lexer.run_scriptSafe (lx : Lexer) (s : List Char) :
    lx.run (Scope.scriptSafe s) = lx.run s := by
  fun_induction Scope.scriptSafe s generalizing lx with
  | case1 rest ih =>
    rw [run_cons, run_cons]
    cases hless : lx.feed '<' with
    | none => rfl
    | some next =>
      obtain ⟨acc, rfl⟩ := feed_less hless
      exact (run_escapedSlash acc lx.tokens _).trans (ih ⟨.text ('/' :: acc), lx.tokens⟩)
  | case2 c rest hfirst ih =>
    rw [run_cons, run_cons]
    exact congrArg _ (funext ih)
  | case3 => rfl

/-- Data in a script has the tokens that it has outside. -/
theorem Token.scan_scriptSafe (s : List Char) : Token.scan (Scope.scriptSafe s) = Token.scan s := by
  rw [Token.scan, Token.scan, Lexer.run_scriptSafe]

theorem parseChars?_scriptSafe (s : List Char) :
    parseChars? (Scope.scriptSafe s) = parseChars? s := by
  rw [parseChars?, parseChars?, Token.scan_scriptSafe]

end Json

/-! ## Diagrams on the page -/

namespace Scope

open Markup (hasClose hasClose_eq_false_iff)

theorem clean_caption (scope : Scope) (content : Option (List Inline)) :
    (scope.caption content).Clean := by
  cases content with
  | none => exact fun _ => trivial
  | some content =>
    have hcontent := nodesHave_inlines (fun _ h => Markup.Named.clean h) scope content
    exact clean_iff_nodesHave.mpr
      (hcontent.inside (fun _ h => Markup.Named.clean h) (by decide) namedAttrs_nil)

theorem clean_diagram (scope : Scope) (d : Diagram) : (scope.diagram d).Clean := by
  intro noted
  have hcaption := clean_caption scope d.caption noted
  have hscript : CleanTree (.script (scriptSafe d.data.compact.toList)) := hasClose_scriptSafe _
  show CleanTrees [.classed "figure" "interactive-diagram" (.node "div" [("class", "diagram-mount"),
    ("id", d.id), ("data-diagram-type", d.kind)] [.script (scriptSafe d.data.compact.toList)] ::
      ((scope.caption d.caption).run noted).1)]
  simp +decide [hcaption, hscript]

/-- What is read of a written diagram: its data stands in a script of its own. -/
theorem lex_diagram (scope : Scope) (d : Diagram) (noted : List Document) :
    ∃ figure mount after,
      Markup.lex (Markup.charsList ((scope.diagram d).run noted).1) =
        some (.start figure :: .start mount ::
        .start .json :: .data (scriptSafe d.data.compact.toList) :: .close "script".toList ::
          .close "div".toList :: after) := by
  rw [Markup.lex_charsList (clean_diagram scope d noted)]
  exact ⟨_, _, _, rfl⟩

/-- The data of a diagram survives the script that it stands in: every `</` and nothing else is
replaced, none is left, and the tokens and the value are those of the text before, whether or not it
is JSON. A reader of the written diagram finds one script there, with data that has the value of the
diagram's own. -/
theorem data_survives_script :
    (∀ pieces : List (List Char), (∀ piece ∈ pieces, ¬['<', '/'] <:+: piece) →
      scriptSafe (['<', '/'].intercalate pieces) = ['<', '\\', '/'].intercalate pieces) ∧
    (∀ s : List Char, ¬['<', '/'] <:+: scriptSafe s ∧
      Json.Token.scan (scriptSafe s) = Json.Token.scan s ∧
      Json.parseChars? (scriptSafe s) = Json.parseChars? s) ∧
    ∀ (scope : Scope) (d : Diagram) (noted : List Document), ∃ figure mount json after,
      Markup.lex (Markup.charsList ((scope.diagram d).run noted).1) =
        some (.start figure :: .start mount ::
        .start .json :: .data json :: .close "script".toList :: .close "div".toList :: after) ∧
      json = scriptSafe d.data.compact.toList ∧
      Json.parseChars? json = Json.parseChars? d.data.compact.toList := by
  refine ⟨fun _ => scriptSafe_join, fun s => ?_, fun scope d noted => ?_⟩
  · exact ⟨hasClose_eq_false_iff.mp (hasClose_scriptSafe s), Json.Token.scan_scriptSafe s,
      Json.parseChars?_scriptSafe s⟩
  · obtain ⟨figure, mount, after, hlex⟩ := lex_diagram scope d noted
    exact ⟨figure, mount, _, after, hlex, rfl, Json.parseChars?_scriptSafe _⟩

def labelData : Json :=
  .obj [("label", .str "</script>")]

/-- The text of the data around its end tag. -/
def labelPieces : List (List Char) :=
  ["\x7b\"label\":\"".toList, "script>\"\x7d".toList]

theorem data_survives_script_label :
    (∀ piece ∈ labelPieces, ¬['<', '/'] <:+: piece) ∧
      labelData.compact.toList = ['<', '/'].intercalate labelPieces ∧
      scriptSafe labelData.compact.toList = "\x7b\"label\":\"<\\/script>\"\x7d".toList ∧
      Json.parseChars? (scriptSafe labelData.compact.toList) = some labelData := by
  obtain ⟨hreplaced, hread, -⟩ := data_survives_script
  have hfree : ∀ piece ∈ labelPieces, ¬['<', '/'] <:+: piece := by
    intro piece hpiece
    have hall : ∀ piece ∈ labelPieces, hasClose piece = false := by decide
    exact hasClose_eq_false_iff.mp (hall piece hpiece)
  have htext : labelData.compact.toList = ['<', '/'].intercalate labelPieces := by
    rw [Json.compact, String.toList_ofList]
    decide +kernel
  have hvalue : Json.parseChars? labelData.compact.toList = some labelData := by
    rw [Json.compact, String.toList_ofList]
    rfl
  refine ⟨hfree, htext, ?_, (hread _).2.2.trans hvalue⟩
  rw [htext, hreplaced labelPieces hfree]
  decide +kernel

end Scope

end Compendium
