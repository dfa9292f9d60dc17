import Compendium.Proofs.Render.Contents

/-!
# Numbers and nothing else

A section with a number and the same section without one are rendered alike: the number shows as a
label at the front of the titles and as one word in the class of the sections, and it changes
nothing else. The sections of a textbook are therefore those of any other document with the body,
with numbers.
-/

namespace Compendium

/-! ## Text without some pieces -/

namespace Text

/-- The second text is the first without some of its pieces. -/
inductive Deletes (piece : List Char → Prop) : List Char → List Char → Prop
  | nil : Deletes piece [] []
  | keep (c : Char) {text rest : List Char} : Deletes piece text rest →
      Deletes piece (c :: text) (c :: rest)
  | delete {part : List Char} (hpart : piece part) {text rest : List Char} :
      Deletes piece text rest → Deletes piece (part ++ text) rest

variable {piece : List Char → Prop}

theorem Deletes.keepAll {text rest : List Char} (h : Deletes piece text rest) :
    ∀ kept : List Char, Deletes piece (kept ++ text) (kept ++ rest)
  | [] => h
  | c :: kept => .keep c (h.keepAll kept)

theorem Deletes.append {text rest more others : List Char} (h : Deletes piece text rest)
    (hmore : Deletes piece more others) : Deletes piece (text ++ more) (rest ++ others) := by
  induction h with
  | nil => exact hmore
  | keep c _ ih => exact .keep c ih
  | delete hpart _ ih =>
    rw [List.append_assoc]
    exact .delete hpart ih

theorem Deletes.refl (text : List Char) : Deletes piece text text := by
  have h : Deletes piece (text ++ []) (text ++ []) := Deletes.nil.keepAll text
  rwa [List.append_nil] at h

end Text

open Markup Text

/-! ## Pages with and without numbers -/

namespace Scope

/-- The first markup is the second one with numbers: some section titles have a label in front, and
some sections are classed as numbered. -/
inductive Numbered : List Markup → List Markup → Prop
  | nil : Numbered [] []
  | same (m : Markup) {rest plain : List Markup} :
      Numbered rest plain → Numbered (m :: rest) (m :: plain)
  | inside (tag : String) (attrs : List Attr) {content others rest plain : List Markup} :
      Numbered content others → Numbered rest plain →
      Numbered (.node tag attrs content :: rest) (.node tag attrs others :: plain)
  | title (tag number : String) (content : List Markup) {rest plain : List Markup} :
      Numbered rest plain → Numbered
        (.node tag [("class", "section-title")]
          (.leaf "span" [("class", "section-number")] number :: .text " " :: content) :: rest)
        (.node tag [("class", "section-title")] content :: plain)
  | classed (anchor : List Attr) (id level more : String)
      {content others rest plain : List Markup} :
      Numbered content others → Numbered rest plain →
      Numbered
        (.node "section" (anchor ++ [("data-section-id", id),
          ("class", "section level-" ++ level ++ " numbered" ++ more)]) content :: rest)
        (.node "section" (anchor ++ [("data-section-id", id),
          ("class", "section level-" ++ level ++ more)]) others :: plain)

theorem Numbered.append {content plain more others : List Markup} (h : Numbered content plain)
    (hmore : Numbered more others) : Numbered (content ++ more) (plain ++ others) := by
  induction h with
  | nil => exact hmore
  | same m _ ih => exact .same m ih
  | inside tag attrs hcontent _ _ ih => exact .inside tag attrs hcontent ih
  | title tag number content _ ih => exact .title tag number content ih
  | classed anchor id level more hcontent _ _ ih => exact .classed anchor id level more hcontent ih

theorem numbered_refl (content : List Markup) : Numbered content content := by
  induction content with
  | nil => exact .nil
  | cons m rest ih => exact .same m ih

/-- What a number writes on a page: a label with the space after it, or a word of a class. -/
def IsNumberMark (part : List Char) : Prop :=
  (∃ number : String, part = "<span class=\"section-number\">".toList ++ escape number.toList ++
    "</span> ".toList) ∨
  part = " numbered".toList

/-- In the start tag of a section, a word of its class stands between texts that do not depend on
it. -/
theorem exists_startTag_eq (anchor : List Attr) (id front more : String) :
    ∃ before after, ∀ word : String, startTag "section" (anchor ++ [("data-section-id", id),
      ("class", front ++ word ++ more)]) [] = before ++ (escape word.toList ++ after) := by
  refine ⟨"<section".toList ++ (anchor.flatMap attrChars ++ (attrChars ("data-section-id", id) ++
    (" class=\"".toList ++ escape front.toList))), escape more.toList ++ "\">".toList,
      fun word => ?_⟩
  simp [startTag, attrChars, escape]

/-- On the written page the marks of numbers are all that is deleted. -/
theorem Numbered.deletes {content plain : List Markup} (h : Numbered content plain) :
    Deletes IsNumberMark (charsList content) (charsList plain) := by
  induction h with
  | nil => exact .nil
  | same m _ ih => exact ih.keepAll (chars m)
  | inside tag attrs _ _ ihcontent ih =>
    exact (((Deletes.refl _).append ihcontent).append (.refl _)).append ih
  | title tag number content _ ih =>
    refine Deletes.append (.append (.append (.refl _) ?_) (.refl _)) ih
    have hlabel :
        charsList (.leaf "span" [("class", "section-number")] number :: .text " " :: content) =
        "<span class=\"section-number\">".toList ++ escape number.toList ++ "</span> ".toList ++
          charsList content := by
      simp [charsList, chars, leaf, startTag, endTag, attrChars, escape, escapeChar]
    rw [hlabel]
    exact .delete (.inl ⟨number, rfl⟩) (.refl _)
  | classed anchor id level more _ _ ihcontent ih =>
    refine Deletes.append (.append (.append ?_ ihcontent) (.refl _)) ih
    obtain ⟨before, after, htag⟩ := exists_startTag_eq anchor id ("section level-" ++ level) more
    have hplain := htag ""
    rw [String.append_empty] at hplain
    rw [htag, hplain]
    exact .keepAll (.delete (.inr (by decide)) (.refl _)) before

/-! ## Rendering with and without a number -/

/-- Whatever is noted before, the first step notes what the second one notes, and its markup is that
of the second one with numbers. -/
structure OnlyNumbers (x y : Rendered) : Prop where
  noted : ∀ noted, (x.run noted).2 = (y.run noted).2
  markup : ∀ noted, Numbered (x.run noted).1 (y.run noted).1

theorem onlyNumbers_refl (x : Rendered) : OnlyNumbers x x :=
  ⟨fun _ => rfl, fun _ => numbered_refl _⟩

theorem OnlyNumbers.append {x y x' y' : Rendered} (h : OnlyNumbers x y) (h' : OnlyNumbers x' y') :
    OnlyNumbers
      (do
        let first ← x
        let others ← x'
        return first ++ others)
      (do
        let first ← y
        let others ← y'
        return first ++ others) where
  noted := fun noted => by
    show (x'.run (x.run noted).2).2 = (y'.run (y.run noted).2).2
    rw [h.noted noted, h'.noted]
  markup := fun noted => by
    show Numbered ((x.run noted).1 ++ (x'.run (x.run noted).2).1)
      ((y.run noted).1 ++ (y'.run (y.run noted).2).1)
    rw [h.noted noted]
    exact (h.markup noted).append (h'.markup _)

/-- The class of a section has the word of its number, unless the section asks for the word
itself. -/
theorem sectionClass_numbered (scope : Scope) (mode : SectionMode) (s : Section) :
    scope.sectionClass mode true s = scope.sectionClass mode false s ∨
    ∃ more,
      scope.sectionClass mode true s =
        "section level-" ++ natAttr (scope.level + 1) ++ " numbered" ++ more ∧
      scope.sectionClass mode false s = "section level-" ++ natAttr (scope.level + 1) ++ more := by
  obtain ⟨more, hclass⟩ : ∃ more, ∀ numbered, scope.sectionClass mode numbered s =
      "section level-" ++ natAttr (scope.level + 1) ++
        (if s.display.any (·.numbered) || numbered then " numbered" else "") ++ more := by
    unfold sectionClass
    cases s.display with
    | none | some options => exact ⟨_, fun _ => String.append_assoc⟩
  rw [hclass, hclass]
  cases s.display.any (·.numbered) with
  | true => exact .inl rfl
  | false => exact .inr ⟨more, rfl, by rw [if_neg (by decide), String.append_empty]⟩

/-- A section with a number around markup with numbers. -/
theorem OnlyNumbers.section {x y : Rendered} (h : OnlyNumbers x y) (scope : Scope)
    (mode : SectionMode)
    (s : Section) : OnlyNumbers (.inside "section" (scope.sectionAttrs mode true s) x)
      (.inside "section" (scope.sectionAttrs mode false s) y) := by
  refine ⟨h.noted, fun noted => ?_⟩
  show Numbered [.node "section" _ (x.run noted).1] [.node "section" _ (y.run noted).1]
  unfold sectionAttrs
  obtain hsame | ⟨more, hnumbered, hplain⟩ := scope.sectionClass_numbered mode s
  · rw [hsame]
    exact .inside _ _ (h.markup noted) .nil
  · rw [hnumbered, hplain]
    exact .classed _ _ _ _ (h.markup noted) .nil

theorem onlyNumbers_sectionTitle (scope : Scope) (mode : SectionMode) (number : String)
    (s : Section) :
    OnlyNumbers (scope.sectionTitle mode (some number) s) (scope.sectionTitle mode none s) := by
  unfold sectionTitle
  split
  · cases s.title with
    | none => exact onlyNumbers_refl _
    | some title => exact ⟨fun _ => rfl, fun noted => .title _ number _ .nil⟩
  · exact onlyNumbers_refl _

section Blocks

variable {block : BlockRenderer} (hblock : ∀ (scope : Scope) (number : String) (s : Section),
  OnlyNumbers (block scope (some number) (.subsection s)) (block scope none (.subsection s)))

include hblock

/-- The two loops over the content of a section stay in step, whatever they have counted. -/
theorem onlyNumbers_sectionContent (scope : Scope) (number : String) (k n : Nat)
    (content : List Block) : OnlyNumbers (sectionContent block scope (some number) k content)
      (sectionContent block scope none n content) := by
  induction content generalizing k with
  | nil => exact onlyNumbers_refl _
  | cons b rest ih =>
    cases b with
    | subsection s => exact (hblock scope _ s).append (ih (k + 1))
    | _ => exact (onlyNumbers_refl _).append (ih k)

theorem onlyNumbers_renderSection (scope : Scope) (mode : SectionMode) (number : String)
    (s : Section) :
    OnlyNumbers (renderSection block scope mode (some number) s)
      (renderSection block scope mode none s) := by
  unfold renderSection
  split
  · exact onlyNumbers_refl _
  · refine OnlyNumbers.section ?_ scope mode s
    exact (onlyNumbers_sectionTitle _ mode number s).append ((onlyNumbers_refl _).append
      ((onlyNumbers_sectionContent hblock _ number 0 0 s.content).append (onlyNumbers_refl _)))

end Blocks

/-- On every budget, the number of a subsection changes nothing but numbers. -/
theorem onlyNumbers_renderBlock (budget : Nat) (scope : Scope) (number : String) (s : Section) :
    OnlyNumbers (renderBlock budget scope (some number) (.subsection s))
      (renderBlock budget scope none (.subsection s)) := by
  induction budget generalizing scope number s with
  | zero => exact onlyNumbers_refl _
  | succ budget ih => exact onlyNumbers_renderSection ih _ _ number s

theorem onlyNumbers_eachFrom {α : Type} {numbered : Nat → α → Rendered} {plain : α → Rendered}
    (h : ∀ i a, OnlyNumbers (numbered i a) (plain a)) (n : Nat) (l : List α) :
    OnlyNumbers (Rendered.eachFrom numbered n l) (Rendered.each plain l) := by
  induction l generalizing n with
  | nil => exact onlyNumbers_refl _
  | cons a rest ih => exact (h n a).append (ih (n + 1))

/-- The kinds of documents that show their sections one after the other, with nothing around
them. -/
def walksPlainly (kind : DocumentKind) : Bool :=
  [.documentation, .tutorial, .reference, .article, .blogPost, .mathematicalContent, .lecture,
    .interactiveDemo, .glossary, .resourcePanel, .unknown].contains kind

theorem bodySections_of_walksPlainly (block : BlockRenderer) (scope : Scope) {d : Document}
    (h : walksPlainly d.kind = true) :
    bodySections block scope d = Rendered.each (bodySection block scope none) d.body := by
  unfold bodySections
  cases hkind : d.kind <;> first | rfl | (rw [hkind] at h; cases h)

/-- A section is rendered with a number as it is without one, but for the labels of its titles and
the word in its classes; and the body of a textbook as that of the other documents. -/
theorem numbers_change_nothing_else (budget : Nat) (scope : Scope) :
    (∀ (mode : SectionMode) (number : String) (s : Section),
      let numbered := renderSection (renderBlock budget) scope mode (some number) s
      let plain := renderSection (renderBlock budget) scope mode none s
      OnlyNumbers numbered plain ∧ ∀ noted,
        Deletes IsNumberMark (charsList (numbered.run noted).1) (charsList (plain.run noted).1)) ∧
    ∀ (d : Document) (kind : DocumentKind), walksPlainly kind = true →
      let numbered := bodySections (renderBlock budget) scope { d with kind := .textbook }
      let plain := bodySections (renderBlock budget) scope { d with kind := kind }
      OnlyNumbers numbered plain ∧ ∀ noted,
        Deletes IsNumberMark (charsList (numbered.run noted).1)
          (charsList (plain.run noted).1) := by
  have hsection := fun mode => onlyNumbers_renderSection (onlyNumbers_renderBlock budget) scope mode
  refine ⟨fun mode number s => ?_, fun d kind hkind => ?_⟩
  · have h := hsection mode number s
    exact ⟨h, fun noted => (h.markup noted).deletes⟩
  · have h : OnlyNumbers (bodySections (renderBlock budget) scope { d with kind := .textbook })
        (bodySections (renderBlock budget) scope { d with kind := kind }) := by
      rw [bodySections_of_walksPlainly (d := { d with kind := kind }) _ scope hkind]
      exact onlyNumbers_eachFrom (fun i s => hsection .anchored (natAttr (i + 1)) s) 0 d.body
    exact ⟨h, fun noted => (h.markup noted).deletes⟩

theorem numbers_change_nothing_else_primer :
    let scope := (({} : Renderer).scope .empty Renderer.primer.parts).insideDocument Renderer.primer
    let numbered := bodySections (renderBlock 3) scope { Renderer.primer with kind := .textbook }
    let plain := bodySections (renderBlock 3) scope { Renderer.primer with kind := .article }
    walksPlainly .article = true ∧ OnlyNumbers numbered plain ∧
      charsList (numbered.run []).1 ≠ charsList (plain.run []).1 :=
  ⟨by decide, ((numbers_change_nothing_else 3 _).2 Renderer.primer .article (by decide)).1,
    by decide +kernel⟩

end Scope

end Compendium
