import Compendium.Proofs.Text.Joined
import Compendium.Render.Inline

/-!
# Keys and addresses of links

A link inside of other links is left out, so that only its text stands, if one of them has its key.
The key is a word for the kind of the target and the parts of the target, with colons between them.
So targets with one key are of one kind, and for most kinds the key gives the address. The key of a
definition, or of an aspect of one, does not: it does not tell an absent theory from one without a
name, nor where a part ends that holds a colon. Two different definitions with one key always have
different addresses.
-/

namespace Compendium

namespace LinkTarget

/-! ## What a key tells -/

def keyWord : LinkTarget → String
  | url _ => "url"
  | page _ => "page"
  | definition _ _ => "definition"
  | aspect _ _ _ => "aspect"
  | theorem_ _ => "theorem"
  | template _ _ _ => "template"
  | glossary _ => "glossary"
  | bibliography _ => "bib"
  | element _ => "element"
  | tooltip _ => "tooltip"
  | animation _ _ => "animation"
  | unknown _ => "unknown"

/-- What a key says after its first word. -/
def keyRest : LinkTarget → String
  | url address => address
  | page id => id
  | definition term theory => theory.getD "" ++ ":" ++ term
  | aspect term name theory => theory.getD "" ++ ":" ++ (term ++ ":" ++ name)
  | theorem_ id => id
  | template id _ _ => id
  | glossary term => term
  | bibliography key => key
  | element id => id
  | tooltip document => document.id
  | animation id trigger => id ++ ":" ++ trigger
  | unknown u => u.tag

/-- Whether the target is a definition or an aspect of one. -/
def isConcept : LinkTarget → Bool
  | definition _ _ => true
  | aspect _ _ _ => true
  | _ => false

def kindOf (word : String) : String :=
  match word with
  | "aspect" => "definition-aspect"
  | "bib" => "bibliography"
  | "element" => "interactive"
  | other => other

/-- The address that a key gives, with its first word and the rest of it. -/
def addressOf (word rest : String) : Option String :=
  match word with
  | "url" => some rest
  | "page" => some ("/docs/" ++ rest)
  | "theorem" => some ("#theorem-" ++ rest)
  | "glossary" => some ("#" ++ glossaryAnchor rest)
  | "bib" => some ("#bib-" ++ rest)
  | "element" => some ("#" ++ rest)
  | "tooltip" => some ("#tooltip-" ++ rest)
  | _ => none

theorem key_eq (t : LinkTarget) : t.key = t.keyWord ++ ":" ++ t.keyRest := by
  -- not by the equations of the three, which take long to make
  delta key keyWord keyRest
  cases t <;> simp only [String.reduceAppend, ← String.append_assoc]

theorem colon_not_mem_keyWord (t : LinkTarget) : ':' ∉ t.keyWord.toList := by
  cases t <;> simp [keyWord]

/-- The first word of a key and the rest of it can be told. -/
theorem key_parts {t t' : LinkTarget} (h : t.key = t'.key) :
    t.keyWord = t'.keyWord ∧ t.keyRest = t'.keyRest := by
  rw [key_eq, key_eq] at h
  exact (Text.joined_inj rfl (colon_not_mem_keyWord t) (colon_not_mem_keyWord t')).mp h

theorem kindWord_eq (t : LinkTarget) : t.kindWord = kindOf t.keyWord := by
  cases t <;> rfl

theorem isConcept_eq (t : LinkTarget) :
    t.isConcept = (t.keyWord == "definition" || t.keyWord == "aspect") := by
  cases t <;> rfl

theorem href?_eq {t : LinkTarget} (h : t.isConcept = false) :
    t.href? = addressOf t.keyWord t.keyRest := by
  cases t with
  | definition term theory => cases h
  | aspect term name theory => cases h
  | _ => rfl

/-! ## Definitions and aspects -/

def pageOf : Option String → String
  | none => ""
  | some theory => "/math/" ++ theory

theorem href?_definition (term : String) (theory : Option String) :
    (definition term theory).href? = some (pageOf theory ++ "#definition-" ++ term) := by
  cases theory <;> simp [href?, pageOf]

theorem href?_aspect (term name : String) (theory : Option String) :
    (aspect term name theory).href? =
      some (pageOf theory ++ "#definition-" ++ (term ++ "-" ++ name)) := by
  cases theory <;> simp [href?, pageOf, ← String.append_assoc]

/-- A key and an address together tell the theory: after it the key has a colon and the address a
number sign. -/
theorem theory_eq {theory theory' : Option String} {b b' c c' : String}
    (hkey : theory.getD "" ++ ":" ++ b = theory'.getD "" ++ ":" ++ b')
    (haddress : pageOf theory ++ "#definition-" ++ c = pageOf theory' ++ "#definition-" ++ c') :
    theory = theory' := by
  have hcolon : ":".toList = [':'] := rfl
  have hmark : "#definition-".toList = '#' :: "definition-".toList := rfl
  rw [← String.toList_inj] at hkey haddress
  rw [Text.toList_joined hcolon, Text.toList_joined hcolon] at hkey
  simp only [String.toList_append, hmark, List.append_assoc, List.cons_append] at haddress
  cases theory with
  | none =>
    cases theory' with
    | none => rfl
    | some theory' => simp [pageOf] at haddress
  | some theory =>
    cases theory' with
    | none => simp [pageOf] at haddress
    | some theory' =>
      simp only [pageOf, String.toList_append, List.append_assoc,
        List.append_cancel_left_eq] at haddress
      have hfront := Text.front_eq_of_two_marks (by decide) hkey haddress
      exact congrArg some (String.toList_inj.mp hfront)

theorem definition_eq {term term' : String} {theory theory' : Option String}
    (hkey : (definition term theory).keyRest = (definition term' theory').keyRest)
    (haddress : (definition term theory).href? = (definition term' theory').href?) :
    definition term theory = definition term' theory' := by
  rw [href?_definition, href?_definition, Option.some.injEq] at haddress
  cases theory_eq hkey haddress
  rw [String.append_right_inj] at haddress
  rw [haddress]

theorem aspect_eq {term term' name name' : String} {theory theory' : Option String}
    (hkey : (aspect term name theory).keyRest = (aspect term' name' theory').keyRest)
    (haddress : (aspect term name theory).href? = (aspect term' name' theory').href?) :
    aspect term name theory = aspect term' name' theory' := by
  have hcolon : ":".toList = [':'] := rfl
  have hhyphen : "-".toList = ['-'] := rfl
  rw [href?_aspect, href?_aspect, Option.some.injEq] at haddress
  cases theory_eq hkey haddress
  rw [keyRest, keyRest, String.append_right_inj] at hkey
  rw [String.append_right_inj] at haddress
  -- the same argument for the term, which a colon ends in the key and a hyphen in the address
  have hterm : term = term' := by
    rw [← String.toList_inj] at hkey haddress
    rw [Text.toList_joined hcolon, Text.toList_joined hcolon] at hkey
    rw [Text.toList_joined hhyphen, Text.toList_joined hhyphen] at haddress
    exact String.toList_inj.mp (Text.front_eq_of_two_marks (by decide) hkey haddress)
  subst hterm
  rw [String.append_right_inj] at hkey
  rw [hkey]

theorem eq_definition_of_keyWord {t : LinkTarget} (h : t.keyWord = "definition") :
    ∃ term theory, t = .definition term theory := by
  cases t with
  | definition term theory => exact ⟨term, theory, rfl⟩
  | _ => simp [keyWord] at h

theorem eq_aspect_of_keyWord {t : LinkTarget} (h : t.keyWord = "aspect") :
    ∃ term name theory, t = .aspect term name theory := by
  cases t with
  | aspect term name theory => exact ⟨term, name, theory, rfl⟩
  | _ => simp [keyWord] at h

/-- Different definitions, or aspects, with one key have different addresses. -/
theorem concept_eq {t t' : LinkTarget} (hconcept : t.isConcept = true) (hkey : t.key = t'.key)
    (haddress : t.href? = t'.href?) : t = t' := by
  obtain ⟨hword, hrest⟩ := key_parts hkey
  cases t with
  | definition term theory =>
    obtain ⟨term', theory', rfl⟩ := eq_definition_of_keyWord hword.symm
    exact definition_eq hrest haddress
  | aspect term name theory =>
    obtain ⟨term', name', theory', rfl⟩ := eq_aspect_of_keyWord hword.symm
    exact aspect_eq hrest haddress
  | _ => cases hconcept

/-- What targets with one key have in common. -/
theorem same_key {t t' : LinkTarget} (h : t.key = t'.key) :
    t.kindWord = t'.kindWord ∧ t.isConcept = t'.isConcept ∧
      (t.href? = t'.href? ↔ t.isConcept = false ∨ t = t') := by
  obtain ⟨hword, hrest⟩ := key_parts h
  have hconcept : t.isConcept = t'.isConcept := by rw [isConcept_eq, isConcept_eq, hword]
  refine ⟨by rw [kindWord_eq, kindWord_eq, hword], hconcept, fun haddress => ?_, ?_⟩
  · cases hcase : t.isConcept with
    | false => exact .inl rfl
    | true => exact .inr (concept_eq hcase h haddress)
  · rintro (hfree | rfl)
    · rw [href?_eq hfree, href?_eq (hconcept ▸ hfree), hword, hrest]
    · rfl

/-! ## Keys that tell all parts -/

/-- The key tells the parts of the target: a theory that is named has a name, and no colon stands in
the name of the theory or, with an aspect, in the term. -/
def Legible : LinkTarget → Prop
  | definition _ theory => theory ≠ some "" ∧ ':' ∉ (theory.getD "").toList
  | aspect term _ theory => theory ≠ some "" ∧ ':' ∉ (theory.getD "").toList ∧ ':' ∉ term.toList
  | _ => True

theorem theory_eq_of_getD {theory theory' : Option String} (h : theory ≠ some "")
    (h' : theory' ≠ some "") (heq : theory.getD "" = theory'.getD "") : theory = theory' := by
  cases theory <;> cases theory' <;> simp_all

theorem Legible.href?_eq {t t' : LinkTarget} (ht : t.Legible) (ht' : t'.Legible)
    (h : t.key = t'.key) :
    t.href? = t'.href? := by
  have hcolon : ":".toList = [':'] := rfl
  obtain ⟨hword, hrest⟩ := key_parts h
  cases t with
  | definition term theory =>
    obtain ⟨term', theory', rfl⟩ := eq_definition_of_keyWord hword.symm
    obtain ⟨hname, hterm⟩ := (Text.joined_inj hcolon ht.2 ht'.2).mp hrest
    rw [theory_eq_of_getD ht.1 ht'.1 hname, hterm]
  | aspect term name theory =>
    obtain ⟨term', name', theory', rfl⟩ := eq_aspect_of_keyWord hword.symm
    obtain ⟨hname, hparts⟩ := (Text.joined_inj hcolon ht.2.1 ht'.2.1).mp hrest
    obtain ⟨hterm, haspect⟩ := (Text.joined_inj hcolon ht.2.2 ht'.2.2).mp hparts
    rw [theory_eq_of_getD ht.1 ht'.1 hname, hterm, haspect]
  | _ => exact (same_key h).2.2.mpr (.inl rfl)

end LinkTarget

end Compendium
