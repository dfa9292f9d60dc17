import Compendium.Proofs.Render.Articles
import Compendium.Proofs.Render.NumberChains

/-!
# The numbers of footnotes

A reference to a footnote shows the place of the footnote in the innermost document around it, and
the article of a document lists its footnotes in their order. References are known by an attribute
that nothing else on a page has, so they can be read off the page, and those of an article that are
not inside of another one are numbered by its own document: never by one around it, and never by one
that was rendered before.
-/

namespace Compendium

open Scope (natAttr)

/-! ## Footnotes of a document -/

mutual

/-- The footnotes that a piece of text refers to, in the order of the text. -/
def Inline.footnoteIds : Inline → List String
  | .footnote id => [id]
  | .link content _ _ => Inline.footnoteIdsList content
  | _ => []

def Inline.footnoteIdsList : List Inline → List String
  | [] => []
  | i :: rest => i.footnoteIds ++ Inline.footnoteIdsList rest

end

namespace Document

/-- The first footnote of the document with the id is its `k`-th one. -/
def FirstFootnote (d : Document) (id : String) (k : Nat) : Prop :=
  ∃ front note back, d.footnotes = front ++ note :: back ∧ note.id = id ∧
    (∀ other ∈ front, other.id ≠ id) ∧ k = front.length + 1

/-- The references have the numbers of footnotes of the document, and question marks where it has
none. -/
structure Labels (d : Document) (references : List (String × String)) : Prop where
  numbered : ∀ id label, (id, label) ∈ references → ∀ k, label = natAttr k ↔ d.FirstFootnote id k
  unknown : ∀ id label, (id, label) ∈ references →
    (label = "?" ↔ ∀ note ∈ d.footnotes, note.id ≠ id)

end Document

theorem findIdx?_id_iff {notes : List Footnote} {id : String} {i : Nat} :
    (notes.findIdx? fun note => note.id == id) = some i ↔
      ∃ front note back, notes = front ++ note :: back ∧ note.id = id ∧
        (∀ other ∈ front, other.id ≠ id) ∧ i = front.length := by
  constructor
  · intro h
    obtain ⟨hlt, hfound, hbefore⟩ := List.findIdx?_eq_some_iff_getElem.mp h
    refine ⟨notes.take i, notes[i], notes.drop (i + 1), ?_, eq_of_beq hfound, ?_, ?_⟩
    · rw [List.getElem_cons_drop, List.take_append_drop]
    · intro other hother heq
      obtain ⟨j, hj, rfl⟩ := List.mem_take_iff_getElem.mp hother
      exact hbefore j (by omega) (beq_iff_eq.mpr heq)
    · rw [List.length_take, Nat.min_eq_left (Nat.le_of_lt hlt)]
  · rintro ⟨front, note, back, rfl, hid, hfront, rfl⟩
    have hnone : (front.findIdx? fun note => note.id == id) = none :=
      List.findIdx?_eq_none_iff.mpr fun other hother =>
        beq_eq_false_iff_ne.mpr (hfront other hother)
    rw [List.findIdx?_append, hnone, List.findIdx?_cons, beq_iff_eq.mpr hid]
    simp

theorem natAttr_ne_question (k : Nat) : natAttr k ≠ "?" := by
  intro h
  have hmem : '?' ∈ (natAttr k).toList := by
    rw [h]
    decide
  rw [natAttr, String.toList_ofList] at hmem
  exact absurd (Nat.isDigit_of_mem_toDigits (by decide) (by decide) hmem) (by decide)

namespace Scope

/-- The label of a footnote is its place in the innermost document. -/
theorem footnoteLabel_eq_natAttr_iff {scope : Scope} {d : Document} (hd : scope.document? = some d)
    (id : String) (k : Nat) : scope.footnoteLabel id = natAttr k ↔ d.FirstFootnote id k := by
  unfold footnoteLabel Document.FirstFootnote
  rw [hd, Option.bind_some]
  cases hindex : d.footnotes.findIdx? fun note => note.id == id with
  | none =>
    refine iff_of_false (natAttr_ne_question k).symm ?_
    rintro ⟨front, note, back, heq, hid, hfront, -⟩
    have hfound := findIdx?_id_iff.mpr ⟨front, note, back, heq, hid, hfront, rfl⟩
    rw [hindex] at hfound
    cases hfound
  | some i =>
    show natAttr (i + 1) = natAttr k ↔ _
    rw [natAttr_injective.eq_iff]
    constructor
    · rintro rfl
      obtain ⟨front, note, back, heq, hid, hfront, rfl⟩ := findIdx?_id_iff.mp hindex
      exact ⟨front, note, back, heq, hid, hfront, rfl⟩
    · rintro ⟨front, note, back, heq, hid, hfront, rfl⟩
      have hfound := findIdx?_id_iff.mpr ⟨front, note, back, heq, hid, hfront, rfl⟩
      rw [hindex] at hfound
      rw [Option.some.inj hfound]

theorem footnoteLabel_eq_question_iff {scope : Scope} {d : Document} (hd : scope.document? = some d)
    (id : String) : scope.footnoteLabel id = "?" ↔ ∀ note ∈ d.footnotes, note.id ≠ id := by
  unfold footnoteLabel
  rw [hd, Option.bind_some]
  cases hindex : d.footnotes.findIdx? fun note => note.id == id with
  | none =>
    refine iff_of_true rfl fun note hnote => ?_
    exact beq_eq_false_iff_ne.mp (List.findIdx?_eq_none_iff.mp hindex note hnote)
  | some i =>
    refine iff_of_false (natAttr_ne_question (i + 1)) fun hnone => ?_
    obtain ⟨front, note, back, heq, hid, -⟩ := findIdx?_id_iff.mp hindex
    refine hnone note ?_ hid
    rw [heq]
    exact List.mem_append_right _ List.mem_cons_self

end Scope

/-! ## References on a page -/

namespace Markup

/-- The text of an element that holds nothing else. -/
def onlyText : List Markup → String
  | [text s] => s
  | _ => ""

/-- The reference to a footnote that an element is, with its label. -/
def footnoteReference (_ : String) (attrs : List Attr) (content : List Markup) :
    List (String × String) :=
  (attrs.lookup "data-footnote-id").toList.map fun id => (id, onlyText content)

/-- The references to footnotes, each with its label, in the order of the page. Documents inside of
the page are left out. -/
def ownReferences (content : List Markup) : List (String × String) :=
  outsideList footnoteReference content

/-- The ids of the items, if the element is a list of footnotes. -/
def listedFootnotes : Markup → List (Option String)
  | element tag attrs _ [element list _ _ items] =>
    if tag = "section" ∧ attrs.lookup "class" = some "footnotes" ∧ list = "ol" then
      items.map (valueOf? "li" "id")
    else []
  | _ => []

/-- The ids in the list of footnotes, as far as it stands directly in the content. -/
def footnoteItems (content : List Markup) : List (Option String) :=
  content.flatMap listedFootnotes

theorem ownReferences_append (l m : List Markup) :
    ownReferences (l ++ m) = ownReferences l ++ ownReferences m :=
  outsideList_append l m

/-- An element that is no reference has the references of its content. -/
theorem ownReferences_inside {attrs : List Attr} (hattrs : attrs.lookup "data-footnote-id" = none)
    {tag : String} (htag : tag ≠ "article") (flags : List String) (content : List Markup) :
    ownReferences [element tag attrs flags content] = ownReferences content := by
  rw [ownReferences, outsideList_element htag, footnoteReference, hattrs]
  rfl

theorem Plain.ownReferences_eq {m : Markup} (h : m.Plain) : ownReferences [m] = [] := by
  refine PlainList.outside_eq (fun tag attrs content hattrs => ?_) ⟨h, trivial⟩
  rw [footnoteReference, hattrs.lookup_name (by decide)]
  rfl

end Markup

namespace Scope

open Markup

/-! ## References of texts -/

theorem ownReferences_footnoteRef (scope : Scope) (id : String) :
    ownReferences [scope.footnoteRef id] = [(id, scope.footnoteLabel id)] := by
  obtain ⟨tag, htag, attrs, heq, hid, -⟩ := footnoteRef_eq scope id
  have harticle : ∀ tag ∈ ["a", "span"], tag ≠ "article" := by decide
  rw [heq, classed, ownReferences_inside rfl (by decide), leaf, ownReferences,
    outsideList_element (harticle tag htag), footnoteReference, hid]
  rfl

theorem ownReferences_link {scope : Scope} {target : LinkTarget} {content : Scope → Rendered}
    {references : List (String × String)}
    (hcontent : ∀ inner : Scope, inner = scope ∨ inner = scope.insideLink target → ∀ noted,
      ownReferences ((content inner).run noted).1 = references)
    (tooltip : Option String) (noted : List Document) :
    ownReferences ((scope.link target tooltip content).run noted).1 = references := by
  have harticle : ∀ tag ∈ ["a", "span"], tag ≠ "article" := by decide
  have hattrs : (scope.linkAttrs target tooltip).lookup "data-footnote-id" = none :=
    lookup_linkAttrs (by decide) scope target tooltip
  refine forall_link (Q := fun ms => ownReferences ms = references) (hcontent scope (.inl rfl))
    (fun noted => ?_) noted
  exact (ownReferences_inside hattrs (harticle _ (linkTag_mem scope target)) [] _).trans
    (hcontent _ (.inr rfl) noted)

mutual

theorem ownReferences_inlinePiece : ∀ (scope : Scope) (i : Inline) (noted : List Document),
    ownReferences ((scope.inlinePiece i).run noted).1 =
      i.footnoteIds.map fun id => (id, scope.footnoteLabel id)
  | scope, .link content target tooltip, noted => by
    rw [inlinePiece, Inline.footnoteIds]
    refine ownReferences_link (fun inner hinner noted => ?_) tooltip noted
    -- a link opens no document
    have hlabel : inner.footnoteLabel = scope.footnoteLabel := by
      rcases hinner with rfl | rfl <;> rfl
    rw [ownReferences_inlines inner content noted, hlabel]
  | scope, .footnote id, _ => ownReferences_footnoteRef scope id
  | _, .text s, _ => Plain.ownReferences_eq trivial
  | _, .styled s styles, _ => Plain.ownReferences_eq (plain_styled s styles)
  | _, .math f, _ => Plain.ownReferences_eq (plain_formula f)
  | _, .code s, _ => Plain.ownReferences_eq (by simp +decide)
  | scope, .unknown u, _ => by
    rw [inlinePiece, unknownInline]
    split
    · exact Plain.ownReferences_eq (plain_unknownInline u)
    · rfl

/-- A text shows all its references, with the labels of the innermost document. -/
theorem ownReferences_inlines : ∀ (scope : Scope) (content : List Inline) (noted : List Document),
    ownReferences ((scope.inlines content).run noted).1 =
      (Inline.footnoteIdsList content).map fun id => (id, scope.footnoteLabel id)
  | scope, [], _ => by
    rw [inlines]
    rfl
  | scope, i :: rest, noted => by
    rw [inlines, Inline.footnoteIdsList, List.map_append, ← ownReferences_inlinePiece scope i noted,
      ← ownReferences_inlines scope rest ((scope.inlinePiece i).run noted).2]
    exact ownReferences_append _ _

end

/-! ## References of blocks, sections and documents -/

/-- The references that the step makes outside of documents have the labels of the scope. -/
def LabelsReferences (scope : Scope) (x : Rendered) : Prop :=
  ∀ noted, ∀ reference ∈ ownReferences (x.run noted).1,
    reference.2 = scope.footnoteLabel reference.1

section Labels

variable {scope : Scope} {x y : Rendered}

theorem labelsReferences_pure {ms : List Markup} (h : ownReferences ms = []) :
    LabelsReferences scope (pure ms) := by
  intro noted reference hmem
  rw [show ownReferences ((pure ms : Rendered).run noted).1 = [] from h] at hmem
  cases hmem

theorem LabelsReferences.element (hx : LabelsReferences scope x) {tag : String}
    (htag : tag ≠ "article")
    {attrs : List Attr} (hattrs : attrs.lookup "data-footnote-id" = none) (flags : List String) :
    LabelsReferences scope (do
      let content ← x
      return [.element tag attrs flags content]) := by
  intro noted reference hmem
  refine hx noted reference ?_
  rw [← ownReferences_inside hattrs htag flags]
  exact hmem

theorem labelsReferences_closed : Rendered.Closed (LabelsReferences scope) where
  nil := labelsReferences_pure rfl
  append := fun {x y} hx hy noted reference hmem => by
    have happend : reference ∈ ownReferences ((x.run noted).1 ++ (y.run (x.run noted).2).1) := hmem
    rw [ownReferences_append] at happend
    exact (List.mem_append.mp happend).elim (hx noted reference) (hy _ reference)
  fixed := fun hplain => labelsReferences_pure (Plain.ownReferences_eq hplain)
  element := fun _ htag hattrs hx => hx.element htag.other (hattrs.lookup_name (by decide)) _

end Labels

theorem ownReferences_marker (cssClass : String) {attrs : List Attr}
    (hattrs : attrs.lookup "data-footnote-id" = none) (message : String) :
    ownReferences [marker cssClass attrs message] = [] := by
  have hlookup : (("class", "render-marker " ++ cssClass) :: attrs).lookup "data-footnote-id" =
    none := hattrs
  rw [marker, leaf, ownReferences_inside hlookup (by decide)]
  rfl

theorem labelsReferences_marker {scope : Scope} {attrs : List Attr}
    (hattrs : attrs.lookup "data-footnote-id" = none) (cssClass message : String) :
    LabelsReferences scope (pure [marker cssClass attrs message]) :=
  labelsReferences_pure (ownReferences_marker cssClass hattrs message)

/-- Rendering labels references by the innermost document. -/
theorem labelsReferences_kept : Kept LabelsReferences where
  closed := fun _ => labelsReferences_closed.within
  texts := fun scope content noted reference hmem => by
    rw [ownReferences_inlines] at hmem
    obtain ⟨id, -, rfl⟩ := List.mem_map.mp hmem
    rfl
  depth := fun _ => labelsReferences_marker rfl _ _
  missing := fun _ _ => labelsReferences_marker rfl _ _
  deeper := fun hx => hx
  opened := fun {scope mode s x} numbered _ hx => by
    have hattrs : (scope.sectionAttrs mode numbered s).lookup "data-footnote-id" = none := by
      unfold sectionAttrs
      cases mode.isCopy <;> rfl
    have hsame : LabelsReferences scope x := hx
    exact hsame.element (by decide) hattrs []
  article := fun {_ d x} _ _ noted reference hmem => by
    have hnone : ownReferences ((Rendered.inside "article" (articleAttrs d) x).run noted).1 = [] :=
      outsideList_article (articleAttrs d) [] (x.run noted).1
    rw [hnone] at hmem
    cases hmem

/-! ## The list of footnotes -/

theorem footnoteItems_append (l m : List Markup) :
    footnoteItems (l ++ m) = footnoteItems l ++ footnoteItems m :=
  List.flatMap_append

theorem footnoteItems_element {tag : String} {attrs : List Attr}
    (h : ¬(tag = "section" ∧ attrs.lookup "class" = some "footnotes")) (flags : List String)
    (content : List Markup) : footnoteItems [.element tag attrs flags content] = [] := by
  rw [footnoteItems, List.flatMap_singleton]
  unfold listedFootnotes
  split
  · next heq =>
    cases heq
    exact if_neg fun hlist => h ⟨hlist.1, hlist.2.1⟩
  · rfl

theorem footnoteItems_list (items : List Markup) :
    footnoteItems [.element "section" [("class", "footnotes")] [] [.element "ol" [] [] items]] =
      items.map (valueOf? "li" "id") := by
  simp [footnoteItems, listedFootnotes]

/-- Whatever is noted, the step makes a list of footnotes with the ids. -/
def ListsFootnotes (x : Rendered) (items : List (Option String)) : Prop :=
  ∀ noted, footnoteItems (x.run noted).1 = items

/-- The layout is an element, but no list of footnotes. -/
def NoFootnoteList : Layout → Prop
  | .fixed m => footnoteItems [m] = []
  | .element tag attrs _ _ => ¬(tag = "section" ∧ attrs.lookup "class" = some "footnotes")
  | _ => False

section List

variable (block : BlockRenderer) (scope : Scope)

theorem listsFootnotes_append {l m : List Layout} {a b : List (Option String)}
    (hl : ListsFootnotes (Layout.renderAll block scope l) a)
    (hm : ListsFootnotes (Layout.renderAll block scope m) b) :
    ListsFootnotes (Layout.renderAll block scope (l ++ m)) (a ++ b) := by
  intro noted
  rw [Layout.renderAll_append, ← hl noted, ← hm ((Layout.renderAll block scope l).run noted).2]
  exact footnoteItems_append _ _

theorem listsFootnotes_nil {ls : List Layout} (h : ∀ l ∈ ls, NoFootnoteList l) :
    ListsFootnotes (Layout.renderAll block scope ls) [] := by
  induction ls with
  | nil => exact fun _ => rfl
  | cons l rest ih =>
    obtain ⟨hl, hrest⟩ := List.forall_mem_cons.mp h
    have hfirst : ListsFootnotes (Layout.renderAll block scope [l]) [] := by
      rw [Layout.renderAll_singleton]
      cases l with
      | fixed m => exact fun _ => hl
      | element tag attrs flags inner => exact fun _ => footnoteItems_element hl flags _
      | _ => cases hl
    exact listsFootnotes_append block scope hfirst (ih hrest)

theorem listsFootnotes_footnotes (d : Document) :
    ListsFootnotes (Layout.renderAll block scope (Layout.footnotes d))
      (d.footnotes.map fun note => some ("footnote-" ++ note.id)) := by
  have hitems : ∀ (notes : List Footnote) noted,
      ((Layout.renderAll block scope (notes.map fun note =>
        Layout.node "li" [("id", "footnote-" ++ note.id)] [.text note.content])).run noted).1.map
          (valueOf? "li" "id") = notes.map fun note => some ("footnote-" ++ note.id) := by
    intro notes noted
    induction notes generalizing noted with
    | nil => rfl
    | cons note rest ih =>
      rw [List.map_cons, List.map_cons, Layout.renderAll_cons, ← ih]
      rfl
  intro noted
  unfold Layout.footnotes
  split
  · next hempty =>
    rw [List.isEmpty_iff.mp hempty]
    rfl
  · rw [Layout.renderAll_singleton, Layout.classed, Layout.render, Layout.renderAll_singleton,
      Layout.node, Layout.render, ← hitems d.footnotes noted]
    exact footnoteItems_list _

theorem listsFootnotes_skip {l m : List Layout} {items : List (Option String)}
    (hl : ∀ layout ∈ l, NoFootnoteList layout)
    (hm : ListsFootnotes (Layout.renderAll block scope m) items) :
    ListsFootnotes (Layout.renderAll block scope (l ++ m)) items :=
  listsFootnotes_append block scope (listsFootnotes_nil block scope hl) hm

/-- The inside of an article lists the footnotes of the document. -/
theorem listsFootnotes_ofDocument (d : Document) :
    ListsFootnotes (Layout.renderAll block scope (Layout.ofDocument scope d))
      (d.footnotes.map fun note => some ("footnote-" ++ note.id)) := by
  have hfixed : ∀ {ms : List Markup}, (∀ m ∈ ms, footnoteItems [m] = []) →
      ∀ layout ∈ ms.map Layout.fixed, NoFootnoteList layout := by
    intro ms hms layout hlayout
    obtain ⟨m, hm, rfl⟩ := List.mem_map.mp hlayout
    exact hms m hm
  have hheader : ∀ layout ∈ [Layout.fixed (documentHeader d)], NoFootnoteList layout := by
    simp [NoFootnoteList, documentHeader, footnoteItems_element, Markup.classed]
  have habstract : ∀ layout ∈ d.abstract.toList.map (fun summary =>
      Layout.classed "section" "document-abstract"
        [.fixed (.leaf "h2" [] "Abstract"), Layout.node "p" [] [.text summary]]),
          NoFootnoteList layout := by
    simp [NoFootnoteList, Layout.classed]
  have hcontents : ∀ m ∈ documentContents d, footnoteItems [m] = [] := by
    unfold documentContents
    split <;> simp [footnoteItems_element, Markup.classed]
  have hglossary : ∀ layout ∈ Layout.glossary d, NoFootnoteList layout := by
    unfold Layout.glossary
    split <;> simp [NoFootnoteList, Layout.classed]
  have hnav : ∀ m ∈ resourceNav d.body, footnoteItems [m] = [] := by
    unfold resourceNav
    split <;> simp [footnoteItems_element, Markup.classed]
  have hmain : ∀ layout ∈ [Layout.node "main" (("class", (scope.bodyLayout d).1) ::
      styleAttr (scope.bodyLayout d).2) (Layout.ofBody d)], NoFootnoteList layout := by
    simp [NoFootnoteList, Layout.node]
  have hbibliography : ∀ m ∈ documentBibliography d, footnoteItems [m] = [] := by
    unfold documentBibliography
    split <;> simp [footnoteItems_element, Markup.classed]
  have hlast : ∀ layout ∈ (if d.kind == .glossary then [] else Layout.glossary d) ++
      (documentBibliography d).map .fixed, NoFootnoteList layout := by
    refine List.forall_mem_append.mpr ⟨?_, hfixed hbibliography⟩
    split
    · exact List.forall_mem_nil _
    · exact hglossary
  have hnotes := listsFootnotes_append block scope (listsFootnotes_footnotes block scope d)
    (listsFootnotes_nil block scope hlast)
  rw [List.append_nil] at hnotes
  refine listsFootnotes_skip block scope hheader (listsFootnotes_skip block scope habstract
    (listsFootnotes_skip block scope (hfixed hcontents) (listsFootnotes_skip block scope ?_
      (listsFootnotes_skip block scope ?_ (listsFootnotes_skip block scope hmain hnotes)))))
  · split
    · exact hglossary
    · exact List.forall_mem_nil _
  · split
    · exact hfixed hnav
    · exact List.forall_mem_nil _

end List

/-! ## Articles and their footnotes -/

theorem ownReferences_tooltipAside (block : BlockRenderer) (scope : Scope) (queue : List Document) :
    ownReferences (tooltipAside block scope queue) = [] :=
  outsideList_tooltipAside (fun _ => ownReferences_marker _ rfl _) (fun _ _ => rfl)
    (fun _ => rfl) block scope
    queue

theorem labels_of_footnoteLabel {scope : Scope} {d : Document} (hd : scope.document? = some d)
    {references : List (String × String)}
    (h : ∀ reference ∈ references, reference.2 = scope.footnoteLabel reference.1) :
    d.Labels references where
  numbered := by
    intro id label hmem k
    rw [show label = scope.footnoteLabel id from h _ hmem, footnoteLabel_eq_natAttr_iff hd]
  unknown := by
    intro id label hmem
    rw [show label = scope.footnoteLabel id from h _ hmem, footnoteLabel_eq_question_iff hd]

/-- Inside of a document, sections label references by it. -/
theorem labelsReferences_bodySection (budget : Nat) (scope : Scope) (d : Document)
    (number : Option String) (s : Section) : LabelsReferences (scope.insideDocument d)
      (bodySection (renderBlock budget) (scope.insideDocument d) number s) :=
  kept_sectionInside labelsReferences_kept (fun _ _ => labelsReferences_marker rfl _ _)
    (fun _ _ => labelsReferences_marker rfl _ _) budget (List.cons_ne_nil _ _) .anchored number s

/-- Blocks inside of a document label references by it. -/
theorem labels_renderBlock (budget : Nat) {scope : Scope} {d : Document}
    (hd : scope.document? = some d) (number : Option String) (b : Block) (noted : List Document) :
    d.Labels (ownReferences ((renderBlock budget scope number b).run noted).1) := by
  have hinside : scope.documents ≠ [] := by
    intro hnone
    rw [document?, hnone] at hd
    cases hd
  have hlabels : LabelsReferences scope (renderBlock budget scope number b) :=
    kept_renderBlock labelsReferences_kept (R := fun _ => True)
      (fun c c' _ (_ : Calls [] c c') => trivial)
      (fun _ _ _ _ _ _ _ => labelsReferences_marker rfl _ _)
      (fun _ _ _ _ => labelsReferences_marker rfl _ _) budget hinside trivial number
  exact labels_of_footnoteLabel hd (hlabels noted)

end Scope

open Markup Scope

/-- The content of an article shows the footnotes of its document: the list has all of them in their
order, and a reference outside of the documents inside has the number of its footnote in that
list. -/
structure Document.NumbersFootnotes (d : Document) (content : List Markup) : Prop where
  listed : footnoteItems content = d.footnotes.map fun note => some ("footnote-" ++ note.id)
  labels : d.Labels (ownReferences content)
  placed : ∀ id k, (id, natAttr k) ∈ ownReferences content →
    0 < k ∧ (footnoteItems content)[k - 1]? = some (some ("footnote-" ++ id))

namespace Document

variable {d : Document}

theorem numbersFootnotes_of {content : List Markup}
    (listed : footnoteItems content = d.footnotes.map fun note => some ("footnote-" ++ note.id))
    (labels : d.Labels (ownReferences content)) : d.NumbersFootnotes content where
  listed := listed
  labels := labels
  placed := by
    intro id k hmem
    obtain ⟨front, note, back, heq, rfl, -, rfl⟩ := (labels.numbered id _ hmem k).mp rfl
    refine ⟨Nat.succ_pos _, ?_⟩
    rw [listed, heq, Nat.add_sub_cancel, List.getElem?_map,
      List.getElem?_append_right (Nat.le_refl _), Nat.sub_self]
    rfl

/-- What stands in an article numbers footnotes, wherever the document stands. -/
theorem frontsHave_numbersFootnotes : FrontsHave NumbersFootnotes := by
  intro budget scope d noted
  have hd : (scope.insideDocument d).document? = some d := rfl
  refine numbersFootnotes_of (listsFootnotes_ofDocument _ _ d noted) (labels_of_footnoteLabel hd ?_)
  exact Layout.closed_ofDocument labelsReferences_closed (labelsReferences_kept.texts _)
    (fun s _ number => labelsReferences_bodySection budget scope d number s) noted

theorem NumbersFootnotes.closed {front : List Markup} (h : d.NumbersFootnotes front)
    (block : BlockRenderer) (scope : Scope) (queue : List Document) :
    d.NumbersFootnotes (front ++ tooltipAside block scope queue) := by
  have haside : footnoteItems (tooltipAside block scope queue) = [] := by
    unfold tooltipAside
    split
    · rfl
    · exact footnoteItems_element (by simp) _ _
  refine numbersFootnotes_of ?_ ?_
  · rw [footnoteItems_append, haside, List.append_nil]
    exact h.listed
  · rw [ownReferences_append, ownReferences_tooltipAside, List.append_nil]
    exact h.labels

end Document

namespace Renderer

/-- On the page of a document, every reference to a footnote is numbered by the innermost document
around it: in the article of the document itself and in those of all documents inside of it, and,
whatever is open around it and whatever was rendered before, in every block and in every text, which
shows all of its references. -/
theorem references_numbered (r : Renderer) (view : View) (d : Document) :
    (∃ content, r.document view d = [.element "article" (articleAttrs d) [] content] ∧
      d.NumbersFootnotes content ∧
      ∀ attrs flags inner, .element "article" attrs flags inner ∈ nodesList content →
        ∃ other, .document other ∈ d.parts ∧ attrs = articleAttrs other ∧
          other.NumbersFootnotes inner) ∧
    ∀ (scope : Scope) (other : Document), scope.document? = some other → ∀ noted : List Document,
      (∀ budget number b,
        other.Labels (ownReferences ((renderBlock budget scope number b).run noted).1)) ∧
      ∀ text, other.Labels (ownReferences ((scope.inlines text).run noted).1) ∧
        (ownReferences ((scope.inlines text).run noted).1).map (·.1) =
          Inline.footnoteIdsList text := by
  obtain ⟨content, queue, hpage, hcontent, harticles⟩ :=
    document_articles Document.frontsHave_numbersFootnotes r view d
  have hown : d.NumbersFootnotes content := by
    rw [hcontent]
    exact (Document.frontsHave_numbersFootnotes r.settings.maxDepth _ d []).closed _ _ queue
  refine ⟨⟨content, hpage, hown, fun attrs flags inner hmem =>
    harticles _ hmem attrs flags inner rfl⟩, fun scope other hother noted =>
      ⟨fun budget number b => labels_renderBlock budget hother number b noted,
      fun text => ⟨?_, ?_⟩⟩⟩
  · exact labels_of_footnoteLabel hother (labelsReferences_kept.texts scope text noted)
  · rw [ownReferences_inlines, List.map_map]
    exact List.map_id _

/-- A review with footnotes, two of them of one name, around a letter that has a footnote of its
own. -/
def review : Document :=
  { untitled "review" [("body", [.paragraph ⟨[.footnote "b", .footnote "x"], none⟩,
      .document
        { untitled "letter" [("greeting", [.paragraph ⟨[.footnote "b", .footnote "a"], none⟩])] with
        footnotes := [⟨"b", []⟩] }])] with
    footnotes := [⟨"a", [.footnote "b"]⟩, ⟨"b", []⟩, ⟨"a", [.footnote "a"]⟩] }

theorem references_numbered_review :
    ∃ content attrs flags inner,
      ({} : Renderer).document .empty review =
        [.element "article" (articleAttrs review) [] content] ∧
      ownReferences content = [("b", "2"), ("x", "?"), ("b", "2"), ("a", "1")] ∧
      footnoteItems content = [some "footnote-a", some "footnote-b", some "footnote-a"] ∧
      review.NumbersFootnotes content ∧
      .element "article" attrs flags inner ∈ nodesList content ∧
      ownReferences inner = [("b", "1"), ("a", "?")] ∧
      (∃ other, .document other ∈ review.parts ∧ attrs = articleAttrs other ∧
        other.NumbersFootnotes inner) ∧
      ∃ scope : Scope, scope.document? = some review ∧
        review.Labels (ownReferences ((scope.inlines [.footnote "b"]).run []).1) := by
  let scope := (({} : Renderer).scope .empty review.parts).insideDocument review
  have hscope : scope.document? = some review := rfl
  obtain ⟨⟨content, hpage, hown, harticles⟩, hscopes⟩ := references_numbered {} .empty review
  have hcontent : content = contentOf "article" (({} : Renderer).document .empty review) := by
    rw [hpage]
    rfl
  have hany : (nodesList content).any (fun m => hasTag "article" m &&
      ownReferences m.children == [("b", "1"), ("a", "?")]) = true := by
    rw [hcontent]
    decide +kernel
  obtain ⟨m, hmem, hm⟩ := List.any_eq_true.mp hany
  obtain ⟨htag, hreferences⟩ := Bool.and_eq_true_iff.mp hm
  cases m with
  | element tag attrs flags inner =>
    obtain rfl : tag = "article" := eq_of_beq htag
    refine ⟨content, attrs, flags, inner, hpage, ?_, ?_, hown, hmem, eq_of_beq hreferences,
      harticles attrs flags inner hmem, scope, hscope, ((hscopes scope review hscope []).2 _).1⟩
    · rw [hcontent]
      decide +kernel
    · rw [hown.listed]
      rfl
  | void tag attrs flags => cases hreferences
  | _ => cases htag

end Renderer

end Compendium
