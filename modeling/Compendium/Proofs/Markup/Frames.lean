import Compendium.Proofs.ItemByItem
import Compendium.Proofs.Markup.Forest

/-!
# Sections and articles of a page

The frames of a page are what is left of it when only its sections and articles are kept, with the
names and the ids that they carry. Whether an element stands inside another one of its name, and
which ids the sections have, can be read off the frames alone. Text that a component writes itself
has no frames.
-/

namespace Compendium

namespace Markup

/-! ## Elements -/

/-- The tag and the attributes of an element. -/
def head? : Markup → Option (String × List Attr)
  | element tag attrs _ _ => some (tag, attrs)
  | void tag attrs _ => some (tag, attrs)
  | _ => none

def valueOf? (tag name : String) (m : Markup) : Option String :=
  m.head?.bind fun head => if head.1 = tag then head.2.lookup name else none

/-- What stands directly inside an element. -/
def children : Markup → List Markup
  | element _ _ _ content => content
  | _ => []

mutual

/-- A piece of markup and everything inside it. -/
def nodes : Markup → List Markup
  | text s => [text s]
  | element tag attrs flags content => element tag attrs flags content :: nodesList content
  | void tag attrs flags => [void tag attrs flags]
  | script json => [script json]
  | raw html => [raw html]

/-- Pieces of markup and everything inside them. -/
def nodesList : List Markup → List Markup
  | [] => []
  | m :: rest => nodes m ++ nodesList rest

end

@[simp] theorem nodesList_singleton (m : Markup) : nodesList [m] = nodes m := by
  rw [nodesList, nodesList, List.append_nil]

theorem charsList_append (l m : List Markup) :
    charsList (l ++ m) = charsList l ++ charsList m :=
  append_of_cons l m rfl fun _ _ => rfl

@[simp] theorem nodesList_append (l m : List Markup) :
    nodesList (l ++ m) = nodesList l ++ nodesList m :=
  append_of_cons l m rfl fun _ _ => rfl

/-- No element of the tag stands inside another one with the same value for the attribute. -/
def NeverNested (tag name : String) (content : List Markup) : Prop :=
  ∀ outer ∈ nodesList content, ∀ id, outer.valueOf? tag name = some id →
    ∀ inner ∈ nodesList outer.children, inner.valueOf? tag name ≠ some id

def sectionIds (content : List Markup) : List String :=
  (nodesList content).filterMap (valueOf? "section" "id")

/-- A section with a name and without an id. -/
def isCopy (m : Markup) : Bool :=
  (m.valueOf? "section" "data-section-id").isSome && (m.valueOf? "section" "id").isNone

/-- A document. -/
def isArticle (m : Markup) : Bool :=
  (m.valueOf? "article" "data-document-id").isSome

/-- No two sections have the same id, and inside of copies there are none. -/
structure AnchorsUnique (content : List Markup) : Prop where
  distinct : (sectionIds content).Nodup
  copies : ∀ m ∈ nodesList content, m.isCopy = true → sectionIds m.children = []

mutual

/-- A page with the documents inside of copies left empty. -/
def emptied (inCopy : Bool) : Markup → Markup
  | text s => text s
  | element tag attrs flags content =>
    let own := element tag attrs flags []
    element tag attrs flags
      (if inCopy && own.isArticle then [] else emptiedList (inCopy || own.isCopy) content)
  | void tag attrs flags => void tag attrs flags
  | script json => script json
  | raw html => raw html

def emptiedList (inCopy : Bool) : List Markup → List Markup
  | [] => []
  | m :: rest => emptied inCopy m :: emptiedList inCopy rest

end

end Markup

/-! ## Frames -/

/-- The elements that are frames. -/
inductive FrameKind where
  | division
  | article
  deriving DecidableEq

namespace FrameKind

def tag : FrameKind → String
  | division => "section"
  | article => "article"

/-- The attribute that names the frame. -/
def label : FrameKind → String
  | division => "data-section-id"
  | article => "data-document-id"

def ofTag? (s : String) : Option FrameKind :=
  if s = "section" then some division else if s = "article" then some article else none

theorem ofTag?_eq_some {s : String} {kind : FrameKind} : ofTag? s = some kind ↔ s = kind.tag := by
  unfold ofTag?
  split
  · next h => subst h; cases kind <;> decide
  · next h =>
    split
    · next h' => subst h'; cases kind <;> decide
    · next h' => cases kind <;> simp [tag, h, h']

end FrameKind

/-- A section or an article, with its name, its id and the frames inside it. -/
inductive Frame where
  | mk (kind : FrameKind) (name anchor : Option String) (inner : List Frame)

namespace Frame

mutual

/-- The ids of a frame's sections. -/
def anchors : Frame → List String
  | mk kind _ anchor inner => (if kind = .division then anchor.toList else []) ++ anchorsList inner

def anchorsList : List Frame → List String
  | [] => []
  | f :: rest => anchors f ++ anchorsList rest

end

mutual

/-- No frame has a name that is open, its own name being open inside it. -/
def Guarded (opened : List (FrameKind × String)) : Frame → Prop
  | mk kind name _ inner =>
    (∀ id ∈ name, (kind, id) ∉ opened) ∧
      GuardedList (name.toList.map (Prod.mk kind) ++ opened) inner

def GuardedList (opened : List (FrameKind × String)) : List Frame → Prop
  | [] => True
  | f :: rest => Guarded opened f ∧ GuardedList opened rest

end

mutual

/-- There are no ids inside of a section without an id. -/
def Quiet : Frame → Prop
  | mk kind _ anchor inner =>
    (kind = .division → anchor = none → anchorsList inner = []) ∧ QuietList inner

def QuietList : List Frame → Prop
  | [] => True
  | f :: rest => Quiet f ∧ QuietList rest

end

mutual

/-- A frame with the articles inside of copies left empty. -/
def emptied (inCopy : Bool) : Frame → Frame
  | mk kind name anchor inner =>
    mk kind name anchor
      (if inCopy && (kind = .article && name.isSome) then []
      else emptiedList (inCopy || (kind = .division && name.isSome && anchor.isNone)) inner)

def emptiedList (inCopy : Bool) : List Frame → List Frame
  | [] => []
  | f :: rest => emptied inCopy f :: emptiedList inCopy rest

end

theorem emptied_division (inCopy : Bool) (name : String) (anchor : Option String)
    (inner : List Frame) :
    emptied inCopy (mk .division (some name) anchor inner) =
      mk .division (some name) anchor (emptiedList (inCopy || anchor.isNone) inner) := by
  cases inCopy <;> rfl

theorem emptied_article (inCopy : Bool) (name : String) (anchor : Option String)
    (inner : List Frame) :
    emptied inCopy (mk .article (some name) anchor inner) =
      mk .article (some name) anchor (if inCopy then [] else emptiedList inCopy inner) := by
  cases inCopy <;> rfl

theorem emptiedList_append (inCopy : Bool) (fs gs : List Frame) :
    emptiedList inCopy (fs ++ gs) = emptiedList inCopy fs ++ emptiedList inCopy gs := by
  induction fs with
  | nil => rfl
  | cons f rest ih => rw [List.cons_append, emptiedList, emptiedList, ih, List.cons_append]

theorem emptiedList_flatMap {α : Type} (inCopy : Bool) (l : List α) (f : α → List Frame) :
    emptiedList inCopy (l.flatMap f) = l.flatMap fun a => emptiedList inCopy (f a) := by
  induction l with
  | nil => rfl
  | cons a rest ih => rw [List.flatMap_cons, emptiedList_append, List.flatMap_cons, ih]

@[simp] theorem anchorsList_append (fs gs : List Frame) :
    anchorsList (fs ++ gs) = anchorsList fs ++ anchorsList gs :=
  append_of_cons fs gs rfl fun _ _ => rfl

theorem anchorsList_article (name anchor : Option String) (inner : List Frame) :
    anchorsList [mk .article name anchor inner] = anchorsList inner := by
  rw [anchorsList, anchors, anchorsList, List.append_nil]
  rfl

theorem guardedList_append (opened : List (FrameKind × String)) (fs gs : List Frame) :
    GuardedList opened (fs ++ gs) ↔ GuardedList opened fs ∧ GuardedList opened gs :=
  and_of_append fs gs trivial fun _ _ => .rfl

theorem quietList_append (fs gs : List Frame) :
    QuietList (fs ++ gs) ↔ QuietList fs ∧ QuietList gs :=
  and_of_append fs gs trivial fun _ _ => .rfl

theorem guardedList_flatMap {α : Type} {opened : List (FrameKind × String)} {l : List α}
    {f : α → List Frame} (h : ∀ a ∈ l, GuardedList opened (f a)) :
    GuardedList opened (l.flatMap f) :=
  all_flatMap h trivial fun _ _ => .rfl

theorem quietList_flatMap {α : Type} {l : List α} {f : α → List Frame}
    (h : ∀ a ∈ l, QuietList (f a)) : QuietList (l.flatMap f) :=
  all_flatMap h trivial fun _ _ => .rfl

theorem anchorsList_flatMap {α : Type} (l : List α) (f : α → List Frame) :
    anchorsList (l.flatMap f) = l.flatMap fun a => anchorsList (f a) :=
  flatMap_of_cons l f rfl fun _ _ => rfl

end Frame

namespace Markup

open Compendium.Frame

/-- An element around frames: a frame itself if it is a section or an article with a name or an
id. -/
def framed (tag : String) (attrs : List Attr) (inner : List Frame) : List Frame :=
  match FrameKind.ofTag? tag with
  | none => inner
  | some kind =>
    let name := attrs.lookup kind.label
    let anchor := attrs.lookup "id"
    if name.isNone && anchor.isNone then inner else [.mk kind name anchor inner]

mutual

def frames : Markup → List Frame
  | text _ => []
  | element tag attrs _ content => framed tag attrs (framesList content)
  | void tag attrs _ => framed tag attrs []
  | script _ => []
  | raw _ => []

def framesList : List Markup → List Frame
  | [] => []
  | m :: rest => frames m ++ framesList rest

end

@[simp] theorem framesList_nil : framesList [] = [] := rfl

@[simp] theorem framesList_cons (m : Markup) (rest : List Markup) :
    framesList (m :: rest) = frames m ++ framesList rest := rfl

theorem framesList_singleton (m : Markup) : framesList [m] = frames m := by
  rw [framesList_cons, framesList_nil, List.append_nil]

@[simp] theorem framesList_append (l m : List Markup) :
    framesList (l ++ m) = framesList l ++ framesList m :=
  append_of_cons l m rfl fun _ _ => rfl

/-- How an element is seen from its frame: it is one, or it has neither a name nor an id. -/
theorem framed_cases (tag : String) (attrs : List Attr) (inner : List Frame) :
    (∃ kind : FrameKind, tag = kind.tag ∧
      framed tag attrs inner = [.mk kind (attrs.lookup kind.label) (attrs.lookup "id") inner]) ∨
    (framed tag attrs inner = inner ∧
      ∀ kind : FrameKind, tag = kind.tag → attrs.lookup kind.label = none ∧
        attrs.lookup "id" = none) := by
  cases hkind : FrameKind.ofTag? tag with
  | none =>
    refine .inr ⟨by simp only [framed, hkind], fun kind htag => ?_⟩
    rw [FrameKind.ofTag?_eq_some.mpr htag] at hkind
    cases hkind
  | some kind =>
    have htag := FrameKind.ofTag?_eq_some.mp hkind
    by_cases hbare : (attrs.lookup kind.label).isNone && (attrs.lookup "id").isNone
    · refine .inr ⟨by simp only [framed, hkind, hbare, if_true], fun kind' htag' => ?_⟩
      have hsame : kind' = kind := by
        rw [FrameKind.ofTag?_eq_some.mpr htag'] at hkind
        exact Option.some.inj hkind
      subst hsame
      simpa using hbare
    · exact .inl ⟨kind, htag, by simp only [framed, hkind, hbare]; rfl⟩

theorem framed_other {tag : String} (htag : FrameKind.ofTag? tag = none) (attrs : List Attr)
    (inner : List Frame) : framed tag attrs inner = inner := by
  simp only [framed, htag]

theorem valueOf?_element (tag name : String) (etag : String) (attrs : List Attr)
    (flags : List String) (content : List Markup) :
    valueOf? tag name (element etag attrs flags content) =
      if etag = tag then attrs.lookup name else none :=
  rfl

theorem valueOf?_void (tag name : String) (etag : String) (attrs : List Attr)
    (flags : List String) :
    valueOf? tag name (void etag attrs flags) = if etag = tag then attrs.lookup name else none :=
  rfl

/-! ## Ids -/

/-- The id that an element adds to those of its frames. -/
theorem anchorsList_framed (tag : String) (attrs : List Attr) (inner : List Frame) :
    anchorsList (framed tag attrs inner) =
      (if tag = "section" then attrs.lookup "id" else none).toList ++ anchorsList inner := by
  obtain ⟨kind, htag, hframed⟩ | ⟨hframed, hbare⟩ := framed_cases tag attrs inner
  · rw [hframed, anchorsList, anchors, anchorsList, List.append_nil]
    subst htag
    cases kind <;> simp +decide
  · rw [hframed]
    split
    · next htag =>
      rw [(hbare .division htag).2]
      rfl
    · rfl

theorem sectionIds_eq (content : List Markup) :
    sectionIds content = anchorsList (framesList content) := by
  unfold sectionIds
  induction content using forest_induction with
  | append l m hl hm =>
    rw [nodesList_append, List.filterMap_append, hl, hm, framesList_append, anchorsList_append]
  | element tag attrs flags content ih =>
    rw [framesList_singleton, frames, anchorsList_framed, ← ih, nodesList_singleton, nodes,
      List.filterMap_cons, valueOf?_element]
    cases (if tag = "section" then attrs.lookup "id" else none) <;> rfl
  | void tag attrs flags =>
    rw [framesList_singleton, frames, anchorsList_framed, nodesList_singleton, nodes,
      List.filterMap_cons, valueOf?_void]
    cases (if tag = "section" then attrs.lookup "id" else none) <;> rfl
  | _ => rfl

/-! ## Nesting -/

/-- What guards an element's frames guards its content, with its own name open. -/
theorem guarded_framed {opened : List (FrameKind × String)} {tag : String} {attrs : List Attr}
    {inner : List Frame} (h : GuardedList opened (framed tag attrs inner)) :
    ∃ own : List (FrameKind × String), GuardedList (own ++ opened) inner ∧
      ∀ kind : FrameKind, ∀ id, (if tag = kind.tag then attrs.lookup kind.label else none) =
        some id → (kind, id) ∉ opened ∧ (kind, id) ∈ own := by
  obtain ⟨kind, htag, hframed⟩ | ⟨hframed, hbare⟩ := framed_cases tag attrs inner
  · rw [hframed, GuardedList, Guarded] at h
    obtain ⟨⟨hname, hinner⟩, -⟩ := h
    refine ⟨_, hinner, fun kind' id hid => ?_⟩
    split at hid
    · next htag' =>
      have hsame : kind' = kind := by
        have hof := FrameKind.ofTag?_eq_some.mpr htag
        rw [FrameKind.ofTag?_eq_some.mpr htag'] at hof
        exact Option.some.inj hof
      subst hsame
      exact ⟨hname id hid, by simp [hid]⟩
    · cases hid
  · rw [hframed] at h
    refine ⟨[], h, fun kind id hid => ?_⟩
    split at hid
    · next htag =>
      rw [(hbare kind htag).1] at hid
      cases hid
    · cases hid

/-- No element has a name that is open around it. -/
theorem not_mem_of_guarded {content : List Markup} {opened : List (FrameKind × String)}
    (h : GuardedList opened (framesList content)) : ∀ n ∈ nodesList content,
      ∀ kind : FrameKind, ∀ id, n.valueOf? kind.tag kind.label = some id → (kind, id) ∉ opened := by
  induction content using forest_induction generalizing opened with
  | nil => nofun
  | append l m hl hm =>
    rw [framesList_append, guardedList_append] at h
    rw [nodesList_append, List.forall_mem_append]
    exact ⟨hl h.1, hm h.2⟩
  | element tag attrs flags content ih =>
    rw [framesList_singleton] at h
    obtain ⟨own, hcontent, hown⟩ := guarded_framed h
    rw [nodesList_singleton, nodes, List.forall_mem_cons]
    refine ⟨fun kind id hid => (hown kind id hid).1, fun n hn kind id hid hmem => ?_⟩
    exact ih hcontent n hn kind id hid (List.mem_append_right own hmem)
  | void tag attrs flags =>
    rw [framesList_singleton] at h
    obtain ⟨own, -, hown⟩ := guarded_framed h
    exact List.forall_mem_singleton.mpr fun kind id hid => (hown kind id hid).1
  | _ => exact List.forall_mem_singleton.mpr nofun

theorem neverNested_of_guarded {content : List Markup} {opened : List (FrameKind × String)}
    (h : GuardedList opened (framesList content)) (kind : FrameKind) :
    NeverNested kind.tag kind.label content := by
  unfold NeverNested
  induction content using forest_induction generalizing opened with
  | nil => nofun
  | append l m hl hm =>
    rw [framesList_append, guardedList_append] at h
    rw [nodesList_append, List.forall_mem_append]
    exact ⟨hl h.1, hm h.2⟩
  | element tag attrs flags content ih =>
    rw [framesList_singleton] at h
    obtain ⟨own, hcontent, hown⟩ := guarded_framed h
    rw [nodesList_singleton, nodes, List.forall_mem_cons]
    refine ⟨fun id hid n hn hsame => ?_, ih hcontent⟩
    exact not_mem_of_guarded hcontent n hn kind id hsame
      (List.mem_append_left _ (hown kind id hid).2)
  | _ => exact List.forall_mem_singleton.mpr fun _ _ => nofun

/-! ## Copies -/

/-- A section with a name and without an id stands around no ids, if its frames are quiet. -/
theorem quiet_framed {tag : String} {attrs : List Attr} {inner : List Frame}
    (h : QuietList (framed tag attrs inner)) :
    QuietList inner ∧ ∀ flags, (element tag attrs flags []).isCopy = true →
      anchorsList inner = [] := by
  obtain ⟨kind, htag, hframed⟩ | ⟨hframed, hbare⟩ := framed_cases tag attrs inner
  · rw [hframed, QuietList, Quiet] at h
    obtain ⟨⟨hinner, hrest⟩, -⟩ := h
    refine ⟨hrest, fun flags hcopy => ?_⟩
    rw [isCopy, valueOf?_element, valueOf?_element, Bool.and_eq_true] at hcopy
    cases kind with
    | division =>
      have hsection : tag = "section" := htag
      rw [if_pos hsection, if_pos hsection, Option.isNone_iff_eq_none] at hcopy
      exact hinner rfl hcopy.2
    | article =>
      rw [htag] at hcopy
      exact nomatch hcopy.1
  · rw [hframed] at h
    refine ⟨h, fun flags hcopy => ?_⟩
    rw [isCopy, valueOf?_element, Bool.and_eq_true] at hcopy
    obtain ⟨hname, -⟩ := hcopy
    split at hname
    · next hsection =>
      have hnone : attrs.lookup "data-section-id" = none := (hbare .division hsection).1
      rw [hnone] at hname
      cases hname
    · cases hname

theorem quiet_nodes {content : List Markup} (h : QuietList (framesList content)) :
    ∀ n ∈ nodesList content, n.isCopy = true → sectionIds n.children = [] := by
  induction content using forest_induction with
  | nil => nofun
  | append l m hl hm =>
    rw [framesList_append, quietList_append] at h
    rw [nodesList_append, List.forall_mem_append]
    exact ⟨hl h.1, hm h.2⟩
  | element tag attrs flags content ih =>
    rw [framesList_singleton] at h
    obtain ⟨hcontent, hown⟩ := quiet_framed h
    rw [nodesList_singleton, nodes, List.forall_mem_cons, children, sectionIds_eq]
    exact ⟨hown flags, ih hcontent⟩
  | _ => exact List.forall_mem_singleton.mpr fun _ => rfl

theorem anchorsUnique_of_frames {content : List Markup}
    (hdistinct : (anchorsList (framesList content)).Nodup)
    (hquiet : QuietList (framesList content)) :
    AnchorsUnique content := by
  refine ⟨?_, quiet_nodes hquiet⟩
  rw [sectionIds_eq]
  exact hdistinct

theorem emptiedList_append (inCopy : Bool) (l m : List Markup) :
    emptiedList inCopy (l ++ m) = emptiedList inCopy l ++ emptiedList inCopy m := by
  induction l with
  | nil => rfl
  | cons a rest ih => rw [List.cons_append, emptiedList, emptiedList, ih, List.cons_append]

/-- An element leaves its content empty exactly if its frame does. -/
theorem emptiedList_framed (inCopy : Bool) (tag : String) (attrs : List Attr) (flags : List String)
    (inner : List Frame) :
    Frame.emptiedList inCopy (framed tag attrs inner) =
      framed tag attrs (if inCopy && (element tag attrs flags []).isArticle then []
        else Frame.emptiedList (inCopy || (element tag attrs flags []).isCopy) inner) := by
  rw [isArticle, isCopy, valueOf?_element, valueOf?_element, valueOf?_element]
  by_cases hsection : tag = "section"
  · subst hsection
    cases hname : attrs.lookup "data-section-id" <;> cases hid : attrs.lookup "id" <;>
      simp +decide
        [framed, FrameKind.ofTag?, FrameKind.label, hname, hid, Frame.emptiedList, Frame.emptied]
  · by_cases harticle : tag = "article"
    · subst harticle
      cases hname : attrs.lookup "data-document-id" <;> cases hid : attrs.lookup "id" <;>
        simp +decide
          [framed, FrameKind.ofTag?, FrameKind.label, hname, hid, Frame.emptiedList, Frame.emptied]
    · simp [framed, FrameKind.ofTag?, hsection, harticle]

theorem framesList_emptied (inCopy : Bool) (content : List Markup) :
    framesList (emptiedList inCopy content) = Frame.emptiedList inCopy (framesList content) := by
  induction content using forest_induction generalizing inCopy with
  | append l m hl hm =>
    rw [emptiedList_append, framesList_append, hl, hm, framesList_append, Frame.emptiedList_append]
  | element tag attrs flags content ih =>
    rw [framesList_singleton, frames, emptiedList_framed inCopy tag attrs flags, ← ih, emptiedList,
      emptied, emptiedList, framesList_singleton, frames]
    split <;> rfl
  | void tag attrs flags =>
    rw [framesList_singleton, frames, emptiedList_framed inCopy tag attrs flags, emptiedList,
      emptied, emptiedList, framesList_singleton, frames]
    split <;> rfl
  | _ => rfl

end Markup

end Compendium
