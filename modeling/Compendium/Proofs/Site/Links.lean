import Compendium.Proofs.ItemByItem
import Compendium.Proofs.Route
import Compendium.Proofs.Search.Interleaving
import Compendium.Proofs.Text.Tidy
import Compendium.Site.HitSummary
import Compendium.Site.Page

/-!
# Where the links of a search lead

A hit is linked by the name of its theory. The route of the link is the page of the theory whose
reference is the identifier of that name, or the index of theories if the name gives none. Whether
the record is on that page depends on what is loaded for the identifier: it is if the identifier
leads back to the files that the hit came from, and it need not be otherwise.

The ids of a page are those of its elements. Text that records have formatted is not looked into.
-/

namespace Compendium

/-! ## Ids of pages -/

namespace Markup

mutual

def ids : Markup → List String
  | text _ => []
  | element _ attrs _ content => (attrs.lookup "id").toList ++ idsList content
  | void _ attrs _ => (attrs.lookup "id").toList
  | script _ => []
  | raw _ => []

def idsList : List Markup → List String
  | [] => []
  | m :: rest => ids m ++ idsList rest

end

@[simp] theorem ids_text (s : String) : ids (text s) = [] :=
  rfl

@[simp] theorem ids_raw (html : String) : ids (raw html) = [] :=
  rfl

@[simp] theorem ids_node (tag : String) (attrs : List Attr) (content : List Markup) :
    ids (node tag attrs content) = (attrs.lookup "id").toList ++ idsList content :=
  rfl

@[simp] theorem ids_void (tag : String) (attrs : List Attr) (flags : List String) :
    ids (void tag attrs flags) = (attrs.lookup "id").toList :=
  rfl

@[simp] theorem ids_leaf (tag : String) (attrs : List Attr) (s : String) :
    ids (leaf tag attrs s) = (attrs.lookup "id").toList := by
  simp [leaf, ids, idsList]

@[simp] theorem ids_classed (tag cssClass : String) (content : List Markup) :
    ids (classed tag cssClass content) = idsList content := by
  simp [classed, ids]

@[simp] theorem idsList_nil : idsList [] = [] :=
  rfl

@[simp] theorem idsList_cons (m : Markup) (rest : List Markup) :
    idsList (m :: rest) = ids m ++ idsList rest :=
  rfl

@[simp] theorem idsList_append (a b : List Markup) : idsList (a ++ b) = idsList a ++ idsList b :=
  append_of_cons a b rfl fun _ _ => rfl

theorem idsList_map_nil {α : Type} {f : α → Markup} (h : ∀ a, ids (f a) = []) (l : List α) :
    idsList (l.map f) = [] := by
  induction l with
  | nil => rfl
  | cons a rest ih => rw [List.map_cons, idsList, h a, ih, List.nil_append]

theorem idsList_map_singleton {α : Type} {f : α → Markup} {id : α → String}
    (h : ∀ a, ids (f a) = [id a]) (l : List α) : idsList (l.map f) = l.map id := by
  induction l with
  | nil => rfl
  | cons a rest ih => rw [List.map_cons, idsList, h a, ih, List.singleton_append, List.map_cons]

end Markup

open Markup (ids idsList)

@[simp] theorem idsList_formattedIn (cssClass text : String) :
    idsList (formattedIn cssClass text) = [] := by
  unfold formattedIn
  split <;> simp

theorem idsList_listIn {item : String → Markup} (h : ∀ s, ids (item s) = []) (tag cssClass : String)
    (texts : List String) : idsList (listIn tag cssClass item texts) = [] := by
  unfold listIn
  split
  · rfl
  · simp [Markup.idsList_map_nil h]

@[simp] theorem ids_codeItem (s : String) : ids (codeItem s) = [] := by
  simp [codeItem]

theorem Definition.ids_markup (d : Definition) : ids d.markup = [d.anchor] := by
  simp [Definition.markup, idsList_listIn ids_codeItem, List.lookup_cons]

theorem Theorem.ids_markup (t : Theorem) : ids t.markup = [t.anchor] := by
  have hsteps : ∀ s, ids (.node "li" [] [.raw (Markdown.html s)]) = [] := fun s => by simp
  have htags : ∀ s, ids (.leaf "li" [("class", "tag")] s) = [] := fun s => by simp
  simp [Theorem.markup, idsList_listIn hsteps, idsList_listIn htags, List.lookup_cons]

theorem ids_recordSection (cssClass title nothing : String) (records : List Markup) :
    ids (recordSection cssClass title nothing records) = idsList records := by
  unfold recordSection
  cases records with
  | nil => simp
  | cons first rest => simp

theorem idsList_triedPaths (provenance : Provenance) : idsList (triedPaths provenance) = [] := by
  unfold triedPaths
  split
  · simp [Markup.idsList_map_nil ids_codeItem]
  · rfl

def Theory.anchors (t : Theory) : List String :=
  t.definitions.map (·.anchor) ++ t.theorems.map (·.anchor)

theorem Theory.ids_markup (outcome : Outcome Theory) :
    ids (Theory.markup outcome) = outcome.value.anchors := by
  simp [Theory.markup, Theory.anchors, ids_recordSection, idsList_triedPaths,
    Markup.idsList_map_singleton Definition.ids_markup,
    Markup.idsList_map_singleton Theorem.ids_markup, List.lookup_cons]

namespace Folder

theorem ids_label (name : String) (path : Option String) : ids (label name path) = [] := by
  cases path <;> simp [label, List.lookup_cons]

mutual

theorem ids_item : (f : Folder) → ids (item f) = []
  | mk name path children => by
    rw [item, Markup.ids_classed, Markup.idsList_cons, ids_label, idsList_sublist children]
    rfl

theorem idsList_itemList : (folders : List Folder) → idsList (itemList folders) = []
  | [] => rfl
  | f :: rest => by
    rw [itemList, Markup.idsList_cons, ids_item f, idsList_itemList rest]
    rfl

theorem idsList_sublist : (folders : List Folder) → idsList (sublist folders) = []
  | [] => rfl
  | f :: rest => by
    rw [sublist, Markup.idsList_cons, Markup.ids_classed, Markup.idsList_cons, ids_item f,
      idsList_itemList rest]
    rfl

end

end Folder

namespace Page

def ids (p : Page) : List String :=
  Markup.idsList p.content

theorem ids_navItem (current : String) (entry : String × String) :
    Markup.ids (navItem current entry) = [] := by
  unfold navItem
  split <;> simp [List.lookup_cons]

theorem ids_ofBody (status : Nat) (title : String) (body : List Markup) (current : String) :
    (ofBody status title body current).ids = Markup.idsList body := by
  simp [ids, ofBody, shell, navMarkup, Markup.idsList_map_nil (ids_navItem current),
    List.lookup_cons]

theorem ids_theory (outcome : Outcome Theory) (current : String) :
    (theory outcome current).ids = outcome.value.anchors := by
  rw [theory, ids_ofBody, Markup.idsList_cons, Theory.ids_markup, Markup.idsList_nil,
    List.append_nil]

theorem ids_failed (current : String) : (failed current).ids = [] := by
  simp [failed, ids_ofBody]

theorem ids_theoryItem (e : ManifestEntry) : Markup.ids (theoryItem e) = [] := by
  simp [theoryItem, List.lookup_cons]

theorem ids_math (theories : List ManifestEntry) (tree : ContentTree) (current : String) :
    (math theories tree current).ids = [] := by
  rw [math, ids_ofBody]
  cases theories with
  | nil => simp [ContentTree.markup, Folder.idsList_itemList]
  | cons first rest =>
    simp [ids_theoryItem, Markup.idsList_map_nil ids_theoryItem, ContentTree.markup,
      Folder.idsList_itemList]

end Page

/-! ## Addresses -/

/-- The fragment of an address: what follows its first number sign. -/
def fragmentOf (address : String) : String :=
  String.ofList ((address.toList.dropWhile (· != '#')).drop 1)

theorem slugOf_plain (theory : String) : ∀ c ∈ (slugOf theory).toList, Text.isPlain c = true := by
  rw [slugOf, String.toList_ofList]
  exact Text.identifier_plain theory.toList

theorem theoryId_slugOf (theory : String) : Path.theoryId (slugOf theory) = slugOf theory :=
  Path.theoryId_of_plain (Text.identifier_plain theory.toList)

namespace HitSummary

theorem toList_hrefOf (theory anchor : String) :
    (hrefOf theory anchor).toList =
      ("/math/".toList ++ (slugOf theory).toList) ++ '#' :: anchor.toList := by
  simp [hrefOf, slugOf]

/-- Nothing before the number sign of a link ends its path. -/
theorem not_endsPath (theory : String) :
    ∀ c ∈ "/math/".toList ++ (slugOf theory).toList, Route.endsPath c = false := by
  intro c hc
  rcases List.mem_append.mp hc with hc | hc
  · have hall : ("/math/".toList.all fun c => !Route.endsPath c) = true := by decide
    simpa using List.all_eq_true.mp hall c hc
  · have hplain := slugOf_plain theory c hc
    rw [Route.endsPath, Text.beq_of_isPlain hplain (by decide),
      Text.beq_of_isPlain hplain (by decide)]
    rfl

theorem fragmentOf_hrefOf (theory anchor : String) :
    fragmentOf (hrefOf theory anchor) = anchor := by
  have hnone : ∀ c ∈ "/math/".toList ++ (slugOf theory).toList, (c != '#') = true := by
    intro c hc
    have hends := not_endsPath theory c hc
    rw [Route.endsPath, Bool.or_eq_false_iff] at hends
    rw [bne, hends.2]
    rfl
  rw [fragmentOf, toList_hrefOf, List.dropWhile_append_of_pos hnone,
    List.dropWhile_cons_of_neg (by simp), List.drop_one, List.tail_cons, String.ofList_toList]

theorem pathOf_hrefOf (theory anchor : String) :
    Route.pathOf (hrefOf theory anchor) = (Route.theory (slugOf theory)).path := by
  have hgo : ∀ c ∈ "/math/".toList ++ (slugOf theory).toList, (!Route.endsPath c) = true := by
    intro c hc
    rw [not_endsPath theory c hc]
    rfl
  rw [Route.pathOf, toList_hrefOf, List.takeWhile_append_of_pos hgo,
    List.takeWhile_cons_of_neg (by decide), List.append_nil, ← String.toList_append,
      String.ofList_toList]
  rfl

theorem parse_hrefOf (theory anchor : String) :
    Route.parse (hrefOf theory anchor) =
      if slugOf theory = "" then .math else .theory (slugOf theory) := by
  rw [← Route.parse_pathOf, pathOf_hrefOf]
  by_cases hslug : slugOf theory = ""
  · rw [if_pos hslug, hslug]
    rfl
  · rw [if_neg hslug]
    exact (Route.parse_theory_path_iff _).mpr (Route.isSegment_of_plain hslug (slugOf_plain theory))

end HitSummary

/-! ## Hits and their theories -/

namespace Hit

def anchor : Hit → String
  | definition _ d => d.anchor
  | theorem_ _ t => t.anchor

theorem href_eq (hit : Hit) : (HitSummary.ofHit hit).href =
    HitSummary.hrefOf hit.theory hit.anchor := by
  cases hit <;> rfl

theorem of_mem_records {t : Theory} {hit : Hit} (h : hit ∈ Search.records t) :
    hit.theory = t.name ∧ hit.anchor ∈ t.anchors := by
  rcases List.mem_append.mp h with h | h
  · obtain ⟨d, hd, rfl⟩ := List.mem_map.mp h
    exact ⟨rfl, List.mem_append_left _ (List.mem_map_of_mem hd)⟩
  · obtain ⟨t', ht, rfl⟩ := List.mem_map.mp h
    exact ⟨rfl, List.mem_append_right _ (List.mem_map_of_mem ht)⟩

end Hit

namespace Site

open Loading

def theoryOf (site : Site) (reference : String) : Outcome Theory :=
  (Loading.theory site.settings reference).direct site.fetch

/-- The page of the address has an element with the id that is the fragment of the address. -/
def Lands (site : Site) (now : Nat) (address : String) : Prop :=
  fragmentOf address ∈ (site.page now (Route.parse address)).1.ids

/-- The identifier is the theory's own id, or the manifest has the same entry for both and its files
can be used. -/
def LeadsBack (site : Site) (id slug : String) : Prop :=
  Path.theoryId id = slug ∨
    ∃ e, entryOf? site.fetch site.settings.content (Path.theoryId id) = some e ∧
      entryOf? site.fetch site.settings.content slug = some e ∧
        Listed site.fetch site.settings.content e

theorem theoryOf_slugOf {site : Site} {id name : String} (h : site.LeadsBack id (slugOf name)) :
    site.theoryOf (slugOf name) = site.theoryOf id := by
  rw [theoryOf, theoryOf]
  obtain hid | ⟨e, hentry, hslug, hlisted⟩ := h
  · rw [theory_direct, theory_direct, theoryId_slugOf, hid]
  · have hslug' : entryOf? site.fetch site.settings.content
        (Path.theoryId (slugOf name)) = some e := by
      rw [theoryId_slugOf]
      exact hslug
    rw [theory_direct_of_listed _ _ hentry hlisted, theory_direct_of_listed _ _ hslug' hlisted]

theorem Steady.exists_origin {site : Site} (h : site.Steady) {now : Nat} {query : String}
    {hit : Hit} (hhit : hit ∈ (site.search now query).1) :
    ∃ id ∈ (Loading.categories site.settings).direct site.fetch,
      (site.theoryOf id).provenance.isLoaded = true ∧
        hit ∈ Search.records (site.theoryOf id).value := by
  rw [h.search] at hhit
  obtain ⟨found, hfound, hmem⟩ := List.mem_flatten.mp hhit
  obtain ⟨id, hid, rfl⟩ := List.mem_map.mp hfound
  change hit ∈ Search.hits query (site.theoryOf id) at hmem
  have hloaded : (site.theoryOf id).provenance.isLoaded = true := by
    by_contra hnot
    rw [Search.hits, if_neg hnot] at hmem
    cases hmem
  rw [Search.hits_of_isLoaded query hloaded] at hmem
  exact ⟨id, hid, hloaded, (List.mem_filter.mp hmem).1⟩

theorem Steady.ids_page_theory {site : Site} (h : site.Steady) (now : Nat) (id : String) :
    (site.page now (.theory id)).1.ids = (site.theoryOf id).value.anchors := by
  obtain ⟨cache, hload, -⟩ :=
    h.load now (fun hdisabled => theory_uncached hdisabled id) (theory_alike rfl id).left
  simp only [page, hload]
  exact Page.ids_theory _ _

theorem ids_page_math (site : Site) (now : Nat) : (site.page now .math).1.ids = [] := by
  unfold page
  dsimp only
  split
  · exact Page.ids_math _ _ _
  · exact Page.ids_failed _

/-- A link lands exactly if the name of the theory has an identifier and the record is among those
that are loaded for it. -/
theorem Steady.lands_iff {site : Site} (h : site.Steady) (now : Nat) (hit : Hit) :
    site.Lands now (HitSummary.ofHit hit).href ↔
      slugOf hit.theory ≠ "" ∧ hit.anchor ∈ (site.theoryOf (slugOf hit.theory)).value.anchors := by
  rw [Lands, hit.href_eq, HitSummary.parse_hrefOf, HitSummary.fragmentOf_hrefOf]
  by_cases hslug : slugOf hit.theory = ""
  -- the page of all theories has no ids
  · rw [if_pos hslug, ids_page_math]
    simp [hslug]
  · rw [if_neg hslug, h.ids_page_theory]
    simp [hslug]

/-- Every hit comes from a theory that was loaded. Its link is that of the theory's page or of the
index, and it lands, without a cache or from any cache that calls on the source lead to, exactly if
the name of the theory has an identifier and the record is loaded for that identifier; which it is
if the identifier leads back to the theory that the hit came from. -/
theorem search_link_lands_iff (site : Site) (query : String) (now : Nat)
    (hanswered : ∀ path, site.backend.losesFetch path = false)
    (hcache : site.settings.cache.enabled = true →
      NormalSource site.fetch ∧ Reachable site.fetch site.cache)
    (hit : Hit) (hhit : hit ∈ (site.search now query).1) :
    Route.parse (HitSummary.ofHit hit).href =
        (if slugOf hit.theory = "" then .math else .theory (slugOf hit.theory)) ∧
      fragmentOf (HitSummary.ofHit hit).href = hit.anchor ∧
      ∃ id ∈ (Loading.categories site.settings).direct site.fetch,
        (site.theoryOf id).provenance.isLoaded = true ∧
        hit ∈ Search.records (site.theoryOf id).value ∧
        ∀ later cache, (site.settings.cache.enabled = true → Reachable site.fetch cache) →
          (Lands { site with cache := cache } later (HitSummary.ofHit hit).href ↔
            slugOf hit.theory ≠ "" ∧
              hit.anchor ∈ (site.theoryOf (slugOf hit.theory)).value.anchors) ∧
          (slugOf hit.theory ≠ "" → site.LeadsBack id (slugOf hit.theory) →
            Lands { site with cache := cache } later (HitSummary.ofHit hit).href) := by
  have hmirrors {cache : Cache} (hreachable : site.settings.cache.enabled = true →
      Reachable site.fetch cache) (henabled : site.settings.cache.enabled = true) :
      NormalSource site.fetch ∧ cache.Mirrors site.fetch :=
    ⟨(hcache henabled).1, (hreachable henabled).mirrors (hcache henabled).1⟩
  have hsteady : site.Steady := ⟨hanswered, hmirrors fun henabled => (hcache henabled).2⟩
  obtain ⟨id, hid, hloaded, hrecord⟩ := hsteady.exists_origin hhit
  refine ⟨?_, ?_, id, hid, hloaded, hrecord, fun later cache hreachable => ?_⟩
  · rw [hit.href_eq]
    exact HitSummary.parse_hrefOf _ _
  · rw [hit.href_eq]
    exact HitSummary.fragmentOf_hrefOf _ _
  · have hother : Steady { site with cache := cache } := ⟨hanswered, hmirrors hreachable⟩
    refine ⟨hother.lands_iff later hit, fun hslug hback =>
      (hother.lands_iff later hit).mpr ⟨hslug, ?_⟩⟩
    have hsame : (theoryOf { site with cache := cache } (slugOf hit.theory)) = site.theoryOf id :=
      theoryOf_slugOf hback
    rw [hsame]
    exact (Hit.of_mem_records hrecord).2

/-- A theory whose id is not the identifier of its name, with a listed file. -/
def listedGroups : MemoryFiles :=
  [("/gt.json", ⟨200, Response.jsonType, "[\x7b\"name\": \"Subgroup\"\x7d]"⟩),
    ("/manifest.json",
      ⟨200, Response.jsonType, "[[[\"gt\", \"Group Theory\", 1, [[\"/gt.json\"]]]]]"⟩)]

/-- The site of these files. -/
def listedSite : Site :=
  ofFiles listedGroups .empty

/-- The definition of these files. -/
def subgroupHit : Hit :=
  .definition "Group Theory" ⟨"Subgroup", "", "Unknown", []⟩

/-- The manifest finds the theory by the identifier of its name too, so the link of its definition
lands. -/
theorem search_link_lands_iff_listed :
    NormalSource listedSite.fetch ∧ (∀ path, listedSite.backend.losesFetch path = false) ∧
      Reachable listedSite.fetch listedSite.cache ∧ subgroupHit ∈ (listedSite.search 1 "group").1 ∧
      (HitSummary.ofHit subgroupHit).href = "/math/group_theory#definition-subgroup" ∧
      Lands listedSite 2 (HitSummary.ofHit subgroupHit).href := by
  have hsource : NormalSource listedSite.fetch := by
    rw [listedSite, ofFiles_fetch]
    exact MemoryFiles.normalSource listedGroups
  have hanswered : ∀ path, listedSite.backend.losesFetch path = false := fun _ => rfl
  have hcache : Reachable listedSite.fetch listedSite.cache := .empty
  have hhit : subgroupHit ∈ (listedSite.search 1 "group").1 := by decide +kernel
  obtain ⟨-, -, id, -, -, -, hlands⟩ :=
    search_link_lands_iff listedSite "group" 1 hanswered
      (fun _ => ⟨hsource, hcache⟩) subgroupHit hhit
  have hloaded : slugOf subgroupHit.theory ≠ "" ∧
      subgroupHit.anchor ∈ (listedSite.theoryOf (slugOf subgroupHit.theory)).value.anchors := by
    decide +kernel
  exact ⟨hsource, hanswered, hcache, hhit, by decide +kernel,
    ((hlands 2 .empty fun _ => .empty).1).mpr hloaded⟩

/-! ## Links that do not land -/

/-- A theory without listed files. Its definitions are found by probing for its id. -/
def groups : MemoryFiles :=
  [("/manifest.json", ⟨200, Response.jsonType, "[[[\"gt\", \"Group Theory\"]]]"⟩),
    ("/theories/gt/definitions.json", ⟨200, Response.jsonType, "[\x7b\"name\": \"Subgroup\"\x7d]"⟩)]

/-- The site of these files, with one place to probe. -/
def groupsSite : Site where
  settings := { content := { theoryBases := ["/theories"] } }
  backend := { source := groups.source }

/-- The identifier of the theory's name is looked up in the manifest, but then probed for in place
of the theory's id, so that the link of the hit leads to a placeholder. -/
theorem probed_theory_link_misses :
    (groupsSite.search 1 "subgroup").1.map (fun hit => (HitSummary.ofHit hit).href) =
        ["/math/group_theory#definition-subgroup"] ∧
      Route.parse "/math/group_theory#definition-subgroup" = .theory "group_theory" ∧
      (groupsSite.page 2 (.theory "group_theory")).1.ids = ["definition-group_theory_not_found"] ∧
      ¬groupsSite.Lands 2 "/math/group_theory#definition-subgroup" := by
  have hroute : Route.parse "/math/group_theory#definition-subgroup" = .theory "group_theory" := by
    decide +kernel
  have hids : (groupsSite.page 2 (.theory "group_theory")).1.ids =
      ["definition-group_theory_not_found"] := by
    decide +kernel
  refine ⟨by decide +kernel, hroute, hids, ?_⟩
  rw [Lands, hroute, hids]
  decide +kernel

end Site

end Compendium
