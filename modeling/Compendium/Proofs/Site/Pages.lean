import Compendium.Proofs.Markup.Content
import Compendium.Proofs.Render.WellFormed
import Compendium.Site.Page

/-!
# Pages are written safely

The frame of a page, the index, the developer page and the trees of files are made of clean trees,
as rendered documents are. So whatever a manifest, a list of files, a document or a request holds,
the page is well formed after its first line, and what they hold stands there as escaped text or as
an escaped value. Scripts are those of the document that a page shows.
-/

namespace Compendium

namespace Markup

/-- Names that are all among others. -/
structure Names.Within (a b : Names) : Prop where
  elements : a.elements ⊆ b.elements
  voids : a.voids ⊆ b.voids
  attrs : a.attrs ⊆ b.attrs
  flags : a.flags ⊆ b.flags

variable {a b : Names}

mutual

theorem Clean.within (h : a.Within b) : ∀ {m : Markup}, Clean a m → Clean b m
  | .text _, _ => trivial
  | .element _ _ _ _, ⟨htag, hattrs, hflags, hchildren⟩ =>
    ⟨h.elements htag, fun x hx => h.attrs (hattrs x hx), fun f hf => h.flags (hflags f hf),
      CleanList.within h hchildren⟩
  | .void _ _ _, ⟨htag, hattrs, hflags⟩ =>
    ⟨h.voids htag, fun x hx => h.attrs (hattrs x hx), fun f hf => h.flags (hflags f hf)⟩
  | .script _, hdata => hdata
  | .raw _, hraw => hraw

theorem CleanList.within (h : a.Within b) : ∀ {ms : List Markup}, CleanList a ms → CleanList b ms
  | [], _ => trivial
  | _ :: _, ⟨hm, hrest⟩ => ⟨hm.within h, CleanList.within h hrest⟩

end

end Markup

open Markup (Clean CleanList dataIn dataInList dataInList_map)

/-! ## Trees of files -/

/-- The names that trees of files are written with. -/
def treeNames : Markup.Names where
  elements := ["li", "span", "ul"]
  voids := []
  attrs := ["class", "title"]
  flags := []
  areNames := by decide +kernel
  apart := by decide
  noScript := by decide

namespace Folder

theorem clean_label (name : String) (path : Option String) : Clean treeNames (label name path) := by
  cases path with
  | none | some path => simp +decide [label, Markup.leaf, Clean, CleanList]

theorem dataIn_label (name : String) (path : Option String) : dataIn (label name path) = [] := by
  cases path <;> simp [label]

theorem clean_listed {tag cssClass : String} {content : List Markup}
    (htag : tag ∈ treeNames.elements)
    (hcontent : CleanList treeNames content) : Clean treeNames (.classed tag cssClass content) := by
  simp +decide [Markup.classed, Clean, htag, hcontent]

mutual

theorem clean_item : ∀ f : Folder, Clean treeNames f.item ∧ dataIn f.item = []
  | .mk name path children => by
    obtain ⟨hclean, hdata⟩ := clean_sublist children
    rw [item]
    exact ⟨clean_listed (by decide) ⟨clean_label name path, hclean⟩, by simp [dataIn_label, hdata]⟩

theorem clean_itemList : ∀ fs : List Folder,
    CleanList treeNames (itemList fs) ∧ dataInList (itemList fs) = []
  | [] => by
    rw [itemList]
    exact ⟨trivial, Markup.dataInList_nil⟩
  | f :: rest => by
    obtain ⟨hclean, hdata⟩ := clean_item f
    obtain ⟨hcleanRest, hdataRest⟩ := clean_itemList rest
    rw [itemList]
    exact ⟨⟨hclean, hcleanRest⟩, by simp [hdata, hdataRest]⟩

theorem clean_sublist : ∀ fs : List Folder,
    CleanList treeNames (sublist fs) ∧ dataInList (sublist fs) = []
  | [] => by
    rw [sublist]
    exact ⟨trivial, Markup.dataInList_nil⟩
  | f :: rest => by
    obtain ⟨hclean, hdata⟩ := clean_item f
    obtain ⟨hcleanRest, hdataRest⟩ := clean_itemList rest
    rw [sublist]
    exact ⟨⟨clean_listed (by decide) ⟨hclean, hcleanRest⟩, trivial⟩, by simp [hdata, hdataRest]⟩

end

end Folder

namespace ContentTree

theorem clean_markup (tree : ContentTree) : Clean treeNames tree.markup :=
  Folder.clean_listed (by decide) (Folder.clean_itemList tree.roots).1

@[simp] theorem dataIn_markup (tree : ContentTree) : dataIn tree.markup = [] := by
  rw [markup, Markup.dataIn_classed, (Folder.clean_itemList tree.roots).2]

end ContentTree

/-! ## Parts of pages -/

/-- The names that pages are written with: those of documents, and those of the frame around. -/
def pageNames : Markup.Names where
  elements := ["body", "head", "html", "title"] ++ documentNames.elements
  voids := ["meta"] ++ documentNames.voids
  attrs := ["charset", "data-provenance", "lang"] ++ documentNames.attrs
  flags := documentNames.flags
  areNames := by
    have hframe : ∀ name ∈ ["body", "head", "html", "title"] ++ ["meta"] ++
        ["charset", "data-provenance", "lang"], Markup.IsName name.toList := by decide +kernel
    have hdocument := documentNames.areNames
    -- the lists stay closed: their names are checked where they are given
    simp only [List.mem_append, or_imp, forall_and] at hframe hdocument ⊢
    exact ⟨⟨⟨⟨hframe.1.1, hdocument.1.1.1⟩, hframe.1.2, hdocument.1.1.2⟩, hframe.2, hdocument.1.2⟩,
      hdocument.2⟩
  apart := by decide
  noScript := by decide

theorem documentNames_within : documentNames.Within pageNames where
  elements := List.subset_append_right _ _
  voids := List.subset_append_right _ _
  attrs := List.subset_append_right _ _
  flags := List.Subset.refl _

theorem treeNames_within : treeNames.Within documentNames where
  elements := by decide
  voids := by decide
  attrs := by decide
  flags := by decide

namespace Page

theorem clean_navMarkup (current : String) : CleanTree (navMarkup current) := by
  have hitems : CleanTrees (navigation.map (navItem current)) := by
    apply cleanTrees_map
    intro entry _
    unfold navItem
    split <;> simp +decide
  simp +decide [navMarkup, hitems]

@[simp] theorem dataIn_navMarkup (current : String) : dataIn (navMarkup current) = [] := by
  simp [navMarkup, dataInList_map, navItem]

/-- The frame adds names of its own, and no script. -/
theorem clean_shell (title : String) {body : List Markup} (hbody : CleanList pageNames body)
    (current : String) : CleanList pageNames (shell title body current) := by
  have hnav : Clean pageNames (navMarkup current) :=
    Clean.within documentNames_within (clean_navMarkup current)
  simp +decide [shell, Markup.node, Markup.leaf, Markup.classed, Clean, CleanList, hnav, hbody]

@[simp] theorem dataInList_shell (title : String) (body : List Markup) (current : String) :
    dataInList (shell title body current) = dataInList body := by
  simp [shell]

theorem clean_tree (tree : ContentTree) : CleanTree tree.markup :=
  Clean.within treeNames_within tree.clean_markup

theorem toList_html (p : Page) :
    p.html.toList = "<!DOCTYPE html>\n".toList ++ Markup.charsList p.content := by
  have hcontent : (Markup.render p.content).toList = Markup.charsList p.content :=
    String.toList_ofList
  exact String.toList_append.trans (congrArg _ hcontent)

/-- A page made of known names, with the data of its scripts. -/
structure IsClean (p : Page) (scripts : List (List Char)) : Prop where
  content : CleanList pageNames p.content
  scripts : dataInList p.content = scripts

/-- The frame around markup that documents are made of. -/
theorem isClean_ofBody (status : Nat) (title : String) {body : List Markup} (current : String)
    (hbody : CleanTrees body) (hdata : dataInList body = []) :
    (ofBody status title body current).IsClean [] :=
  ⟨clean_shell title (CleanList.within documentNames_within hbody) current,
    (dataInList_shell title body current).trans hdata⟩

theorem isClean_failed (current : String) : (failed current).IsClean [] :=
  isClean_ofBody _ _ current (by simp +decide) (by simp)

theorem isClean_missing (path : String) : (missing path).IsClean [] :=
  isClean_ofBody _ _ path (by simp +decide) (by simp)

theorem isClean_home (theories : Nat) (current : String) : (home theories current).IsClean [] := by
  exact isClean_ofBody _ _ current (by simp +decide [navigation]) (by simp [navigation])

theorem isClean_math (theories : List ManifestEntry) (tree : ContentTree) (current : String) :
    (math theories tree current).IsClean [] := by
  have htree := clean_tree tree
  have hitems : CleanTrees (theories.map theoryItem) :=
    cleanTrees_map fun e _ => by simp +decide [theoryItem]
  have hdata : dataInList (theories.map theoryItem) = [] :=
    dataInList_map (fun e => by simp [theoryItem]) theories
  unfold math
  dsimp only
  split
  · exact isClean_ofBody _ _ current (by simp +decide [htree]) (by simp)
  · exact isClean_ofBody _ _ current (by simp +decide [htree, hitems]) (by simp [hdata])

theorem isClean_developer (enabled : Bool) (cached files : List String) (current : String) :
    (developer enabled cached files current).IsClean [] := by
  have htree := clean_tree (.ofPaths files)
  have hitems : CleanTrees (files.map (fileItem cached)) := by
    apply cleanTrees_map
    intro file _
    unfold fileItem
    split <;> simp +decide
  have hdata : dataInList (files.map (fileItem cached)) = [] :=
    dataInList_map (fun file => by simp [fileItem]) files
  exact isClean_ofBody _ _ current (by simp +decide [htree, hitems]) (by simp [hdata])

/-- The page of a document has the document's scripts. -/
theorem isClean_document (r : Renderer) (hbare : r.components = []) (view : View)
    (outcome : Outcome Document) (current : String) :
    (document r view outcome current).IsClean (dataInList (r.document view outcome.value)) := by
  have harticle : (Scope.article r.block (r.scope view outcome.value.parts) outcome.value).Clean :=
    Scope.clean_article (Scope.clean_renderBlock r.settings.maxDepth) hbare outcome.value
  have hbody : CleanList pageNames [.node "div" [("class", "document-page"),
      ("data-provenance", outcome.provenance.label)] (r.document view outcome.value)] := by
    have hinner : CleanList pageNames (r.document view outcome.value) :=
      CleanList.within documentNames_within (harticle [])
    simp +decide [Markup.node, Clean, CleanList, hinner]
  exact ⟨clean_shell _ hbody current, by simp [document, ofBody]⟩

end Page

/-! ## Pages of routes -/

namespace Site

/-- What the pages of a site are: without scripts, or a document's with the scripts of the
document. -/
def MakesClean (site : Site) (current : String) (p : Page) : Prop :=
  p.IsClean [] ∨ ∃ outcome, p = .document site.renderer site.view outcome current ∧
    p.IsClean (dataInList (site.renderer.document site.view outcome.value))

theorem makesClean_documentPage (site : Site) (now : Nat) (id current : String) :
    site.MakesClean current (site.documentPage now id current).1 := by
  unfold documentPage
  dsimp only
  split
  · next outcome _ =>
    exact .inr ⟨outcome, rfl, Page.isClean_document site.renderer rfl site.view outcome current⟩
  · exact .inl (Page.isClean_failed current)

theorem makesClean_page (site : Site) (now : Nat) (route : Route)
    (hroute : ∀ id, route ≠ .theory id) :
    site.MakesClean route.path (site.page now route).1 := by
  cases route with
  | home => exact .inl (Page.isClean_home _ _)
  | math =>
    unfold page
    dsimp only
    split
    · exact .inl (Page.isClean_math _ _ _)
    · exact .inl (Page.isClean_failed _)
  | theory id => exact absurd rfl (hroute id)
  | document id => exact makesClean_documentPage site now id _
  | roadmap => exact makesClean_documentPage site now "roadmap" _
  | foundations => exact makesClean_documentPage site now "foundations" _
  | logic => exact makesClean_documentPage site now "logic" _
  | developer =>
    unfold page
    dsimp only
    split
    · exact .inl (Page.isClean_developer _ _ _ _)
    · exact .inl (Page.isClean_failed _)
  | notFound path => exact .inl (Page.isClean_missing path)

/-- For every site and every route other than a theory's, the page is its first line and then text
that is well formed over the names of pages, with nothing in it but tags, escaped texts and escaped
values, and the scripts of the document if the page shows one. Every tree of files is written in
this way as well, as nested lists without scripts. -/
theorem page_written_safely (site : Site) (now : Nat) (route : Route)
    (hroute : ∀ id, route ≠ .theory id) :
    (∃ written scripts, (site.page now route).1.html.toList =
      "<!DOCTYPE html>\n".toList ++ written ∧ Markup.WrittenSafely pageNames scripts written ∧
      (scripts = [] ∨ ∃ outcome,
        (site.page now route).1 = .document site.renderer site.view outcome route.path ∧
          scripts = dataInList (site.renderer.document site.view outcome.value))) ∧
    ∀ tree : ContentTree, Markup.WrittenSafely treeNames [] tree.markup.chars := by
  have hwritten : ∀ {p : Page} {scripts}, p.IsClean scripts →
      ∃ written, p.html.toList = "<!DOCTYPE html>\n".toList ++ written ∧
        Markup.WrittenSafely pageNames scripts written := by
    intro p scripts hp
    exact ⟨Markup.charsList p.content, p.toList_html,
      hp.scripts ▸ Markup.writtenSafely_of_clean hp.content⟩
  refine ⟨?_, fun tree => ?_⟩
  · obtain hclean | ⟨outcome, hpage, hclean⟩ := makesClean_page site now route hroute
    · obtain ⟨written, hhtml, hsafe⟩ := hwritten hclean
      exact ⟨written, [], hhtml, hsafe, .inl rfl⟩
    · obtain ⟨written, hhtml, hsafe⟩ := hwritten hclean
      exact ⟨written, _, hhtml, hsafe, .inr ⟨outcome, hpage, rfl⟩⟩
  · have htree := Markup.writtenSafely_of_clean (show CleanList treeNames [tree.markup] from
      ⟨tree.clean_markup, trivial⟩)
    simpa [Markup.charsList] using htree

/-- A site whose only file has markup and a quote in its path. -/
def markedSite : Site :=
  { settings := {}
    backend := { source := MemoryFiles.source [("/<b a=\"1\">&.json", .failed 404)] } }

theorem markedSite_written_safely :
    (∀ id, Route.developer ≠ .theory id) ∧
    markedSite.backend.discover? markedSite.settings.content allJson = some ["/<b a=\"1\">&.json"] ∧
    ∃ written scripts,
      (markedSite.page 1 .developer).1.html.toList = "<!DOCTYPE html>\n".toList ++ written ∧
        Markup.WrittenSafely pageNames scripts written := by
  have hroute : ∀ id, Route.developer ≠ .theory id := by simp
  obtain ⟨⟨written, scripts, hhtml, hsafe, -⟩, -⟩ :=
    page_written_safely markedSite 1 .developer hroute
  exact ⟨hroute, by decide +kernel, written, scripts, hhtml, hsafe⟩

end Site

end Compendium
