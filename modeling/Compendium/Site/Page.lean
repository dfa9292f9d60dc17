import Compendium.ContentTree
import Compendium.Render.Theory
import Compendium.Route
import Compendium.Site.Basic

/-!
# Pages of the site

Every route has a page: content that cannot be loaded is shown as a placeholder, and only a lost
loading call makes an error page.
-/

namespace Compendium

/-- A page: its status, its title and the content of its element. -/
structure Page where
  status : Nat
  title : String
  content : List Markup

namespace Page

def siteName : String := "Theorema"

/-- The entries of the navigation. -/
def navigation : List (String × String) :=
  [("/", "Home"), ("/math", "Mathematics"), ("/foundations", "Foundations"), ("/logic", "Logic"),
    ("/roadmap", "Roadmap"), ("/developer", "Developer")]

/-- An entry of the navigation; the one of the current page is marked. -/
def navItem (current : String) (entry : String × String) : Markup :=
  let mark := if entry.1 = current then [("class", "active")] else []
  .node "li" [] [.leaf "a" (("href", entry.1) :: mark) entry.2]

/-- The navigation. -/
def navMarkup (current : String) : Markup :=
  .classed "nav" "site-nav" [.node "ul" [] (navigation.map (navItem current))]

/-- The frame around the body of a page. -/
def shell (title : String) (body : List Markup) (current : String) : List Markup :=
  [.node "html" [("lang", "en")]
    [.text "\n",
      .node "head" []
        [.text "\n", .void "meta" [("charset", "utf-8")] [], .text "\n",
          .leaf "title" [] (title ++ " | " ++ siteName), .text "\n"],
      .text "\n",
      .node "body" []
        [.text "\n", navMarkup current, .text "\n", .classed "div" "page" body, .text "\n"],
      .text "\n"],
    .text "\n"]

def ofBody (status : Nat) (title : String) (body : List Markup) (current : String) : Page :=
  ⟨status, title, shell title body current⟩

/-- The text of a page. -/
def html (p : Page) : String :=
  "<!DOCTYPE html>\n" ++ Markup.render p.content

def countText (n : Nat) : String :=
  String.ofList (Decimal.natText n)

/-- The page after a lost loading call. -/
def failed (current : String) : Page :=
  ofBody 500 "Error" [.classed "section" "error" [.leaf "h1" [] "Something went wrong"]] current

/-- The page for a path without a route. -/
def missing (path : String) : Page :=
  ofBody 404 "Page not found"
    [.classed "section" "not-found"
      [.leaf "h1" [] "Page not found",
        .node "p" [] [.text "No page at ", .leaf "code" [] path, .text "."],
        .node "p" [] [.leaf "a" [("href", "/")] "Back to the home page"]]] path

def home (theories : Nat) (current : String) : Page :=
  ofBody 200 siteName
    [.classed "section" "home"
      [.leaf "h1" [] siteName,
        .leaf "p" [] "A browsable collection of definitions, theorems and documents.",
        .classed "ul" "home-links" ((navigation.drop 1).map fun entry =>
          .node "li" [] [.leaf "a" [("href", entry.1)] entry.2]),
        .leaf "p" [("class", "theory-count")]
          (countText theories ++ " theories available.")]] current

/-- A theory in the index. -/
def theoryItem (e : ManifestEntry) : Markup :=
  .node "li" []
    [.leaf "a" [("href", "/math/" ++ e.id)] e.name, .text " ",
      .leaf "span" [("class", "item-count")] (countText e.itemCount)]

/-- The index of theories. -/
def math (theories : List ManifestEntry) (tree : ContentTree) (current : String) : Page :=
  let listing :=
    if theories.isEmpty then Markup.leaf "p" [("class", "empty")] "No theories listed."
    else .classed "ul" "theory-list" (theories.map theoryItem)
  ofBody 200 "Mathematics"
    [.classed "section" "math-index"
      [.leaf "h1" [] "Mathematics", listing,
        .classed "nav" "content-tree" [.leaf "h2" [] "Files", tree.markup]]] current

def theory (outcome : Outcome Theory) (current : String) : Page :=
  ofBody 200 outcome.value.name [Theory.markup outcome] current

def document (r : Renderer) (view : View) (outcome : Outcome Document) (current : String) : Page :=
  ofBody 200 outcome.value.title
    [.node "div" [("class", "document-page"), ("data-provenance", outcome.provenance.label)]
      (r.document view outcome.value)] current

/-- A content file; cached ones are marked. -/
def fileItem (cached : List String) (file : String) : Markup :=
  .node "li" (if cached.contains file then [("class", "cached")] else []) [.leaf "code" [] file]

def developer (enabled : Bool) (cached files : List String) (current : String) : Page :=
  ofBody 200 "Developer"
    [.classed "section" "developer"
      [.leaf "h1" [] "Developer",
        .classed "dl" "cache-stats"
          [.leaf "dt" [] "Cache", .leaf "dd" [] (if enabled then "enabled" else "disabled"),
            .leaf "dt" [] "Entries", .leaf "dd" [] (countText cached.length)],
        .leaf "h2" [] ("Content files (" ++ countText files.length ++ ")"),
        .classed "ul" "content-files" (files.map (fileItem cached)),
        .leaf "h2" [] "Folder tree", (ContentTree.ofPaths files).markup]] current

end Page

namespace Site

/-- The pattern of all JSON files. -/
def allJson : String := "**/*.json"

/-- The theories and the tree of the index: from the manifest, or else from the files there are. -/
def listing? (now : Nat) (site : Site) : Option (List ManifestEntry × ContentTree) × Site :=
  let (manifest, site) := site.load now (Loading.manifest site.settings)
  match manifest with
  | none => (none, site)
  | some (.ok m) => (some (m.theories, .ofManifest m), site)
  | some (.error _) =>
    ((site.backend.discover? site.settings.content allJson).map fun files =>
      ([], .ofPaths files), site)

def documentPage (now : Nat) (id current : String) (site : Site) : Page × Site :=
  let (outcome, site) := site.load now (Loading.document site.settings id)
  match outcome with
  | some outcome => (.document site.renderer site.view outcome current, site)
  | none => (.failed current, site)

def page (now : Nat) (route : Route) (site : Site) : Page × Site :=
  let current := route.path
  match route with
  | .home =>
    let (categories, site) := site.load now (Loading.categories site.settings)
    (.home (categories.getD []).length current, site)
  | .math =>
    let (listing, site) := site.listing? now
    match listing with
    | some (theories, tree) => (.math theories tree current, site)
    | none => (.failed current, site)
  | .theory id =>
    let (outcome, site) := site.load now (Loading.theory site.settings id)
    match outcome with
    | some outcome => (.theory outcome current, site)
    | none => (.failed current, site)
  | .document id => site.documentPage now id current
  | .roadmap => site.documentPage now "roadmap" current
  | .foundations => site.documentPage now "foundations" current
  | .logic => site.documentPage now "logic" current
  | .developer =>
    match site.backend.discover? site.settings.content allJson with
    | some files => (.developer site.settings.cache.enabled site.cache.keys files current, site)
    | none => (.failed current, site)
  | .notFound path => (.missing path, site)

end Site

end Compendium
