import Compendium.Loading.Document
import Compendium.Render.Document
import Compendium.Search

/-!
# The site and its loading calls

A site keeps the cache and the view between requests. A source may fail to answer a request; then
the loading call is lost, but not what it has put into the cache.
-/

namespace Compendium

/-- A source of which some requests are never answered. -/
structure Backend where
  source : Source
  losesFetch : String → Bool := fun _ => false
  losesList : Bool := false

namespace Backend

/-- The answer to a request, if there is one. -/
def fetch? (b : Backend) (path : String) : Option Response :=
  if b.losesFetch path then none else some (b.source.fetch path)

/-- The files that settings discover, if the source answers. -/
def discover? (b : Backend) (s : ContentSettings) (pattern : String) : Option (List String) :=
  if b.losesList then none else some (s.discover b.source pattern)

end Backend

/-- The settings and the state of a site. -/
structure Site where
  settings : Settings
  backend : Backend
  cache : Cache := .empty
  view : View := .empty

namespace Site

def renderer (site : Site) : Renderer :=
  { settings := site.settings.render }

/-- Performs a loading program at a time; the value is missing if the call is lost. -/
def load {α : Type} (now : Nat) (program : Loading α) (site : Site) : Option α × Site :=
  let (value, trace) := program.attempt site.backend.fetch? now (.start site.cache)
  (value, { site with cache := trace.cache })

/-- The hits in theories. A theory whose loading is lost has none. -/
def searchIn (now : Nat) (query : String) : List String → Site → List Hit × Site
  | [], site => ([], site)
  | category :: rest, site =>
    let (outcome, site) := site.load now (Loading.theory site.settings category)
    let found := match outcome with
      | some outcome => Search.hits query outcome
      | none => []
    let (others, site) := searchIn now query rest site
    (found ++ others, site)

/-- The hits in all theories, in the order of the manifest. -/
def search (now : Nat) (query : String) (site : Site) : List Hit × Site :=
  let (categories, site) := site.load now (Loading.categories site.settings)
  searchIn now query (categories.getD []) site

end Site

end Compendium
