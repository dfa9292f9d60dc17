import Compendium.Digest
import Compendium.Source

/-!
# The cache of fetched bodies

Bodies are kept by normalized path, each with its digest and the time it was fetched.
-/

namespace Compendium

/-- A body that was fetched. -/
structure CachedBody where
  body : String
  digest : String
  fetchedAt : Nat
  deriving DecidableEq, Repr

namespace CachedBody

/-- A body fetched at a time. -/
def ofBody (now : Nat) (body : String) : CachedBody :=
  ⟨body, Digest.sha256 (Text.utf8 body.toList), now⟩

end CachedBody

/-- Fetched bodies by path. -/
abbrev Cache := Dict CachedBody

namespace Cache

/-- Nothing kept. -/
def empty : Cache := []

def lookup (cache : Cache) (path : String) : Option CachedBody :=
  cache.get? (Path.normalize path)

def keep (now : Nat) (path body : String) (cache : Cache) : Cache :=
  cache.insert (Path.normalize path) (CachedBody.ofBody now body)

/-- The cache without the body at a path. -/
def invalidate (path : String) (cache : Cache) : Cache :=
  cache.erase (Path.normalize path)

/-- Drops the body at a path: whether there was one, and the cache without it. -/
def drop (path : String) (cache : Cache) : Bool × Cache :=
  ((cache.lookup path).isSome, cache.invalidate path)

/-- One path fetched again: whether its body has changed or is gone, and the cache afterwards. -/
def refreshPath (fetch : String → Response) (now : Nat) (path : String) (cache : Cache) :
    Bool × Cache :=
  let response := fetch path
  if response.isUsable then
    let fresh := CachedBody.ofBody now response.body
    let changed := match cache.get? path with
      | some old => old.digest != fresh.digest
      | none => true
    (changed, cache.insert path fresh)
  else (true, cache.invalidate path)

/-- Paths fetched again: those that have changed, and the cache afterwards. -/
def refreshPaths (fetch : String → Response) (now : Nat) : List String → Cache → List String × Cache
  | [], cache => ([], cache)
  | path :: rest, cache =>
    let (changed, next) := refreshPath fetch now path cache
    let (others, final) := refreshPaths fetch now rest next
    (if changed then path :: others else others, final)

/-- Every kept path fetched again. -/
def refresh (fetch : String → Response) (now : Nat) (cache : Cache) : List String × Cache :=
  refreshPaths fetch now cache.keys cache

end Cache

end Compendium
