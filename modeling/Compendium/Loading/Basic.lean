import Compendium.Cache

/-!
# Loading as a program

A loading program looks bodies up in the cache, fetches from the source and keeps bodies, and goes
on with each answer. `run` performs it against a source; `attempt` against a source that may lose
the request, which loses the rest of the program too.
-/

namespace Compendium

/-- A program of cache and source requests that ends with a value. -/
inductive Loading (α : Type) where
  | done (a : α)
  | lookup (path : String) (next : Option String → Loading α)
  | fetch (path : String) (next : Response → Loading α)
  | keep (path body : String) (next : Loading α)

namespace Loading

variable {α β : Type}

/-- The program that goes on with the value of another one. -/
def andThen (next : α → Loading β) : Loading α → Loading β
  | done a => next a
  | lookup path rest => lookup path fun found => andThen next (rest found)
  | fetch path rest => fetch path fun response => andThen next (rest response)
  | keep path body rest => keep path body (andThen next rest)

instance : Monad Loading where
  pure := done
  bind program next := andThen next program

/-- What a program leaves behind: the cache, and the paths that were fetched, in order. -/
structure Trace where
  cache : Cache
  fetched : List String

namespace Trace

def start (cache : Cache) : Trace := ⟨cache, []⟩

def fetching (path : String) (t : Trace) : Trace :=
  { t with fetched := t.fetched ++ [path] }

def keeping (now : Nat) (path body : String) (t : Trace) : Trace :=
  { t with cache := t.cache.keep now path body }

end Trace

/-- Performs a program at a time. -/
def run (source : String → Response) (now : Nat) : Loading α → Trace → α × Trace
  | done a, t => (a, t)
  | lookup path next, t => run source now (next ((t.cache.lookup path).map (·.body))) t
  | fetch path next, t => run source now (next (source path)) (t.fetching path)
  | keep path body next, t => run source now next (t.keeping now path body)

/-- Performs a program against a source that may not answer: then there is no value, and what the
program has kept so far stays. -/
def attempt (source : String → Option Response) (now : Nat) : Loading α → Trace → Option α × Trace
  | done a, t => (some a, t)
  | lookup path next, t => attempt source now (next ((t.cache.lookup path).map (·.body))) t
  | fetch path next, t =>
    match source path with
    | none => (none, t.fetching path)
    | some response => attempt source now (next response) (t.fetching path)
  | keep path body next, t => attempt source now next (t.keeping now path body)

end Loading

end Compendium
