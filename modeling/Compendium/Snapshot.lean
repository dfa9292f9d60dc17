import Compendium.Cache
import Compendium.LoadError

/-!
# Snapshots of the cache

A snapshot is a version, a count and that many entries. Numbers are written with their least
significant octet first, and texts as their length in octets and their octets.
-/

namespace Compendium.Snapshot

/-- The version that is written. -/
def currentVersion : Nat := 1

/-- A number in so many octets. -/
def encodeNat : Nat → Nat → List UInt8
  | 0, _ => []
  | width + 1, n => UInt8.ofNat (n % 256) :: encodeNat width (n / 256)

/-- A text with its length. -/
def encodeText (s : String) : List UInt8 :=
  let octets := Text.utf8 s.toList
  encodeNat 8 octets.length ++ octets

def encodeEntry (entry : String × CachedBody) : List UInt8 :=
  encodeText entry.1 ++ encodeText entry.2.body ++ encodeText entry.2.digest ++
    encodeNat 8 entry.2.fetchedAt

def encode (cache : Cache) : List UInt8 :=
  encodeNat 4 currentVersion ++ encodeNat 8 cache.length ++ cache.flatMap encodeEntry

/-- A number of so many octets, and the rest. -/
def nat? : Nat → List UInt8 → Option (Nat × List UInt8)
  | 0, rest => some (0, rest)
  | _ + 1, [] => none
  | width + 1, octet :: rest => do
    let (n, rest) ← nat? width rest
    return (octet.toNat + 256 * n, rest)

/-- So many octets, and the rest. -/
def octets? (n : Nat) (s : List UInt8) : Option (List UInt8 × List UInt8) :=
  if s.length < n then none else some (s.take n, s.drop n)

/-- A text, and the rest. -/
def text? (s : List UInt8) : Option (String × List UInt8) := do
  let (n, s) ← nat? 8 s
  let (octets, s) ← octets? n s
  let chars ← Text.ofUtf8? octets
  return (String.ofList chars, s)

/-- An entry, and the rest. -/
def item? (s : List UInt8) : Option ((String × CachedBody) × List UInt8) := do
  let (key, s) ← text? s
  let (body, s) ← text? s
  let (digest, s) ← text? s
  let (fetchedAt, s) ← nat? 8 s
  return ((key, ⟨body, digest, fetchedAt⟩), s)

/-- So many entries added to a cache; a later entry replaces an earlier one of the same path. -/
def entries? : Nat → Cache → List UInt8 → Option Cache
  | 0, cache, _ => some cache
  | n + 1, cache, s => do
    let ((key, body), s) ← item? s
    entries? n (cache.insert key body) s

/-- The version and the entries of a snapshot. Octets after the last entry do not matter. -/
def parts? (s : List UInt8) : Option (Nat × Cache) := do
  let (version, s) ← nat? 4 s
  let (count, s) ← nat? 8 s
  let cache ← entries? count .empty s
  return (version, cache)

/-- The cache of a snapshot. All of it is read before its version counts. -/
def decode (s : List UInt8) : Except LoadError Cache :=
  match parts? s with
  | none => .error .snapshot
  | some (version, cache) =>
    if version = currentVersion then .ok cache else .error (.snapshotVersion version currentVersion)

/-- Loads a snapshot into a cache: how many entries it has, and the cache afterwards, which holds
just these. A snapshot that cannot be used changes nothing. -/
def load (s : List UInt8) (cache : Cache) : Except LoadError Nat × Cache :=
  match decode s with
  | .ok loaded => (.ok loaded.length, loaded)
  | .error e => (.error e, cache)

end Compendium.Snapshot
