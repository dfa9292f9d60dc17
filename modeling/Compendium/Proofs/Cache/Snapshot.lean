import Compendium.Proofs.Dict.Ordered
import Compendium.Proofs.Text.Utf8
import Compendium.Snapshot

/-!
# Snapshots are read as they are written

`layout` says what a snapshot of entries looks like, in any order of the entries. The readers of
numbers, texts and entries accept exactly what the layout writes, so that a list of octets either
starts with the layout of entries, in which case these are what is read, or cannot be read at all.
Loading is then a matter of the version, and replaces all entries of a cache or none.

Numbers have 64 bits in a snapshot, the version 32. What does not fit into these is not written as
it is.
-/

namespace Compendium.Snapshot

/-! ## Numbers -/

theorem nat?_encodeNat (width : Nat) {n : Nat} (h : n < Nat.pow 256 width) (rest : List UInt8) :
    nat? width (encodeNat width n ++ rest) = some (n, rest) := by
  induction width generalizing n with
  | zero =>
    have hn : n = 0 := by
      rw [Nat.pow_eq, Nat.pow_zero] at h
      omega
    rw [hn]
    rfl
  | succ width ih =>
    have hdiv : n / 256 < Nat.pow 256 width := by
      rw [Nat.pow_eq, Nat.pow_succ] at h
      rw [Nat.pow_eq]
      omega
    have hlow : (UInt8.ofNat (n % 256)).toNat = n % 256 := Text.toNat_octet (by omega)
    have hsum : n % 256 + 256 * (n / 256) = n := by omega
    simp [encodeNat, nat?, ih hdiv, hlow, hsum]

theorem nat?_eq_some {width n : Nat} {s rest : List UInt8} (h : nat? width s = some (n, rest)) :
    s = encodeNat width n ++ rest ∧ n < Nat.pow 256 width := by
  induction width generalizing s n with
  | zero =>
    cases h
    exact ⟨rfl, by decide⟩
  | succ width ih =>
    cases s with
    | nil => cases h
    | cons octet more =>
      simp only [nat?, Option.bind_eq_bind, Option.bind_eq_some_iff, Option.pure_def,
        Option.some.injEq, Prod.mk.injEq] at h
      obtain ⟨⟨high, rest'⟩, hhigh, rfl, rfl⟩ := h
      obtain ⟨rfl, hlt⟩ := ih hhigh
      have hoctet := octet.toNat_lt
      have hlow : (octet.toNat + 256 * high) % 256 = octet.toNat := by omega
      have hdiv : (octet.toNat + 256 * high) / 256 = high := by omega
      constructor
      · rw [encodeNat, hlow, hdiv, UInt8.ofNat_toNat]
        rfl
      · rw [Nat.pow_eq] at hlt ⊢
        rw [Nat.pow_succ]
        omega

/-! ## Texts -/

/-- The length of a text fits into 64 bits. -/
def TextFits (s : String) : Prop :=
  (Text.utf8 s.toList).length < 0x10000000000000000

instance : DecidablePred TextFits := fun s =>
  inferInstanceAs (Decidable ((Text.utf8 s.toList).length < 0x10000000000000000))

theorem octets?_append (s rest : List UInt8) : octets? s.length (s ++ rest) = some (s, rest) := by
  have hlength : ¬(s ++ rest).length < s.length := by
    rw [List.length_append]
    omega
  rw [octets?, if_neg hlength, List.take_left', List.drop_left']
  · rfl
  · rfl

theorem octets?_eq_some {n : Nat} {s front rest : List UInt8}
    (h : octets? n s = some (front, rest)) :
    s = front ++ rest ∧ front.length = n := by
  unfold octets? at h
  split at h
  · cases h
  · cases h
    refine ⟨(List.take_append_drop n s).symm, ?_⟩
    rw [List.length_take]
    omega

theorem text?_encodeText {t : String} (h : TextFits t) (rest : List UInt8) :
    text? (encodeText t ++ rest) = some (t, rest) := by
  have hnat := nat?_encodeNat 8 h (Text.utf8 t.toList ++ rest)
  simp [text?, encodeText, hnat, octets?_append, Text.ofUtf8?_utf8]

theorem text?_eq_some {t : String} {s rest : List UInt8} (h : text? s = some (t, rest)) :
    s = encodeText t ++ rest ∧ TextFits t := by
  simp only [text?, Option.bind_eq_bind, Option.bind_eq_some_iff, Option.pure_def,
    Option.some.injEq, Prod.mk.injEq] at h
  obtain ⟨⟨n, afterLength⟩, hlength, ⟨octets, rest'⟩, hoctets, chars, hchars, rfl, rfl⟩ := h
  obtain ⟨rfl, hn⟩ := nat?_eq_some hlength
  obtain ⟨rfl, rfl⟩ := octets?_eq_some hoctets
  obtain rfl := Text.ofUtf8?_eq_some_iff.mp hchars
  refine ⟨?_, ?_⟩
  · rw [encodeText, String.toList_ofList, List.append_assoc]
  · rw [TextFits, String.toList_ofList]
    exact hn

/-! ## Entries -/

/-- The texts of an entry and its time fit into a snapshot. -/
structure EntryFits (entry : String × CachedBody) : Prop where
  key : TextFits entry.1
  body : TextFits entry.2.body
  digest : TextFits entry.2.digest
  time : entry.2.fetchedAt < 0x10000000000000000

theorem item?_encodeEntry {entry : String × CachedBody} (h : EntryFits entry) (rest : List UInt8) :
    item? (encodeEntry entry ++ rest) = some (entry, rest) := by
  obtain ⟨key, body, digest, fetchedAt⟩ := entry
  have htime := nat?_encodeNat 8 h.time rest
  simp [item?, encodeEntry, text?_encodeText h.key, text?_encodeText h.body,
    text?_encodeText h.digest, htime]

theorem item?_eq_some {entry : String × CachedBody} {s rest : List UInt8}
    (h : item? s = some (entry, rest)) : s = encodeEntry entry ++ rest ∧ EntryFits entry := by
  simp only [item?, Option.bind_eq_bind, Option.bind_eq_some_iff, Option.pure_def,
    Option.some.injEq, Prod.mk.injEq] at h
  obtain ⟨⟨key, s1⟩, hkey, ⟨body, s2⟩, hbody, ⟨digest, s3⟩, hdigest, ⟨time, s4⟩, htime,
    rfl, rfl⟩ := h
  obtain ⟨rfl, hkeyFits⟩ := text?_eq_some hkey
  obtain ⟨rfl, hbodyFits⟩ := text?_eq_some hbody
  obtain ⟨rfl, hdigestFits⟩ := text?_eq_some hdigest
  obtain ⟨rfl, htimeFits⟩ := nat?_eq_some htime
  refine ⟨?_, hkeyFits, hbodyFits, hdigestFits, htimeFits⟩
  simp only [encodeEntry, List.append_assoc]

/-- Entries that were written one after the other are read in their order. -/
theorem entries?_flatMap {entries : List (String × CachedBody)}
    (h : ∀ entry ∈ entries, EntryFits entry) (cache : Cache) (rest : List UInt8) :
    entries? entries.length cache (entries.flatMap encodeEntry ++ rest) =
      some (entries.foldl (fun d entry => d.insert entry.1 entry.2) cache) := by
  induction entries generalizing cache with
  | nil => rfl
  | cons entry more ih =>
    have hentry := item?_encodeEntry (h entry List.mem_cons_self) (more.flatMap encodeEntry ++ rest)
    have hmore := ih (fun other hother => h other (List.mem_cons_of_mem _ hother))
    rw [List.flatMap_cons, List.append_assoc, List.length_cons, entries?, hentry]
    exact hmore _

theorem entries?_eq_some {n : Nat} {cache loaded : Cache} {s : List UInt8}
    (h : entries? n cache s = some loaded) :
    ∃ (entries : List (String × CachedBody)) (rest : List UInt8), entries.length = n ∧
      (∀ entry ∈ entries, EntryFits entry) ∧ s = entries.flatMap encodeEntry ++ rest := by
  induction n generalizing cache s with
  | zero => exact ⟨[], s, rfl, fun _ hmem => (List.not_mem_nil hmem).elim, rfl⟩
  | succ n ih =>
    simp only [entries?, Option.bind_eq_bind, Option.bind_eq_some_iff] at h
    obtain ⟨⟨entry, s'⟩, hentry, hmore⟩ := h
    obtain ⟨rfl, hfits⟩ := item?_eq_some hentry
    obtain ⟨entries, rest, rfl, hall, rfl⟩ := ih hmore
    refine ⟨entry :: entries, rest, rfl, ?_, ?_⟩
    · exact List.forall_mem_cons.mpr ⟨hfits, hall⟩
    · rw [List.flatMap_cons, List.append_assoc]

/-! ## Snapshots -/

def layout (version : Nat) (entries : List (String × CachedBody)) : List UInt8 :=
  encodeNat 4 version ++ encodeNat 8 entries.length ++ entries.flatMap encodeEntry

theorem encode_eq_layout (cache : Cache) : encode cache = layout currentVersion cache :=
  rfl

/-- The number of entries and all of them fit into a snapshot. -/
structure Fits (entries : List (String × CachedBody)) : Prop where
  count : entries.length < 0x10000000000000000
  entry : ∀ entry ∈ entries, EntryFits entry

theorem Fits.perm {entries others : List (String × CachedBody)} (h : Fits entries)
    (hperm : others.Perm entries) : Fits others where
  count := hperm.length_eq ▸ h.count
  entry entry hmem := h.entry entry (hperm.mem_iff.mp hmem)

/-- The octets start with a snapshot of a version and entries. -/
structure Holds (s : List UInt8) (version : Nat) (entries : List (String × CachedBody)) : Prop where
  numbered : version < 0x100000000
  fits : Fits entries
  starts : ∃ rest, s = layout version entries ++ rest

theorem parts?_of_holds {s : List UInt8} {version : Nat} {entries : List (String × CachedBody)}
    (h : Holds s version entries) : parts? s = some (version, Dict.ofList entries) := by
  obtain ⟨rest, rfl⟩ := h.starts
  have hversion := nat?_encodeNat 4 h.numbered
    (encodeNat 8 entries.length ++ (entries.flatMap encodeEntry ++ rest))
  have hcount := nat?_encodeNat 8 h.fits.count (entries.flatMap encodeEntry ++ rest)
  have hentries := entries?_flatMap h.fits.entry .empty rest
  simp only [parts?, layout, List.append_assoc, hversion, hcount, hentries, Option.bind_eq_bind,
    Option.bind_some]
  rfl

theorem exists_holds_of_parts? {s : List UInt8} {version : Nat} {cache : Cache}
    (h : parts? s = some (version, cache)) : ∃ entries, Holds s version entries := by
  simp only [parts?, Option.bind_eq_bind, Option.bind_eq_some_iff, Option.pure_def,
    Option.some.injEq, Prod.mk.injEq] at h
  obtain ⟨⟨version', s1⟩, hversion, ⟨count, s2⟩, hcount, loaded, hentries, rfl, rfl⟩ := h
  obtain ⟨rfl, hnumbered⟩ := nat?_eq_some hversion
  obtain ⟨rfl, hfew⟩ := nat?_eq_some hcount
  obtain ⟨entries, rest, rfl, hall, rfl⟩ := entries?_eq_some hentries
  refine ⟨entries, hnumbered, ⟨hfew, hall⟩, rest, ?_⟩
  simp only [layout, List.append_assoc]

/-! ## Loading -/

theorem load_of_holds {s : List UInt8} {version : Nat} {entries : List (String × CachedBody)}
    (h : Holds s version entries) (held : Cache) :
    load s held =
      if version = currentVersion then (.ok (Dict.ofList entries).length, Dict.ofList entries)
      else (.error (.snapshotVersion version currentVersion), held) := by
  rw [load, decode, parts?_of_holds h]
  by_cases hversion : version = currentVersion
  · simp [hversion]
  · simp [hversion]

theorem load_of_not_holds {s : List UInt8} (h : ∀ version entries, ¬Holds s version entries)
    (held : Cache) : load s held = (.error .snapshot, held) := by
  have hnone : parts? s = none := by
    cases hparts : parts? s with
    | none => rfl
    | some found =>
      obtain ⟨entries, hholds⟩ := exists_holds_of_parts? hparts
      exact absurd hholds (h _ _)
  rw [load, decode, hnone]

/-- The snapshot of a cache, with its entries in any order. -/
theorem load_layout {cache : Cache} {entries : List (String × CachedBody)}
    (hordered : Dict.Ordered cache)
    (hfits : Fits cache) (hperm : entries.Perm cache) (held : Cache) :
    load (layout currentVersion entries) held = (.ok cache.length, cache) := by
  have hholds : Holds (layout currentVersion entries) currentVersion entries :=
    ⟨by decide, hfits.perm hperm, [], (List.append_nil _).symm⟩
  rw [load_of_holds hholds, if_pos rfl, Dict.ofList_of_perm hordered hperm]

/-- What was saved is loaded whatever the cache held before, and octets of any kind replace all
entries by those of a snapshot of the current version, or fail and replace none. -/
theorem load_replaces_all_or_none :
    (∀ cache held, Dict.Ordered cache → Fits cache →
      load (encode cache) held = (.ok cache.length, cache) ∧
      ∀ entries, entries.Perm cache →
        load (layout currentVersion entries) held = (.ok cache.length, cache)) ∧
    ∀ s held,
      (∀ version entries, Holds s version entries →
        load s held =
          if version = currentVersion then (.ok (Dict.ofList entries).length, Dict.ofList entries)
          else (.error (.snapshotVersion version currentVersion), held)) ∧
      ((∀ version entries, ¬Holds s version entries) → load s held = (.error .snapshot, held)) := by
  refine ⟨?_, fun s held => ⟨?_, ?_⟩⟩
  · intro cache held hordered hfits
    refine ⟨?_, fun entries hperm => load_layout hordered hfits hperm held⟩
    rw [encode_eq_layout]
    exact load_layout hordered hfits (.refl cache) held
  · intro version entries hholds
    exact load_of_holds hholds held
  · intro hnot
    exact load_of_not_holds hnot held

/-- Two entries, of which one is no JSON and has a time that fits just so. -/
def pair : Cache :=
  [("/a.json", ⟨"π", "d", 0xFFFFFFFFFFFFFFFF⟩), ("/b.json", ⟨"", "", 0⟩)]

theorem pair_fits : Fits pair where
  count := by decide
  entry entry hmem := by
    rcases List.mem_cons.mp hmem with rfl | hmem
    · constructor <;> decide +kernel
    · obtain rfl := List.mem_singleton.mp hmem
      constructor <;> decide +kernel

/-- The entries come back from the other order, and neither the snapshot of another version nor
octets that stop short change what is held. -/
theorem load_replaces_all_or_none_pair :
    Dict.Ordered pair ∧ Fits pair ∧ pair.reverse.Perm pair ∧
      ∀ held, load (layout currentVersion pair.reverse) held = (.ok 2, pair) ∧
        load (layout 2 pair) held = (.error (.snapshotVersion 2 1), held) ∧
        load [1, 0, 0] held = (.error .snapshot, held) := by
  have hordered : Dict.Ordered pair := by
    unfold Dict.Ordered
    decide
  have hother : Holds (layout 2 pair) 2 pair := ⟨by decide, pair_fits, [], (List.append_nil _).symm⟩
  have hshort : ∀ version entries, ¬Holds [1, 0, 0] version entries := by
    intro version entries hholds
    cases parts?_of_holds hholds
  refine ⟨hordered, pair_fits, List.reverse_perm pair, fun held => ⟨?_, ?_, ?_⟩⟩
  · exact (load_replaces_all_or_none.1 pair held hordered pair_fits).2 _ (List.reverse_perm pair)
  · exact (load_replaces_all_or_none.2 _ held).1 2 pair hother
  · exact (load_replaces_all_or_none.2 _ held).2 hshort

end Compendium.Snapshot
