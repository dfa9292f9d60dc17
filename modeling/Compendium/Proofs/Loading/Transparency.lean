import Compendium.Loading.Document
import Compendium.Proofs.Loading.Mirror
import Compendium.Search

/-!
# Loading does not show whether the cache is used

Two loading programs are alike for a source if both are transparent and have the same value. Every
loading program is alike under settings that have the same `Settings.content`: apart from whether
bodies are looked up and kept, loading reads nothing else.

The steps of a program are compared one by one: where both programs go on after programs that are
alike, only what follows the common value matters.
-/

namespace Compendium

namespace Loading

variable {α β : Type} {source : String → Response}

/-- Both programs are transparent for the source, with the same value. -/
structure Alike (source : String → Response) (p q : Loading α) : Prop where
  left : Transparent source p
  right : Transparent source q
  value : p.direct source = q.direct source

theorem alike_done (a : α) : Alike source (done a) (done a) :=
  ⟨trivial, trivial, rfl⟩

theorem Transparent.alike {p : Loading α} (h : Transparent source p) : Alike source p p :=
  ⟨h, h, rfl⟩

theorem Alike.bind {p q : Loading α} {next other : α → Loading β} (h : Alike source p q)
    (hnext : Alike source (next (p.direct source)) (other (p.direct source))) :
    Alike source (p >>= next) (q >>= other) := by
  refine ⟨h.left.bind hnext.left, h.right.bind ?_, ?_⟩
  · rw [← h.value]
    exact hnext.right
  · rw [direct_bind, direct_bind, ← h.value]
    exact hnext.value

/-! ## One path -/

/-- The JSON of an answer, or what is wrong with it. -/
def answered (path : String) (r : Response) : Except LoadError Json :=
  if !r.isOk then .error (.status path r.status)
  else if !r.isJson then .error (.notJson path r.contentType)
  else parseBody path r.body

theorem answered_of_isUsable {path : String} {r : Response} (h : r.isUsable = true) :
    answered path r = parseBody path r.body := by
  obtain ⟨hok, hjson⟩ := (Bool.and_eq_true _ _).mp h
  simp [answered, hok, hjson]

theorem received_transparent (source : String → Response) (s : Settings) (path : String) :
    Transparent source (received s path (source path)) ∧
      (received s path (source path)).direct source = answered path (source path) := by
  unfold received answered
  cases hok : (source path).isOk with
  | false => exact ⟨trivial, rfl⟩
  | true =>
    cases hjson : (source path).isJson with
    | false => exact ⟨trivial, rfl⟩
    | true =>
      have husable : (source path).isUsable = true := by
        rw [Response.isUsable, hok, hjson]
        rfl
      cases parseBody path (source path).body with
      | error e => exact ⟨trivial, rfl⟩
      | ok j =>
        cases s.cache.enabled with
        | false => exact ⟨trivial, rfl⟩
        | true => exact ⟨⟨⟨husable, rfl⟩, trivial⟩, rfl⟩

theorem json_transparent (source : String → Response) (s : Settings) (path : String) :
    Transparent source (json s path) ∧
      (json s path).direct source = answered path (source path) := by
  have hfetch := received_transparent source s path
  unfold json
  cases s.cache.enabled with
  | false => exact hfetch
  | true =>
    refine ⟨⟨hfetch.1, fun husable => ⟨trivial, ?_⟩⟩, hfetch.2⟩
    calc parseBody path (source path).body
        = answered path (source path) := (answered_of_isUsable husable).symm
      _ = (received s path (source path)).direct source := hfetch.2.symm

theorem json_alike (s t : Settings) (path : String) : Alike source (json s path) (json t path) := by
  obtain ⟨hs, hsvalue⟩ := json_transparent source s path
  obtain ⟨ht, htvalue⟩ := json_transparent source t path
  exact ⟨hs, ht, hsvalue.trans htvalue.symm⟩

theorem probe_alike (s t : Settings) (paths : List String) :
    Alike source (probe s paths) (probe t paths) := by
  induction paths with
  | nil => exact alike_done _
  | cons path rest ih =>
    refine (json_alike s t path).bind ?_
    split
    · exact alike_done _
    · exact ih.bind (alike_done _)

theorem warmPath_transparent (path : String) : Transparent source (warmPath path) := by
  show Transparent source (if (source path).isUsable then _ else _)
  split
  next husable => exact ⟨⟨husable, rfl⟩, trivial⟩
  next => exact trivial

theorem warmPaths_transparent (paths : List String) : Transparent source (warmPaths paths) := by
  induction paths with
  | nil => exact trivial
  | cons path rest ih =>
    refine (warmPath_transparent path).bind ?_
    exact ih.bind (transparent_pure _)

/-! ## Theories -/

section Theories

variable {s t : Settings} (hcontent : s.content = t.content)

include hcontent

theorem manifest_alike : Alike source (manifest s) (manifest t) := by
  unfold manifest
  rw [hcontent]
  refine (json_alike s t _).bind (Transparent.alike ?_)
  split
  · exact transparent_pure _
  · split
    · exact transparent_pure _
    · exact transparent_pure _

theorem listedFiles_alike (id : String) (files : List ManifestFile) :
    Alike source (listedFiles s id files) (listedFiles t id files) := by
  induction files with
  | nil => exact alike_done _
  | cons file rest ih =>
    simp only [listedFiles, hcontent]
    refine (json_alike s t _).bind ?_
    split
    · exact alike_done _
    · split
      · exact alike_done _
      · refine ih.bind (Transparent.alike ?_)
        split
        · exact transparent_pure _
        · exact transparent_pure _

theorem listedTheory_alike (entry : ManifestEntry) :
    Alike source (listedTheory s entry) (listedTheory t entry) := by
  refine (listedFiles_alike hcontent entry.id entry.files).bind (Transparent.alike ?_)
  split
  · exact transparent_pure _
  · split
    · exact transparent_pure _
    · exact transparent_pure _

theorem probeTheory_alike (id name : String) :
    Alike source (probeTheory s id name) (probeTheory t id name) := by
  simp only [probeTheory, hcontent]
  refine (probe_alike s t _).bind ?_
  exact (probe_alike s t _).bind (alike_done _)

theorem theory_alike (reference : String) :
    Alike source (theory s reference) (theory t reference) := by
  refine (manifest_alike hcontent).bind ?_
  dsimp only
  split
  · exact probeTheory_alike hcontent _ _
  · refine (listedTheory_alike hcontent _).bind ?_
    split
    · exact alike_done _
    · exact probeTheory_alike hcontent _ _

theorem categories_alike : Alike source (categories s) (categories t) := by
  refine (manifest_alike hcontent).bind (Transparent.alike ?_)
  split
  · exact transparent_pure _
  · exact transparent_pure _

theorem inTheories_alike (query : String) (ids : List String) :
    Alike source (Search.inTheories s query ids) (Search.inTheories t query ids) := by
  induction ids with
  | nil => exact alike_done _
  | cons id rest ih =>
    refine (theory_alike hcontent id).bind ?_
    exact ih.bind (alike_done _)

theorem warm_alike : Alike source (warm s) (warm t) := by
  simp only [warm, manifestFiles, hcontent]
  refine (manifest_alike hcontent).bind (Transparent.alike ?_)
  exact warmPaths_transparent _

end Theories

/-! ## Documents -/

theorem documentFrom_alike (s t : Settings) (id : String) (m : Misses) (paths : List String) :
    Alike source (documentFrom s id m paths) (documentFrom t id m paths) := by
  induction paths generalizing m with
  | nil => exact alike_done _
  | cons path rest ih =>
    refine (json_alike s t path).bind ?_
    split
    · exact ih _
    · exact ih _
    · split
      · exact alike_done _
      · exact ih _

theorem document_alike {s t : Settings} (hcontent : s.content = t.content) (id : String) :
    Alike source (document s id) (document t id) := by
  unfold document
  rw [hcontent]
  exact documentFrom_alike s t id _ _

end Loading

end Compendium
