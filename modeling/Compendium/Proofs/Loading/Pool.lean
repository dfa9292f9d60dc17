import Compendium.Proofs.Loading.Mirror

/-!
# Loading programs that share a cache

A pool performs loading programs side by side. A step performs the next request of any pending
program, at any time, or joins the value of any program that has ended; the steps of the programs
interleave in any order. The values are joined in the order in which that happens, each with the
place of its program, and are put into the order of the places at the end.

The law is that the values joined and the values that the pending programs lead to are together a
permutation of the programs' direct values, after every step. It holds for transparent programs on a
mirror of the source, which the requests of all programs keep one. Steps run out, so that every
schedule ends with the direct values in the order of the programs.
-/

namespace Compendium

namespace Loading

variable {α : Type} {source : String → Response}

/-! ## How many requests a program can make -/

/-- A bound on the requests of a program that finds in the cache nothing but what the source
answers. -/
def size (source : String → Response) : Loading α → Nat
  | done _ => 0
  | lookup path next =>
    1 + max (size source (next none)) (size source (next (some (source path).body)))
  | fetch path next => 1 + size source (next (source path))
  | keep _ _ next => 1 + size source next

/-- Every request leaves less to do. -/
theorem size_request (hsource : NormalSource source) (now : Nat) {program rest : Loading α}
    {cache after : Cache} (hcache : cache.Mirrors source)
    (h : program.request source now cache = some (rest, after)) :
    rest.size source < program.size source := by
  cases program with
  | done a => cases h
  | lookup path next =>
    cases h
    rw [size]
    cases hkept : cache.lookup path with
    | none =>
      rw [Option.map_none]
      omega
    | some kept =>
      rw [Option.map_some, (hcache.lookup hsource hkept).2]
      omega
  | fetch path next =>
    cases h
    rw [size]
    omega
  | keep path body next =>
    cases h
    rw [size]
    omega

/-! ## Pools -/

/-- Programs with their places that share a cache, and the values of those that have ended. -/
structure Pool (α : Type) where
  cache : Cache
  pending : List (Loading α × Nat)
  joined : List (α × Nat)

namespace Pool

/-- All programs pending, each at its place. -/
def start (cache : Cache) (programs : List (Loading α)) : Pool α :=
  ⟨cache, programs.zipIdx, []⟩

/-- The joined values in the order of their places. -/
def results (pool : Pool α) : List α :=
  (pool.joined.mergeSort fun a b => decide (a.2 ≤ b.2)).map Prod.fst

/-- One request of one program, or the end of one. -/
inductive Step (source : String → Response) : Pool α → Pool α → Prop where
  | request (now : Nat) {cache after : Cache} {program rest : Loading α} (place : Nat)
      (before behind : List (Loading α × Nat)) (joined : List (α × Nat))
      (h : program.request source now cache = some (rest, after)) :
      Step source ⟨cache, before ++ (program, place) :: behind, joined⟩
        ⟨after, before ++ (rest, place) :: behind, joined⟩
  | join (cache : Cache) (value : α) (place : Nat) (before behind : List (Loading α × Nat))
      (joined : List (α × Nat)) :
      Step source ⟨cache, before ++ (done value, place) :: behind, joined⟩
        ⟨cache, before ++ behind, joined ++ [(value, place)]⟩

/-- A number of steps. -/
inductive Run (source : String → Response) : Nat → Pool α → Pool α → Prop where
  | here (pool : Pool α) : Run source 0 pool pool
  | step {n : Nat} {pool next final : Pool α} (first : Step source pool next)
      (rest : Run source n next final) : Run source (n + 1) pool final

/-- Some program can always go on until all have ended. -/
theorem exists_step (pool : Pool α) (h : pool.pending ≠ []) : ∃ next, Step source pool next := by
  obtain ⟨cache, pending, joined⟩ := pool
  cases pending with
  | nil => exact absurd rfl h
  | cons task behind =>
    obtain ⟨program, place⟩ := task
    cases program with
    | done value => exact ⟨_, .join cache value place [] behind joined⟩
    | lookup path next | fetch path next | keep path body next =>
      exact ⟨_, .request 0 place [] behind joined rfl⟩

/-- The value that a pending program leads to, at its place. -/
def outcome (source : String → Response) : Loading α × Nat → α × Nat :=
  Prod.map (direct source) id

/-- The cache is a mirror, and the values joined or pending are the given ones, each at its
place. -/
structure Faithful (source : String → Response) (values : List α) (pool : Pool α) : Prop where
  mirrors : pool.cache.Mirrors source
  transparent : ∀ task ∈ pool.pending, Transparent source task.1
  complete : (pool.joined ++ pool.pending.map (outcome source)).Perm values.zipIdx

/-- A bound on the steps of pending programs: their requests, and the end of each. -/
def stepsLeft (source : String → Response) : List (Loading α × Nat) → Nat
  | [] => 0
  | (program, _) :: rest => program.size source + 1 + stepsLeft source rest

theorem stepsLeft_append (before behind : List (Loading α × Nat)) :
    stepsLeft source (before ++ behind) = stepsLeft source before + stepsLeft source behind := by
  induction before with
  | nil => simp [stepsLeft]
  | cons task rest ih =>
    rw [List.cons_append, stepsLeft, stepsLeft, ih]
    omega

variable {values : List α} {pool next final : Pool α}

/-- A pool is faithful at the start. -/
theorem start_faithful {cache : Cache} {programs : List (Loading α)} (hcache : cache.Mirrors source)
    (h : ∀ program ∈ programs, Transparent source program) :
    Faithful source (programs.map (direct source)) (start cache programs) := by
  refine ⟨hcache, ?_, ?_⟩
  · intro task htask
    exact h task.1 (List.fst_mem_of_mem_zipIdx htask)
  · rw [List.zipIdx_map]
    exact List.Perm.refl _

/-- One step of any program keeps the pool faithful. -/
theorem Faithful.step (hsource : NormalSource source) (h : Faithful source values pool)
    (hstep : Step source pool next) : Faithful source values next := by
  obtain ⟨hcache, htransparent, hcomplete⟩ := h
  cases hstep with
  | request now place before behind joined hrequest =>
    have hprogram := htransparent _ (List.mem_append_right before List.mem_cons_self)
    obtain ⟨hrest, hvalue, hafter⟩ := hprogram.request hsource now hcache hrequest
    refine ⟨hafter, ?_, ?_⟩
    · intro task htask
      rcases List.mem_append.mp htask with hbefore | hbehind
      · exact htransparent task (List.mem_append_left _ hbefore)
      · rcases List.mem_cons.mp hbehind with rfl | hbehind
        · exact hrest
        · exact htransparent task (List.mem_append_right before (List.mem_cons_of_mem _ hbehind))
    · rw [List.map_append, List.map_cons, outcome, Prod.map_apply, hvalue]
      rw [List.map_append, List.map_cons, outcome, Prod.map_apply] at hcomplete
      exact hcomplete
  | join cache value place before behind joined =>
    refine ⟨hcache, ?_, ?_⟩
    · intro task htask
      rcases List.mem_append.mp htask with hbefore | hbehind
      · exact htransparent task (List.mem_append_left _ hbefore)
      · exact htransparent task (List.mem_append_right before (List.mem_cons_of_mem _ hbehind))
    · -- the value moves from the pending ones to the joined ones
      refine List.Perm.trans ?_ hcomplete
      rw [List.map_append, List.map_append, List.map_cons, List.append_assoc, List.singleton_append]
      exact List.Perm.append_left joined List.perm_middle.symm

/-- One step of any program leaves fewer steps. -/
theorem Faithful.stepsLeft_lt (hsource : NormalSource source) (h : Faithful source values pool)
    (hstep : Step source pool next) :
    stepsLeft source next.pending < stepsLeft source pool.pending := by
  cases hstep with
  | request now place before behind joined hrequest =>
    have hless := size_request hsource now h.mirrors hrequest
    rw [stepsLeft_append, stepsLeft_append, stepsLeft, stepsLeft]
    omega
  | join cache value place before behind joined =>
    rw [stepsLeft_append, stepsLeft_append, stepsLeft]
    omega

/-- A run keeps the pool faithful and takes no more steps than are left. -/
theorem Faithful.run (hsource : NormalSource source) {n : Nat} (h : Faithful source values pool)
    (hrun : Run source n pool final) :
    Faithful source values final ∧
      n + stepsLeft source final.pending ≤ stepsLeft source pool.pending := by
  induction hrun with
  | here pool =>
    refine ⟨h, ?_⟩
    omega
  | step first rest ih =>
    obtain ⟨hfinal, hbound⟩ := ih (h.step hsource first)
    have hless := h.stepsLeft_lt hsource first
    refine ⟨hfinal, ?_⟩
    omega

theorem eq_of_place_eq {a b : α × Nat} (ha : a ∈ values.zipIdx) (hb : b ∈ values.zipIdx)
    (h : a.2 = b.2) : a = b := by
  obtain ⟨x, i⟩ := a
  obtain ⟨y, j⟩ := b
  obtain rfl : i = j := h
  rw [List.mk_mem_zipIdx_iff_getElem?] at ha hb
  rw [Option.some.inj (ha.symm.trans hb)]

/-- Sorting by place undoes the order in which programs finished. -/
theorem mergeSort_of_perm_zipIdx {joined : List (α × Nat)} (h : joined.Perm values.zipIdx) :
    joined.mergeSort (fun a b => decide (a.2 ≤ b.2)) = values.zipIdx := by
  have hperm := (List.mergeSort_perm joined fun a b => decide (a.2 ≤ b.2)).trans h
  have hsorted : (joined.mergeSort fun a b => decide (a.2 ≤ b.2)).Pairwise
      fun a b => decide (a.2 ≤ b.2) = true := by
    apply List.pairwise_mergeSort
    · intro a b c hab hbc
      simp only [decide_eq_true_eq] at hab hbc ⊢
      omega
    · intro a b
      simp only [Bool.or_eq_true, decide_eq_true_eq]
      omega
  have hplaces : values.zipIdx.Pairwise fun a b => decide (a.2 ≤ b.2) = true := by
    have hrange : (values.zipIdx.map Prod.snd).Pairwise (· < ·) := by
      rw [List.zipIdx_map_snd]
      exact List.pairwise_lt_range' 1
    refine (List.pairwise_map.mp hrange).imp fun hlt => ?_
    simp only [decide_eq_true_eq]
    omega
  refine hperm.eq_of_pairwise ?_ hsorted hplaces
  intro a b ha hb hab hba
  simp only [decide_eq_true_eq] at hab hba
  exact eq_of_place_eq (hperm.mem_iff.mp ha) hb (by omega)

/-- Once all programs have ended, the places tell the values apart and put them into order. -/
theorem Faithful.results (h : Faithful source values pool) (hdone : pool.pending = []) :
    pool.results = values := by
  have hcomplete := h.complete
  rw [hdone, List.map_nil, List.append_nil] at hcomplete
  rw [Pool.results, mergeSort_of_perm_zipIdx hcomplete, List.zipIdx_map_fst]

end Pool

end Loading

end Compendium
