import Mathlib.Data.List.Dedup
import Mathlib.Data.List.Perm.Basic
import PgShard.ShardInterval

/-!
# The shard interval list cache

`LookupShardIntervalList` keeps `ShardIntervalListCache`, a list of entries in backend memory
(`CacheMemoryContext`), and never removes an entry. What the cache is for is a memo: a lookup
answers the list the first non-empty load of its table loaded, whatever the catalog has become
since, and loads afresh while no load of the table has been non-empty (`memoLookup`).

A backend's history is the list of its lookups, each with the catalog it saw. From any history the
cache is the memo of that history (`cacheAfter_invariant`), so each lookup answers as the memo does
(`lookupShardIntervalList_cacheAfter`); an entry's table occurs once, its list is never empty, and
the entries are one per table whose lookup has returned a non-empty list
(`cacheAfter_entries`).
-/

set_option autoImplicit false

namespace PgShard

/-- `LookupShardIntervalList`: the cached list of the table, or else the loaded list, which is
cached when it is not empty. A load that raises leaves the cache as it was. -/
def lookupShardIntervalList (env : Env) (catalog : Catalog) (distributedTableId : Oid) :
    EStateM Fault (List ShardIntervalListCacheEntry) (List ShardInterval) := fun cache =>
  match cache.find? (·.distributedTableId = distributedTableId) with
  | some matchingCacheEntry => .ok matchingCacheEntry.shardIntervalList cache
  | none =>
      match loadShardIntervalList env catalog distributedTableId with
      | .error e => .error e cache
      | .ok [] => .ok [] cache
      | .ok loadedIntervalList =>
          .ok loadedIntervalList (cache ++ [⟨distributedTableId, loadedIntervalList⟩])

section Memo

variable (env : Env)

/-- A load's list when it is not empty. -/
def nonEmptyLoad : Except Fault (List ShardInterval) → Option (List ShardInterval)
  | .ok (shardInterval :: rest) => some (shardInterval :: rest)
  | _ => none

/-- The list the earliest lookup of `t` with a non-empty load loaded, in a history of lookups
each with the catalog it saw. -/
def firstNonEmptyLoad (lookups : List (Catalog × Oid)) (t : Oid) : Option (List ShardInterval) :=
  lookups.findSome? fun (catalog, t') =>
    if t' = t then nonEmptyLoad (loadShardIntervalList env catalog t) else none

/-- The memo a lookup implements. -/
def memoLookup (lookups : List (Catalog × Oid)) (catalog : Catalog) (t : Oid) :
    Except Fault (List ShardInterval) :=
  match firstNonEmptyLoad env lookups t with
  | some shardIntervalList => .ok shardIntervalList
  | none => loadShardIntervalList env catalog t

/-- The cache after a backend's lookups, from the empty cache of a new backend. -/
def cacheAfter (lookups : List (Catalog × Oid)) : List ShardIntervalListCacheEntry :=
  lookups.foldl (fun cache (catalog, t) =>
    resultState (lookupShardIntervalList env catalog t cache))
    []

/-- A cache is the memo of a history: one entry per table, none empty, and each table's entry is
the first non-empty load of the history. -/
structure CacheInvariant (lookups : List (Catalog × Oid))
    (cache : List ShardIntervalListCacheEntry) : Prop where
  keys_nodup : (cache.map (·.distributedTableId)).Nodup
  lists_nonempty : ∀ entry ∈ cache, entry.shardIntervalList ≠ []
  agrees : ∀ t, (cache.find? (·.distributedTableId = t)).map (·.shardIntervalList) =
    firstNonEmptyLoad env lookups t

theorem firstNonEmptyLoad_snoc (lookups : List (Catalog × Oid)) (catalog : Catalog)
    (t t' : Oid) :
    firstNonEmptyLoad env (lookups ++ [(catalog, t)]) t' =
      (firstNonEmptyLoad env lookups t').or
        (if t = t' then nonEmptyLoad (loadShardIntervalList env catalog t') else none) := by
  simp only [firstNonEmptyLoad, List.findSome?_append, List.findSome?_cons, List.findSome?_nil]
  congr 1
  split <;> split_ifs <;> simp_all

theorem firstNonEmptyLoad_append {lookups : List (Catalog × Oid)} {t : Oid}
    {shardIntervalList : List ShardInterval}
    (first : firstNonEmptyLoad env lookups t = some shardIntervalList)
    (later : List (Catalog × Oid)) :
    firstNonEmptyLoad env (lookups ++ later) t = some shardIntervalList := by
  simp only [firstNonEmptyLoad, List.findSome?_append] at first ⊢
  rw [first, Option.or_some]

theorem cacheInvariant_nil : CacheInvariant env [] [] :=
  ⟨List.nodup_nil, by simp, fun _ => rfl⟩

theorem find?_snoc {cache : List ShardIntervalListCacheEntry} {t t' : Oid}
    {shardIntervalList : List ShardInterval}
    (absent : cache.find? (·.distributedTableId = t) = none) :
    (cache ++ [ShardIntervalListCacheEntry.mk t shardIntervalList]).find?
        (·.distributedTableId = t') =
      if t = t' then some ⟨t, shardIntervalList⟩
      else cache.find? (·.distributedTableId = t') := by
  rw [List.find?_append]
  by_cases same : t = t'
  · subst same; simp [absent]
  · cases cache.find? (·.distributedTableId = t') <;> simp [same]

theorem CacheInvariant.snoc_unchanged {lookups : List (Catalog × Oid)}
    {cache : List ShardIntervalListCacheEntry} (invariant : CacheInvariant env lookups cache)
    {catalog : Catalog} {t : Oid}
    (nothing : firstNonEmptyLoad env lookups t = none →
      nonEmptyLoad (loadShardIntervalList env catalog t) = none) :
    CacheInvariant env (lookups ++ [(catalog, t)]) cache := by
  refine ⟨invariant.keys_nodup, invariant.lists_nonempty, fun t' => ?_⟩
  rw [firstNonEmptyLoad_snoc, ← invariant.agrees t']
  by_cases same : t = t'
  · subst same
    cases known : firstNonEmptyLoad env lookups t
    · rw [invariant.agrees t, known, if_pos rfl, nothing known]; rfl
    · rw [invariant.agrees t, known]; rfl
  · simp [same]

/-- One lookup on a cache that is the memo of a history: it answers as the memo does, leaves the
memo of the longer history, and raises only with the cache as it was. -/
theorem lookupShardIntervalList_step {lookups : List (Catalog × Oid)}
    {cache : List ShardIntervalListCacheEntry} (invariant : CacheInvariant env lookups cache)
    (catalog : Catalog) (t : Oid) :
    let result := lookupShardIntervalList env catalog t cache
    resultValue result = memoLookup env lookups catalog t ∧
      CacheInvariant env (lookups ++ [(catalog, t)]) (resultState result) ∧
      ∀ e, resultValue result = .error e → resultState result = cache := by
  have agreesAt := invariant.agrees t
  unfold lookupShardIntervalList
  cases found : cache.find? (·.distributedTableId = t) with
  | some entry =>
      simp only [found, Option.map_some'] at agreesAt
      refine ⟨by simp [memoLookup, ← agreesAt], ?_, by simp⟩
      exact invariant.snoc_unchanged env fun none => by simp [← agreesAt] at none
  | none =>
      simp only [found, Option.map_none'] at agreesAt
      cases loaded : loadShardIntervalList env catalog t with
      | error e =>
          refine ⟨by simp [memoLookup, ← agreesAt, loaded], ?_, by simp⟩
          exact invariant.snoc_unchanged env fun _ => by simp [loaded, nonEmptyLoad]
      | ok loadedIntervalList =>
          cases loadedIntervalList with
          | nil =>
              refine ⟨by simp [memoLookup, ← agreesAt, loaded], ?_, by simp⟩
              exact invariant.snoc_unchanged env fun _ => by simp [loaded, nonEmptyLoad]
          | cons shardInterval rest =>
              have fresh : ∀ entry ∈ cache, entry.distributedTableId ≠ t := by
                simpa using List.find?_eq_none.mp found
              refine ⟨by simp [memoLookup, ← agreesAt, loaded], ⟨?_, ?_, fun t' => ?_⟩,
                by simp⟩
              · simpa [List.nodup_append] using ⟨invariant.keys_nodup, fresh⟩
              · intro entry mem
                rcases List.mem_append.mp mem with cached | added
                · exact invariant.lists_nonempty entry cached
                · simp [List.mem_singleton.mp added]
              · rw [resultState_ok, find?_snoc found, firstNonEmptyLoad_snoc,
                  ← invariant.agrees t']
                by_cases same : t = t'
                · subst same; simp [found, loaded, nonEmptyLoad]
                · simp [same]

theorem cacheAfter_invariant (lookups : List (Catalog × Oid)) :
    CacheInvariant env lookups (cacheAfter env lookups) := by
  induction lookups using List.reverseRecOn with
  | nil => exact cacheInvariant_nil env
  | append_singleton lookups lookup ih =>
      obtain ⟨catalog, t⟩ := lookup
      simpa [cacheAfter, List.foldl_append] using
        (lookupShardIntervalList_step env ih catalog t).2.1

theorem lookupShardIntervalList_cacheAfter (lookups : List (Catalog × Oid)) (catalog : Catalog)
    (t : Oid) :
    resultValue (lookupShardIntervalList env catalog t (cacheAfter env lookups)) =
      memoLookup env lookups catalog t :=
  (lookupShardIntervalList_step env (cacheAfter_invariant env lookups) catalog t).1

/-! ## What the entries are -/

/-- Some lookup of `t` in the history returned a non-empty list. -/
def ReturnedNonEmpty (lookups : List (Catalog × Oid)) (t : Oid) : Prop :=
  ∃ pre catalog post, lookups = pre ++ (catalog, t) :: post ∧
    ∃ shardInterval rest,
      resultValue (lookupShardIntervalList env catalog t (cacheAfter env pre)) =
        .ok (shardInterval :: rest)

theorem nonEmptyLoad_eq_some {loaded : Except Fault (List ShardInterval)}
    {shardIntervalList : List ShardInterval}
    (nonEmpty : nonEmptyLoad loaded = some shardIntervalList) :
    loaded = .ok shardIntervalList ∧ shardIntervalList ≠ [] := by
  unfold nonEmptyLoad at nonEmpty
  split at nonEmpty
  · cases nonEmpty; exact ⟨rfl, List.cons_ne_nil _ _⟩
  · cases nonEmpty

theorem returnedNonEmpty_iff (lookups : List (Catalog × Oid)) (t : Oid) :
    ReturnedNonEmpty env lookups t ↔ (firstNonEmptyLoad env lookups t).isSome := by
  constructor
  · rintro ⟨pre, catalog, post, rfl, shardInterval, rest, returned⟩
    rw [lookupShardIntervalList_cacheAfter, memoLookup] at returned
    have first : firstNonEmptyLoad env (pre ++ [(catalog, t)]) t =
      some (shardInterval :: rest) := by
      rw [firstNonEmptyLoad_snoc]
      split at returned
      · next known => cases returned; simp [known]
      · next known => simp [known, returned, nonEmptyLoad]
    rw [show pre ++ (catalog, t) :: post = pre ++ [(catalog, t)] ++ post by simp,
      firstNonEmptyLoad_append env first post]
    rfl
  · intro known
    obtain ⟨shardIntervalList, first⟩ := Option.isSome_iff_exists.mp known
    obtain ⟨pre, ⟨catalog, t'⟩, post, rfl, found, before⟩ :=
      List.findSome?_eq_some_iff.mp first
    by_cases same : t' = t
    · subst same
      simp only [if_pos rfl] at found
      obtain ⟨loaded, nonEmpty⟩ := nonEmptyLoad_eq_some found
      obtain ⟨shardInterval, rest, rfl⟩ := List.exists_cons_of_ne_nil nonEmpty
      have none : firstNonEmptyLoad env pre t' = none := List.findSome?_eq_none_iff.mpr before
      exact ⟨pre, catalog, post, rfl, shardInterval, rest, by
        rw [lookupShardIntervalList_cacheAfter, memoLookup, none, loaded]⟩
    · simp [same] at found

instance (lookups : List (Catalog × Oid)) : DecidablePred (ReturnedNonEmpty env lookups) :=
  fun t => decidable_of_iff _ (returnedNonEmpty_iff env lookups t).symm

theorem mem_keys_cacheAfter (lookups : List (Catalog × Oid)) (t : Oid) :
    t ∈ (cacheAfter env lookups).map (·.distributedTableId) ↔
      ReturnedNonEmpty env lookups t := by
  rw [returnedNonEmpty_iff, ← (cacheAfter_invariant env lookups).agrees t]
  simp [List.find?_isSome]

/-- Whatever the catalog did between the lookups, and whichever loads raised: the cache has one
entry per table, no entry holds an empty list, and the entries are exactly the distinct tables
whose lookup has returned a non-empty list. -/
theorem cacheAfter_entries (lookups : List (Catalog × Oid)) :
    let cache := cacheAfter env lookups
    (cache.map (·.distributedTableId)).Nodup ∧
      (∀ entry ∈ cache, entry.shardIntervalList ≠ []) ∧
      (∀ t, t ∈ cache.map (·.distributedTableId) ↔ ReturnedNonEmpty env lookups t) ∧
      cache.length =
        ((lookups.map Prod.snd).dedup.filter fun t =>
          decide (ReturnedNonEmpty env lookups t)).length := by
  intro cache
  have invariant := cacheAfter_invariant env lookups
  refine ⟨invariant.keys_nodup, invariant.lists_nonempty, mem_keys_cacheAfter env lookups, ?_⟩
  have tables : ∀ t, ReturnedNonEmpty env lookups t → t ∈ lookups.map Prod.snd := by
    rintro t ⟨pre, catalog, post, rfl, -⟩
    simp
  have same : List.Perm (cache.map (·.distributedTableId))
      ((lookups.map Prod.snd).dedup.filter fun t => decide (ReturnedNonEmpty env lookups t)) := by
    rw [List.perm_ext_iff_of_nodup invariant.keys_nodup ((List.nodup_dedup _).filter _)]
    intro t
    rw [mem_keys_cacheAfter, List.mem_filter, List.mem_dedup, decide_eq_true_iff]
    exact ⟨fun returned => ⟨tables t returned, returned⟩, And.right⟩
  simpa using same.length_eq

end Memo

end PgShard
