import Mathlib.Data.List.Perm.Subperm
import PgShard.Session

/-!
# Backends sharing the metadata tables

Every backend of a database keeps its own `ShardIntervalListCache`, and all of them share the
metadata tables. The model has no transactions: each call is a statement of its own
(`Session.step`), and other writers, such as CitusDB's own functions, commit rows as statements of
their own. The tables only grow: `InsertPartitionRow` appends a row, `InsertShardRow` ends the
backend before it writes one, and no function of the sources deletes from `pg_dist_partition` or
`pg_dist_shard`. A crash ends every backend, and the backends that start after it have empty
caches.

Whatever the other backends and writers do, each backend's cache is the memo of its own lookups
since the last crash, each on the tables as they were then (`Cluster.run_lookup_memo`): a lookup
answers the list of the backend's earliest such lookup of the table whose load was non-empty. So a
cache can fall behind the tables: a shard committed after the entry was filled is not in the list
the lookup answers. It is never wrong in any other way. Every entry of every cache is the load of
its table at tables the shared tables have since grown from (`Cluster.cachesLoaded_apply`), and on
tables that grew, a load that succeeded before reads the same rows first and loads them as before
(`loadShardIntervalList_grows`). So in every state the backends reach, a backend's
`LookupShardIntervalList(t)` answers a sub-multiset of what its `LoadShardIntervalList(t)` answers
at that moment, and raises only with the error the load raises (`Cluster.lookup_agrees_load`).

The relation index returns a table's rows in an order of its own. In the model, heap order, the
fresh load even starts with the cached list; the statement keeps to what holds in any order.
-/

set_option autoImplicit false

namespace PgShard

/-- The tables `grown` are the tables `catalog` with rows appended to each. -/
def Catalog.Grows (catalog grown : Catalog) : Prop :=
  ∃ partitions shards placements, grown =
    ⟨catalog.partitions ++ partitions, catalog.shards ++ shards, catalog.placements ++ placements⟩

theorem Catalog.grows_refl (catalog : Catalog) : catalog.Grows catalog :=
  ⟨[], [], [], by simp⟩

theorem Catalog.Grows.trans {catalog grown grown' : Catalog} (first : catalog.Grows grown)
    (second : grown.Grows grown') : catalog.Grows grown' := by
  obtain ⟨partitions, shards, placements, rfl⟩ := first
  obtain ⟨partitions', shards', placements', rfl⟩ := second
  exact ⟨partitions ++ partitions', shards ++ shards', placements ++ placements', by simp⟩

/-! ## Loads on tables that grew -/

section Grows

variable (env : Env)

theorem intervalType_append {partitions : List HeapTuple} {t : Oid} {typed : Oid × BitVec 32}
    (resolved : intervalType env partitions t = .ok typed) (rows : List HeapTuple) :
    intervalType env (partitions ++ rows) t = .ok typed := by
  cases found : partitionRow env partitions t with
  | none => simp [intervalType, partitionType, found] at resolved
  | some row =>
      have first : partitionRow env (partitions ++ rows) t = some row := by
        unfold partitionRow at found ⊢
        rw [List.find?_append, found]
        rfl
      rw [← resolved]
      simp only [intervalType, partitionType, partitionColumn, first, found]

theorem loadShardIntervalRow_append {shards : List HeapTuple} {shardId : BitVec 64}
    {read : Oid × String × String} (ok : loadShardIntervalRow shards shardId = .ok read)
    (rows : List HeapTuple) :
    loadShardIntervalRow (shards ++ rows) shardId = .ok read := by
  unfold loadShardIntervalRow int8IndexScan at ok ⊢
  rw [List.filter_append, List.head?_append]
  cases found : (shards.filter (int8KeyMatches attrNumShardId shardId)).head? with
  | none => simp [found] at ok
  | some heapTuple => simpa [found] using ok

theorem loadShardInterval_grows {catalog grown : Catalog} (grows : catalog.Grows grown)
    {shardId : BitVec 64} {shardInterval : ShardInterval}
    (ok : loadShardInterval env catalog shardId = .ok shardInterval) :
    loadShardInterval env grown shardId = .ok shardInterval := by
  obtain ⟨partitions, shards, placements, rfl⟩ := grows
  simp only [loadShardInterval, shardIntervalFromRow, except_bind_eq_ok] at ok
  obtain ⟨⟨relationId, minValue, maxValue⟩, read, typed, resolved, converted⟩ := ok
  simp only [loadShardInterval, loadShardIntervalRow_append read, except_ok_bind,
    shardIntervalFromRow, intervalType_append env resolved]
  simpa only [except_bind_eq_ok] using converted

/-- On tables that grew, `LoadShardIntervalList(t)` reads the rows it read before first and loads
them as before: a list it answered before starts whatever it answers now. -/
theorem loadShardIntervalList_grows {catalog grown : Catalog} (grows : catalog.Grows grown)
    {t : Oid} {shardIntervalList fresh : List ShardInterval}
    (ok : loadShardIntervalList env catalog t = .ok shardIntervalList)
    (loaded : loadShardIntervalList env grown t = .ok fresh) : shardIntervalList <+: fresh := by
  have before : (oidIndexScan catalog.shards attrNumShardRelationId t).mapM
      (fun heapTuple => loadShardInterval env grown (tupleShardId heapTuple)) =
        .ok shardIntervalList := by
    rw [loadShardIntervalList, mapM_eq_ok] at ok
    rw [mapM_eq_ok]
    exact ok.imp fun _ _ read => loadShardInterval_grows env grows read
  obtain ⟨partitions, shards, placements, rfl⟩ := grows
  simp only [loadShardIntervalList, oidIndexScan, List.filter_append, List.mapM_append] at loaded
  rw [← oidIndexScan, before, except_ok_bind, except_bind_eq_ok] at loaded
  obtain ⟨more, -, appended⟩ := loaded
  exact ⟨more, Except.ok.inj appended⟩

end Grows

/-! ## What one call does to the tables and the cache -/

theorem lookupShardIntervalList_entry (env : Env) (catalog : Catalog) (t : Oid)
    (cache : List ShardIntervalListCacheEntry) {entry : ShardIntervalListCacheEntry}
    (mem : entry ∈ resultState (lookupShardIntervalList env catalog t cache)) :
    entry ∈ cache ∨ (entry.distributedTableId = t ∧
      loadShardIntervalList env catalog t = .ok entry.shardIntervalList) := by
  unfold lookupShardIntervalList at mem
  split at mem
  · exact .inl mem
  · split at mem
    · exact .inl mem
    · exact .inl mem
    · next loadedIntervalList _ loaded =>
        rcases List.mem_append.mp mem with old | added
        · exact .inl old
        · rw [List.mem_singleton.mp added]
          exact .inr ⟨rfl, loaded⟩

theorem lookupShardIntervalList_absent (env : Env) (catalog : Catalog) {t : Oid}
    {cache : List ShardIntervalListCacheEntry}
    (absent : cache.find? (·.distributedTableId = t) = none) :
    resultValue (lookupShardIntervalList env catalog t cache) =
      loadShardIntervalList env catalog t := by
  unfold lookupShardIntervalList
  simp only [absent]
  split <;> simp_all

theorem Session.step_grows (env : Env) (session : Session) (call : Call) :
    session.catalog.Grows (session.step env call).2.catalog := by
  cases call with
  | insertPartitionRow t m n =>
      simp only [Session.step, insertPartitionRow_eq]
      cases partitionKeyDatum env t n with
      | error e => exact Catalog.grows_refl _
      | ok key => exact ⟨[partitionTuple env t m key], [], [], by simp⟩
  | insertShardRow args =>
      simp only [Session.step, insertShardRow_crash]
      exact Catalog.grows_refl _
  | loadShardIntervalList t => exact Catalog.grows_refl _
  | lookupShardIntervalList t => exact Catalog.grows_refl _

theorem Session.step_cache_entry (env : Env) (session : Session) (call : Call)
    {entry : ShardIntervalListCacheEntry} (mem : entry ∈ (session.step env call).2.cache) :
    entry ∈ session.cache ∨ loadShardIntervalList env session.catalog entry.distributedTableId =
      .ok entry.shardIntervalList := by
  cases call with
  | insertPartitionRow | insertShardRow =>
      simp only [Session.step] at mem
      split at mem <;> exact .inl mem
  | loadShardIntervalList => exact .inl mem
  | lookupShardIntervalList t =>
      exact (lookupShardIntervalList_entry env session.catalog t session.cache mem).imp_right
        fun ⟨key, loaded⟩ => key ▸ loaded

/-! ## The backends -/

/-- The backends of one database: the metadata tables they share, and the `ShardIntervalListCache`
of each backend, by number. -/
structure Cluster where
  catalog : Catalog
  caches : Nat → List ShardIntervalListCacheEntry

/-- Backend `backend` makes one call, as a statement of its own, on the shared tables and its own
cache. A crash ends every backend: the caches of the backends after it are empty. -/
def Cluster.step (env : Env) (cluster : Cluster) (backend : Nat) (call : Call) :
    Except Fault (List ShardInterval) × Cluster :=
  let stepped := Session.step env ⟨cluster.catalog, cluster.caches backend⟩ call
  (stepped.1, ⟨stepped.2.catalog, if crashed stepped.1 then fun _ => []
    else Function.update cluster.caches backend stepped.2.cache⟩)

/-- Another writer commits rows to the shared tables. -/
def Cluster.commit (cluster : Cluster) (rows : Catalog) : Cluster :=
  { cluster with catalog := cluster.catalog.append rows }

/-- What reaches the shared tables and the caches: a backend's call, or another writer's commit. -/
inductive ClusterEvent where
  | call (backend : Nat) (call : Call)
  | commit (rows : Catalog)

def Cluster.apply (env : Env) (cluster : Cluster) : ClusterEvent → Cluster
  | .call backend call => (cluster.step env backend call).2
  | .commit rows => cluster.commit rows

/-- The events in the order they run. -/
def Cluster.run (env : Env) (cluster : Cluster) (events : List ClusterEvent) : Cluster :=
  events.foldl (Cluster.apply env) cluster

/-- The states the backends reach from the tables `catalog` and empty caches, by events in any
order. -/
def Cluster.Reachable (env : Env) (catalog : Catalog) (cluster : Cluster) : Prop :=
  ∃ events, cluster = Cluster.run env ⟨catalog, fun _ => []⟩ events

@[simp] theorem Cluster.step_outcome (env : Env) (cluster : Cluster) (backend : Nat)
    (call : Call) :
    (cluster.step env backend call).1 =
      (Session.step env ⟨cluster.catalog, cluster.caches backend⟩ call).1 := rfl

@[simp] theorem Cluster.step_catalog (env : Env) (cluster : Cluster) (backend : Nat)
    (call : Call) :
    (cluster.step env backend call).2.catalog =
      (Session.step env ⟨cluster.catalog, cluster.caches backend⟩ call).2.catalog := rfl

/-! ## Each backend's cache is the memo of its own lookups -/

/-- A backend's history after a call: emptied by a crash, and otherwise extended by the call's
lookup when the call is the backend's. -/
def Cluster.historyAfter (cluster : Cluster) (backend caller : Nat) (call : Call)
    (outcome : Except Fault (List ShardInterval)) (past : List (Catalog × Oid)) :
    List (Catalog × Oid) :=
  if crashed outcome then []
  else past ++ if caller = backend then (call.lookup cluster.catalog).toList else []

/-- One backend's lookups since the last crash, each with the tables it saw then: the history of
its cache. -/
def Cluster.lookups (env : Env) (backend : Nat) :
    List (Catalog × Oid) → Cluster → List ClusterEvent → List (Catalog × Oid)
  | past, _, [] => past
  | past, cluster, .call caller call :: events =>
      Cluster.lookups env backend
        (cluster.historyAfter backend caller call (cluster.step env caller call).1 past)
        (cluster.step env caller call).2 events
  | past, cluster, .commit rows :: events =>
      Cluster.lookups env backend past (cluster.commit rows) events

theorem Session.step_cacheAfter (env : Env) (session : Session) {past : List (Catalog × Oid)}
    (cached : session.cache = cacheAfter env past) (call : Call) :
    (session.step env call).2.cache =
      cacheAfter env (past ++ (call.lookup session.catalog).toList) := by
  refine ((Session.machine env).step_cache cached call).trans ?_
  cases looked : call.lookup session.catalog <;>
    simp [CacheMachine.lookups, Session.machine, looked]

theorem Cluster.step_caches {env : Env} {cluster : Cluster} {backend : Nat}
    {past : List (Catalog × Oid)} (cached : cluster.caches backend = cacheAfter env past)
    (caller : Nat) (call : Call) :
    (cluster.step env caller call).2.caches backend = cacheAfter env
      (cluster.historyAfter backend caller call (cluster.step env caller call).1 past) := by
  unfold Cluster.step Cluster.historyAfter
  dsimp only
  cases crashed (Session.step env ⟨cluster.catalog, cluster.caches caller⟩ call).1
  · by_cases same : caller = backend
    · subst same
      simpa using Session.step_cacheAfter env ⟨cluster.catalog, cluster.caches caller⟩ cached call
    · simpa [Function.update_noteq (Ne.symm same), same] using cached
  · rfl

theorem Cluster.run_caches {env : Env} (events : List ClusterEvent) {cluster : Cluster}
    {backend : Nat} (past : List (Catalog × Oid))
    (cached : cluster.caches backend = cacheAfter env past) :
    (cluster.run env events).caches backend =
      cacheAfter env (Cluster.lookups env backend past cluster events) := by
  induction events generalizing cluster past with
  | nil => exact cached
  | cons event events ih =>
      cases event with
      | call caller call => exact ih _ (Cluster.step_caches cached caller call)
      | commit rows => exact ih past cached

/-- In every order of the backends' calls and other writers' commits, from any tables and empty
caches, each backend's `LookupShardIntervalList(t)` answers as the memo of its own lookups since
the last crash: the list of its earliest such lookup of `t` whose load was non-empty, on the
tables as they were then, whatever has been committed since; and without one, the load of the
tables as they are now. -/
theorem Cluster.run_lookup_memo (env : Env) (catalog : Catalog) (events : List ClusterEvent)
    (backend : Nat) (t : Oid) :
    let start : Cluster := ⟨catalog, fun _ => []⟩
    let cluster := start.run env events
    (cluster.step env backend (.lookupShardIntervalList t)).1 =
      memoLookup env (Cluster.lookups env backend [] start events) cluster.catalog t := by
  intro start cluster
  have cached : cluster.caches backend = cacheAfter env (Cluster.lookups env backend [] start events) :=
    Cluster.run_caches events [] rfl
  show resultValue (lookupShardIntervalList env cluster.catalog t (cluster.caches backend)) = _
  rw [cached]
  exact lookupShardIntervalList_cacheAfter env _ _ t

/-! ## Caches against fresh loads -/

/-- Every entry of every backend's cache is the load of its table at tables the shared tables
have grown from. -/
def Cluster.CachesLoaded (env : Env) (cluster : Cluster) : Prop :=
  ∀ backend, ∀ entry ∈ cluster.caches backend, ∃ loaded : Catalog,
    loaded.Grows cluster.catalog ∧
      loadShardIntervalList env loaded entry.distributedTableId = .ok entry.shardIntervalList

theorem Cluster.cachesLoaded_step {env : Env} {cluster : Cluster}
    (invariant : cluster.CachesLoaded env) (backend : Nat) (call : Call) :
    (cluster.step env backend call).2.CachesLoaded env := by
  have grows := Session.step_grows env ⟨cluster.catalog, cluster.caches backend⟩ call
  intro other entry mem
  rw [Cluster.step_catalog]
  suffices kept : entry ∈ cluster.caches other ∨ loadShardIntervalList env cluster.catalog
      entry.distributedTableId = .ok entry.shardIntervalList by
    rcases kept with old | added
    · obtain ⟨loaded, before, load⟩ := invariant other entry old
      exact ⟨loaded, before.trans grows, load⟩
    · exact ⟨cluster.catalog, grows, added⟩
  unfold Cluster.step at mem
  dsimp only at mem
  split at mem
  · cases mem
  · by_cases same : other = backend
    · subst same
      simp only [Function.update_same] at mem
      exact Session.step_cache_entry env _ call mem
    · simp only [Function.update_noteq same] at mem
      exact .inl mem

theorem Cluster.cachesLoaded_apply {env : Env} {cluster : Cluster}
    (invariant : cluster.CachesLoaded env) : ∀ event, (cluster.apply env event).CachesLoaded env
  | .call backend call => Cluster.cachesLoaded_step invariant backend call
  | .commit rows => fun backend entry mem =>
      let ⟨loaded, grows, load⟩ := invariant backend entry mem
      ⟨loaded, grows.trans ⟨rows.partitions, rows.shards, rows.placements, rfl⟩, load⟩

theorem Cluster.run_cachesLoaded {env : Env} (events : List ClusterEvent) {cluster : Cluster}
    (invariant : cluster.CachesLoaded env) : (cluster.run env events).CachesLoaded env := by
  induction events generalizing cluster with
  | nil => exact invariant
  | cons event events ih => exact ih (Cluster.cachesLoaded_apply invariant event)

theorem Cluster.Reachable.cachesLoaded {env : Env} {catalog : Catalog} {cluster : Cluster}
    (reachable : Cluster.Reachable env catalog cluster) : cluster.CachesLoaded env := by
  obtain ⟨events, rfl⟩ := reachable
  exact Cluster.run_cachesLoaded events fun _ _ mem => by cases mem

/-- In every state the backends reach, by statements in any order (there are no transactions),
other writers' commits and crashes included, a backend's `LookupShardIntervalList(t)` answers a
sub-multiset of what its `LoadShardIntervalList(t)` answers at that moment, when that load
succeeds: no shard that is not in the table, and none twice; and the lookup raises only with the
error the load raises. -/
theorem Cluster.lookup_agrees_load {env : Env} {catalog : Catalog} {cluster : Cluster}
    (reachable : Cluster.Reachable env catalog cluster) (backend : Nat) (t : Oid) :
    (∀ cached fresh, (cluster.step env backend (.lookupShardIntervalList t)).1 = .ok cached →
      (cluster.step env backend (.loadShardIntervalList t)).1 = .ok fresh →
      List.Subperm cached fresh) ∧
    ∀ e, (cluster.step env backend (.lookupShardIntervalList t)).1 = .error e →
      (cluster.step env backend (.loadShardIntervalList t)).1 = .error e := by
  have invariant := reachable.cachesLoaded backend
  simp only [Cluster.step_outcome, Session.step]
  cases found : (cluster.caches backend).find? (·.distributedTableId = t) with
  | none =>
      rw [lookupShardIntervalList_absent env cluster.catalog found]
      refine ⟨fun cached fresh answered current => ?_, fun _ raised => raised⟩
      rw [answered] at current
      cases current
      exact List.Subperm.refl _
  | some entry =>
      have key : entry.distributedTableId = t := by simpa using List.find?_some found
      obtain ⟨loaded, grows, load⟩ := invariant entry (List.mem_of_find?_eq_some found)
      simp only [lookupShardIntervalList, found, resultValue_ok]
      refine ⟨fun cached fresh answered current => ?_, fun e raised => by cases raised⟩
      cases answered
      exact (loadShardIntervalList_grows env grows (key ▸ load) current).sublist.subperm

/-- Another writer commits shard 1 of `customer`, backend 0 fills its entry, and shard 2 is then
committed: backend 0 still answers shard 1 alone, where a load reads both. -/
theorem Cluster.lookup_agrees_load_customer :
    let shard1 : ShardInterval := ⟨1, 16384, .word 1, .word 10, int4Oid⟩
    let shard2 : ShardInterval := ⟨2, 16384, .word 11, .word 20, int4Oid⟩
    let cluster := Cluster.run sampleEnv ⟨customerCatalog, fun _ => []⟩
      [.commit ⟨[], [citusShardRow 16384 1 "1" "10"], []⟩,
        .call 0 (.lookupShardIntervalList 16384),
        .commit ⟨[], [citusShardRow 16384 2 "11" "20"], []⟩]
    Cluster.Reachable sampleEnv customerCatalog cluster ∧
      (cluster.step sampleEnv 0 (.lookupShardIntervalList 16384)).1 = .ok [shard1] ∧
      (cluster.step sampleEnv 0 (.loadShardIntervalList 16384)).1 = .ok [shard1, shard2] ∧
      List.Subperm [shard1] [shard1, shard2] := by
  intro shard1 shard2 cluster
  have reachable : Cluster.Reachable sampleEnv customerCatalog cluster := ⟨_, rfl⟩
  have answered : (cluster.step sampleEnv 0 (.lookupShardIntervalList 16384)).1 = .ok [shard1] :=
    rfl
  have loaded :
      (cluster.step sampleEnv 0 (.loadShardIntervalList 16384)).1 = .ok [shard1, shard2] := rfl
  exact ⟨reachable, answered, loaded,
    (Cluster.lookup_agrees_load reachable 0 16384).1 _ _ answered loaded⟩

end PgShard
