import PgShard.Session

/-!
# Transactions

The session with explicit transactions. The rows a backend's open transaction writes are pending
until it commits, and go if it aborts, as an `ereport` in any call makes it do; rows other
backends commit become visible as they commit (`SnapshotSelf`). `ShardIntervalListCache` lives in
`CacheMemoryContext`, outside every transaction, and an abort leaves it as it is.

An abort can only take away rows of the partition table: `InsertShardRow` ends the backend before
it writes a row, so no shard row is ever pending, and the shard rows the backend sees only grow
(`run_shards`). Each interval a lookup answers has a row of its table with its id in the catalog
that the lookup whose load filled the cache saw, and that row is still visible at the lookup
(`txRun_lookupShardIntervalList`). A session whose calls each commit at once is the autocommit
session of `Session` (`txRun_autocommit`).
-/

set_option autoImplicit false

namespace PgShard

/-- A backend inside a transaction: the rows committed transactions wrote, the rows its own
transaction has written, and `ShardIntervalListCache`. -/
structure TxSession where
  committed : Catalog
  pending : Catalog
  cache : List ShardIntervalListCacheEntry
  deriving DecidableEq, Repr

/-- What the backend's snapshot sees: the committed rows and its own transaction's. -/
def TxSession.visible (session : TxSession) : Catalog := session.committed.append session.pending

/-- The events of a session with transactions: a call in the open transaction, its commit or
abort, or another backend's commit of some rows. -/
inductive TxEvent where
  | call (call : Call)
  | commit
  | abort
  | concurrentCommit (rows : Catalog)
  deriving DecidableEq, Repr

/-- The abort of the backend's transaction: its rows go, the cache stays. -/
def TxSession.abort (session : TxSession) : TxSession := { session with pending := Catalog.empty }

/-- One event. A call that raises aborts the transaction. -/
def TxSession.step (env : Env) (session : TxSession) :
    TxEvent → Except Fault (List ShardInterval) × TxSession
  | .call (.insertPartitionRow distributedTableId partitionType partitionKeyText) =>
      match insertPartitionRow env distributedTableId partitionType partitionKeyText
          session.pending with
      | .ok () pending => (.ok [], { session with pending })
      | .error e _ => (.error e, session.abort)
  | .call (.insertShardRow args) =>
      match insertShardRow args session.pending with
      | .ok () pending => (.ok [], { session with pending })
      | .error e _ => (.error e, session.abort)
  | .call (.loadShardIntervalList distributedTableId) =>
      match loadShardIntervalList env session.visible distributedTableId with
      | .ok shardIntervalList => (.ok shardIntervalList, session)
      | .error e => (.error e, session.abort)
  | .call (.lookupShardIntervalList distributedTableId) =>
      match lookupShardIntervalList env session.visible distributedTableId session.cache with
      | .ok shardIntervalList cache => (.ok shardIntervalList, { session with cache })
      | .error e cache => (.error e, { session.abort with cache })
  | .commit => (.ok [], { session with committed := session.visible, pending := Catalog.empty })
  | .abort => (.ok [], session.abort)
  | .concurrentCommit rows => (.ok [], { session with committed := session.committed.append rows })

/-- The lookup an event makes, if it is one. -/
def TxEvent.lookup (catalog : Catalog) : TxEvent → Option (Catalog × Oid)
  | .call metadataCall => Call.lookup catalog metadataCall
  | _ => none

@[simp] theorem TxEvent.lookup_eq_some {catalog looked : Catalog} {t : Oid} {event : TxEvent} :
    event.lookup catalog = some (looked, t) ↔
      event = .call (.lookupShardIntervalList t) ∧ looked = catalog := by
  cases event <;> simp [TxEvent.lookup]

def TxSession.machine (env : Env) : CacheMachine env TxEvent TxSession where
  step := TxSession.step env
  cacheOf := TxSession.cache
  lookupOf session event := TxEvent.lookup session.visible event
  step_lookup session event catalog t looked := by
    obtain ⟨rfl, rfl⟩ := TxEvent.lookup_eq_some.mp looked
    simp only [TxSession.step]
    split <;> simp_all
  step_other session event looked := by
    cases event with
    | call call =>
        cases call with
        | insertPartitionRow | insertShardRow | loadShardIntervalList =>
            simp only [TxSession.step]
            split <;> rfl
        | lookupShardIntervalList t => cases looked
    | _ => rfl

/-- A step of a run with transactions. -/
abbrev TxStep := Step TxEvent TxSession

def TxSession.run (env : Env) : TxSession → List TxEvent → List TxStep :=
  (TxSession.machine env).run

/-! ## What a lookup answers -/

/-- The shard table has a row of table `t` with shard id `shardId`. -/
def HasShardRow (shards : List HeapTuple) (t : Oid) (shardId : BitVec 64) : Prop :=
  ∃ row ∈ shards, oidKeyMatches attrNumShardRelationId t row ∧ tupleShardId row = shardId

theorem memoLookup_ok {env : Env} {lookups : List (Catalog × Oid)} {catalog : Catalog} {t : Oid}
    {intervals : List ShardInterval} (answered : memoLookup env lookups catalog t = .ok intervals) :
    ∃ loaded, ((loaded, t) ∈ lookups ∨ loaded = catalog) ∧
      loadShardIntervalList env loaded t = .ok intervals := by
  unfold memoLookup at answered
  split at answered
  · next first =>
      cases answered
      obtain ⟨-, ⟨loaded, t'⟩, -, rfl, found, -⟩ := List.findSome?_eq_some_iff.mp first
      by_cases same : t' = t
      · subst same
        simp only [if_pos rfl] at found
        exact ⟨loaded, .inl (by simp), (nonEmptyLoad_eq_some found).1⟩
      · simp [same] at found
  · exact ⟨catalog, .inr rfl, answered⟩

@[simp] theorem TxSession.visible_shards (session : TxSession) :
    session.visible.shards = session.committed.shards ++ session.pending.shards := rfl

theorem TxSession.step_shards (env : Env) {session : TxSession}
    (noPending : session.pending.shards = []) (event : TxEvent) :
    (session.step env event).2.pending.shards = [] ∧
      ∀ row ∈ session.visible.shards, row ∈ (session.step env event).2.visible.shards := by
  have aborted : session.abort.visible.shards = session.visible.shards := by
    simp [TxSession.abort, noPending, Catalog.empty]
  cases event with
  | call metadataCall =>
      cases metadataCall with
      | insertPartitionRow t m n =>
          simp only [TxSession.step]
          split
          · next inserted => simp [insertPartitionRow_shards env inserted, noPending]
          · exact ⟨rfl, fun row mem => aborted ▸ mem⟩
      | insertShardRow args =>
          simp only [TxSession.step, insertShardRow_crash]
          exact ⟨rfl, fun row mem => aborted ▸ mem⟩
      | loadShardIntervalList t | lookupShardIntervalList t =>
          simp only [TxSession.step]
          split
          · exact ⟨noPending, fun row mem => mem⟩
          · exact ⟨rfl, fun row mem => aborted ▸ mem⟩
  | commit => simp [TxSession.step, Catalog.empty]
  | abort => exact ⟨rfl, fun row mem => aborted ▸ mem⟩
  | concurrentCommit rows => simp_all [TxSession.step]

/-- Along a run from a state with no pending shard row, none is ever pending, and every shard row
visible at the start stays visible. -/
theorem run_shards (env : Env) (events : List TxEvent) (s : TxSession)
    (noPending : s.pending.shards = []) :
    ∀ pre step post, TxSession.run env s events = pre ++ step :: post →
      step.before.pending.shards = [] ∧ ∀ row ∈ s.visible.shards, row ∈ step.before.visible.shards := by
  induction events generalizing s with
  | nil => intro pre step post run; simp [TxSession.run, CacheMachine.run] at run
  | cons e events ih =>
      intro pre step post run
      simp only [TxSession.run, CacheMachine.run] at run
      cases pre with
      | nil =>
          obtain ⟨rfl, -⟩ := List.cons_eq_cons.mp run
          exact ⟨noPending, fun row mem => mem⟩
      | cons first pre =>
          obtain ⟨rfl, rest⟩ := List.cons_eq_cons.mp run
          split at rest
          · simp at rest
          · have stepped := TxSession.step_shards env noPending e
            obtain ⟨pending, kept⟩ := ih _ stepped.1 pre step post rest
            exact ⟨pending, fun row mem => kept row (stepped.2 row mem)⟩

/-- Each interval a lookup of `t` answers has a row of `t` with its id in the shard table that a
lookup of `t`, this one or an earlier one, saw: the lookup whose load filled the cache; and that
row is visible at this lookup. -/
theorem txRun_lookupShardIntervalList (env : Env) (committed : Catalog) (events : List TxEvent)
    (pre post : List TxStep) (step : TxStep) (t : Oid)
    (run : TxSession.run env ⟨committed, Catalog.empty, []⟩ events = pre ++ step :: post)
    (lookup : step.event = .call (.lookupShardIntervalList t))
    (intervals : List ShardInterval) (returned : step.outcome = .ok intervals) :
    (∀ shardInterval ∈ intervals, ∃ loader ∈ pre ++ [step],
      loader.event = .call (.lookupShardIntervalList t) ∧
        HasShardRow loader.before.visible.shards t shardInterval.id) ∧
    ∀ shardInterval ∈ intervals, HasShardRow step.before.visible.shards t shardInterval.id := by
  have looked : (TxSession.machine env).lookupOf step.before step.event =
      some (step.before.visible, t) := TxEvent.lookup_eq_some.mpr ⟨lookup, rfl⟩
  have answer := ((TxSession.machine env).run_lookup_outcome ⟨committed, Catalog.empty, []⟩ rfl
    events run looked).1
  rw [returned] at answer
  obtain ⟨loaded, found, load⟩ := memoLookup_ok answer.symm
  have rows := loadShardIntervalList_rows load
  have loader : ∃ loader ∈ pre ++ [step], loader.event = .call (.lookupShardIntervalList t) ∧
      loader.before.visible = loaded := by
    rcases found with earlier | current
    · obtain ⟨loader, mem, found⟩ := List.mem_filterMap.mp earlier
      obtain ⟨isLookup, rfl⟩ := TxEvent.lookup_eq_some.mp found
      exact ⟨loader, List.mem_append_left _ mem, isLookup, rfl⟩
    · exact ⟨step, by simp, lookup, current.symm⟩
  obtain ⟨source, inRun, sourceLookup, saw⟩ := loader
  refine ⟨fun shardInterval mem =>
    ⟨source, inRun, sourceLookup, saw ▸ rows shardInterval mem⟩, fun shardInterval mem => ?_⟩
  obtain ⟨row, inTable, keyed, id⟩ := rows shardInterval mem
  refine ⟨row, ?_, keyed, id⟩
  rcases List.mem_append.mp inRun with earlier | current
  · obtain ⟨before, after, rfl⟩ := List.append_of_mem earlier
    have sourcePending := (run_shards env events _ rfl before source (after ++ step :: post)
      (by simpa using run)).1
    obtain ⟨events', suffix⟩ := (TxSession.machine env).run_suffix events _ before source
      (after ++ step :: post) (by simpa using run)
    exact (run_shards env events' source.before sourcePending (source :: after) step post
      (by simpa using suffix)).2 row (saw ▸ inTable)
  · rw [List.mem_singleton.mp current] at saw
    exact saw ▸ inTable

theorem txRun_lookupShardIntervalList_customer :
    let s0 : TxSession := ⟨customerCatalog, Catalog.empty, []⟩
    let otherCommit := TxEvent.concurrentCommit ⟨[], [citusShardRow 16384 1 "1" "10"], []⟩
    let lookup := TxEvent.call (.lookupShardIntervalList 16384)
    let s1 := (s0.step sampleEnv otherCommit).2
    let s2 := (s1.step sampleEnv lookup).2
    let s3 := (s2.step sampleEnv .abort).2
    let pre : List TxStep := [⟨otherCommit, s0, .ok [], s1⟩,
      ⟨lookup, s1, (s1.step sampleEnv lookup).1, s2⟩, ⟨.abort, s2, .ok [], s3⟩]
    let step : TxStep :=
      ⟨lookup, s3, (s3.step sampleEnv lookup).1, (s3.step sampleEnv lookup).2⟩
    (TxSession.run sampleEnv s0 [otherCommit, lookup, .abort, lookup] = pre ++ step :: [] ∧
        step.event = lookup ∧ step.outcome = .ok [⟨1, 16384, .word 1, .word 10, int4Oid⟩]) ∧
      HasShardRow step.before.visible.shards 16384 1 := by
  intro s0 otherCommit lookup s1 s2 s3 pre step
  have run : TxSession.run sampleEnv s0 [otherCommit, lookup, .abort, lookup] = pre ++ step :: [] := rfl
  have returned : step.outcome = .ok [⟨1, 16384, .word 1, .word 10, int4Oid⟩] := rfl
  exact ⟨⟨run, rfl, returned⟩, (txRun_lookupShardIntervalList sampleEnv customerCatalog _ pre []
    step 16384 run rfl _ returned).2 _ (List.mem_singleton_self _)⟩

/-! ## Autocommit -/

/-- The transaction state of a backend with nothing pending. -/
def Session.toTx (session : Session) : TxSession :=
  ⟨session.catalog, Catalog.empty, session.cache⟩

/-- Each call in a transaction of its own, committed at once. -/
def autocommit : List Call → List TxEvent
  | [] => []
  | call :: calls => .call call :: .commit :: autocommit calls

theorem txSession_autocommit (env : Env) (session : Session) (call : Call) :
    ((session.toTx.step env (.call call)).1,
        ((session.toTx.step env (.call call)).2.step env .commit).2) =
      ((session.step env call).1, (session.step env call).2.toTx) := by
  cases call with
  | insertPartitionRow t m n =>
      simp only [TxSession.step, Session.step, insertPartitionRow_eq]
      cases partitionKeyDatum env t n <;>
        simp [Session.toTx, TxSession.abort, TxSession.visible, Catalog.append, Catalog.empty]
  | insertShardRow args =>
      simp [TxSession.step, Session.step, Session.toTx, TxSession.abort, TxSession.visible,
        insertShardRow_crash]
  | loadShardIntervalList t =>
      simp only [TxSession.step, Session.step, Session.toTx, TxSession.visible,
        Catalog.append_empty]
      split <;> simp_all [TxSession.abort, TxSession.visible]
  | lookupShardIntervalList t =>
      simp only [TxSession.step, Session.step, Session.toTx, TxSession.visible,
        Catalog.append_empty]
      split <;> simp_all [TxSession.abort, TxSession.visible]

/-- Run in autocommit, the session with transactions answers each call as the autocommit session
does. -/
theorem txRun_autocommit (env : Env) (session : Session) (calls : List Call) :
    ((TxSession.run env session.toTx (autocommit calls)).filter (·.event ≠ .commit)).map
        Step.outcome = (Session.run env session calls).map Step.outcome := by
  induction calls generalizing session with
  | nil => rfl
  | cons call calls ih =>
      have stepped := txSession_autocommit env session call
      simp only [autocommit, TxSession.run, Session.run, CacheMachine.run, TxSession.machine,
        Session.machine] at ih ⊢
      rcases autocommitted : session.step env call with ⟨outcome, after⟩
      rcases called : session.toTx.step env (.call call) with ⟨outcome', tx⟩
      rw [autocommitted, called, Prod.mk.injEq] at stepped
      obtain ⟨rfl, committed⟩ := stepped
      have commitOk : (tx.step env .commit).1 = .ok [] := rfl
      simp only [commitOk, committed]
      rcases outcome' with (e | _) | shardIntervalList
      · simpa using ih after
      · -- a crash ends both runs
        simp
      · simpa using ih after

end PgShard
