import PgShard.Cache

/-!
# Sessions

A backend runs one call after another on the catalog it sees and the backend-global
`ShardIntervalListCache`. Two such machines are modelled: the autocommit session here, where each
call is its own transaction, and the session with explicit transactions of `Transaction`. Both
touch the cache only through `LookupShardIntervalList` (`CacheMachine`), so in both the lookups of
a run form the history of `Cache`, each lookup answers as the memo of the lookups before it
(`CacheMachine.run_lookup_outcome`), and after every step the cache holds one non-empty entry per
table whose lookup has returned a non-empty list (`CacheMachine.run_shardIntervalListCache`). A
crash ends the backend, and the run with it.
-/

set_option autoImplicit false

namespace PgShard

/-- A step of a run: the event, the state it ran on, its outcome, and the state after it. -/
structure Step (ε σ : Type) where
  event : ε
  before : σ
  outcome : Except Fault (List ShardInterval)
  after : σ

/-- A backend state machine whose steps use the cache only through `LookupShardIntervalList`: a
step that looks up answers and leaves the cache as the lookup does, and any other step leaves the
cache alone. -/
structure CacheMachine (env : Env) (ε σ : Type) where
  step : σ → ε → Except Fault (List ShardInterval) × σ
  cacheOf : σ → List ShardIntervalListCacheEntry
  /-- The catalog and table a step looks up, if it does. -/
  lookupOf : σ → ε → Option (Catalog × Oid)
  step_lookup : ∀ s e catalog t, lookupOf s e = some (catalog, t) →
    (step s e).1 = resultValue (lookupShardIntervalList env catalog t (cacheOf s)) ∧
      cacheOf (step s e).2 = resultState (lookupShardIntervalList env catalog t (cacheOf s))
  step_other : ∀ s e, lookupOf s e = none → cacheOf (step s e).2 = cacheOf s

namespace CacheMachine

variable {env : Env} {ε σ : Type} (machine : CacheMachine env ε σ)

/-- A run of events, each on the state the one before left; a crash ends it. -/
def run : σ → List ε → List (Step ε σ)
  | _, [] => []
  | s, e :: events =>
      let (outcome, after) := machine.step s e
      ⟨e, s, outcome, after⟩ ::
        match outcome with
        | .error .crash => []
        | _ => run after events

/-- The lookups of a run, each with the catalog it saw: the history of the cache. -/
def lookups (steps : List (Step ε σ)) : List (Catalog × Oid) :=
  steps.filterMap fun step => machine.lookupOf step.before step.event

theorem lookups_append (steps steps' : List (Step ε σ)) :
    machine.lookups (steps ++ steps') = machine.lookups steps ++ machine.lookups steps' :=
  List.filterMap_append _ _ _

theorem cacheAfter_snoc (lookups : List (Catalog × Oid)) (catalog : Catalog) (t : Oid) :
    cacheAfter env (lookups ++ [(catalog, t)]) =
      resultState (lookupShardIntervalList env catalog t (cacheAfter env lookups)) := by
  simp [cacheAfter, List.foldl_append]

theorem step_cache {s : σ} {past : List (Catalog × Oid)}
    (cached : machine.cacheOf s = cacheAfter env past) (e : ε) :
    machine.cacheOf (machine.step s e).2 =
      cacheAfter env (past ++
        machine.lookups [⟨e, s, (machine.step s e).1, (machine.step s e).2⟩]) := by
  cases looked : machine.lookupOf s e with
  | none => simp [lookups, looked, machine.step_other s e looked, cached]
  | some lookup =>
      obtain ⟨catalog, t⟩ := lookup
      simp [lookups, looked, (machine.step_lookup s e catalog t looked).2, cached, cacheAfter_snoc]

theorem run_cache (events : List ε) (s : σ) (past : List (Catalog × Oid))
    (cached : machine.cacheOf s = cacheAfter env past) :
    ∀ pre step post, machine.run s events = pre ++ step :: post →
      machine.cacheOf step.before = cacheAfter env (past ++ machine.lookups pre) ∧
        (step.outcome, step.after) = machine.step step.before step.event := by
  induction events generalizing s past with
  | nil => intro pre step post run; simp [CacheMachine.run] at run
  | cons e events ih =>
      intro pre step post run
      simp only [CacheMachine.run] at run
      cases pre with
      | nil =>
          obtain ⟨rfl, -⟩ := List.cons_eq_cons.mp run
          simp [cached, lookups]
      | cons first pre =>
          obtain ⟨rfl, rest⟩ := List.cons_eq_cons.mp run
          split at rest
          · simp at rest
          · obtain ⟨cache, stepped⟩ := ih _ _ (machine.step_cache cached e) pre step post rest
            refine ⟨?_, stepped⟩
            rw [cache, List.append_assoc, ← lookups_append]
            rfl

theorem run_suffix (events : List ε) (s : σ) :
    ∀ pre step post, machine.run s events = pre ++ step :: post →
      ∃ events', machine.run step.before events' = step :: post := by
  induction events generalizing s with
  | nil => intro pre step post run; simp [CacheMachine.run] at run
  | cons e events ih =>
      intro pre step post run
      cases pre with
      | nil =>
          obtain ⟨rfl, -⟩ := List.cons_eq_cons.mp run
          exact ⟨e :: events, run⟩
      | cons first pre =>
          simp only [CacheMachine.run] at run
          obtain ⟨-, rest⟩ := List.cons_eq_cons.mp run
          split at rest
          · simp at rest
          · exact ih _ pre step post rest

theorem run_lookup_outcome (s : σ) (empty : machine.cacheOf s = []) (events : List ε)
    {pre post : List (Step ε σ)} {step : Step ε σ} {catalog : Catalog} {t : Oid}
    (run : machine.run s events = pre ++ step :: post)
    (lookup : machine.lookupOf step.before step.event = some (catalog, t)) :
    step.outcome = memoLookup env (machine.lookups pre) catalog t ∧
      (∀ e, step.outcome = .error e → machine.cacheOf step.after =
        machine.cacheOf step.before) := by
  obtain ⟨cache, stepped⟩ := machine.run_cache events s [] empty pre step post run
  simp only [List.nil_append] at cache
  obtain ⟨outcome, after⟩ := Prod.mk.injEq _ _ _ _ ▸ stepped
  have answer := machine.step_lookup _ _ catalog t lookup
  have result := lookupShardIntervalList_step env (cacheAfter_invariant env (machine.lookups pre))
    catalog t
  rw [← cache] at result
  refine ⟨outcome.trans (answer.1.trans result.1), fun e raised => ?_⟩
  rw [after, answer.2]
  exact result.2.2 e (answer.1 ▸ outcome ▸ raised)

theorem run_lookup_first (s : σ) (empty : machine.cacheOf s = []) (events : List ε)
    {pre post : List (Step ε σ)} {step : Step ε σ} {catalog : Catalog} {t : Oid}
    (run : machine.run s events = pre ++ step :: post)
    (lookup : machine.lookupOf step.before step.event = some (catalog, t)) :
    match firstNonEmptyLoad env (machine.lookups (pre ++ [step])) t with
    | some shardIntervalList => step.outcome = .ok shardIntervalList
    | none => step.outcome = loadShardIntervalList env catalog t ∧
        nonEmptyLoad step.outcome = none := by
  have answer := (machine.run_lookup_outcome s empty events run lookup).1
  have history : machine.lookups (pre ++ [step]) = machine.lookups pre ++ [(catalog, t)] := by
    simp [lookups_append, lookups, lookup]
  rw [history, firstNonEmptyLoad_snoc, if_pos rfl]
  unfold memoLookup at answer
  cases first : firstNonEmptyLoad env (machine.lookups pre) t with
  | some shardIntervalList => simpa [first] using answer
  | none =>
      rw [first] at answer
      cases nonEmpty : nonEmptyLoad (loadShardIntervalList env catalog t) with
      | some shardIntervalList => simpa [answer] using (nonEmptyLoad_eq_some nonEmpty).1
      | none => exact ⟨answer, answer ▸ nonEmpty⟩

theorem run_cache_after (s : σ) (empty : machine.cacheOf s = []) (events : List ε)
    {pre post : List (Step ε σ)} {step : Step ε σ}
    (run : machine.run s events = pre ++ step :: post) :
    machine.cacheOf step.after = cacheAfter env (machine.lookups (pre ++ [step])) := by
  obtain ⟨cache, stepped⟩ := machine.run_cache events s [] empty pre step post run
  obtain ⟨event, before, outcome, after⟩ := step
  simp only [List.nil_append] at cache
  rw [show after = (machine.step before event).2 from congrArg Prod.snd stepped,
    machine.step_cache cache event, lookups_append]
  rfl

/-- In every run of a backend from the empty cache, whatever the other steps do to the catalog and
whichever loads raise, after each step the cache has one entry per table, no entry holds an empty
list, and the entries are exactly the distinct tables whose lookup has so far returned a non-empty
list. -/
theorem run_shardIntervalListCache (s : σ) (empty : machine.cacheOf s = []) (events : List ε)
    {pre post : List (Step ε σ)} {step : Step ε σ}
    (run : machine.run s events = pre ++ step :: post) :
    let cache := machine.cacheOf step.after
    let lookups := machine.lookups (pre ++ [step])
    (cache.map (·.distributedTableId)).Nodup ∧
      (∀ entry ∈ cache, entry.shardIntervalList ≠ []) ∧
      (∀ t, t ∈ cache.map (·.distributedTableId) ↔ ReturnedNonEmpty env lookups t) ∧
      cache.length =
        ((lookups.map Prod.snd).dedup.filter fun t =>
          decide (ReturnedNonEmpty env lookups t)).length := by
  intro cache lookups
  simp only [cache, machine.run_cache_after s empty events run]
  exact cacheAfter_entries env lookups

end CacheMachine

/-! ## The autocommit session -/

/-- The metadata functions a session calls. -/
inductive Call where
  | insertPartitionRow (distributedTableId : Oid) (partitionType : BitVec 8)
      (partitionKeyText : String)
  | insertShardRow (args : ShardRowArgs)
  | loadShardIntervalList (distributedTableId : Oid)
  | lookupShardIntervalList (distributedTableId : Oid)
  deriving DecidableEq, Repr

/-- A backend's state: the catalog its snapshot sees, and `ShardIntervalListCache`. -/
structure Session where
  catalog : Catalog
  cache : List ShardIntervalListCacheEntry
  deriving DecidableEq, Repr

/-- One call as one statement: what it returns (the list of the two loaders, `[]` for an insert)
and the session after it. An `ereport` aborts the statement, which undoes its catalog writes but
not the cache. -/
def Session.step (env : Env) (session : Session) :
    Call → Except Fault (List ShardInterval) × Session
  | .insertPartitionRow distributedTableId partitionType partitionKeyText =>
      match insertPartitionRow env distributedTableId partitionType partitionKeyText
          session.catalog with
      | .ok () catalog => (.ok [], { session with catalog })
      | .error e _ => (.error e, session)
  | .insertShardRow args =>
      match insertShardRow args session.catalog with
      | .ok () catalog => (.ok [], { session with catalog })
      | .error e _ => (.error e, session)
  | .loadShardIntervalList distributedTableId =>
      (loadShardIntervalList env session.catalog distributedTableId, session)
  | .lookupShardIntervalList distributedTableId =>
      let result := lookupShardIntervalList env session.catalog distributedTableId session.cache
      (resultValue result, { session with cache := resultState result })

/-- The lookup a call makes, if it is one. -/
def Call.lookup (catalog : Catalog) : Call → Option (Catalog × Oid)
  | .lookupShardIntervalList distributedTableId => some (catalog, distributedTableId)
  | _ => none

@[simp] theorem Call.lookup_eq_some {catalog looked : Catalog} {t : Oid} {call : Call} :
    Call.lookup catalog call = some (looked, t) ↔
      call = .lookupShardIntervalList t ∧ looked = catalog := by
  cases call <;> simp [Call.lookup, eq_comm, and_comm]

def Session.machine (env : Env) : CacheMachine env Call Session where
  step := Session.step env
  cacheOf := Session.cache
  lookupOf session call := Call.lookup session.catalog call
  step_lookup session call catalog t looked := by
    obtain ⟨rfl, rfl⟩ := Call.lookup_eq_some.mp looked
    exact ⟨rfl, rfl⟩
  step_other session call looked := by
    cases call with
    | insertPartitionRow | insertShardRow =>
        simp only [Session.step]
        split <;> rfl
    | loadShardIntervalList => rfl
    | lookupShardIntervalList t => cases looked

/-- A step of a session's run. -/
abbrev Record := Step Call Session

/-- A session's calls one after the other. -/
def Session.run (env : Env) : Session → List Call → List Record := (Session.machine env).run

/-- In every run of a new backend, on any catalog: a lookup of `t` answers the list of the
earliest lookup of `t`, up to and including itself, whose load was non-empty, or else the current
load, which is then not a non-empty list; once a lookup of `t` has returned a non-empty list, every
later lookup of `t` returns that list, whatever calls came between; and a lookup that raises leaves
the cache as it was. -/
theorem run_lookupShardIntervalList (env : Env) (catalog : Catalog) (calls : List Call)
    (pre post : List Record) (record : Record) (t : Oid)
    (run : Session.run env ⟨catalog, []⟩ calls = pre ++ record :: post)
    (lookup : record.event = .lookupShardIntervalList t) :
    (match firstNonEmptyLoad env ((Session.machine env).lookups (pre ++ [record])) t with
      | some shardIntervalList => record.outcome = .ok shardIntervalList
      | none => record.outcome = loadShardIntervalList env record.before.catalog t ∧
          nonEmptyLoad record.outcome = none) ∧
    (∀ shardIntervalList, record.outcome = .ok shardIntervalList → shardIntervalList ≠ [] →
      ∀ mid later post', post = mid ++ later :: post' →
        later.event = .lookupShardIntervalList t → later.outcome = .ok shardIntervalList) ∧
    (∀ e, record.outcome = .error e → record.after.cache = record.before.cache) := by
  have looked : ∀ step : Record, step.event = .lookupShardIntervalList t →
      (Session.machine env).lookupOf step.before step.event = some (step.before.catalog, t) :=
    fun step isLookup => Call.lookup_eq_some.mpr ⟨isLookup, rfl⟩
  have first :=
    (Session.machine env).run_lookup_first ⟨catalog, []⟩ rfl calls run (looked record lookup)
  refine ⟨first, ?_, ((Session.machine env).run_lookup_outcome ⟨catalog, []⟩ rfl calls run
    (looked record lookup)).2⟩
  intro shardIntervalList returned nonEmpty mid later post' rest laterLookup
  have known : firstNonEmptyLoad env ((Session.machine env).lookups (pre ++ [record])) t =
      some shardIntervalList := by
    split at first
    · next known =>
      rw [returned] at first
      rw [known, Except.ok.inj first]
    · obtain ⟨shardInterval, tail, rfl⟩ := List.exists_cons_of_ne_nil nonEmpty
      simp [returned, nonEmptyLoad] at first
  have laterRun :
      Session.run env ⟨catalog, []⟩ calls = (pre ++ record :: mid) ++ later :: post' := by
    simp [run, rest]
  have laterFirst := (Session.machine env).run_lookup_first ⟨catalog, []⟩ rfl calls laterRun
    (looked later laterLookup)
  have stays : (Session.machine env).lookups (pre ++ record :: mid ++ [later]) =
      (Session.machine env).lookups (pre ++ [record]) ++
        (Session.machine env).lookups (mid ++ [later]) := by
    simp [← CacheMachine.lookups_append]
  rw [stays, firstNonEmptyLoad_append env known] at laterFirst
  exact laterFirst

/-- `customer`'s shard rows are there before its partition row: the first lookup raises midway
and leaves the cache empty; after `InsertPartitionRow` the lookup loads both shards. -/
theorem run_lookupShardIntervalList_customer :
    let s0 : Session := ⟨{ customerShardCatalog with partitions := [] }, []⟩
    let lookup := Call.lookupShardIntervalList 16384
    let insert := Call.insertPartitionRow 16384 104 "id"
    let s1 := (s0.step sampleEnv lookup).2
    let s2 := (s1.step sampleEnv insert).2
    let first : Record := ⟨lookup, s0, (s0.step sampleEnv lookup).1, s1⟩
    let record : Record :=
      ⟨lookup, s2, (s2.step sampleEnv lookup).1, (s2.step sampleEnv lookup).2⟩
    (Session.run sampleEnv s0 [lookup, insert, lookup] =
        [first, ⟨insert, s1, .ok [], s2⟩] ++ record :: [] ∧ record.event = lookup) ∧
      (∃ e, first.outcome = .error e) ∧ first.after.cache = first.before.cache ∧
      record.outcome = .ok [⟨1, 16384, .word 1, .word 10, int4Oid⟩,
        ⟨3, 16384, .word 11, .word 20, int4Oid⟩] := by
  intro s0 lookup insert s1 s2 first record
  have run : Session.run sampleEnv s0 [lookup, insert, lookup] =
      [first, ⟨insert, s1, .ok [], s2⟩] ++ record :: [] := rfl
  have raised : first.outcome = .error (noPartitionColumn sampleEnv 16384) := rfl
  have kept := (run_lookupShardIntervalList sampleEnv _ _ [] _ first 16384 run rfl).2.2 _ raised
  have answer := (run_lookupShardIntervalList sampleEnv _ _ _ [] record 16384 run rfl).1
  have known : firstNonEmptyLoad sampleEnv
      ((Session.machine sampleEnv).lookups ([first, ⟨insert, s1, .ok [], s2⟩] ++ [record])) 16384 =
      some [⟨1, 16384, .word 1, .word 10, int4Oid⟩, ⟨3, 16384, .word 11, .word 20, int4Oid⟩] := rfl
  rw [known] at answer
  exact ⟨⟨run, rfl⟩, ⟨_, raised⟩, kept, answer⟩

theorem run_shardIntervalListCache_customer :
    let s0 : Session := ⟨{ customerShardCatalog with partitions := [] }, []⟩
    let lookup := Call.lookupShardIntervalList 16384
    let insert := Call.insertPartitionRow 16384 104 "id"
    let s1 := (s0.step sampleEnv lookup).2
    let s2 := (s1.step sampleEnv insert).2
    let pre : List Record :=
      [⟨lookup, s0, (s0.step sampleEnv lookup).1, s1⟩, ⟨insert, s1, .ok [], s2⟩]
    let record : Record :=
      ⟨lookup, s2, (s2.step sampleEnv lookup).1, (s2.step sampleEnv lookup).2⟩
    let lookups := (Session.machine sampleEnv).lookups (pre ++ [record])
    (s0.cache = [] ∧ Session.run sampleEnv s0 [lookup, insert, lookup] = pre ++ record :: []) ∧
      (record.after.cache.map (·.distributedTableId)).Nodup ∧
      (∀ entry ∈ record.after.cache, entry.shardIntervalList ≠ []) ∧
      (∀ t, t ∈ record.after.cache.map (·.distributedTableId) ↔
        ReturnedNonEmpty sampleEnv lookups t) ∧
      record.after.cache.length =
        ((lookups.map Prod.snd).dedup.filter
          fun t => decide (ReturnedNonEmpty sampleEnv lookups t)).length := by
  intro s0 lookup insert s1 s2 pre record lookups
  have run : Session.run sampleEnv s0 [lookup, insert, lookup] = pre ++ record :: [] := rfl
  exact ⟨⟨rfl, run⟩, (Session.machine sampleEnv).run_shardIntervalListCache s0 rfl _ run⟩

end PgShard
