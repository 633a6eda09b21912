import PgShard.Partition

/-!
# Shard rows and shard intervals

`InsertShardRow`, `LoadShardIntervalRow`, `LoadShardInterval` and `LoadShardIntervalList` over
`pg_dist_shard`. The source fixes the attribute numbers of five columns; CitusDB's table has a
sixth, `shardalias`, of type `text`, which `InsertShardRow` leaves as the non-NULL zero word of its
`memset` (the source marks it `TODO`). `heap_form_tuple` reads that word as a pointer, so every
call ends the backend before a row is written (`insertShardRow_crash`), and the shards a run
inserts are never there to load (`insertShardRows_lost`).

The loaders read the rows other writers leave. The scan of `pg_dist_shard` by relation and the
point lookup of each row by shard id agree on any table whose shard ids are a key: the load of
`t` returns one interval per row of `t`, and it returns exactly when every boundary is a text the
interval type accepts (`loadShardIntervalList_agrees`). A NULL boundary is read with
`TextDatumGetCString` without looking at `isNull`, and ends the backend
(`loadShardInterval_null_boundary`).
-/
set_option autoImplicit false

namespace PgShard

def shardTableAttributeCount : Nat := 6

def attrNumShardId : AttrNumber := 2

def attrNumShardRelationId : AttrNumber := 1

def attrNumShardStorage : AttrNumber := 3

def attrNumShardMinValue : AttrNumber := 5

def attrNumShardMaxValue : AttrNumber := 6

/-- The column types of CitusDB's `pg_dist_shard`, `(logicalrelid oid, shardid bigint,
shardstorage "char", shardalias text, shardminvalue text, shardmaxvalue text)`: the sources number
every column but `shardalias`, the fourth, and the last three are passed by reference. -/
def shardTableByReference : List Bool := [false, false, false, true, true, true]

/-- The arguments of one `InsertShardRow` call; a `NULL` boundary is `none`. -/
structure ShardRowArgs where
  distributedTableId : Oid
  shardId : BitVec 64
  shardStorage : BitVec 8
  shardMinValue : Option String
  shardMaxValue : Option String
  deriving DecidableEq, Repr

/-- The `values` and `isNulls` arrays `InsertShardRow` fills. Unless both boundaries are given, both
are NULL; `shardalias` keeps the `(Datum) 0` of the `memset`, and is not NULL. -/
def shardRowArrays (args : ShardRowArgs) : List Datum × List Bool :=
  let values :=
    setAttr (setAttr (setAttr (List.replicate shardTableAttributeCount (.word 0))
      attrNumShardId (int64GetDatum args.shardId))
      attrNumShardRelationId (objectIdGetDatum args.distributedTableId))
      attrNumShardStorage (charGetDatum args.shardStorage)
  let isNulls := List.replicate shardTableAttributeCount false
  match args.shardMinValue, args.shardMaxValue with
  | some shardMinValue, some shardMaxValue =>
      (setAttr (setAttr values attrNumShardMinValue (textGetDatum shardMinValue))
        attrNumShardMaxValue (textGetDatum shardMaxValue), isNulls)
  | _, _ =>
      (values, setAttr (setAttr isNulls attrNumShardMinValue true) attrNumShardMaxValue true)

/-- `InsertShardRow`. -/
def insertShardRow (args : ShardRowArgs) : EStateM Fault Catalog Unit := fun catalog =>
  match heapFormTuple shardTableByReference (shardRowArrays args).1 (shardRowArrays args).2 with
  | .ok heapTuple => .ok () { catalog with shards := catalog.shards ++ [heapTuple] }
  | .error e => .error e catalog

/-- `LoadShardIntervalRow`: the relation and the boundary texts of the first row the shard id
index returns. -/
def loadShardIntervalRow (shards : List HeapTuple) (shardId : BitVec 64) :
    Except Fault (Oid × String × String) :=
  match (int8IndexScan shards attrNumShardId shardId).head? with
  | some heapTuple => do
      let relationIdDatum := (heapGetattr heapTuple attrNumShardRelationId).1
      let minValueDatum := (heapGetattr heapTuple attrNumShardMinValue).1
      let maxValueDatum := (heapGetattr heapTuple attrNumShardMaxValue).1
      let minValue ← textDatumGetCString minValueDatum
      let maxValue ← textDatumGetCString maxValueDatum
      pure (datumGetObjectId relationIdDatum, minValue, maxValue)
  | none => .error (.ereport ⟨.undefinedObject,
      "shard with ID " ++ int64Format shardId ++ " does not exist"⟩)

/-- The type and typmod `LoadShardInterval` converts boundaries to: `int4` for a hash partitioned
table, the partition column's type otherwise. -/
def intervalType (env : Env) (partitions : List HeapTuple) (relationId : Oid) :
    Except Fault (Oid × BitVec 32) := do
  let partitionType ← partitionType env partitions relationId
  if partitionType = env.header.hashPartitionType then pure (int4Oid, -1)
  else do
    let partitionColumn ← partitionColumn env partitions relationId
    pure (partitionColumn.vartype, partitionColumn.vartypmod)

/-- `OidInputFunctionCall` of the type's input function; its errors are `ereport`s. -/
def inputFunctionCall (backend : Backend) (typeId : Oid) (typeMod : BitVec 32) (text : String) :
    Except Fault Datum :=
  (backend.typeInput typeId typeMod text).mapError Fault.ereport

/-- The rest of `LoadShardInterval`, once the row is read: the boundaries converted to the
interval type. -/
def shardIntervalFromRow (env : Env) (partitions : List HeapTuple) (shardId : BitVec 64)
    (relationId : Oid) (minValueString maxValueString : String) : Except Fault ShardInterval := do
  let (intervalTypeId, intervalTypeMod) ← intervalType env partitions relationId
  let minValue ← inputFunctionCall env.backend intervalTypeId intervalTypeMod minValueString
  let maxValue ← inputFunctionCall env.backend intervalTypeId intervalTypeMod maxValueString
  pure ⟨shardId, relationId, minValue, maxValue, intervalTypeId⟩

/-- `LoadShardInterval`. -/
def loadShardInterval (env : Env) (catalog : Catalog) (shardId : BitVec 64) :
    Except Fault ShardInterval := do
  let (relationId, minValueString, maxValueString) ← loadShardIntervalRow catalog.shards shardId
  shardIntervalFromRow env catalog.partitions shardId relationId minValueString maxValueString

/-- The shard id attribute of a tuple, as `LoadShardIntervalList` reads it. -/
def tupleShardId (heapTuple : HeapTuple) : BitVec 64 :=
  datumGetInt64 (heapGetattr heapTuple attrNumShardId).1

/-- `LoadShardIntervalList`: one `LoadShardInterval` per tuple the relation index returns for
`distributedTableId`, in order; the first error ends the loop. -/
def loadShardIntervalList (env : Env) (catalog : Catalog) (distributedTableId : Oid) :
    Except Fault (List ShardInterval) :=
  (oidIndexScan catalog.shards attrNumShardRelationId distributedTableId).mapM fun heapTuple =>
    loadShardInterval env catalog (tupleShardId heapTuple)

/-! ## `InsertShardRow` against CitusDB's shard table -/

/-- `shardalias` is not NULL and holds a word, in a column passed by reference: every call ends the
backend in `heap_form_tuple`, before `simple_heap_insert`. -/
theorem insertShardRow_crash (args : ShardRowArgs) (catalog : Catalog) :
    insertShardRow args catalog = .error .crash catalog := by
  obtain ⟨t, id, storage, min, max⟩ := args
  cases min <;> cases max <;> rfl

/-- A run of `InsertShardRow` calls, each on the catalog the one before left; a call that raises
ends the run. -/
def insertShardRows : List ShardRowArgs → EStateM Fault Catalog Unit
  | [], catalog => .ok () catalog
  | args :: calls, catalog =>
      match insertShardRow args catalog with
      | .ok () catalog => insertShardRows calls catalog
      | .error e catalog => .error e catalog

/-- A run of `InsertShardRow` calls from an empty shard table ends the backend at its first call
and leaves the table empty: whatever shards it inserts for `t`, `LoadShardIntervalList(t)` then
finds none. -/
theorem insertShardRows_lost (env : Env) (catalog : Catalog) (calls : List ShardRowArgs)
    (nonempty : calls ≠ []) (empty : catalog.shards = []) (t : Oid) :
    insertShardRows calls catalog = .error .crash catalog ∧
      loadShardIntervalList env catalog t = .ok [] := by
  obtain ⟨args, calls, rfl⟩ := List.exists_cons_of_ne_nil nonempty
  refine ⟨by simp [insertShardRows, insertShardRow_crash], ?_⟩
  simp only [loadShardIntervalList, oidIndexScan, empty, List.filter_nil, List.mapM_nil]
  rfl

theorem insertShardRows_lost_customer :
    ([⟨16384, 1, 116, some "1", some "10"⟩] : List ShardRowArgs) ≠ [] ∧
      customerCatalog.shards = [] ∧
      insertShardRows [⟨16384, 1, 116, some "1", some "10"⟩] customerCatalog =
        .error .crash customerCatalog ∧
      loadShardIntervalList sampleEnv customerCatalog 16384 = .ok [] :=
  ⟨List.cons_ne_nil _ _, rfl,
    insertShardRows_lost sampleEnv customerCatalog _ (List.cons_ne_nil _ _) rfl 16384⟩

/-! ## Reading a shard row -/

theorem loadShardInterval_of_scan (env : Env) {catalog : Catalog} {shardId : BitVec 64}
    {row : HeapTuple}
    (scan : (int8IndexScan catalog.shards attrNumShardId shardId).head? = some row) :
    loadShardInterval env catalog shardId =
      textDatumGetCString (heapGetattr row attrNumShardMinValue).1 >>= fun lo =>
        textDatumGetCString (heapGetattr row attrNumShardMaxValue).1 >>= fun hi =>
          shardIntervalFromRow env catalog.partitions shardId
            (datumGetObjectId (heapGetattr row attrNumShardRelationId).1) lo hi := by
  simp only [loadShardInterval, loadShardIntervalRow, scan]
  cases textDatumGetCString (heapGetattr row attrNumShardMinValue).1 <;>
    cases textDatumGetCString (heapGetattr row attrNumShardMaxValue).1 <;> rfl

/-- `LoadShardIntervalRow` reads both boundaries through `TextDatumGetCString` whatever `isNull`
says. -/
theorem loadShardInterval_null_row (env : Env) {catalog : Catalog} {shardId : BitVec 64}
    {row : HeapTuple}
    (scan : (int8IndexScan catalog.shards attrNumShardId shardId).head? = some row)
    (null : (heapGetattr row attrNumShardMinValue).2 = true ∨
      (heapGetattr row attrNumShardMaxValue).2 = true) :
    loadShardInterval env catalog shardId = .error .crash := by
  rw [loadShardInterval_of_scan env scan]
  rcases null with min | max
  · simp [heapGetattr_null min, textDatumGetCString]
  · cases (heapGetattr row attrNumShardMinValue).1 <;>
      simp [heapGetattr_null max, textDatumGetCString]

@[simp] theorem inputFunctionCall_eq_ok {backend : Backend} {typeId : Oid} {typeMod : BitVec 32}
    {text : String} {value : Datum} :
    inputFunctionCall backend typeId typeMod text = .ok value ↔
      backend.typeInput typeId typeMod text = .ok value := by
  unfold inputFunctionCall
  cases backend.typeInput typeId typeMod text <;> simp [Except.mapError]

theorem shardIntervalFromRow_eq_ok {env : Env} {partitions : List HeapTuple}
    {shardId : BitVec 64} {relationId : Oid} {lo hi : String} {shardInterval : ShardInterval}
    (built : shardIntervalFromRow env partitions shardId relationId lo hi = .ok shardInterval) :
    shardInterval.id = shardId ∧ shardInterval.relationId = relationId ∧
      ∃ typeMod, intervalType env partitions relationId = .ok (shardInterval.valueTypeId, typeMod) ∧
        env.backend.typeInput shardInterval.valueTypeId typeMod lo = .ok shardInterval.minValue ∧
        env.backend.typeInput shardInterval.valueTypeId typeMod hi = .ok shardInterval.maxValue := by
  simp only [shardIntervalFromRow, except_bind_eq_ok] at built
  obtain ⟨⟨typeId, typeMod⟩, typed, built⟩ := built
  simp only [except_bind_eq_ok, inputFunctionCall_eq_ok, pure, Except.pure,
    Except.ok.injEq] at built
  obtain ⟨minValue, minOk, maxValue, maxOk, rfl⟩ := built
  exact ⟨rfl, rfl, typeMod, typed, minOk, maxOk⟩

theorem shardIntervalFromRow_accepted (env : Env) {partitions : List HeapTuple}
    {shardId : BitVec 64} {relationId : Oid} {lo hi : String} {typeId : Oid}
    {typeMod : BitVec 32} {minValue maxValue : Datum}
    (typed : intervalType env partitions relationId = .ok (typeId, typeMod))
    (minAccepted : env.backend.typeInput typeId typeMod lo = .ok minValue)
    (maxAccepted : env.backend.typeInput typeId typeMod hi = .ok maxValue) :
    shardIntervalFromRow env partitions shardId relationId lo hi =
      .ok ⟨shardId, relationId, minValue, maxValue, typeId⟩ := by
  simp [shardIntervalFromRow, typed, inputFunctionCall, minAccepted, maxAccepted, Except.mapError]

/-- A shard row `LoadShardInterval` converts: both boundaries are texts, not NULL, that the input
function of the interval type accepts. -/
def BoundariesAccepted (env : Env) (typeId : Oid) (typeMod : BitVec 32) (row : HeapTuple) : Prop :=
  ∃ lo hi, heapGetattr row attrNumShardMinValue = (textGetDatum lo, false) ∧
    heapGetattr row attrNumShardMaxValue = (textGetDatum hi, false) ∧
    (∃ minValue, env.backend.typeInput typeId typeMod lo = .ok minValue) ∧
    ∃ maxValue, env.backend.typeInput typeId typeMod hi = .ok maxValue

theorem loadShardInterval_ok_iff (env : Env) {catalog : Catalog} {shardId : BitVec 64}
    {row : HeapTuple} {relationId : Oid}
    (scan : (int8IndexScan catalog.shards attrNumShardId shardId).head? = some row)
    (relation : datumGetObjectId (heapGetattr row attrNumShardRelationId).1 = relationId) :
    (∃ shardInterval, loadShardInterval env catalog shardId = .ok shardInterval) ↔
      ∃ typeId typeMod, intervalType env catalog.partitions relationId = .ok (typeId, typeMod) ∧
        BoundariesAccepted env typeId typeMod row := by
  rw [loadShardInterval_of_scan env scan, relation]
  constructor
  · rintro ⟨shardInterval, loaded⟩
    simp only [except_bind_eq_ok] at loaded
    obtain ⟨lo, minRead, hi, maxRead, built⟩ := loaded
    obtain ⟨-, -, typeMod, typed, minOk, maxOk⟩ := shardIntervalFromRow_eq_ok built
    exact ⟨_, typeMod, typed, lo, hi, heapGetattr_of_textDatumGetCString minRead,
      heapGetattr_of_textDatumGetCString maxRead, ⟨_, minOk⟩, ⟨_, maxOk⟩⟩
  · rintro ⟨typeId, typeMod, typed, lo, hi, minAt, maxAt, ⟨_, minOk⟩, ⟨_, maxOk⟩⟩
    simp only [minAt, maxAt, textDatumGetCString_textGetDatum, except_ok_bind]
    exact ⟨_, shardIntervalFromRow_accepted env typed minOk maxOk⟩

theorem loadShardInterval_id {env : Env} {catalog : Catalog} {shardId : BitVec 64}
    {shardInterval : ShardInterval} (loaded : loadShardInterval env catalog shardId =
      .ok shardInterval) :
    shardInterval.id = shardId := by
  simp only [loadShardInterval, except_bind_eq_ok] at loaded
  obtain ⟨_, -, built⟩ := loaded
  exact (shardIntervalFromRow_eq_ok built).1

theorem loadShardIntervalList_rows {env : Env} {catalog : Catalog} {t : Oid}
    {intervals : List ShardInterval} (loaded : loadShardIntervalList env catalog t =
      .ok intervals) :
    ∀ shardInterval ∈ intervals, ∃ row ∈ catalog.shards,
      oidKeyMatches attrNumShardRelationId t row ∧ tupleShardId row = shardInterval.id := by
  intro shardInterval mem
  obtain ⟨row, scanned, read⟩ :=
    forall₂_exists_of_mem_right ((mapM_eq_ok _ _ _).mp loaded) mem
  obtain ⟨inTable, keyed⟩ := List.mem_filter.mp scanned
  exact ⟨row, inTable, keyed, (loadShardInterval_id read).symm⟩

/-- A NULL boundary: `InsertShardRow` marks both boundaries NULL, dropping a given one, and a row
so marked ends the backend that loads it. The call itself never gets that far. -/
theorem loadShardInterval_null_boundary (env : Env) (catalog : Catalog) (args : ShardRowArgs)
    (fresh : int8IndexScan catalog.shards attrNumShardId args.shardId = []) :
    insertShardRow args catalog = .error .crash catalog ∧
      loadShardInterval env catalog args.shardId =
        .error (.ereport ⟨.undefinedObject,
          "shard with ID " ++ int64Format args.shardId ++ " does not exist"⟩) ∧
      (args.shardMinValue = none ∨ args.shardMaxValue = none →
        let formed := formedTuple (shardRowArrays args).1 (shardRowArrays args).2
        heapGetattr formed attrNumShardMinValue = (.word 0, true) ∧
          heapGetattr formed attrNumShardMaxValue = (.word 0, true) ∧
          loadShardInterval env { catalog with shards := catalog.shards ++ [formed] }
            args.shardId = .error .crash) := by
  obtain ⟨t, id, storage, min, max⟩ := args
  refine ⟨insertShardRow_crash _ catalog,
    by simp [loadShardInterval, loadShardIntervalRow, fresh], fun null => ?_⟩
  intro formed
  have keyed : heapGetattr formed attrNumShardId = (int64GetDatum id, false) := by
    cases min <;> cases max <;> rfl
  have nulls : heapGetattr formed attrNumShardMinValue = (.word 0, true) ∧
      heapGetattr formed attrNumShardMaxValue = (.word 0, true) := by
    rcases null with rfl | rfl
    · cases max <;> exact ⟨rfl, rfl⟩
    · cases min <;> exact ⟨rfl, rfl⟩
  have scan :
      (int8IndexScan (catalog.shards ++ [formed]) attrNumShardId id).head? = some formed := by
    simp only [int8IndexScan] at fresh ⊢
    simp [List.filter_append, fresh, int8KeyMatches, keyed]
  exact ⟨nulls.1, nulls.2, loadShardInterval_null_row env scan (.inl (by rw [nulls.1]))⟩

theorem loadShardInterval_null_customer :
    int8IndexScan customerCatalog.shards attrNumShardId 1 = [] ∧
      insertShardRow ⟨16384, 1, 116, none, none⟩ customerCatalog = .error .crash customerCatalog ∧
      let formed := formedTuple (shardRowArrays ⟨16384, 1, 116, some "1", none⟩).1
        (shardRowArrays ⟨16384, 1, 116, some "1", none⟩).2
      heapGetattr formed attrNumShardMinValue = (.word 0, true) ∧
        loadShardInterval sampleEnv
          { customerCatalog with shards := customerCatalog.shards ++ [formed] } 1 = .error .crash :=
  have dropped := (loadShardInterval_null_boundary sampleEnv customerCatalog
    ⟨16384, 1, 116, some "1", none⟩ rfl).2.2 (.inr rfl)
  ⟨rfl, (loadShardInterval_null_boundary sampleEnv customerCatalog ⟨16384, 1, 116, none, none⟩
      rfl).1, dropped.1, dropped.2.2⟩

/-! ## The relation scan and the shard id lookup agree -/

/-- Shard ids are a key of the shard table: no row's id is NULL, and no two rows share one. -/
def ShardIdsUnique (shards : List HeapTuple) : Prop :=
  (∀ row ∈ shards, (heapGetattr row attrNumShardId).2 = false) ∧ (shards.map tupleShardId).Nodup

instance (shards : List HeapTuple) : Decidable (ShardIdsUnique shards) :=
  inferInstanceAs (Decidable (_ ∧ _))

theorem int8IndexScan_unique {shards : List HeapTuple} (keyed : ShardIdsUnique shards)
    {row : HeapTuple} (mem : row ∈ shards) :
    int8IndexScan shards attrNumShardId (tupleShardId row) = [row] := by
  rw [int8IndexScan, ← filter_key_eq tupleShardId mem keyed.2]
  refine List.filter_congr fun other inTable => ?_
  have notNull := keyed.1 other inTable
  revert notNull
  unfold int8KeyMatches tupleShardId
  rcases heapGetattr other attrNumShardId with ⟨d, _ | _⟩
  · exact fun _ => rfl
  · simp

theorem oidKeyMatches_eq_true {attnum : AttrNumber} {key : Oid} {row : HeapTuple}
    (keyMatches : oidKeyMatches attnum key row = true) :
    datumGetObjectId (heapGetattr row attnum).1 = key := by
  revert keyMatches
  unfold oidKeyMatches
  rcases heapGetattr row attnum with ⟨d, _ | _⟩ <;> simp

/-- On a shard table whose ids are a key, `LoadShardIntervalList(t)` reads each row of `t` once: when
it returns, its ids are those of `t`'s rows, and every interval is of `t`; and it returns exactly
when `t` has no row, or `t`'s interval type resolves and every row of `t` has both boundaries texts
that type accepts. -/
theorem loadShardIntervalList_agrees (env : Env) (catalog : Catalog)
    (keyed : ShardIdsUnique catalog.shards) (t : Oid) :
    let rowsOfT := catalog.shards.filter (oidKeyMatches attrNumShardRelationId t)
    (∀ intervals, loadShardIntervalList env catalog t = .ok intervals →
      (intervals.map (·.id)).Perm (rowsOfT.map tupleShardId) ∧
        ∀ shardInterval ∈ intervals, shardInterval.relationId = t) ∧
    ((∃ intervals, loadShardIntervalList env catalog t = .ok intervals) ↔
      rowsOfT = [] ∨ ∃ typeId typeMod,
        intervalType env catalog.partitions t = .ok (typeId, typeMod) ∧
          ∀ row ∈ rowsOfT, BoundariesAccepted env typeId typeMod row) := by
  intro rowsOfT
  have scan : ∀ row ∈ rowsOfT,
      (int8IndexScan catalog.shards attrNumShardId (tupleShardId row)).head? = some row :=
    fun row mem => by rw [int8IndexScan_unique keyed (List.mem_filter.mp mem).1]; rfl
  have relation : ∀ row ∈ rowsOfT,
      datumGetObjectId (heapGetattr row attrNumShardRelationId).1 = t :=
    fun row mem => oidKeyMatches_eq_true (List.mem_filter.mp mem).2
  refine ⟨fun intervals loaded => ?_, ?_⟩
  · have read := (mapM_eq_ok _ _ _).mp loaded
    have ids : List.Forall₂ (· = ·) (intervals.map (·.id)) (rowsOfT.map tupleShardId) :=
      List.forall₂_map_left_iff.mpr <| List.forall₂_map_right_iff.mpr <|
        (read.imp fun _ _ loaded => loadShardInterval_id loaded).flip
    rw [List.forall₂_eq_eq_eq] at ids
    refine ⟨.of_eq ids, fun shardInterval mem => ?_⟩
    obtain ⟨row, mem, loaded⟩ := forall₂_exists_of_mem_right read mem
    rw [loadShardInterval_of_scan env (scan row mem), relation row mem] at loaded
    simp only [except_bind_eq_ok] at loaded
    obtain ⟨_, -, _, -, built⟩ := loaded
    exact (shardIntervalFromRow_eq_ok built).2.1
  · have each := fun row mem => loadShardInterval_ok_iff env (scan row mem) (relation row mem)
    rw [loadShardIntervalList, exists_mapM_eq_ok]
    constructor
    · intro loaded
      by_cases empty : rowsOfT = []
      · exact .inl empty
      obtain ⟨first, firstMem⟩ := List.exists_mem_of_ne_nil rowsOfT empty
      obtain ⟨typeId, typeMod, typed, -⟩ := (each first firstMem).mp (loaded first firstMem)
      refine .inr ⟨typeId, typeMod, typed, fun row mem => ?_⟩
      obtain ⟨_, _, typed', accepted⟩ := (each row mem).mp (loaded row mem)
      cases typed.symm.trans typed'
      exact accepted
    · rintro (empty | ⟨typeId, typeMod, typed, accepted⟩) row mem
      · exact absurd (show row ∈ rowsOfT from mem) (empty ▸ List.not_mem_nil _)
      · exact (each row mem).mpr ⟨typeId, typeMod, typed, accepted row mem⟩

/-- A `pg_dist_shard` row as CitusDB writes it: `shardalias` NULL, storage `'t'`. -/
def citusShardRow (relationId : Oid) (shardId : BitVec 64) (minValue maxValue : String) :
    HeapTuple :=
  ⟨invalidOid, [some (objectIdGetDatum relationId), some (int64GetDatum shardId),
    some (charGetDatum 116), none, some (textGetDatum minValue), some (textGetDatum maxValue)]⟩

/-- `customer` with two shards, and a shard of another table between them. -/
def customerShardCatalog : Catalog :=
  { customerCatalog with shards := [citusShardRow 16384 1 "1" "10",
    citusShardRow 16385 2 "a" "b", citusShardRow 16384 3 "11" "20"] }

theorem loadShardIntervalList_agrees_customer :
    ShardIdsUnique customerShardCatalog.shards ∧
      loadShardIntervalList sampleEnv customerShardCatalog 16384 =
        .ok [⟨1, 16384, .word 1, .word 10, int4Oid⟩, ⟨3, 16384, .word 11, .word 20, int4Oid⟩] ∧
      ([1, 3] : List (BitVec 64)).Perm
        ((customerShardCatalog.shards.filter (oidKeyMatches attrNumShardRelationId 16384)).map
          tupleShardId) := by
  have keyed : ShardIdsUnique customerShardCatalog.shards := by decide
  have loaded : loadShardIntervalList sampleEnv customerShardCatalog 16384 =
      .ok [⟨1, 16384, .word 1, .word 10, int4Oid⟩, ⟨3, 16384, .word 11, .word 20, int4Oid⟩] :=
    rfl
  exact ⟨keyed, loaded,
    ((loadShardIntervalList_agrees sampleEnv customerShardCatalog keyed 16384).1 _ loaded).1⟩

end PgShard
