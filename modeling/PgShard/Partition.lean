import PgShard.Catalog

/-!
# Partition rows

`ColumnNameToColumn`, `InsertPartitionRow`, and the readers of `pg_dist_partition`:
`PartitionColumn`, `PartitionType`, `IsDistributedTable` and `DistributedTablesExist`. With
`UseCitusMetadata` the key is stored as the text of the column's `Var` and parsed back on each
read; without it, as the column name, resolved again on each read. `partitionKeyColumn_stored`
says that either way a read gives back the column the insert resolved.
-/

set_option autoImplicit false

namespace PgShard

/-- `ColumnNameToColumn`. -/
def columnNameToColumn (backend : Backend) (relationId : Oid) (columnName : String) :
    Except Fault Var :=
  let columnId := backend.getAttnum relationId columnName
  let relationName := cStringFormat (backend.relName relationId)
  if columnId = invalidAttrNumber then
    .error (.ereport ⟨.undefinedColumn, "column \"" ++ columnName ++ "\" of relation \"" ++
      relationName ++ "\" does not exist"⟩)
  else if !attrNumberIsForUserDefinedAttr columnId then
    .error (.ereport ⟨.invalidColumnReference, "column \"" ++ columnName ++ "\" of relation \"" ++
      relationName ++ "\" is a system column"⟩)
  else do
    let (columnTypeOid, columnTypeMod, columnCollationOid) ←
      backend.getAtttypetypmodcoll relationId columnId
    pure (makeVar 1 columnId columnTypeOid columnTypeMod columnCollationOid 0)

/-- The relation has a live user attribute named `name`. -/
def Backend.IsUserColumn (backend : Backend) (relid : Oid) (name : String) : Prop :=
  ∃ a, backend.HasLiveAttribute relid name a ∧ 0 < a.attnum.toInt

theorem columnNameToColumn_live {backend : Backend} {relid : Oid} {name : String} {a : Attribute}
    (live : backend.HasLiveAttribute relid name a) (user : 0 < a.attnum.toInt) :
    columnNameToColumn backend relid name =
      .ok (makeVar 1 a.attnum a.atttypid a.atttypmod a.attcollation 0) := by
  have valid : a.attnum ≠ invalidAttrNumber := by
    rintro invalid; simp [invalid, invalidAttrNumber] at user
  simp [columnNameToColumn, backend.getAttnum_live live, valid, attrNumberIsForUserDefinedAttr,
    user, backend.getAtttypetypmodcoll_mem live.1]

theorem columnNameToColumn_not_user {backend : Backend} {relid : Oid} {name : String}
    (notUser : ¬ backend.IsUserColumn relid name) :
    ∃ e, columnNameToColumn backend relid name = .error (.ereport e) ∧
      (e.sqlerrcode = .undefinedColumn ∨ e.sqlerrcode = .invalidColumnReference) := by
  by_cases live : ∃ a, backend.HasLiveAttribute relid name a
  · obtain ⟨a, live⟩ := live
    have system : ¬ 0 < a.attnum.toInt := fun user => notUser ⟨a, live, user⟩
    by_cases invalid : a.attnum = invalidAttrNumber
    · simp [columnNameToColumn, backend.getAttnum_live live, invalid]
    · simp [columnNameToColumn, backend.getAttnum_live live, invalid,
        attrNumberIsForUserDefinedAttr, system]
  · push_neg at live
    simp [columnNameToColumn, backend.getAttnum_not_live live]

theorem columnNameToColumn_ok {backend : Backend} {relid : Oid} {name : String} {v : Var}
    (found : columnNameToColumn backend relid name = .ok v) :
    ∃ a, backend.HasLiveAttribute relid name a ∧ 0 < a.attnum.toInt ∧
      v = makeVar 1 a.attnum a.atttypid a.atttypmod a.attcollation 0 := by
  by_cases user : backend.IsUserColumn relid name
  · obtain ⟨a, live, positive⟩ := user
    rw [columnNameToColumn_live live positive] at found
    exact ⟨a, live, positive, (Except.ok.inj found).symm⟩
  · obtain ⟨e, raised, -⟩ := columnNameToColumn_not_user user
    rw [raised] at found
    cases found

/-! ## Writing and reading the partition row -/

section Rows

variable (env : Env)

/-- The key `InsertPartitionRow` stores: the text of the column's `Var`, or the name as given. -/
def partitionKeyDatum (distributedTableId : Oid) (partitionKeyText : String) : Except Fault Datum :=
  if env.useCitusMetadata then do
    let partitionColumn ← columnNameToColumn env.backend distributedTableId partitionKeyText
    pure (textGetDatum (nodeToString partitionColumn))
  else pure (textGetDatum partitionKeyText)

/-- The `values` array `InsertPartitionRow` fills. -/
def partitionValues (distributedTableId : Oid) (partitionType : BitVec 8) (key : Datum) :
    List Datum :=
  let header := env.header
  setAttr (setAttr (setAttr (List.replicate header.partitionTableAttributeCount (.word 0))
    header.attrNumPartitionRelationId (objectIdGetDatum distributedTableId))
    header.attrNumPartitionType (charGetDatum partitionType))
    header.attrNumPartitionKey key

/-- The column types of `pg_dist_partition` `(logicalrelid oid, partmethod "char", partkey text)`:
only the key is passed by reference. -/
def partitionTableByReference : List Bool :=
  setAttr (List.replicate env.header.partitionTableAttributeCount false)
    env.header.attrNumPartitionKey true

/-- The tuple `InsertPartitionRow` forms, with no NULL attribute. -/
def partitionTuple (distributedTableId : Oid) (partitionType : BitVec 8) (key : Datum) :
    HeapTuple :=
  formedTuple (partitionValues env distributedTableId partitionType key)
    (List.replicate env.header.partitionTableAttributeCount false)

/-- `InsertPartitionRow`. The key is resolved before the table is opened, so a failed lookup
raises with the catalog as it was. -/
def insertPartitionRow (distributedTableId : Oid) (partitionType : BitVec 8)
    (partitionKeyText : String) : EStateM Fault Catalog Unit := fun catalog =>
  match partitionKeyDatum env distributedTableId partitionKeyText with
  | .error e => .error e catalog
  | .ok key =>
      match heapFormTuple (partitionTableByReference env)
          (partitionValues env distributedTableId partitionType key)
          (List.replicate env.header.partitionTableAttributeCount false) with
      | .ok heapTuple => .ok () { catalog with partitions := catalog.partitions ++ [heapTuple] }
      | .error e => .error e catalog

/-- The first tuple the scans of `pg_dist_partition` by relation id return. -/
def partitionRow (partitions : List HeapTuple) (distributedTableId : Oid) : Option HeapTuple :=
  partitions.find? (oidKeyMatches env.header.attrNumPartitionRelationId distributedTableId)

def noPartitionColumn (distributedTableId : Oid) : Fault :=
  .ereport ⟨.undefinedObject, "no partition column is defined for relation \"" ++
    cStringFormat (env.backend.relName distributedTableId) ++ "\""⟩

/-- How `PartitionColumn` turns the stored key into a `Var`; `Assert(IsA(partitionNode, Var))`
fails on anything else. -/
def partitionKeyColumn (distributedTableId : Oid) (keyDatum : Datum) : Except Fault Var :=
  if env.useCitusMetadata then do
    let keyString ← textDatumGetCString keyDatum
    match ← stringToNode keyString with
    | .var partitionColumn => pure partitionColumn
    | .other => throw .crash
  else do
    let partitionColumnName ← textDatumGetCString keyDatum
    columnNameToColumn env.backend distributedTableId partitionColumnName

/-- `PartitionColumn`. -/
def partitionColumn (partitions : List HeapTuple) (distributedTableId : Oid) : Except Fault Var :=
  match partitionRow env partitions distributedTableId with
  | some tuple =>
      partitionKeyColumn env distributedTableId (heapGetattr tuple env.header.attrNumPartitionKey).1
  | none => .error (noPartitionColumn env distributedTableId)

/-- `PartitionType`. -/
def partitionType (partitions : List HeapTuple) (distributedTableId : Oid) :
    Except Fault (BitVec 8) :=
  match partitionRow env partitions distributedTableId with
  | some tuple => .ok (datumGetChar (heapGetattr tuple env.header.attrNumPartitionType).1)
  | none => .error (noPartitionColumn env distributedTableId)

/-- `IsDistributedTable`. -/
def isDistributedTable (partitions : List HeapTuple) (tableId : Oid) : Bool :=
  (partitionRow env partitions tableId).isSome

/-- `DistributedTablesExist`: the unkeyed scan finds a first tuple. -/
def distributedTablesExist (partitions : List HeapTuple) : Bool := !partitions.isEmpty

theorem partitionKeyColumn_stored {distributedTableId : Oid} {partitionKeyText : String}
    {key : Datum} (stored : partitionKeyDatum env distributedTableId partitionKeyText = .ok key) :
    partitionKeyColumn env distributedTableId key =
      columnNameToColumn env.backend distributedTableId partitionKeyText := by
  unfold partitionKeyDatum at stored
  unfold partitionKeyColumn
  cases citus : env.useCitusMetadata
  · simp only [citus] at stored
    cases stored
    simp
  · simp only [citus, if_true] at stored
    cases resolved : columnNameToColumn env.backend distributedTableId partitionKeyText with
    | error e => simp [resolved] at stored
    | ok v =>
        simp only [resolved, except_ok_bind] at stored
        cases stored
        obtain ⟨a, -, -, rfl⟩ := columnNameToColumn_ok resolved
        simp [stringToNode_nodeToString_makeVar]
        rfl

theorem partitionKeyDatum_ok {distributedTableId : Oid} {partitionKeyText : String}
    (user : env.backend.IsUserColumn distributedTableId partitionKeyText) :
    ∃ key, partitionKeyDatum env distributedTableId partitionKeyText = .ok key := by
  obtain ⟨a, live, positive⟩ := user
  unfold partitionKeyDatum
  split
  · simp [columnNameToColumn_live live positive]
  · exact ⟨_, rfl⟩

theorem partitionKeyDatum_isPointer {distributedTableId : Oid} {partitionKeyText : String}
    {key : Datum} (stored : partitionKeyDatum env distributedTableId partitionKeyText = .ok key) :
    key.isPointer := by
  unfold partitionKeyDatum at stored
  split at stored
  · obtain ⟨v, -, text⟩ := (except_bind_eq_ok _ _ _).mp stored
    cases text
    rfl
  · cases stored
    rfl

/-- `heap_form_tuple` forms every row `InsertPartitionRow` writes: its one by-reference column
holds the key's text. -/
theorem insertPartitionRow_eq (distributedTableId : Oid) (partitionType : BitVec 8)
    (partitionKeyText : String) (catalog : Catalog) :
    insertPartitionRow env distributedTableId partitionType partitionKeyText catalog =
      match partitionKeyDatum env distributedTableId partitionKeyText with
      | .error e => .error e catalog
      | .ok key => .ok () { catalog with partitions := catalog.partitions ++
          [partitionTuple env distributedTableId partitionType key] } := by
  unfold insertPartitionRow
  cases stored : partitionKeyDatum env distributedTableId partitionKeyText with
  | error e => rfl
  | ok key =>
      obtain ⟨keyPos, keyLe⟩ :=
        env.header.partition_attrs_valid env.header.attrNumPartitionKey (by simp)
      have formed : heapFormTuple (partitionTableByReference env)
          (partitionValues env distributedTableId partitionType key)
          (List.replicate env.header.partitionTableAttributeCount false) =
            .ok (partitionTuple env distributedTableId partitionType key) := by
        refine heapFormTuple_single _ _ _ _ fun value read => ?_
        rw [partitionValues, getElem?_setAttr_self _ _ _ keyPos
          (by simpa [length_setAttr] using keyLe)] at read
        cases read
        exact partitionKeyDatum_isPointer env stored
      dsimp only
      rw [formed]

theorem insertPartitionRow_shards {distributedTableId : Oid} {partitionType : BitVec 8}
    {partitionKeyText : String} {catalog catalog' : Catalog}
    (inserted : insertPartitionRow env distributedTableId partitionType partitionKeyText catalog =
      .ok () catalog') :
    catalog'.shards = catalog.shards := by
  rw [insertPartitionRow_eq] at inserted
  split at inserted <;> cases inserted
  rfl

theorem heapGetattr_partitionTuple (distributedTableId : Oid) (partitionType : BitVec 8)
    (key : Datum) :
    let tuple := partitionTuple env distributedTableId partitionType key
    heapGetattr tuple env.header.attrNumPartitionRelationId =
        (objectIdGetDatum distributedTableId, false) ∧
      heapGetattr tuple env.header.attrNumPartitionType = (charGetDatum partitionType, false) ∧
      heapGetattr tuple env.header.attrNumPartitionKey = (key, false) := by
  obtain ⟨⟨relPos, relLe⟩, ⟨typePos, typeLe⟩, ⟨keyPos, keyLe⟩⟩ :
      (_ ∧ _) ∧ (_ ∧ _) ∧ (_ ∧ _) := by simpa using env.header.partition_attrs_valid
  obtain ⟨⟨relType, relKey⟩, typeKey⟩ : (_ ∧ _) ∧ _ := by
    simpa using env.header.partition_attrs_nodup
  have length : (partitionValues env distributedTableId partitionType key).length =
      env.header.partitionTableAttributeCount := by simp [partitionValues, length_setAttr]
  simp only [partitionTuple, ← length]
  refine ⟨heapGetattr_formedTuple relPos ?_, heapGetattr_formedTuple typePos ?_,
    heapGetattr_formedTuple keyPos ?_⟩ <;> simp only [partitionValues]
  · rw [getElem?_setAttr_ne _ _ keyPos relPos (Ne.symm relKey),
      getElem?_setAttr_ne _ _ typePos relPos (Ne.symm relType),
      getElem?_setAttr_self _ _ _ relPos (by simpa using relLe)]
  · rw [getElem?_setAttr_ne _ _ keyPos typePos (Ne.symm typeKey),
      getElem?_setAttr_self _ _ _ typePos (by simpa [length_setAttr] using typeLe)]
  · rw [getElem?_setAttr_self _ _ _ keyPos (by simpa [length_setAttr] using keyLe)]

@[simp] theorem oidKeyMatches_partitionTuple (distributedTableId key : Oid)
    (partitionType : BitVec 8) (keyDatum : Datum) :
    oidKeyMatches env.header.attrNumPartitionRelationId key
        (partitionTuple env distributedTableId partitionType keyDatum) =
      (distributedTableId == key) := by
  simp [oidKeyMatches, (heapGetattr_partitionTuple env distributedTableId partitionType
    keyDatum).1]

/-! ## Runs of inserts -/

/-- A run of `InsertPartitionRow` calls `(t, m, n)`, each on the catalog the one before left. -/
def insertPartitionRows : List (Oid × BitVec 8 × String) → Catalog → Catalog
  | [], catalog => catalog
  | (t, m, n) :: calls, catalog =>
      insertPartitionRows calls (resultState (insertPartitionRow env t m n catalog))

/-- The rows a run adds: one for each call whose key resolves. -/
def partitionRows (calls : List (Oid × BitVec 8 × String)) : List HeapTuple :=
  calls.filterMap fun (t, m, n) => (partitionKeyDatum env t n).toOption.map (partitionTuple env t m)

theorem insertPartitionRows_partitions (calls : List (Oid × BitVec 8 × String))
    (catalog : Catalog) :
    (insertPartitionRows env calls catalog).partitions =
      catalog.partitions ++ partitionRows env calls := by
  induction calls generalizing catalog with
  | nil => simp [insertPartitionRows, partitionRows]
  | cons call calls ih =>
      obtain ⟨t, m, n⟩ := call
      simp only [insertPartitionRows, partitionRows, List.filterMap_cons, ih]
      rw [insertPartitionRow_eq]
      cases partitionKeyDatum env t n <;> simp [resultState, partitionRows]

theorem partitionRow_cons (t' t : Oid) (m : BitVec 8) (key : Datum) (rows : List HeapTuple) :
    partitionRow env (partitionTuple env t' m key :: rows) t =
      if t' = t then some (partitionTuple env t' m key) else partitionRow env rows t := by
  by_cases same : t' = t <;> simp [partitionRow, List.find?_cons, same]

theorem partitionRow_partitionRows (calls : List (Oid × BitVec 8 × String))
    (distinct : (calls.map Prod.fst).Nodup) (t : Oid) :
    partitionRow env (partitionRows env calls) t =
      (calls.find? (·.1 = t)).bind fun (t, m, n) =>
        (partitionKeyDatum env t n).toOption.map (partitionTuple env t m) := by
  induction calls with
  | nil => rfl
  | cons call calls ih =>
      obtain ⟨t', m, n⟩ := call
      simp only [List.map_cons, List.nodup_cons, List.mem_map] at distinct
      specialize ih distinct.2
      simp only [partitionRows, List.filterMap_cons] at ih ⊢
      by_cases same : t' = t
      · subst same
        have later : calls.find? (·.1 = t') = none :=
          List.find?_eq_none.mpr fun c mem eq => distinct.1 ⟨c, mem, by simpa using eq⟩
        cases key : partitionKeyDatum env t' n <;> simp [key, partitionRow_cons, ih, later]
      · cases key : partitionKeyDatum env t' n <;> simp [key, partitionRow_cons, ih, same]

theorem partitionRow_of_mem {calls : List (Oid × BitVec 8 × String)}
    (distinct : (calls.map Prod.fst).Nodup) {t : Oid} {m : BitVec 8} {n : String}
    (mem : (t, m, n) ∈ calls) :
    partitionRow env (partitionRows env calls) t =
      (partitionKeyDatum env t n).toOption.map (partitionTuple env t m) := by
  have first : calls.find? (·.1 = t) = some (t, m, n) := find?_key_eq Prod.fst mem distinct
  simp [partitionRow_partitionRows env calls distinct, first]

theorem partitionRow_of_not_mem {calls : List (Oid × BitVec 8 × String)}
    (distinct : (calls.map Prod.fst).Nodup) {t : Oid} (absent : t ∉ calls.map Prod.fst) :
    partitionRow env (partitionRows env calls) t = none := by
  have none : calls.find? (·.1 = t) = none :=
    List.find?_eq_none.mpr fun c mem same =>
      absent (List.mem_map.mpr ⟨c, mem, by simpa using same⟩)
  simp [partitionRow_partitionRows env calls distinct, none]

theorem partitionRows_inserted {calls : List (Oid × BitVec 8 × String)}
    (distinct : (calls.map Prod.fst).Nodup) {t : Oid} {m : BitVec 8} {n : String}
    (mem : (t, m, n) ∈ calls) (user : env.backend.IsUserColumn t n) :
    (partitionRow env (partitionRows env calls) t).isSome ∧
      partitionType env (partitionRows env calls) t = .ok m ∧
      partitionColumn env (partitionRows env calls) t = columnNameToColumn env.backend t n := by
  obtain ⟨key, stored⟩ := partitionKeyDatum_ok env user
  have found : partitionRow env (partitionRows env calls) t =
    some (partitionTuple env t m key) := by
    simp [partitionRow_of_mem env distinct mem, stored]
  have reads := heapGetattr_partitionTuple env t m key
  refine ⟨by simp [found], by simp [partitionType, found, reads.2.1], ?_⟩
  simp only [partitionColumn, found, reads.2.2]
  exact partitionKeyColumn_stored env stored

/-- A run of inserts on distinct tables, each naming a user column: every table reads back as
inserted under either key encoding, no other table is distributed, and with `UseCitusMetadata` an
insert naming anything else raises before it writes. -/
theorem insertPartitionRows_spec (calls : List (Oid × BitVec 8 × String))
    (distinct : (calls.map Prod.fst).Nodup)
    (userColumns : ∀ call ∈ calls, env.backend.IsUserColumn call.1 call.2.2) :
    let partitions := (insertPartitionRows env calls Catalog.empty).partitions
    (distributedTablesExist partitions ↔ calls ≠ []) ∧
    (∀ t, isDistributedTable env partitions t ↔ t ∈ calls.map Prod.fst) ∧
    (∀ t m n, (t, m, n) ∈ calls →
      partitionType env partitions t = .ok m ∧
      ∃ v, columnNameToColumn env.backend t n = .ok v ∧
        partitionColumn env partitions t = .ok v) ∧
    (∀ t, t ∉ calls.map Prod.fst →
      partitionType env partitions t = .error (noPartitionColumn env t) ∧
      partitionColumn env partitions t = .error (noPartitionColumn env t)) ∧
    (env.useCitusMetadata = true → ∀ catalog t m n, ¬ env.backend.IsUserColumn t n →
      ∃ e, insertPartitionRow env t m n catalog = .error (.ereport e) catalog ∧
        (e.sqlerrcode = .undefinedColumn ∨ e.sqlerrcode = .invalidColumnReference)) := by
  intro partitions
  have rows : partitions = partitionRows env calls := by
    simp [partitions, insertPartitionRows_partitions, Catalog.empty]
  have inserted : ∀ t m n, (t, m, n) ∈ calls →
      (partitionRow env partitions t).isSome ∧ partitionType env partitions t = .ok m ∧
        partitionColumn env partitions t = columnNameToColumn env.backend t n :=
    fun t m n mem => rows ▸ partitionRows_inserted env distinct mem (userColumns _ mem)
  have absent : ∀ t, t ∉ calls.map Prod.fst → partitionRow env partitions t = none :=
    fun t notMem => rows ▸ partitionRow_of_not_mem env distinct notMem
  refine ⟨?tablesExist, ?distributed, ?inserted, ?absent, ?rejected⟩
  case tablesExist =>
    constructor
    · rintro tablesExist rfl
      simp [rows, partitionRows, distributedTablesExist] at tablesExist
    · intro nonempty
      obtain ⟨⟨t, m, n⟩, mem⟩ := List.exists_mem_of_ne_nil calls nonempty
      obtain ⟨found, -⟩ := inserted t m n mem
      have : partitions ≠ [] := by rintro empty; simp [empty, partitionRow] at found
      simpa [distributedTablesExist] using this
  case distributed =>
    intro t
    constructor
    · intro distributed
      by_contra notMem
      simp [isDistributedTable, absent t notMem] at distributed
    · intro mem
      obtain ⟨⟨t, m, n⟩, inCalls, rfl⟩ := List.mem_map.mp mem
      exact (inserted t m n inCalls).1
  case inserted =>
    intro t m n mem
    obtain ⟨-, typeRead, columnRead⟩ := inserted t m n mem
    obtain ⟨a, live, positive⟩ := userColumns _ mem
    refine ⟨typeRead, _, columnNameToColumn_live live positive, ?_⟩
    rw [columnRead, columnNameToColumn_live live positive]
  case absent =>
    intro t notMem
    simp [partitionType, partitionColumn, absent t notMem]
  case rejected =>
    intro citus catalog t m n notUser
    obtain ⟨e, raised, code⟩ := columnNameToColumn_not_user notUser
    refine ⟨e, ?_, code⟩
    simp [insertPartitionRow_eq, partitionKeyDatum, citus, raised]

end Rows

theorem insertPartitionRows_spec_customer :
    ([(16384 : Oid)].Nodup ∧ sampleEnv.backend.IsUserColumn 16384 "id") ∧
      partitionColumn sampleEnv
          (insertPartitionRows sampleEnv [(16384, 104, "id")] Catalog.empty).partitions 16384 =
        .ok (makeVar 1 1 int4Oid (-1) 0 0) := by
  have live : sampleEnv.backend.HasLiveAttribute 16384 "id" ⟨1, "id", int4Oid, -1, 0, false⟩ :=
    ⟨by decide, rfl, rfl⟩
  have user : sampleEnv.backend.IsUserColumn 16384 "id" := ⟨_, live, by decide⟩
  have spec := insertPartitionRows_spec sampleEnv [(16384, 104, "id")] (by decide)
    (by simpa using user)
  obtain ⟨v, resolved, read⟩ := (spec.2.2.1 16384 104 "id" (by simp)).2
  refine ⟨⟨by decide, user⟩, read.trans ?_⟩
  rw [columnNameToColumn_live live (by decide)] at resolved
  exact resolved.symm

/-- The catalog after `customer` is distributed by hash (`'h'`) on `id`. -/
def customerCatalog : Catalog := insertPartitionRows sampleEnv [(16384, 104, "id")] Catalog.empty

end PgShard
