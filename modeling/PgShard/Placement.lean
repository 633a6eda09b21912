import PgShard.Catalog

/-!
# Shard placements

`InsertShardPlacementRow`, `DeleteShardPlacementRow`, `TupleToShardPlacement`,
`LoadShardPlacementList` and `LoadFinalizedShardPlacementList` over `pg_dist_shard_placement`, a
table with OIDs: `(shardid, shardstate, shardlength, nodename, nodeport)`, and a placement's id is
its row's `oid`.

`InsertShardPlacementRow` writes the placement id it is given to
`values[AttrNumShardPlacementId - 1]`, and `AttrNumShardPlacementId` is `ObjectIdAttributeNumber`,
`-2`: the write lands outside the array, and the id never reaches the row
(`insertShardPlacementRow_id_lost`). The row's `oid` is the one `simple_heap_insert` gives it, and
that is the id the loader reports and the deleter looks for. What the code keeps is therefore a
directory of placements keyed by the OID the heap assigned (`placementRun_refines`).
-/

set_option autoImplicit false

namespace PgShard

def shardPlacementTableAttributeCount : Nat := 5

def attrNumShardPlacementId : AttrNumber := objectIdAttributeNumber

def attrNumShardPlacementShardId : AttrNumber := 1

def attrNumShardPlacementShardState : AttrNumber := 2

def attrNumShardPlacementNodeName : AttrNumber := 4

def attrNumShardPlacementNodePort : AttrNumber := 5

/-- The arguments of one `InsertShardPlacementRow` call. -/
structure PlacementArgs where
  shardPlacementId : BitVec 64
  shardId : BitVec 64
  shardState : BitVec 32
  nodeName : String
  nodePort : BitVec 32
  deriving DecidableEq, Repr

/-- The column types of `pg_dist_shard_placement`, `(shardid bigint, shardstate integer,
shardlength bigint, nodename text, nodeport integer)`: only `nodename` is passed by reference. -/
def placementTableByReference : List Bool :=
  setAttr (List.replicate shardPlacementTableAttributeCount false) attrNumShardPlacementNodeName true

/-- The `values` array `InsertShardPlacementRow` fills; `isNulls` is all false. -/
def placementValues (args : PlacementArgs) : List Datum :=
  setAttr (setAttr (setAttr (setAttr (setAttr
    (List.replicate shardPlacementTableAttributeCount (.word 0))
    attrNumShardPlacementId (int64GetDatum args.shardPlacementId))
    attrNumShardPlacementShardId (int64GetDatum args.shardId))
    attrNumShardPlacementShardState (uInt32GetDatum args.shardState))
    attrNumShardPlacementNodeName (textGetDatum args.nodeName))
    attrNumShardPlacementNodePort (uInt32GetDatum args.nodePort)

/-- The tuple `InsertShardPlacementRow` forms, with the `oid` that `simple_heap_insert` then gives
it. -/
def placementTuple (newOid : Oid) (args : PlacementArgs) : HeapTuple :=
  { formedTuple (placementValues args) (List.replicate shardPlacementTableAttributeCount false) with
    oid := newOid }

/-- `InsertShardPlacementRow`. `simple_heap_insert` gives the row a new OID (`GetNewOid`): the
model takes it as `newOid`, and the results below assume what `GetNewOid` guarantees, that no row
of the table has it. -/
def insertShardPlacementRow (newOid : Oid) (args : PlacementArgs) :
    EStateM Fault Catalog Unit := fun catalog =>
  match heapFormTuple placementTableByReference (placementValues args)
      (List.replicate shardPlacementTableAttributeCount false) with
  | .ok heapTuple =>
      .ok () { catalog with placements := catalog.placements ++ [{ heapTuple with oid := newOid }] }
  | .error e => .error e catalog

/-- `nodename` holds a text: the tuple is formed and appended. -/
theorem insertShardPlacementRow_eq (newOid : Oid) (args : PlacementArgs) (catalog : Catalog) :
    insertShardPlacementRow newOid args catalog =
      .ok () { catalog with placements := catalog.placements ++ [placementTuple newOid args] } :=
  rfl

def placementNotFound (shardPlacementId : BitVec 64) : Fault :=
  .ereport ⟨.undefinedObject,
    "shard placement with ID " ++ int64Format shardPlacementId ++ " does not exist"⟩

/-- `DeleteShardPlacementRow`: the first row the `oid` index returns for the key, compared with
`F_INT8EQ`, is deleted. -/
def deleteShardPlacementRow (shardPlacementId : BitVec 64) : EStateM Fault Catalog Unit :=
  fun catalog =>
    match (int8IndexScan catalog.placements objectIdAttributeNumber shardPlacementId).head? with
    | some heapTuple => .ok () { catalog with placements := catalog.placements.erase heapTuple }
    | none => .error (placementNotFound shardPlacementId) catalog

/-- `TupleToShardPlacement`. -/
def tupleToShardPlacement (env : Env) (heapTuple : HeapTuple) : Except Fault ShardPlacement := do
  let idDatum := (heapGetattr heapTuple attrNumShardPlacementId).1
  let shardIdDatum := (heapGetattr heapTuple attrNumShardPlacementShardId).1
  let shardStateDatum := (heapGetattr heapTuple attrNumShardPlacementShardState).1
  let nodeNameDatum := (heapGetattr heapTuple attrNumShardPlacementNodeName).1
  let nodePortDatum := (heapGetattr heapTuple attrNumShardPlacementNodePort).1
  let id := if env.useCitusMetadata then (datumGetObjectId idDatum).setWidth 64
    else datumGetInt64 idDatum
  let nodeName ← textDatumGetCString nodeNameDatum
  pure ⟨id, datumGetInt64 shardIdDatum, datumGetInt32 shardStateDatum, nodeName,
    datumGetInt32 nodePortDatum⟩

def noPlacements (shardId : BitVec 64) : Fault :=
  .ereport ⟨.noData, "no placements exist for shard with ID " ++ int64Format shardId⟩

/-- `LoadShardPlacementList`: one placement per row the `shardid` index returns, in order; no row
is an error. -/
def loadShardPlacementList (env : Env) (placements : List HeapTuple) (shardId : BitVec 64) :
    Except Fault (List ShardPlacement) := do
  let shardPlacementList ←
    (int8IndexScan placements attrNumShardPlacementShardId shardId).mapM (tupleToShardPlacement env)
  if shardPlacementList = [] then .error (noPlacements shardId) else pure shardPlacementList

/-- `LoadFinalizedShardPlacementList`. -/
def loadFinalizedShardPlacementList (env : Env) (placements : List HeapTuple)
    (shardId : BitVec 64) : Except Fault (List ShardPlacement) := do
  let shardPlacementList ← loadShardPlacementList env placements shardId
  pure (shardPlacementList.filter (·.shardState = env.header.stateFinalized))

/-! ## The rows `InsertShardPlacementRow` writes -/

@[simp] theorem placementTuple_oid (newOid : Oid) (args : PlacementArgs) :
    (placementTuple newOid args).oid = newOid := rfl

theorem heapGetattr_placementTuple (newOid : Oid) (args : PlacementArgs) :
    heapGetattr (placementTuple newOid args) attrNumShardPlacementShardId =
        (int64GetDatum args.shardId, false) ∧
      heapGetattr (placementTuple newOid args) attrNumShardPlacementShardState =
        (uInt32GetDatum args.shardState, false) ∧
      heapGetattr (placementTuple newOid args) attrNumShardPlacementNodeName =
        (textGetDatum args.nodeName, false) ∧
      heapGetattr (placementTuple newOid args) attrNumShardPlacementNodePort =
        (uInt32GetDatum args.nodePort, false) :=
  ⟨rfl, rfl, rfl, rfl⟩

theorem tupleToShardPlacement_placementTuple (env : Env) (citus : env.useCitusMetadata = true)
    (newOid : Oid) (args : PlacementArgs) :
    tupleToShardPlacement env (placementTuple newOid args) =
      .ok ⟨newOid.setWidth 64, args.shardId, args.shardState, args.nodeName,
        args.nodePort⟩ := by
  obtain ⟨shardIdRead, stateRead, nameRead, portRead⟩ := heapGetattr_placementTuple newOid args
  have oidRead : heapGetattr (placementTuple newOid args) attrNumShardPlacementId =
      (objectIdGetDatum newOid, false) := rfl
  simp only [tupleToShardPlacement, citus, if_true, oidRead, shardIdRead, stateRead, nameRead,
    portRead, datumGetObjectId_objectIdGetDatum, datumGetInt64_int64GetDatum,
    datumGetInt32_uInt32GetDatum, textDatumGetCString_textGetDatum, except_ok_bind]
  rfl

@[simp] theorem int8KeyMatches_shardId_placementTuple (newOid : Oid) (args : PlacementArgs)
    (key : BitVec 64) :
    int8KeyMatches attrNumShardPlacementShardId key (placementTuple newOid args) =
      decide (args.shardId = key) := by
  simp [int8KeyMatches, (heapGetattr_placementTuple newOid args).1]
  rfl

theorem tupleToShardPlacement_id (env : Env) (citus : env.useCitusMetadata = true)
    {heapTuple : HeapTuple} {shardPlacement : ShardPlacement}
    (read : tupleToShardPlacement env heapTuple = .ok shardPlacement) :
    shardPlacement.id = heapTuple.oid.setWidth 64 := by
  simp only [tupleToShardPlacement, citus, if_true, attrNumShardPlacementId, heapGetattr_oid,
    datumGetObjectId_objectIdGetDatum, except_bind_eq_ok, pure, Except.pure,
      Except.ok.injEq] at read
  obtain ⟨_, -, rfl⟩ := read
  rfl

theorem loadShardPlacementList_ok {env : Env} {placements : List HeapTuple} {shardId : BitVec 64}
    {shardPlacementList : List ShardPlacement}
    (loaded : loadShardPlacementList env placements shardId = .ok shardPlacementList) :
    List.Forall₂ (fun heapTuple shardPlacement =>
        tupleToShardPlacement env heapTuple = .ok shardPlacement)
      (int8IndexScan placements attrNumShardPlacementShardId shardId) shardPlacementList := by
  simp only [loadShardPlacementList, except_bind_eq_ok] at loaded
  obtain ⟨read, mapped, returned⟩ := loaded
  split at returned
  · cases returned
  · cases returned
    exact (mapM_eq_ok _ _ _).mp mapped

theorem tupleToShardPlacement_named (env : Env) {heapTuple : HeapTuple} {nodeName : String}
    (named : heapGetattr heapTuple attrNumShardPlacementNodeName = (textGetDatum nodeName, false)) :
    ∃ shardPlacement, tupleToShardPlacement env heapTuple = .ok shardPlacement := by
  simp only [tupleToShardPlacement, named, textDatumGetCString_textGetDatum, except_ok_bind]
  exact ⟨_, rfl⟩

theorem tupleToShardPlacement_shardState {env : Env} {heapTuple : HeapTuple}
    {shardPlacement : ShardPlacement}
    (read : tupleToShardPlacement env heapTuple = .ok shardPlacement) :
    shardPlacement.shardState =
      datumGetInt32 (heapGetattr heapTuple attrNumShardPlacementShardState).1 := by
  simp only [tupleToShardPlacement, except_bind_eq_ok, pure, Except.pure, Except.ok.injEq] at read
  obtain ⟨_, -, rfl⟩ := read
  rfl

theorem loadShardPlacementList_named (env : Env) (placements : List HeapTuple) (shardId : BitVec 64)
    (named : ∀ heapTuple ∈ int8IndexScan placements attrNumShardPlacementShardId shardId,
      ∃ nodeName,
        heapGetattr heapTuple attrNumShardPlacementNodeName = (textGetDatum nodeName, false)) :
    ∃ shardPlacementList,
      List.Forall₂ (fun heapTuple shardPlacement =>
          tupleToShardPlacement env heapTuple = .ok shardPlacement)
        (int8IndexScan placements attrNumShardPlacementShardId shardId) shardPlacementList ∧
      loadShardPlacementList env placements shardId =
        if shardPlacementList = [] then .error (noPlacements shardId) else .ok shardPlacementList := by
  obtain ⟨shardPlacementList, mapped⟩ := (exists_mapM_eq_ok _ _).mpr fun heapTuple mem =>
    let ⟨_, named⟩ := named heapTuple mem
    tupleToShardPlacement_named env named
  refine ⟨shardPlacementList, (mapM_eq_ok _ _ _).mp mapped, ?_⟩
  simp only [loadShardPlacementList, mapped, except_ok_bind]
  rfl

/-- On every placement table whose rows of the shard have node names: the finalized list raises
exactly when the full list raises, with the same error, which happens exactly when the shard has
no row; otherwise the full list has one placement per row and the finalized list is its finalized
placements in order, so a shard whose rows are none finalized gives the empty list. -/
theorem loadFinalizedShardPlacementList_spec (env : Env) (placements : List HeapTuple)
    (shardId : BitVec 64)
    (named : ∀ heapTuple ∈ int8IndexScan placements attrNumShardPlacementShardId shardId,
      ∃ nodeName,
        heapGetattr heapTuple attrNumShardPlacementNodeName = (textGetDatum nodeName, false)) :
    let rows := int8IndexScan placements attrNumShardPlacementShardId shardId
    (∀ e, loadFinalizedShardPlacementList env placements shardId = .error e ↔
      loadShardPlacementList env placements shardId = .error e) ∧
    (∀ e, loadShardPlacementList env placements shardId = .error e ↔
      rows = [] ∧ e = noPlacements shardId) ∧
    (∀ shardPlacementList,
      loadShardPlacementList env placements shardId = .ok shardPlacementList →
      List.Forall₂ (fun heapTuple shardPlacement =>
          tupleToShardPlacement env heapTuple = .ok shardPlacement) rows shardPlacementList ∧
        loadFinalizedShardPlacementList env placements shardId =
          .ok (shardPlacementList.filter (·.shardState = env.header.stateFinalized))) ∧
    (rows ≠ [] → (∀ heapTuple ∈ rows, datumGetInt32
        (heapGetattr heapTuple attrNumShardPlacementShardState).1 ≠ env.header.stateFinalized) →
      loadFinalizedShardPlacementList env placements shardId = .ok []) := by
  intro rows
  have finalized : ∀ shardPlacementList,
      loadShardPlacementList env placements shardId = .ok shardPlacementList →
      loadFinalizedShardPlacementList env placements shardId =
        .ok (shardPlacementList.filter (·.shardState = env.header.stateFinalized)) := by
    intro shardPlacementList loaded
    simp [loadFinalizedShardPlacementList, loaded]
  obtain ⟨shardPlacementList, read, loaded⟩ :=
    loadShardPlacementList_named env placements shardId named
  have empty : shardPlacementList = [] ↔ rows = [] := by
    rw [← List.length_eq_zero, ← List.length_eq_zero, read.length_eq]
  refine ⟨fun e => ?_, fun e => ?_, fun l loaded => ⟨loadShardPlacementList_ok loaded,
    finalized l loaded⟩, fun nonEmpty none => ?_⟩
  · unfold loadFinalizedShardPlacementList
    cases loadShardPlacementList env placements shardId <;> simp
  · rw [loaded, ← empty]
    split
    · next isEmpty => simp [isEmpty, eq_comm]
    · next nonEmpty => simp [nonEmpty]
  · rw [finalized shardPlacementList (by simpa [loaded] using mt empty.mp nonEmpty),
      List.filter_eq_nil_iff.mpr]
    intro shardPlacement mem
    obtain ⟨heapTuple, scanned, first⟩ := forall₂_exists_of_mem_right read mem
    simpa [tupleToShardPlacement_shardState first] using none heapTuple scanned

theorem loadFinalizedShardPlacementList_spec_localhost :
    (∀ heapTuple ∈ int8IndexScan [placementTuple 16384 ⟨1, 10, 3, "localhost", 5432⟩]
        attrNumShardPlacementShardId 10,
      ∃ nodeName,
        heapGetattr heapTuple attrNumShardPlacementNodeName = (textGetDatum nodeName, false)) ∧
      loadFinalizedShardPlacementList sampleEnv [placementTuple 16384 ⟨1, 10, 3, "localhost", 5432⟩]
        10 = .ok [] := by
  have named : ∀ heapTuple ∈ int8IndexScan [placementTuple 16384 ⟨1, 10, 3, "localhost", 5432⟩]
      attrNumShardPlacementShardId 10, ∃ nodeName,
        heapGetattr heapTuple attrNumShardPlacementNodeName = (textGetDatum nodeName, false) := by
    intro heapTuple mem
    obtain rfl : heapTuple = placementTuple 16384 ⟨1, 10, 3, "localhost", 5432⟩ :=
      List.mem_singleton.mp mem
    exact ⟨"localhost", rfl⟩
  exact ⟨named, (loadFinalizedShardPlacementList_spec sampleEnv _ 10 named).2.2.2
    (List.cons_ne_nil _ _) (by decide)⟩

/-- The id given to `InsertShardPlacementRow` is not the placement's id. Unless the heap gives the
row that very OID, deleting by the given id raises `PlacementNotFound` and leaves the table as it
was, and a load of the shard reports the placement under the row's OID and none under the given
id. -/
theorem insertShardPlacementRow_id_lost (env : Env) (citus : env.useCitusMetadata = true)
    (catalog : Catalog) (newOid : Oid) (args : PlacementArgs)
    (noRow : ∀ heapTuple ∈ catalog.placements,
      heapTuple.oid.setWidth 64 ≠ args.shardPlacementId)
    (otherOid : newOid.setWidth 64 ≠ args.shardPlacementId) :
    let after : Catalog :=
      { catalog with placements := catalog.placements ++ [placementTuple newOid args] }
    insertShardPlacementRow newOid args catalog = .ok () after ∧
      deleteShardPlacementRow args.shardPlacementId after =
        .error (placementNotFound args.shardPlacementId) after ∧
      ∀ shardPlacementList, loadShardPlacementList env after.placements args.shardId =
          .ok shardPlacementList →
        ⟨newOid.setWidth 64, args.shardId, args.shardState, args.nodeName, args.nodePort⟩ ∈
            shardPlacementList ∧
          ∀ shardPlacement ∈ shardPlacementList,
            shardPlacement.id ≠ args.shardPlacementId := by
  intro after
  have rows : after.placements = catalog.placements ++ [placementTuple newOid args] := rfl
  refine ⟨insertShardPlacementRow_eq newOid args catalog, ?_, fun shardPlacementList loaded => ?_⟩
  · have none :
        int8IndexScan after.placements objectIdAttributeNumber args.shardPlacementId = [] := by
      simpa [int8IndexScan, rows, int8KeyMatches_oid, List.filter_eq_nil_iff, otherOid] using noRow
    simp [deleteShardPlacementRow, none]
  · have read := loadShardPlacementList_ok loaded
    constructor
    · have scanned : placementTuple newOid args ∈
          int8IndexScan after.placements attrNumShardPlacementShardId args.shardId := by
        simp [int8IndexScan, rows]
      obtain ⟨shardPlacement, mem, first⟩ := forall₂_exists_of_mem_left read scanned
      rw [tupleToShardPlacement_placementTuple env citus] at first
      exact (Except.ok.inj first) ▸ mem
    · intro shardPlacement mem same
      obtain ⟨heapTuple, scanned, first⟩ := forall₂_exists_of_mem_right read mem
      have inTable : heapTuple ∈ after.placements := (List.mem_filter.mp scanned).1
      rw [tupleToShardPlacement_id env citus first] at same
      rcases List.mem_append.mp (rows ▸ inTable) with old | added
      · exact noRow heapTuple old same
      · rw [List.mem_singleton.mp added, placementTuple_oid] at same
        exact otherOid same

theorem insertShardPlacementRow_id_lost_localhost :
    let after : Catalog := ⟨[], [], [placementTuple 16384 ⟨1, 10, 1, "localhost", 5432⟩]⟩
    insertShardPlacementRow 16384 ⟨1, 10, 1, "localhost", 5432⟩ Catalog.empty = .ok () after ∧
      deleteShardPlacementRow 1 after = .error (placementNotFound 1) after ∧
      loadShardPlacementList sampleEnv after.placements 10 =
        .ok [⟨16384, 10, 1, "localhost", 5432⟩] :=
  have lost := insertShardPlacementRow_id_lost sampleEnv rfl Catalog.empty 16384
    ⟨1, 10, 1, "localhost", 5432⟩ (by simp [Catalog.empty]) (by decide)
  ⟨lost.1, lost.2.1, rfl⟩

/-- Deleting by the id a placement is loaded under, its row's `oid`, undoes
`InsertShardPlacementRow` on any table, when the row's OID is new to the table, as `GetNewOid`
makes it. -/
theorem deleteShardPlacementRow_insertShardPlacementRow (catalog : Catalog) (newOid : Oid)
    (args : PlacementArgs) (fresh : ∀ heapTuple ∈ catalog.placements, heapTuple.oid ≠ newOid) :
    let after : Catalog :=
      { catalog with placements := catalog.placements ++ [placementTuple newOid args] }
    insertShardPlacementRow newOid args catalog = .ok () after ∧
      deleteShardPlacementRow (newOid.setWidth 64) after = .ok () catalog := by
  have older : ∀ heapTuple ∈ catalog.placements,
      heapTuple.oid.setWidth 64 ≠ newOid.setWidth 64 :=
    fun heapTuple mem same => fresh heapTuple mem (by bv_omega)
  have scan : int8IndexScan (catalog.placements ++ [placementTuple newOid args])
      objectIdAttributeNumber (newOid.setWidth 64) = [placementTuple newOid args] := by
    simpa [int8IndexScan, int8KeyMatches_oid, List.filter_eq_nil_iff] using older
  have added : placementTuple newOid args ∉ catalog.placements := fun mem => fresh _ mem rfl
  refine ⟨insertShardPlacementRow_eq newOid args catalog, ?_⟩
  simp only [deleteShardPlacementRow, scan, List.head?_cons,
    List.erase_append_right _ added, List.erase_cons_head, List.append_nil]

theorem deleteShardPlacementRow_insertShardPlacementRow_localhost :
    let before : Catalog := ⟨[], [], [placementTuple 16384 ⟨1, 10, 1, "localhost", 5432⟩]⟩
    let after : Catalog := { before with
      placements := before.placements ++ [placementTuple 16385 ⟨2, 10, 1, "localhost", 5433⟩] }
    insertShardPlacementRow 16385 ⟨2, 10, 1, "localhost", 5433⟩ before = .ok () after ∧
      deleteShardPlacementRow 16385 after = .ok () before :=
  deleteShardPlacementRow_insertShardPlacementRow _ 16385 _ (by simp)

/-! ## The directory the placement table keeps -/

/-- The row of a placement whose id is its row's OID. -/
def placementRow (shardPlacement : ShardPlacement) : HeapTuple :=
  placementTuple (shardPlacement.id.setWidth 32) ⟨shardPlacement.id, shardPlacement.shardId,
    shardPlacement.shardState, shardPlacement.nodeName, shardPlacement.nodePort⟩

/-- A directory of placements: ids are distinct, and each is an OID. -/
structure DirectoryInvariant (directory : List ShardPlacement) : Prop where
  ids_nodup : (directory.map (·.id)).Nodup
  ids_oids : ∀ shardPlacement ∈ directory, (shardPlacement.id.setWidth 32).setWidth 64 =
    shardPlacement.id

/-- Adding the placement a row with OID `newOid` holds. -/
def insertPlacement (directory : List ShardPlacement) (newOid : Oid) (args : PlacementArgs) :
    List ShardPlacement :=
  directory ++
    [⟨newOid.setWidth 64, args.shardId, args.shardState, args.nodeName, args.nodePort⟩]

/-- Removing the placement with an id, which must be there. -/
def deletePlacement (directory : List ShardPlacement) (shardPlacementId : BitVec 64) :
    Except Fault (List ShardPlacement) :=
  if shardPlacementId ∈ directory.map (·.id) then
    .ok (directory.filter (·.id ≠ shardPlacementId))
  else .error (placementNotFound shardPlacementId)

/-- The placements of a shard, which must have one. -/
def loadPlacements (directory : List ShardPlacement) (shardId : BitVec 64) :
    Except Fault (List ShardPlacement) :=
  let placements := directory.filter (·.shardId = shardId)
  if placements = [] then .error (noPlacements shardId) else .ok placements

theorem placementRow_insertPlacement (newOid : Oid) (args : PlacementArgs) :
    placementRow
        ⟨newOid.setWidth 64, args.shardId, args.shardState, args.nodeName, args.nodePort⟩ =
      placementTuple newOid args := by
  have oid : (newOid.setWidth 64).setWidth 32 = newOid := by bv_omega
  simp only [placementRow, oid]
  rfl

theorem oid_placementRow {directory : List ShardPlacement}
    (invariant : DirectoryInvariant directory) {shardPlacement : ShardPlacement}
    (mem : shardPlacement ∈ directory) :
    (placementRow shardPlacement).oid.setWidth 64 = shardPlacement.id :=
  invariant.ids_oids shardPlacement mem

theorem erase_placementRow (directory : List ShardPlacement)
    (invariant : DirectoryInvariant directory) {shardPlacement : ShardPlacement}
    (mem : shardPlacement ∈ directory) :
    (directory.map placementRow).erase (placementRow shardPlacement) =
      (directory.filter (·.id ≠ shardPlacement.id)).map placementRow := by
  obtain ⟨nodup, oids⟩ := invariant
  induction directory with
  | nil => cases mem
  | cons head directory ih =>
      simp only [List.map_cons, List.nodup_cons, List.mem_map] at nodup
      have tail : DirectoryInvariant directory :=
        ⟨nodup.2, fun sp mem => oids sp (List.mem_cons_of_mem _ mem)⟩
      by_cases same : head = shardPlacement
      · subst same
        have rest : directory.filter (fun sp => !decide (sp.id = head.id)) = directory :=
          List.filter_eq_self.mpr fun sp mem => by
            simpa using fun equal => nodup.1 ⟨sp, mem, equal⟩
        simp [List.erase_cons, rest]
      · have later := (List.mem_cons.mp mem).resolve_left (Ne.symm same)
        have ids : head.id ≠ shardPlacement.id := fun equal => nodup.1 ⟨_, later, equal.symm⟩
        have rows : placementRow head ≠ placementRow shardPlacement := fun equal => ids <| by
          rw [← oids head (List.mem_cons_self _ _), ← oids shardPlacement mem]
          exact congrArg (fun heapTuple => heapTuple.oid.setWidth 64) equal
        simp [List.erase_cons, rows, ids, ih later nodup.2 tail.ids_oids]

theorem deleteShardPlacementRow_directory {catalog : Catalog} {directory : List ShardPlacement}
    (invariant : DirectoryInvariant directory)
    (holds : catalog.placements = directory.map placementRow)
    (shardPlacementId : BitVec 64) :
    deleteShardPlacementRow shardPlacementId catalog =
      match deletePlacement directory shardPlacementId with
      | .ok directory' => .ok () { catalog with placements := directory'.map placementRow }
      | .error e => .error e catalog := by
  have scan : int8IndexScan catalog.placements objectIdAttributeNumber shardPlacementId =
      (directory.filter (·.id = shardPlacementId)).map placementRow := by
    rw [holds, int8IndexScan, List.filter_map]
    congr 1
    apply List.filter_congr
    intro shardPlacement mem
    simp [int8KeyMatches_oid, oid_placementRow invariant mem]
  by_cases present : shardPlacementId ∈ directory.map (·.id)
  · obtain ⟨shardPlacement, mem, rfl⟩ := List.mem_map.mp present
    simp only [deletePlacement, present, if_true, deleteShardPlacementRow, scan,
      filter_key_eq (·.id) mem invariant.ids_nodup]
    simp [holds, erase_placementRow directory invariant mem]
  · have none : directory.filter (·.id = shardPlacementId) = [] := by
      simpa [List.filter_eq_nil_iff] using fun sp mem same =>
        present (List.mem_map.mpr ⟨sp, mem, same⟩)
    simp [deletePlacement, present, deleteShardPlacementRow, scan, none]

theorem loadShardPlacementList_directory (env : Env) (citus : env.useCitusMetadata = true)
    {directory : List ShardPlacement} (invariant : DirectoryInvariant directory)
    (shardId : BitVec 64) :
    loadShardPlacementList env (directory.map placementRow) shardId =
      loadPlacements directory shardId := by
  have scan : int8IndexScan (directory.map placementRow) attrNumShardPlacementShardId shardId =
      (directory.filter (·.shardId = shardId)).map placementRow := by
    simp [int8IndexScan, List.filter_map, Function.comp_def, placementRow]
  have read : ((directory.filter (·.shardId = shardId)).map placementRow).mapM
      (tupleToShardPlacement env) = .ok (directory.filter (·.shardId = shardId)) := by
    rw [mapM_eq_ok, List.forall₂_map_left_iff, List.forall₂_same]
    intro shardPlacement mem
    rw [placementRow, tupleToShardPlacement_placementTuple env citus,
      invariant.ids_oids shardPlacement (List.mem_filter.mp mem).1]
  simp only [loadShardPlacementList, scan, read, except_ok_bind, loadPlacements]
  rfl

/-! ## Runs of inserts and deletes -/

/-- The calls on the placement table: an insert, with the OID the heap gives its row, or a
delete. -/
inductive PlacementCall where
  | insert (newOid : Oid) (args : PlacementArgs)
  | delete (shardPlacementId : BitVec 64)
  deriving DecidableEq, Repr

/-- One call on the catalog; a call that raises leaves the catalog as it was. -/
def placementStep (catalog : Catalog) : PlacementCall → Catalog
  | .insert newOid args => resultState (insertShardPlacementRow newOid args catalog)
  | .delete shardPlacementId => resultState (deleteShardPlacementRow shardPlacementId catalog)

def directoryStep (directory : List ShardPlacement) : PlacementCall → List ShardPlacement
  | .insert newOid args => insertPlacement directory newOid args
  | .delete shardPlacementId =>
      match deletePlacement directory shardPlacementId with
      | .ok directory' => directory'
      | .error _ => directory

/-- Each insert of the run gets an OID that no row of the table has at that point, as
`GetNewOid` ensures. -/
def NewOids : Catalog → List PlacementCall → Prop
  | _, [] => True
  | catalog, call :: calls =>
      (∀ newOid args, call = .insert newOid args →
        ∀ heapTuple ∈ catalog.placements, heapTuple.oid ≠ newOid) ∧
      NewOids (placementStep catalog call) calls

theorem directoryInvariant_insert {directory : List ShardPlacement}
    (invariant : DirectoryInvariant directory) {newOid : Oid} (args : PlacementArgs)
    (fresh : ∀ heapTuple ∈ directory.map placementRow, heapTuple.oid ≠ newOid) :
    DirectoryInvariant (insertPlacement directory newOid args) := by
  have roundTrip : (newOid.setWidth 64).setWidth 32 = newOid := by bv_omega
  have absent : newOid.setWidth 64 ∉ directory.map (·.id) := by
    intro inIds
    obtain ⟨shardPlacement, mem, same⟩ := List.mem_map.mp inIds
    apply fresh (placementRow shardPlacement) (List.mem_map_of_mem _ mem)
    simp [placementRow, same, roundTrip]
  refine ⟨?_, fun shardPlacement mem => ?_⟩
  · simpa [insertPlacement, List.nodup_append] using
      ⟨invariant.ids_nodup, fun sp mem same => absent (List.mem_map.mpr ⟨sp, mem, same⟩)⟩
  · rcases List.mem_append.mp mem with old | added
    · exact invariant.ids_oids shardPlacement old
    · rw [List.mem_singleton.mp added]
      simp only [roundTrip]

theorem deletePlacement_ok {directory directory' : List ShardPlacement}
    {shardPlacementId : BitVec 64}
    (deleted : deletePlacement directory shardPlacementId = .ok directory') :
    directory' = directory.filter (·.id ≠ shardPlacementId) := by
  unfold deletePlacement at deleted
  split at deleted
  · exact (Except.ok.inj deleted).symm
  · cases deleted

theorem directoryInvariant_filter {directory : List ShardPlacement}
    (invariant : DirectoryInvariant directory) (keep : ShardPlacement → Bool) :
    DirectoryInvariant (directory.filter keep) :=
  ⟨invariant.ids_nodup.sublist ((List.filter_sublist directory).map _),
    fun shardPlacement mem => invariant.ids_oids shardPlacement (List.mem_filter.mp mem).1⟩

theorem placementStep_directory {catalog : Catalog} {directory : List ShardPlacement}
    (invariant : DirectoryInvariant directory)
    (holds : catalog.placements = directory.map placementRow)
    (call : PlacementCall)
    (fresh : ∀ newOid args, call = .insert newOid args →
      ∀ heapTuple ∈ catalog.placements, heapTuple.oid ≠ newOid) :
    (placementStep catalog call).placements = (directoryStep directory call).map placementRow ∧
      DirectoryInvariant (directoryStep directory call) := by
  cases call with
  | insert newOid args =>
      refine ⟨?_, directoryInvariant_insert invariant args (holds ▸ fresh newOid args rfl)⟩
      simp [placementStep, directoryStep, insertShardPlacementRow_eq, insertPlacement, holds,
        placementRow_insertPlacement]
  | delete shardPlacementId =>
      have step := deleteShardPlacementRow_directory invariant holds shardPlacementId
      simp only [placementStep, directoryStep]
      cases deleted : deletePlacement directory shardPlacementId with
      | ok directory' =>
          rw [deleted] at step
          refine ⟨by rw [step]; rfl, ?_⟩
          rw [deletePlacement_ok deleted]
          exact directoryInvariant_filter invariant _
      | error e =>
          rw [deleted] at step
          exact ⟨by rw [step]; exact holds, invariant⟩

/-- A run of calls, each on the catalog the one before left. -/
def placementRun (catalog : Catalog) (calls : List PlacementCall) : Catalog :=
  calls.foldl placementStep catalog

def directoryRun (directory : List ShardPlacement) (calls : List PlacementCall) :
    List ShardPlacement :=
  calls.foldl directoryStep directory

theorem placementRun_directory (calls : List PlacementCall) (catalog : Catalog)
    (directory : List ShardPlacement) (invariant : DirectoryInvariant directory)
    (holds : catalog.placements = directory.map placementRow) (newOids : NewOids catalog calls) :
    (placementRun catalog calls).placements = (directoryRun directory calls).map placementRow ∧
      DirectoryInvariant (directoryRun directory calls) := by
  induction calls generalizing catalog directory with
  | nil => exact ⟨holds, invariant⟩
  | cons call calls ih =>
      obtain ⟨holds', invariant'⟩ := placementStep_directory invariant holds call newOids.1
      exact ih _ _ invariant' holds' newOids.2

/-- The placement table keeps a directory of placements keyed by the OIDs of their rows: after
every run of inserts and deletes whose inserts get new OIDs, the table is the directory's, each
load answers as the directory does (up to the order the index returns rows in), each delete
answers as the directory does, and a delete that raises leaves the table as it was. -/
theorem placementRun_refines (env : Env) (citus : env.useCitusMetadata = true)
    (calls : List PlacementCall) (newOids : NewOids Catalog.empty calls) :
    let catalog := placementRun Catalog.empty calls
    let directory := directoryRun [] calls
    catalog.placements = directory.map placementRow ∧
      (∀ shardId,
        (∀ e, loadShardPlacementList env catalog.placements shardId = .error e ↔
          loadPlacements directory shardId = .error e) ∧
        ∀ shardPlacementList placements,
          loadShardPlacementList env catalog.placements shardId = .ok shardPlacementList →
          loadPlacements directory shardId = .ok placements →
          shardPlacementList.Perm placements) ∧
      ∀ shardPlacementId, deleteShardPlacementRow shardPlacementId catalog =
        match deletePlacement directory shardPlacementId with
        | .ok directory' => .ok () { catalog with placements := directory'.map placementRow }
        | .error e => .error e catalog := by
  obtain ⟨holds, invariant⟩ :=
    placementRun_directory calls Catalog.empty [] ⟨List.nodup_nil, by simp⟩ rfl newOids
  have load := fun shardId => holds ▸ loadShardPlacementList_directory env citus invariant shardId
  refine ⟨holds, fun shardId => ⟨fun e => by rw [load], fun l l' loaded expected => ?_⟩,
    deleteShardPlacementRow_directory invariant holds⟩
  rw [load, expected, Except.ok.injEq] at loaded
  exact loaded ▸ List.Perm.refl _

theorem placementRun_refines_localhost :
    let calls := [PlacementCall.insert 16384 ⟨1, 10, 1, "localhost", 5432⟩,
      .insert 16385 ⟨2, 10, 1, "otherhost", 5432⟩, .delete 16384]
    (sampleEnv.useCitusMetadata = true ∧ NewOids Catalog.empty calls) ∧
      loadShardPlacementList sampleEnv (placementRun Catalog.empty calls).placements 10 =
        .ok [⟨16385, 10, 1, "otherhost", 5432⟩] ∧
      (placementRun Catalog.empty calls).placements =
        (directoryRun [] calls).map placementRow := by
  intro calls
  have newOids : NewOids Catalog.empty calls := by
    refine ⟨?_, ?_, ?_, trivial⟩
    · intro newOid args _ heapTuple mem
      cases mem
    · rintro newOid args ⟨⟩ heapTuple mem
      simp only [placementStep, insertShardPlacementRow_eq, resultState, Catalog.empty,
        List.nil_append, List.mem_singleton] at mem
      subst mem
      decide
    · intro newOid args inserted
      cases inserted
  exact ⟨⟨rfl, newOids⟩, rfl, (placementRun_refines sampleEnv rfl calls newOids).1⟩

end PgShard
