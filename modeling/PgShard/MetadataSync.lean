import PgShard.Partition

/-!
# Metadata sync functions

The UDFs of `citus_metadata_sync.c`, which translate between a column's name and the text of its
`Var`, the form CitusDB keeps partition keys in: `partition_column_to_node_string`,
`column_name_to_column` and `column_to_column_name`.

A name round-trips through the two column UDFs exactly when it names a live user column
(`columnNameToColumn_roundTrip`), and the key `InsertPartitionRow` stored reads back as the name it
was given (`partitionColumnToNodeString_inserted`). The way back is looser:
`column_to_column_name` checks that the attribute number is positive and that the relation has an
attribute with that number, and `get_attname` answers dropped attributes too, so a `Var` of a
dropped column gives the dropped column's internal name (`columnToColumnName_dropped`).
-/

set_option autoImplicit false

namespace PgShard

namespace CitusMetadataSync

/-- `partition_column_to_node_string`; its argument may be SQL `NULL`. -/
def partitionColumnToNodeString (env : Env) (partitions : List HeapTuple) (tableOid : Option Oid) :
    Except Fault String :=
  match tableOid with
  | none => .error (.ereport ⟨.nullValueNotAllowed, "table_oid must not be null"⟩)
  | some distributedTableId => do
      let partitionColumn ← partitionColumn env partitions distributedTableId
      pure (nodeToString partitionColumn)

/-- `column_name_to_column`. -/
def columnNameToColumn (backend : Backend) (relationId : Oid) (columnName : String) :
    Except Fault String := do
  let column ← PgShard.columnNameToColumn backend relationId columnName
  pure (nodeToString column)

/-- `column_to_column_name`; `Assert(IsA(columnNode, Var))` fails on any other node. -/
def columnToColumnName (backend : Backend) (relationId : Oid) (columnNodeString : String) :
    Except Fault String := do
  match ← stringToNode columnNodeString with
  | .other => .error .crash
  | .var column =>
      let columnNumber := column.varattno
      let relationName := cStringFormat (backend.relName relationId)
      if !attrNumberIsForUserDefinedAttr columnNumber then
        .error (.ereport ⟨.invalidColumnReference, "attribute " ++ toString columnNumber.toInt ++
          " of relation \"" ++ relationName ++ "\" is a system column"⟩)
      else
        match backend.getAttname relationId column.varattno with
        | none => .error (.ereport ⟨.undefinedColumn, "attribute " ++
            toString columnNumber.toInt ++ " of relation \"" ++ relationName ++
            "\" does not exist"⟩)
        | some columnName => .ok columnName

theorem columnToColumnName_nodeToString (backend : Backend) (relationId : Oid) (v : Var) :
    columnToColumnName backend relationId (nodeToString v) =
      if 0 < v.varattno.toInt then
        match backend.getAttname relationId v.varattno with
        | some columnName => .ok columnName
        | none => .error (.ereport ⟨.undefinedColumn, "attribute " ++ toString v.varattno.toInt ++
            " of relation \"" ++ cStringFormat (backend.relName relationId) ++
            "\" does not exist"⟩)
      else .error (.ereport ⟨.invalidColumnReference, "attribute " ++ toString v.varattno.toInt ++
        " of relation \"" ++ cStringFormat (backend.relName relationId) ++
          "\" is a system column"⟩) := by
  simp only [columnToColumnName, stringToNode_nodeToString, except_ok_bind,
    attrNumberIsForUserDefinedAttr]
  by_cases positive : 0 < v.varattno.toInt
  · simp only [positive, decide_True, Bool.not_true, if_true]
    cases backend.getAttname relationId v.varattno <;> rfl
  · simp [positive]

/-- `column_to_column_name` raises exactly when the attribute number is not positive or no
attribute of the relation, live or dropped, has it. -/
theorem columnToColumnName_ok_iff (backend : Backend) (relationId : Oid) (v : Var) :
    (∃ columnName, columnToColumnName backend relationId (nodeToString v) = .ok columnName) ↔
      0 < v.varattno.toInt ∧
        ∃ a ∈ (backend.attributes relationId).attrs, a.attnum = v.varattno := by
  rw [columnToColumnName_nodeToString]
  by_cases positive : 0 < v.varattno.toInt
  · simp only [positive, if_true, true_and, Backend.getAttname]
    cases found : (backend.attributes relationId).attrs.find? (·.attnum = v.varattno) with
    | none =>
        have absent : ∀ a ∈ (backend.attributes relationId).attrs, a.attnum ≠ v.varattno := by
          simpa using List.find?_eq_none.mp found
        simp only [Option.map_none']
        constructor
        · rintro ⟨_, raised⟩; cases raised
        · rintro ⟨a, mem, same⟩; exact absurd same (absent a mem)
    | some a =>
        simp only [Option.map_some', Except.ok.injEq, exists_eq', true_iff]
        exact ⟨a, List.mem_of_find?_eq_some found, by simpa using List.find?_some found⟩
  · simp [positive]

theorem columnToColumnName_columnNameToColumn {backend : Backend} {relationId : Oid}
    {columnName columnNodeString : String}
    (made : columnNameToColumn backend relationId columnName = .ok columnNodeString) :
    columnToColumnName backend relationId columnNodeString = .ok columnName := by
  simp only [columnNameToColumn, except_bind_eq_ok, pure, Except.pure, Except.ok.injEq] at made
  obtain ⟨v, resolved, rfl⟩ := made
  obtain ⟨a, ⟨mem, named, -⟩, positive, rfl⟩ := PgShard.columnNameToColumn_ok resolved
  rw [columnToColumnName_nodeToString]
  simp [makeVar, positive, backend.getAttname_mem mem, named]

/-- A name goes to a `Var` text exactly when it names a live user column, and then the text goes
back to the name and the name to the same text. -/
theorem columnNameToColumn_roundTrip (backend : Backend) (relationId : Oid) (columnName : String) :
    ((∃ columnNodeString,
        columnNameToColumn backend relationId columnName = .ok columnNodeString) ↔
      backend.IsUserColumn relationId columnName) ∧
    ∀ columnNodeString,
      columnNameToColumn backend relationId columnName = .ok columnNodeString →
      columnToColumnName backend relationId columnNodeString = .ok columnName ∧
      (do
        let name ← columnToColumnName backend relationId columnNodeString
        columnNameToColumn backend relationId name) = .ok columnNodeString := by
  refine ⟨⟨fun ⟨_, made⟩ => ?_, fun user => ?_⟩, fun columnNodeString made => ?_⟩
  · simp only [columnNameToColumn, except_bind_eq_ok] at made
    obtain ⟨v, resolved, -⟩ := made
    obtain ⟨a, live, positive, -⟩ := PgShard.columnNameToColumn_ok resolved
    exact ⟨a, live, positive⟩
  · obtain ⟨a, live, positive⟩ := user
    exact ⟨_, by simp [columnNameToColumn, columnNameToColumn_live live positive]; rfl⟩
  · have back := columnToColumnName_columnNameToColumn made
    refine ⟨back, ?_⟩
    rw [back, except_ok_bind, made]

/-- A `Var` of a dropped column does not raise: no live attribute has its number, but
`get_attname` finds the dropped attribute, and `column_to_column_name` answers its internal
name. -/
theorem columnToColumnName_dropped (backend : Backend) (relationId : Oid) (a : Attribute)
    (mem : a ∈ (backend.attributes relationId).attrs) (dropped : a.attisdropped = true)
    (positive : 0 < a.attnum.toInt) (v : Var) (numbered : v.varattno = a.attnum) :
    (∀ b ∈ (backend.attributes relationId).attrs, b.attnum = v.varattno →
      b.attisdropped = true) ∧
      columnToColumnName backend relationId (nodeToString v) = .ok a.attname := by
  refine ⟨fun b inAttrs same => ?_, ?_⟩
  · have first := backend.find?_attnum_eq inAttrs
    rw [same, numbered, backend.find?_attnum_eq mem] at first
    rw [← Option.some.inj first]
    exact dropped
  · rw [columnToColumnName_nodeToString, numbered]
    simp [positive, backend.getAttname_mem mem]

theorem columnToColumnName_dropped_customer :
    ((⟨2, "........pg.dropped.2........", 0, -1, 0, true⟩ : Attribute) ∈
        (sampleBackend.attributes 16384).attrs ∧ (0 : Int) < (2 : AttrNumber).toInt) ∧
      columnToColumnName sampleBackend 16384 (nodeToString (makeVar 1 2 int4Oid (-1) 0 0)) =
        .ok "........pg.dropped.2........" :=
  ⟨⟨by decide, by decide⟩, (columnToColumnName_dropped sampleBackend 16384
    ⟨2, "........pg.dropped.2........", 0, -1, 0, true⟩ (by decide) rfl (by decide) _ rfl).2⟩

/-- After a run of `InsertPartitionRow` on distinct tables, each naming a user column, the text
`partition_column_to_node_string` gives for a table goes back to the name its call gave, under
either key encoding; a `NULL` table raises. -/
theorem partitionColumnToNodeString_inserted (env : Env) (calls : List (Oid × BitVec 8 × String))
    (distinct : (calls.map Prod.fst).Nodup)
    (userColumns : ∀ call ∈ calls, env.backend.IsUserColumn call.1 call.2.2) :
    let partitions := (insertPartitionRows env calls Catalog.empty).partitions
    partitionColumnToNodeString env partitions none =
        .error (.ereport ⟨.nullValueNotAllowed, "table_oid must not be null"⟩) ∧
      ∀ t m n, (t, m, n) ∈ calls →
        (do
          let columnNodeString ← partitionColumnToNodeString env partitions (some t)
          columnToColumnName env.backend t columnNodeString) = .ok n := by
  intro partitions
  refine ⟨rfl, fun t m n mem => ?_⟩
  have rows : partitions = partitionRows env calls := by
    simp [partitions, insertPartitionRows_partitions, Catalog.empty]
  obtain ⟨a, live, positive⟩ := userColumns _ mem
  have read := (partitionRows_inserted env distinct mem (userColumns _ mem)).2.2
  have stored : partitionColumnToNodeString env partitions (some t) =
      columnNameToColumn env.backend t n := by
    simp only [partitionColumnToNodeString, columnNameToColumn, rows, read]
  have text : columnNameToColumn env.backend t n =
      .ok (nodeToString (makeVar 1 a.attnum a.atttypid a.atttypmod a.attcollation 0)) := by
    simp [columnNameToColumn, columnNameToColumn_live live positive]
  rw [stored, text, except_ok_bind]
  exact columnToColumnName_columnNameToColumn text

theorem partitionColumnToNodeString_inserted_customer :
    ([(16384 : Oid)].Nodup ∧ sampleEnv.backend.IsUserColumn 16384 "id") ∧
      (do
        let columnNodeString ← partitionColumnToNodeString sampleEnv customerCatalog.partitions
          (some 16384)
        columnToColumnName sampleEnv.backend 16384 columnNodeString) = .ok "id" := by
  have user : sampleEnv.backend.IsUserColumn 16384 "id" :=
    ⟨⟨1, "id", int4Oid, -1, 0, false⟩, ⟨by decide, rfl, rfl⟩, by decide⟩
  exact ⟨⟨by decide, user⟩,
    (partitionColumnToNodeString_inserted sampleEnv [(16384, 104, "id")] (by decide)
      (by simpa using user)).2 16384 104 "id" (by simp)⟩

end CitusMetadataSync

end PgShard
