import PgShard.NodeString

/-!
# The catalogs around the metadata tables

What `distribution_metadata.c` reads besides its own tables: the attributes of a relation, through
`get_attnum`, `get_attname` and `get_atttypetypmodcoll`; relation names; the input functions of
types; and the constants of `distribution_metadata.h`, which is not among the sources and comes in
as a parameter. Then the three metadata tables and the records the code builds from them.
-/

set_option autoImplicit false

namespace PgShard

/-- A row of `pg_attribute`, with the columns the lookups read. -/
structure Attribute where
  attnum : AttrNumber
  attname : String
  atttypid : Oid
  atttypmod : BitVec 32
  attcollation : Oid
  attisdropped : Bool
  deriving DecidableEq, Repr

/-- The attributes of one relation. `pg_attribute` has unique indexes on `(attrelid, attnum)` and
on `(attrelid, attname)`, so neither key repeats within a relation. -/
structure RelationAttributes where
  attrs : List Attribute
  attnum_nodup : (attrs.map Attribute.attnum).Nodup
  attname_nodup : (attrs.map Attribute.attname).Nodup

/-- What the backend supplies to the metadata code. -/
structure Backend where
  /-- `get_rel_name`: `none` for an OID that names no relation. -/
  relName : Oid → Option String
  attributes : Oid → RelationAttributes
  /-- `getTypeInputInfo` then `OidInputFunctionCall`: a type's input function on a text and a
  typmod. -/
  typeInput : Oid → BitVec 32 → String → Except ErrorData Datum
  myDatabaseId : Oid

theorem find?_key_eq {α β : Type} [DecidableEq β] (key : α → β) {l : List α} {a : α}
    (mem : a ∈ l) (unique : (l.map key).Nodup) : l.find? (fun b => key b = key a) = some a := by
  induction l with
  | nil => simp at mem
  | cons b rest ih =>
      simp only [List.map_cons, List.nodup_cons, List.mem_map] at unique
      rcases List.mem_cons.mp mem with rfl | inRest
      · simp
      · have other : key b ≠ key a := fun same => unique.1 ⟨a, inRest, same.symm⟩
        simp [other, ih inRest unique.2]

theorem filter_key_eq {α β : Type} [DecidableEq β] (key : α → β) {l : List α} {a : α}
    (mem : a ∈ l) (unique : (l.map key).Nodup) : l.filter (fun b => key b = key a) = [a] := by
  induction l with
  | nil => simp at mem
  | cons b rest ih =>
      simp only [List.map_cons, List.nodup_cons, List.mem_map] at unique
      rcases List.mem_cons.mp mem with rfl | inRest
      · have none : rest.filter (fun c => key c = key a) = [] := by
          simpa [List.filter_eq_nil_iff] using fun c mem same => unique.1 ⟨c, mem, same⟩
        simp [none]
      · have other : key b ≠ key a := fun same => unique.1 ⟨a, inRest, same.symm⟩
        simp [other, ih inRest unique.2]

namespace Backend

variable (backend : Backend)

/-- `get_attnum`: the number of the attribute named `attname`, or `InvalidAttrNumber`;
`SearchSysCacheAttName` hides a dropped attribute. -/
def getAttnum (relid : Oid) (attname : String) : AttrNumber :=
  match (backend.attributes relid).attrs.find? (·.attname = attname) with
  | some a => if a.attisdropped then invalidAttrNumber else a.attnum
  | none => invalidAttrNumber

/-- `get_attname`: the name of attribute `attnum`, dropped or not. -/
def getAttname (relid : Oid) (attnum : AttrNumber) : Option String :=
  ((backend.attributes relid).attrs.find? (·.attnum = attnum)).map Attribute.attname

/-- `get_atttypetypmodcoll`: the type, typmod and collation of attribute `attnum`. -/
def getAtttypetypmodcoll (relid : Oid) (attnum : AttrNumber) :
    Except Fault (Oid × BitVec 32 × Oid) :=
  match (backend.attributes relid).attrs.find? (·.attnum = attnum) with
  | some a => .ok (a.atttypid, a.atttypmod, a.attcollation)
  | none => .error (.ereport ⟨.internalError, "cache lookup failed for attribute " ++
      toString attnum.toInt ++ " of relation " ++ toString relid.toNat⟩)

/-- The relation has a live attribute named `name`. -/
def HasLiveAttribute (relid : Oid) (name : String) (a : Attribute) : Prop :=
  a ∈ (backend.attributes relid).attrs ∧ a.attname = name ∧ a.attisdropped = false

theorem find?_attname_eq {relid : Oid} {a : Attribute}
    (mem : a ∈ (backend.attributes relid).attrs) :
    (backend.attributes relid).attrs.find? (·.attname = a.attname) = some a :=
  find?_key_eq Attribute.attname mem (backend.attributes relid).attname_nodup

theorem find?_attnum_eq {relid : Oid} {a : Attribute}
    (mem : a ∈ (backend.attributes relid).attrs) :
    (backend.attributes relid).attrs.find? (·.attnum = a.attnum) = some a :=
  find?_key_eq Attribute.attnum mem (backend.attributes relid).attnum_nodup

theorem getAttnum_live {relid : Oid} {name : String} {a : Attribute}
    (live : backend.HasLiveAttribute relid name a) : backend.getAttnum relid name = a.attnum := by
  obtain ⟨mem, rfl, notDropped⟩ := live
  simp [getAttnum, backend.find?_attname_eq mem, notDropped]

theorem getAttnum_not_live {relid : Oid} {name : String}
    (none_live : ∀ a, ¬ backend.HasLiveAttribute relid name a) :
    backend.getAttnum relid name = invalidAttrNumber := by
  unfold getAttnum
  split
  · rename_i a found
    have mem := List.mem_of_find?_eq_some found
    have named : a.attname = name := by simpa using List.find?_some found
    cases dropped : a.attisdropped
    · exact absurd ⟨mem, named, dropped⟩ (none_live a)
    · rfl
  · rfl

theorem getAttname_mem {relid : Oid} {a : Attribute}
    (mem : a ∈ (backend.attributes relid).attrs) :
    backend.getAttname relid a.attnum = some a.attname := by
  simp [getAttname, backend.find?_attnum_eq mem]

theorem getAtttypetypmodcoll_mem {relid : Oid} {a : Attribute}
    (mem : a ∈ (backend.attributes relid).attrs) :
    backend.getAtttypetypmodcoll relid a.attnum =
      .ok (a.atttypid, a.atttypmod, a.attcollation) := by
  simp [getAtttypetypmodcoll, backend.find?_attnum_eq mem]

end Backend

/-- The constants of `distribution_metadata.h`. The header is not among the sources, so the model
takes them as parameters: the hash partition code, the finalized placement state, and the layout
of `pg_dist_partition`, whose three attribute numbers are distinct positions of its tuple. -/
structure Header where
  hashPartitionType : BitVec 8
  stateFinalized : BitVec 32
  attrNumPartitionRelationId : AttrNumber
  attrNumPartitionType : AttrNumber
  attrNumPartitionKey : AttrNumber
  partitionTableAttributeCount : Nat
  partition_attrs_valid : ∀ a ∈ [attrNumPartitionRelationId, attrNumPartitionType,
    attrNumPartitionKey], 0 < a.toInt ∧ a.toNat ≤ partitionTableAttributeCount
  partition_attrs_nodup : [attrNumPartitionRelationId, attrNumPartitionType,
    attrNumPartitionKey].Nodup

/-- Everything the metadata functions read besides the metadata tables. `useCitusMetadata` is the
source's static switch `UseCitusMetadata`. -/
structure Env where
  header : Header
  backend : Backend
  useCitusMetadata : Bool

/-- `UseCitusMetadata` as the source sets it. -/
def UseCitusMetadata : Bool := true

/-! ## A sample backend

One relation, `customer` (OID 16384), with a live `int4` column `id`, a dropped column and the
system column `ctid`; `int4` input accepts decimal integers. The constants are those of the
`pg_dist_partition` layout `(logicalrelid, partmethod, partkey)`. The results below are stated for
every backend; this one instantiates them. -/

def sampleAttributes : RelationAttributes where
  attrs := [⟨1, "id", int4Oid, -1, 0, false⟩,
    ⟨2, "........pg.dropped.2........", 0, -1, 0, true⟩, ⟨-1, "ctid", 27, -1, 0, false⟩]
  attnum_nodup := by decide
  attname_nodup := by decide

def noAttributes : RelationAttributes := ⟨[], List.nodup_nil, List.nodup_nil⟩

/-- `int4in` (an optional sign and decimal digits, in the range of `int4`) for `int4`, and the
text itself for every other type. -/
def sampleTypeInput (typeId : Oid) (_typmod : BitVec 32) (text : String) : Except ErrorData Datum :=
  if typeId = int4Oid then
    let (negative, digits) := readSign text.toList
    match readDigits 0 digits with
    | (value, []) =>
        let signed : Int := if negative then -value else value
        if digits = [] then
          .error ⟨.invalidTextRepresentation, "invalid input syntax for integer: \"" ++
            text ++ "\""⟩
        else if -2 ^ 31 ≤ signed ∧ signed < 2 ^ 31 then .ok (.word (BitVec.ofInt 64 signed))
        else .error ⟨.numericValueOutOfRange,
          "value \"" ++ text ++ "\" is out of range for type integer"⟩
    | _ => .error ⟨.invalidTextRepresentation, "invalid input syntax for integer: \"" ++
      text ++ "\""⟩
  else .ok (textGetDatum text)

def sampleBackend : Backend where
  relName relid := if relid = 16384 then some "customer" else none
  attributes relid := if relid = 16384 then sampleAttributes else noAttributes
  typeInput := sampleTypeInput
  myDatabaseId := 16383

def sampleHeader : Header where
  hashPartitionType := 104
  stateFinalized := 1
  attrNumPartitionRelationId := 1
  attrNumPartitionType := 2
  attrNumPartitionKey := 3
  partitionTableAttributeCount := 3
  partition_attrs_valid := by simp [BitVec.toInt]
  partition_attrs_nodup := by simp

def sampleEnv : Env := ⟨sampleHeader, sampleBackend, UseCitusMetadata⟩

/-- The metadata tables as the caller's snapshot (`SnapshotSelf`) sees them, each in heap order:
`pg_dist_partition`, `pg_dist_shard`, and `pg_dist_shard_placement`, a table with OIDs. -/
structure Catalog where
  partitions : List HeapTuple
  shards : List HeapTuple
  placements : List HeapTuple
  deriving DecidableEq, Repr

def Catalog.empty : Catalog := ⟨[], [], []⟩

/-- The rows of two catalogs, table by table. -/
def Catalog.append (catalog rows : Catalog) : Catalog :=
  ⟨catalog.partitions ++ rows.partitions, catalog.shards ++ rows.shards,
    catalog.placements ++ rows.placements⟩

@[simp] theorem Catalog.append_empty (catalog : Catalog) :
    catalog.append Catalog.empty = catalog := by
  simp [Catalog.append, Catalog.empty]

@[simp] theorem Catalog.append_shards (catalog rows : Catalog) :
    (catalog.append rows).shards = catalog.shards ++ rows.shards := rfl

/-- `ShardInterval`, as `LoadShardInterval` fills it. -/
structure ShardInterval where
  id : BitVec 64
  relationId : Oid
  minValue : Datum
  maxValue : Datum
  valueTypeId : Oid
  deriving DecidableEq, Repr

/-- `ShardPlacement`, as `TupleToShardPlacement` fills it. -/
structure ShardPlacement where
  id : BitVec 64
  shardId : BitVec 64
  shardState : BitVec 32
  nodeName : String
  nodePort : BitVec 32
  deriving DecidableEq, Repr

/-- An entry of `ShardIntervalListCache`. -/
structure ShardIntervalListCacheEntry where
  distributedTableId : Oid
  shardIntervalList : List ShardInterval
  deriving DecidableEq, Repr

end PgShard
