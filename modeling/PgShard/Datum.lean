import Mathlib.Data.BitVec
import Mathlib.Data.List.Forall2

/-!
# Values, tuples and errors of the metadata code

The PostgreSQL values `distribution_metadata.c` handles: fixed-width integers as `BitVec`, the
`Datum`s it stores in catalog tuples and reads back, the tuples as `heap_form_tuple` builds them
and `heap_getattr` reads them, and the two ways a call ends without returning.

A `Datum` is a machine word or a pointer to a `text`; the model keeps the text, not its address.
Every by-value column the code reads (`oid`, `int4`, `int8`, `"char"`) is at least as wide as the
`DatumGet` macro that reads it, so a tuple keeps each Datum whole and the reader narrows it.
-/

set_option autoImplicit false

namespace PgShard

/-- `Oid`: an unsigned 32-bit object identifier. -/
abbrev Oid := BitVec 32

/-- `AttrNumber`: a signed 16-bit attribute number; user attributes are positive. -/
abbrev AttrNumber := BitVec 16

def invalidOid : Oid := 0

def invalidAttrNumber : AttrNumber := 0

/-- The `oid` system attribute (`access/sysattr.h`). -/
def objectIdAttributeNumber : AttrNumber := -2

/-- `INT4OID`, the type of hash partition boundaries. -/
def int4Oid : Oid := 23

def attrNumberIsForUserDefinedAttr (attnum : AttrNumber) : Bool := 0 < attnum.toInt

/-! ## Errors -/

/-- The SQLSTATE codes the metadata code raises. -/
inductive SqlState where
  | undefinedObject
  | undefinedColumn
  | invalidColumnReference
  | noData
  | invalidParameterValue
  | nullValueNotAllowed
  | invalidTextRepresentation
  | numericValueOutOfRange
  | internalError
  deriving DecidableEq, Repr

/-- What `ereport(ERROR, ...)` reports: its code and its message. -/
structure ErrorData where
  sqlerrcode : SqlState
  message : String
  deriving DecidableEq, Repr

/-- How a call ends without returning. `ereport` unwinds to the abort of the transaction and the
backend goes on; `crash` is a read through a NULL pointer, or a failed `Assert`, and it ends the
backend. -/
inductive Fault where
  | ereport (e : ErrorData)
  | crash
  deriving DecidableEq, Repr

/-- Whether a call ended the backend. -/
def crashed {α : Type} : Except Fault α → Bool
  | .error .crash => true
  | _ => false

@[simp] theorem except_ok_bind {ε α β : Type} (x : α) (f : α → Except ε β) :
    (Except.ok x >>= f) = f x := rfl

@[simp] theorem except_error_bind {ε α β : Type} (e : ε) (f : α → Except ε β) :
    (Except.error e >>= f) = .error e := rfl

@[simp] theorem except_map_ok {ε α β : Type} (x : α) (f : α → β) :
    (f <$> (Except.ok x : Except ε α)) = .ok (f x) := rfl

@[simp] theorem toOption_ok {ε α : Type} (x : α) :
    (Except.ok x : Except ε α).toOption = some x :=
  rfl

@[simp] theorem toOption_error {ε α : Type} (e : ε) :
    (Except.error e : Except ε α).toOption = none := rfl

theorem except_bind_eq_ok {ε α β : Type} (x : Except ε α) (f : α → Except ε β) (b : β) :
    x >>= f = .ok b ↔ ∃ a, x = .ok a ∧ f a = .ok b := by
  cases x <;> simp

theorem mapM_eq_ok {ε α β : Type} (f : α → Except ε β) (l : List α) (results : List β) :
    l.mapM f = .ok results ↔ List.Forall₂ (fun a b => f a = .ok b) l results := by
  induction l generalizing results with
  | nil => rw [List.mapM_nil]; cases results <;> simp [pure, Except.pure]
  | cons a l ih =>
      rw [List.mapM_cons]
      cases results with
      | nil => simp only [except_bind_eq_ok, pure, Except.pure]; simp
      | cons b results =>
          simp only [except_bind_eq_ok, pure, Except.pure, Except.ok.injEq, List.cons.injEq,
            List.forall₂_cons, ← ih]
          constructor
          · rintro ⟨b', first, bs, rest, rfl, rfl⟩; exact ⟨first, rest⟩
          · rintro ⟨first, rest⟩; exact ⟨b, first, results, rest, rfl, rfl⟩

theorem forall₂_exists_of_mem_left {α β : Type} {R : α → β → Prop}
    {l : List α} {u : List β}
    (related : List.Forall₂ R l u) {a : α} (mem : a ∈ l) : ∃ b ∈ u, R a b := by
  induction related with
  | nil => cases mem
  | cons head _ ih =>
      rcases List.mem_cons.mp mem with rfl | later
      · exact ⟨_, List.mem_cons_self _ _, head⟩
      · obtain ⟨b, inU, r⟩ := ih later
        exact ⟨b, List.mem_cons_of_mem _ inU, r⟩

theorem forall₂_exists_of_mem_right {α β : Type} {R : α → β → Prop}
    {l : List α} {u : List β}
    (related : List.Forall₂ R l u) {b : β} (mem : b ∈ u) : ∃ a ∈ l, R a b := by
  induction related with
  | nil => cases mem
  | cons head _ ih =>
      rcases List.mem_cons.mp mem with rfl | later
      · exact ⟨_, List.mem_cons_self _ _, head⟩
      · obtain ⟨a, inL, r⟩ := ih later
        exact ⟨a, List.mem_cons_of_mem _ inL, r⟩

theorem exists_mapM_eq_ok {ε α β : Type} (f : α → Except ε β) (l : List α) :
    (∃ results, l.mapM f = .ok results) ↔ ∀ a ∈ l, ∃ b, f a = .ok b := by
  simp only [mapM_eq_ok]
  constructor
  · rintro ⟨results, related⟩ a mem
    obtain ⟨b, -, r⟩ := forall₂_exists_of_mem_left related mem
    exact ⟨b, r⟩
  · intro each
    induction l with
    | nil => exact ⟨[], .nil⟩
    | cons a l ih =>
        obtain ⟨b, first⟩ := each a (List.mem_cons_self _ _)
        obtain ⟨results, rest⟩ := ih fun a mem => each a (List.mem_cons_of_mem _ mem)
        exact ⟨b :: results, .cons first rest⟩

/-- The state a stateful call leaves, whether it returned or raised: what the process holds after
it, before the abort of the transaction undoes anything. -/
def resultState {ε σ α : Type} : EStateM.Result ε σ α → σ
  | .ok _ s => s
  | .error _ s => s

/-- What a stateful call returned, or how it ended without returning. -/
def resultValue {ε σ α : Type} : EStateM.Result ε σ α → Except ε α
  | .ok a _ => .ok a
  | .error e _ => .error e

@[simp] theorem resultState_ok {ε σ α : Type} (a : α) (s : σ) :
    resultState (EStateM.Result.ok a s : EStateM.Result ε σ α) = s := rfl

@[simp] theorem resultState_error {ε σ α : Type} (e : ε) (s : σ) :
    resultState (EStateM.Result.error e s : EStateM.Result ε σ α) = s := rfl

@[simp] theorem resultValue_ok {ε σ α : Type} (a : α) (s : σ) :
    resultValue (EStateM.Result.ok a s : EStateM.Result ε σ α) = .ok a := rfl

@[simp] theorem resultValue_error {ε σ α : Type} (e : ε) (s : σ) :
    resultValue (EStateM.Result.error e s : EStateM.Result ε σ α) = .error e := rfl

/-- `INT64_FORMAT`: a 64-bit value printed as a signed decimal. -/
def int64Format (x : BitVec 64) : String := toString x.toInt

/-- A `%s` argument that may be `NULL`, as the C library prints it. -/
def cStringFormat : Option String → String
  | some s => s
  | none => "(null)"

/-! ## Datums -/

/-- A `Datum`: a machine word, or a pointer to a `text` value (kept as the text it points to). -/
inductive Datum where
  | word (w : BitVec 64)
  | text (s : String)
  deriving DecidableEq, Repr

/-- The word a by-value reader takes. A text Datum would give its address, which the model does not
keep; no by-value column of the metadata tables holds one, so this `0` is never read. -/
def Datum.bits : Datum → BitVec 64
  | .word w => w
  | .text _ => 0

def Datum.isPointer : Datum → Bool
  | .word _ => false
  | .text _ => true

def int64GetDatum (x : BitVec 64) : Datum := .word x

def objectIdGetDatum (x : Oid) : Datum := .word (x.setWidth 64)

def uInt32GetDatum (x : BitVec 32) : Datum := .word (x.setWidth 64)

/-- `CharGetDatum`: `char` is signed, so the cast to a Datum sign-extends it. -/
def charGetDatum (x : BitVec 8) : Datum := .word (x.signExtend 64)

/-- `PointerGetDatum` of a `text *`, and `CStringGetTextDatum` of a C string. -/
def textGetDatum (s : String) : Datum := .text s

def datumGetInt64 (d : Datum) : BitVec 64 := d.bits

def datumGetObjectId (d : Datum) : Oid := d.bits.setWidth 32

def datumGetInt32 (d : Datum) : BitVec 32 := d.bits.setWidth 32

def datumGetChar (d : Datum) : BitVec 8 := d.bits.setWidth 8

/-- `TextDatumGetCString`: the text a Datum points to. The only word the code hands it is the
`(Datum) 0` of a NULL attribute, and reading through it ends the backend. -/
def textDatumGetCString : Datum → Except Fault String
  | .text s => .ok s
  | .word _ => .error .crash

@[simp] theorem datumGetInt64_int64GetDatum (x : BitVec 64) :
    datumGetInt64 (int64GetDatum x) = x := rfl

@[simp] theorem datumGetObjectId_objectIdGetDatum (x : Oid) :
    datumGetObjectId (objectIdGetDatum x) = x := by
  simp only [datumGetObjectId, objectIdGetDatum, Datum.bits]
  bv_omega

@[simp] theorem datumGetInt32_uInt32GetDatum (x : BitVec 32) :
    datumGetInt32 (uInt32GetDatum x) = x := by
  simp only [datumGetInt32, uInt32GetDatum, Datum.bits]
  bv_omega

@[simp] theorem datumGetChar_charGetDatum (x : BitVec 8) :
    datumGetChar (charGetDatum x) = x := by
  apply BitVec.eq_of_getLsbD_eq
  intro ⟨i, hi⟩
  simp [datumGetChar, charGetDatum, Datum.bits, BitVec.getLsbD_signExtend, hi,
    show i < 64 by omega]

@[simp] theorem textDatumGetCString_textGetDatum (s : String) :
    textDatumGetCString (textGetDatum s) = .ok s := rfl

/-! ## Heap tuples -/

/-- A heap tuple: its `oid` system attribute (`InvalidOid` in a table without OIDs) and its user
attributes in order, `none` for a NULL attribute. -/
structure HeapTuple where
  oid : Oid
  values : List (Option Datum)
  deriving DecidableEq, Repr

/-- `values[attnum - 1] = x` on a C array. An index outside the array writes past it: the stray
write does not reach the tuple formed from the array, and the model does not follow it further. -/
def setAttr {α : Type} (values : List α) (attnum : AttrNumber) (x : α) : List α :=
  if 0 < attnum.toInt then values.set (attnum.toNat - 1) x else values

/-- The tuple `heap_form_tuple` forms from its arrays: attribute `i` is NULL where `isNulls[i]`,
and `values[i]` otherwise. -/
def formedTuple (values : List Datum) (isNulls : List Bool) : HeapTuple :=
  ⟨invalidOid,
    List.zipWith (fun value isNull => if isNull then none else some value) values isNulls⟩

/-- Whether `heap_compute_data_size` reads a word through a pointer: some non-NULL attribute whose
column type is passed by reference (`byReference`, as `text` is) holds a word, such as the
`(Datum) 0` a `memset` leaves in a slot the caller never set. -/
def readsNonPointer : List Bool → List Datum → List Bool → Bool
  | byReference :: columns, value :: values, isNull :: isNulls =>
      (byReference && !isNull && !value.isPointer) || readsNonPointer columns values isNulls
  | _, _, _ => false

/-- `heap_form_tuple` on a relation whose column types are passed by reference where
`byReference` says: reading a word as a pointer ends the backend. -/
def heapFormTuple (byReference : List Bool) (values : List Datum) (isNulls : List Bool) :
    Except Fault HeapTuple :=
  if readsNonPointer byReference values isNulls then .error .crash
  else .ok (formedTuple values isNulls)

/-- `heap_getattr`: the Datum of attribute `attnum` and whether it is NULL. A NULL attribute, or
one past the end of the tuple, reads as `(Datum) 0`. Of the system attributes the code reads
only `oid`. -/
def heapGetattr (tuple : HeapTuple) (attnum : AttrNumber) : Datum × Bool :=
  if attnum = objectIdAttributeNumber then (objectIdGetDatum tuple.oid, false)
  else if 0 < attnum.toInt then
    match tuple.values[attnum.toNat - 1]? with
    | some (some d) => (d, false)
    | _ => (.word 0, true)
  else (.word 0, true)

theorem heapGetattr_null {tuple : HeapTuple} {attnum : AttrNumber}
    (null : (heapGetattr tuple attnum).2 = true) : (heapGetattr tuple attnum).1 = .word 0 := by
  revert null
  unfold heapGetattr
  split_ifs
  · simp
  · split <;> simp
  · simp

theorem heapGetattr_of_textDatumGetCString {tuple : HeapTuple} {attnum : AttrNumber} {s : String}
    (read : textDatumGetCString (heapGetattr tuple attnum).1 = .ok s) :
    heapGetattr tuple attnum = (textGetDatum s, false) := by
  have notNull : (heapGetattr tuple attnum).2 = false := by
    cases null : (heapGetattr tuple attnum).2
    · rfl
    · simp [heapGetattr_null null, textDatumGetCString] at read
  refine Prod.ext ?_ notNull
  cases text : (heapGetattr tuple attnum).1 <;> simp_all [textDatumGetCString, textGetDatum]

theorem toNat_pos_of_toInt_pos {w : Nat} {x : BitVec w} (positive : 0 < x.toInt) : 0 < x.toNat := by
  rw [BitVec.toInt_eq_toNat_cond] at positive
  split at positive <;> omega

theorem length_setAttr {α : Type} (values : List α) (attnum : AttrNumber) (x : α) :
    (setAttr values attnum x).length = values.length := by
  unfold setAttr; split <;> simp

theorem getElem?_setAttr_self {α : Type} (values : List α) (attnum : AttrNumber) (x : α)
    (positive : 0 < attnum.toInt) (inRange : attnum.toNat ≤ values.length) :
    (setAttr values attnum x)[attnum.toNat - 1]? = some x := by
  have := toNat_pos_of_toInt_pos positive
  simp [setAttr, positive, List.getElem?_set, show attnum.toNat - 1 < values.length by omega]

theorem getElem?_setAttr_ne {α : Type} (values : List α) {attnum other : AttrNumber} (x : α)
    (positive : 0 < attnum.toInt) (otherPositive : 0 < other.toInt) (distinct : attnum ≠ other) :
    (setAttr values attnum x)[other.toNat - 1]? = values[other.toNat - 1]? := by
  have := toNat_pos_of_toInt_pos positive
  have := toNat_pos_of_toInt_pos otherPositive
  have := mt BitVec.eq_of_toNat_eq distinct
  simp only [setAttr, if_pos positive]
  exact List.getElem?_set_ne (by omega)

theorem heapGetattr_formedTuple {values : List Datum} {attnum : AttrNumber} {d : Datum}
    (positive : 0 < attnum.toInt) (stored : values[attnum.toNat - 1]? = some d) :
    heapGetattr (formedTuple values (List.replicate values.length false)) attnum =
      (d, false) := by
  have notOid : attnum ≠ objectIdAttributeNumber := by
    rintro rfl; simp [objectIdAttributeNumber] at positive
  obtain ⟨inRange, value⟩ := List.getElem?_eq_some_iff.mp stored
  simp [heapGetattr, formedTuple, notOid, positive, List.getElem?_zipWith, stored, inRange, value]

theorem readsNonPointer_eq_false {byReference : List Bool} {values : List Datum}
    {isNulls : List Bool}
    (pointers : ∀ i : Nat, byReference[i]? = some true → isNulls[i]? = some false →
      ∀ value : Datum, values[i]? = some value → value.isPointer) :
    readsNonPointer byReference values isNulls = false := by
  induction byReference generalizing values isNulls with
  | nil => rfl
  | cons column columns ih =>
      cases values with
      | nil => cases isNulls <;> rfl
      | cons value values =>
          cases isNulls with
          | nil => rfl
          | cons isNull isNulls =>
              have first := pointers 0
              simp only [List.getElem?_cons_zero, Option.some.injEq, forall_eq'] at first
              simp only [readsNonPointer, Bool.or_eq_false_iff]
              refine ⟨?_, ih fun i => by simpa using pointers (i + 1)⟩
              cases column <;> cases isNull <;> simp_all

theorem getElem?_setAttr_replicate {n i : Nat} {attnum : AttrNumber}
    (byReference : (setAttr (List.replicate n false) attnum true)[i]? = some true) :
    i = attnum.toNat - 1 := by
  unfold setAttr at byReference
  split at byReference
  · rw [List.getElem?_set] at byReference
    split at byReference
    · omega
    · simp [List.getElem?_replicate] at byReference
  · simp [List.getElem?_replicate] at byReference

theorem heapFormTuple_single (n : Nat) (attnum : AttrNumber) (values : List Datum)
    (isNulls : List Bool)
    (pointer : ∀ value : Datum, values[attnum.toNat - 1]? = some value → value.isPointer) :
    heapFormTuple (setAttr (List.replicate n false) attnum true) values isNulls =
      .ok (formedTuple values isNulls) := by
  have clean : readsNonPointer (setAttr (List.replicate n false) attnum true) values isNulls =
      false :=
    readsNonPointer_eq_false fun i byReference _ =>
      getElem?_setAttr_replicate byReference ▸ pointer
  simp [heapFormTuple, clean]

/-- `HeapKeyTest` for one key `F_OIDEQ` on attribute `attnum`: not NULL, and the value is `key`. -/
def oidKeyMatches (attnum : AttrNumber) (key : Oid) (tuple : HeapTuple) : Bool :=
  match heapGetattr tuple attnum with
  | (d, false) => datumGetObjectId d == key
  | (_, true) => false

@[simp] theorem heapGetattr_oid (tuple : HeapTuple) :
    heapGetattr tuple objectIdAttributeNumber = (objectIdGetDatum tuple.oid, false) := by
  simp [heapGetattr]

/-- The index key test for one key `F_INT8EQ` on the indexed attribute `attnum`. -/
def int8KeyMatches (attnum : AttrNumber) (key : BitVec 64) (tuple : HeapTuple) : Bool :=
  match heapGetattr tuple attnum with
  | (d, false) => datumGetInt64 d == key
  | (_, true) => false

/-- An `F_INT8EQ` key on the `oid` column compares the key with the zero-extended `oid`. -/
theorem int8KeyMatches_oid (key : BitVec 64) (tuple : HeapTuple) :
    int8KeyMatches objectIdAttributeNumber key tuple = decide (tuple.oid.setWidth 64 = key) := by
  simp [int8KeyMatches, objectIdGetDatum, datumGetInt64, Datum.bits]
  rfl

/-- The tuples an index scan with one `F_INT8EQ` key returns. A btree returns equal keys in an order
of its own (newest first on a 9.4 leaf page); the model keeps heap order. Statements compare the
lists a scan feeds up to permutation, or on keys with at most one row. -/
def int8IndexScan (tuples : List HeapTuple) (attnum : AttrNumber) (key : BitVec 64) :
    List HeapTuple :=
  tuples.filter (int8KeyMatches attnum key)

/-- The tuples an index scan with one `F_OIDEQ` key returns, in heap order as above, and read up to
the same difference. -/
def oidIndexScan (tuples : List HeapTuple) (attnum : AttrNumber) (key : Oid) : List HeapTuple :=
  tuples.filter (oidKeyMatches attnum key)

end PgShard
