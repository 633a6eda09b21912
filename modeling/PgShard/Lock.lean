import PgShard.Datum

/-!
# Shard locks

`LockShard` takes a transaction-level advisory lock on a shard: the tag is
`(MyDatabaseId, (uint32) (shardId >> 32), (uint32) shardId, 0)`, and the lock manager grants it,
or makes the backend wait, by the conflict table of the two modes the function accepts. Any other
mode raises before the lock manager is asked.

The tag keeps all 64 bits of the shard id, so distinct shards never share a lock
(`shardLockTag_injective`). Over every run of `LockShard` calls and transaction ends, the lock
table holds only the two modes `LockShard` accepts and no two conflicting locks of different
transactions, so each shard is held in share mode only, or by one transaction alone
(`lockRun_sharedOrOwned`). Each shard's locks also evolve on their own: calls on other shards
neither change them nor decide whether a lock on the shard is granted (`lockRun_shardHolders`).
-/

set_option autoImplicit false

namespace PgShard

/-- `LOCKMODE`: an `int`; the two modes `LockShard` accepts. -/
abbrev LockMode := BitVec 32

def shareLock : LockMode := 5

def exclusiveLock : LockMode := 7

/-- The fields of a `LOCKTAG` that `SET_LOCKTAG_ADVISORY` sets from its arguments; its type and lock
method are the same for every advisory tag. -/
structure LockTag where
  locktagField1 : Oid
  locktagField2 : BitVec 32
  locktagField3 : BitVec 32
  locktagField4 : BitVec 16
  deriving DecidableEq, Repr

def setLocktagAdvisory (id1 : Oid) (id2 id3 : BitVec 32) (id4 : BitVec 16) : LockTag :=
  ⟨id1, id2, id3, id4⟩

/-- The tag `LockShard` builds: the shard id split into its upper and lower 32 bits. `shardId >> 32`
on the signed `int64` is an arithmetic shift; the cast to `uint32` keeps bits 32 to 63 either
way. -/
def shardLockTag (myDatabaseId : Oid) (shardId : BitVec 64) : LockTag :=
  let keyUpperHalf : BitVec 32 := (shardId.sshiftRight 32).setWidth 32
  let keyLowerHalf : BitVec 32 := shardId.setWidth 32
  setLocktagAdvisory myDatabaseId keyUpperHalf keyLowerHalf 0

/-- A lock a transaction holds. -/
structure HeldLock where
  owner : Nat
  tag : LockTag
  mode : LockMode
  deriving DecidableEq, Repr

/-- The lock manager's conflict table on `ShareLock` and `ExclusiveLock`: `ExclusiveLock`
conflicts with both, `ShareLock` with `ExclusiveLock` only. -/
def conflicts (held requested : LockMode) : Bool :=
  held = exclusiveLock || requested = exclusiveLock

/-- `LockAcquire` with `dontWait = false`: granted when no other transaction holds a conflicting
lock on the tag, and otherwise `none`, the backend waiting. -/
def lockAcquire (owner : Nat) (lockTag : LockTag) (lockMode : LockMode) (locks : List HeldLock) :
    Option (EStateM.Result Fault (List HeldLock) Unit) :=
  if locks.any fun held =>
      held.tag = lockTag && held.owner ≠ owner && conflicts held.mode lockMode
  then none
  else some (.ok () (locks ++ [⟨owner, lockTag, lockMode⟩]))

def invalidLockMode : Fault :=
  .ereport ⟨.invalidParameterValue, "lockMode must be one of: ExclusiveLock, ShareLock"⟩

/-- `LockShard` for transaction `owner` on the lock table: `none` while it waits. -/
def lockShard (myDatabaseId : Oid) (owner : Nat) (shardId : BitVec 64) (lockMode : LockMode)
    (locks : List HeldLock) : Option (EStateM.Result Fault (List HeldLock) Unit) :=
  let lockTag := shardLockTag myDatabaseId shardId
  if lockMode = exclusiveLock ∨ lockMode = shareLock then lockAcquire owner lockTag lockMode locks
  else some (.error invalidLockMode locks)

theorem shardLockTag_injective (myDatabaseId : Oid) {a b : BitVec 64}
    (same : shardLockTag myDatabaseId a = shardLockTag myDatabaseId b) : a = b := by
  simp only [shardLockTag, setLocktagAdvisory, LockTag.mk.injEq] at same
  obtain ⟨-, upper, lower, -⟩ := same
  apply BitVec.eq_of_getLsbD_eq
  intro ⟨i, inRange⟩
  by_cases low : i < 32
  · simpa [BitVec.getLsbD_setWidth, low] using congrArg (fun x => x.getLsbD i) lower
  · have index : 32 + (i - 32) = i := by omega
    simpa [BitVec.getLsbD_setWidth, BitVec.getLsbD_sshiftRight, show i - 32 < 32 by omega,
      show ¬ 64 ≤ i - 32 by omega, index, inRange] using
      congrArg (fun x => x.getLsbD (i - 32)) upper

/-- Shard `-1` and shard `2^32 - 1` share their lower half; the sign-extended upper half tells
them apart. -/
example : shardLockTag 16383 (-1) ≠ shardLockTag 16383 0xFFFFFFFF := by decide

/-- Distinct shards, whatever their bits, get distinct lock tags; and a mode other than
`ExclusiveLock` and `ShareLock` raises `InvalidLockMode` with the lock table as it was. -/
theorem lockShard_spec (myDatabaseId : Oid) :
    (∀ a b : BitVec 64, a ≠ b →
      shardLockTag myDatabaseId a ≠ shardLockTag myDatabaseId b) ∧
    ∀ owner shardId lockMode locks, lockMode ≠ exclusiveLock → lockMode ≠ shareLock →
      lockShard myDatabaseId owner shardId lockMode locks = some (.error invalidLockMode locks) :=
  ⟨fun _ _ distinct same => distinct (shardLockTag_injective myDatabaseId same),
    fun _ _ _ _ notExclusive notShare => by simp [lockShard, notExclusive, notShare]⟩

/-! ## Shards do not interfere -/

/-- What reaches the lock table: a `LockShard` call, or the end of a transaction. -/
inductive LockEvent where
  | lockShard (owner : Nat) (shardId : BitVec 64) (lockMode : LockMode)
  | endTransaction (owner : Nat)
  deriving DecidableEq, Repr

/-- The lock table after one event: a granted `LockShard` adds its lock, one that raises or waits
leaves the table as it is, and the end of a transaction releases its locks. -/
def lockStep (myDatabaseId : Oid) (locks : List HeldLock) : LockEvent → List HeldLock
  | .lockShard owner shardId lockMode =>
      match lockShard myDatabaseId owner shardId lockMode locks with
      | some (.ok () granted) => granted
      | _ => locks
  | .endTransaction owner => locks.filter (·.owner ≠ owner)

def lockRun (myDatabaseId : Oid) (locks : List HeldLock) (events : List LockEvent) :
    List HeldLock :=
  events.foldl (lockStep myDatabaseId) locks

/-- The locks held on one shard. -/
def shardHolders (myDatabaseId : Oid) (shardId : BitVec 64) (locks : List HeldLock) :
    List HeldLock :=
  locks.filter (·.tag = shardLockTag myDatabaseId shardId)

/-- The events that can change the locks on a shard: `LockShard` on it, and every transaction
end. -/
def LockEvent.touches (shardId : BitVec 64) : LockEvent → Bool
  | .lockShard _ other _ => other = shardId
  | .endTransaction _ => true

/-- One event, seen from one shard: an event on another shard changes nothing there, and one on
the shard acts on its locks alone, since `LockAcquire` consults only the locks on the tag. -/
theorem shardHolders_lockStep (myDatabaseId : Oid) (shardId : BitVec 64)
    (locks : List HeldLock) (event : LockEvent) :
    shardHolders myDatabaseId shardId (lockStep myDatabaseId locks event) =
      if event.touches shardId then
        lockStep myDatabaseId (shardHolders myDatabaseId shardId locks) event
      else shardHolders myDatabaseId shardId locks := by
  cases event with
  | endTransaction owner =>
      simp only [lockStep, shardHolders, LockEvent.touches, if_true, List.filter_filter,
        Bool.and_comm]
  | lockShard owner other lockMode =>
      by_cases same : other = shardId
      · subst same
        simp only [LockEvent.touches, decide_True, if_true, lockStep, lockShard, lockAcquire,
          shardHolders, List.any_filter, Bool.and_assoc, Bool.and_self_left]
        split_ifs <;> simp [List.filter_append]
      · have apart : shardLockTag myDatabaseId other ≠ shardLockTag myDatabaseId shardId :=
          fun tags => same (shardLockTag_injective myDatabaseId tags)
        rw [if_neg (by simp [LockEvent.touches, same])]
        simp only [lockStep, lockShard, lockAcquire]
        split_ifs <;> simp [shardHolders, List.filter_append, apart]

/-- Each shard's locks evolve on their own. Over every run of `LockShard` calls and transaction
ends, from any table, the locks held on a shard are what the run's events on that shard and its
transaction ends make of the locks held on it at the start: calls on other shards, granted,
waiting or raising, neither add a lock there nor decide whether one is granted. -/
theorem lockRun_shardHolders (myDatabaseId : Oid) (shardId : BitVec 64)
    (events : List LockEvent) (locks : List HeldLock) :
    shardHolders myDatabaseId shardId (lockRun myDatabaseId locks events) =
      lockRun myDatabaseId (shardHolders myDatabaseId shardId locks)
        (events.filter (·.touches shardId)) := by
  induction events generalizing locks with
  | nil => rfl
  | cons event events ih =>
      show shardHolders myDatabaseId shardId
          (lockRun myDatabaseId (lockStep myDatabaseId locks event) events) = _
      rw [ih, shardHolders_lockStep, List.filter_cons]
      cases event.touches shardId <;> rfl

/-! ## Each shard is shared or owned -/

/-- No two transactions hold conflicting locks on one tag. -/
def MutualExclusion (locks : List HeldLock) : Prop :=
  ∀ first ∈ locks, ∀ second ∈ locks, first.tag = second.tag →
    first.owner ≠ second.owner → conflicts first.mode second.mode = false

/-- The lock tables `LockShard` builds: every lock in one of the two modes it accepts, and no two
transactions holding conflicting locks on one tag. -/
structure LockInvariant (locks : List HeldLock) : Prop where
  modes : ∀ held ∈ locks, held.mode = exclusiveLock ∨ held.mode = shareLock
  exclusion : MutualExclusion locks

theorem conflicts_comm (a b : LockMode) : conflicts a b = conflicts b a := by
  simp [conflicts, Bool.or_comm]

theorem lockAcquire_granted {owner : Nat} {lockTag : LockTag} {lockMode : LockMode}
    {locks locks' : List HeldLock}
    (granted : lockAcquire owner lockTag lockMode locks = some (.ok () locks')) :
    (∀ held ∈ locks, held.tag = lockTag → held.owner ≠ owner →
      conflicts held.mode lockMode = false) ∧
      locks' = locks ++ [⟨owner, lockTag, lockMode⟩] := by
  unfold lockAcquire at granted
  split at granted
  · cases granted
  · next free =>
      cases granted
      simp only [List.any_eq_true, not_exists, not_and] at free
      refine ⟨fun held mem sameTag otherOwner => ?_, rfl⟩
      simpa [sameTag, otherOwner] using free held mem

theorem lockShard_granted {myDatabaseId : Oid} {owner : Nat} {shardId : BitVec 64}
    {lockMode : LockMode} {locks locks' : List HeldLock}
    (granted : lockShard myDatabaseId owner shardId lockMode locks = some (.ok () locks')) :
    (lockMode = exclusiveLock ∨ lockMode = shareLock) ∧
      lockAcquire owner (shardLockTag myDatabaseId shardId) lockMode locks =
        some (.ok () locks') := by
  unfold lockShard at granted
  split at granted
  · next valid => exact ⟨valid, granted⟩
  · cases granted

theorem lockAcquire_mutualExclusion {owner : Nat} {lockTag : LockTag} {lockMode : LockMode}
    {locks locks' : List HeldLock} (exclusive : MutualExclusion locks)
    (granted : lockAcquire owner lockTag lockMode locks = some (.ok () locks')) :
    MutualExclusion locks' := by
  obtain ⟨compatible, rfl⟩ := lockAcquire_granted granted
  intro first inFirst second inSecond sameTag otherOwner
  simp only [List.mem_append, List.mem_singleton] at inFirst inSecond
  rcases inFirst with old | rfl <;> rcases inSecond with old' | rfl
  · exact exclusive first old second old' sameTag otherOwner
  · exact compatible first old sameTag otherOwner
  · rw [conflicts_comm]; exact compatible second old' sameTag.symm otherOwner.symm
  · exact absurd rfl otherOwner

theorem lockStep_invariant (myDatabaseId : Oid) {locks : List HeldLock}
    (invariant : LockInvariant locks) (event : LockEvent) :
    LockInvariant (lockStep myDatabaseId locks event) := by
  cases event with
  | lockShard owner shardId lockMode =>
      dsimp only [lockStep]
      split
      · next granted found =>
          obtain ⟨valid, acquired⟩ := lockShard_granted found
          refine ⟨?_, lockAcquire_mutualExclusion invariant.exclusion acquired⟩
          rw [(lockAcquire_granted acquired).2]
          intro held mem
          rcases List.mem_append.mp mem with old | added
          · exact invariant.modes held old
          · rw [List.mem_singleton.mp added]; exact valid
      · exact invariant
  | endTransaction owner =>
      exact ⟨fun held mem => invariant.modes held (List.mem_filter.mp mem).1,
        fun first inFirst second inSecond => invariant.exclusion first
          (List.mem_filter.mp inFirst).1 second (List.mem_filter.mp inSecond).1⟩

theorem lockRun_invariant (myDatabaseId : Oid) (events : List LockEvent) {locks : List HeldLock}
    (invariant : LockInvariant locks) : LockInvariant (lockRun myDatabaseId locks events) := by
  induction events generalizing locks with
  | nil => exact invariant
  | cons event events ih => exact ih (lockStep_invariant myDatabaseId invariant event)

/-- Over every run of `LockShard` calls and transaction ends from the empty lock table, the locks
on each shard are share locks only, or all of one transaction. -/
theorem lockRun_sharedOrOwned (myDatabaseId : Oid) (events : List LockEvent)
    (shardId : BitVec 64) :
    let holders := shardHolders myDatabaseId shardId (lockRun myDatabaseId [] events)
    (∀ held ∈ holders, held.mode = shareLock) ∨ ∃ owner, ∀ held ∈ holders, held.owner = owner := by
  intro holders
  have empty : LockInvariant [] := ⟨fun _ mem => (by cases mem), fun _ mem => (by cases mem)⟩
  have invariant := lockRun_invariant myDatabaseId events empty
  have onShard : ∀ held ∈ holders, held ∈ lockRun myDatabaseId [] events ∧
      held.tag = shardLockTag myDatabaseId shardId := by
    simp [holders, shardHolders]
  by_cases shared : ∀ held ∈ holders, held.mode = shareLock
  · exact .inl shared
  push_neg at shared
  obtain ⟨writer, inWriter, notShare⟩ := shared
  have exclusive := (invariant.modes writer (onShard writer inWriter).1).resolve_right notShare
  refine .inr ⟨writer.owner, fun held mem => ?_⟩
  by_contra otherOwner
  have free := invariant.exclusion writer (onShard writer inWriter).1 held (onShard held mem).1
    ((onShard writer inWriter).2.trans (onShard held mem).2.symm) (Ne.symm otherOwner)
  simp [conflicts, exclusive] at free

end PgShard
