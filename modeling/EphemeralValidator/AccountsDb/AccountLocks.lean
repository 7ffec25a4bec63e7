import Mathlib.Data.Finset.Basic
import EphemeralValidator.Solana.Transaction

/-! # Account locks

The bank runs a batch of transactions only after `Accounts::lock_accounts` has locked
their accounts: a writable account for one transaction, a read-only account for any
number of readers.  `AccountLocks` keeps the write-locked keys and, for every read-locked
key, the number of transactions reading it.  `lock_account` checks a transaction's keys
against the locks and takes them all or none; `unlock_accounts` releases the locks of
the transactions whose lock result was `Ok`.

The locks are always those of the transactions currently holding them
(`account_locks_track_held`): the write-locked keys are their writable keys, each
read count is their number of readers, and no two of them conflict.
-/

namespace EphemeralValidator.AccountsDb

open EphemeralValidator.Solana

/-- `AccountLocks`: the `HashSet` of write-locked keys and the `HashMap` of read counts. -/
structure AccountLocks where
  writeLocks : Finset Pubkey
  readonlyLocks : Pubkey → Option Nat

namespace AccountLocks

/-- `AccountLocks::default()`. -/
def empty : AccountLocks := ⟨∅, fun _ => none⟩

def isLockedReadonly (locks : AccountLocks) (key : Pubkey) : Bool :=
  match locks.readonlyLocks key with
  | some count => 0 < count
  | none => false

def isLockedWrite (locks : AccountLocks) (key : Pubkey) : Bool :=
  key ∈ locks.writeLocks

/-- `insert_new_readonly`; `none` where its `assert!` fails. -/
def insertNewReadonly (locks : AccountLocks) (key : Pubkey) : Option AccountLocks :=
  match locks.readonlyLocks key with
  | none => some { locks with readonlyLocks := Function.update locks.readonlyLocks key (some 1) }
  | some _ => none

/-- `lock_readonly`: whether the key already had a count, which is then one more. -/
def lockReadonly (locks : AccountLocks) (key : Pubkey) : Bool × AccountLocks :=
  match locks.readonlyLocks key with
  | some count => (true, { locks with readonlyLocks := Function.update locks.readonlyLocks key (some (count + 1)) })
  | none => (false, locks)

/-- `unlock_readonly`; `none` where `*count -= 1` underflows. -/
def unlockReadonly (locks : AccountLocks) (key : Pubkey) : Option AccountLocks :=
  match locks.readonlyLocks key with
  | some count =>
    if count = 0 then none
    else if count - 1 = 0 then some { locks with readonlyLocks := Function.update locks.readonlyLocks key none }
    else some { locks with readonlyLocks := Function.update locks.readonlyLocks key (some (count - 1)) }
  | none => some locks

def unlockWrite (locks : AccountLocks) (key : Pubkey) : AccountLocks :=
  { locks with writeLocks := locks.writeLocks.erase key }

end AccountLocks

open AccountLocks

/-- The loop of `lock_account` over the writable keys. -/
def insertWriteLocks (locks : AccountLocks) : List Pubkey → AccountLocks
  | [] => locks
  | key :: keys => insertWriteLocks { locks with writeLocks := insert key locks.writeLocks } keys

/-- The loop of `lock_account` over the read-only keys. -/
def lockReadonlyKeys (locks : AccountLocks) : List Pubkey → Option AccountLocks
  | [] => some locks
  | key :: keys =>
    match locks.lockReadonly key with
    | (true, locks) => lockReadonlyKeys locks keys
    | (false, locks) => (locks.insertNewReadonly key).bind fun locks => lockReadonlyKeys locks keys

/-- `Accounts::lock_account`: every writable key must be free, every read-only key free
of writers; then all are locked.  The outer `none` is a failed `assert!`. -/
def lockAccount (locks : AccountLocks) (writableKeys readonlyKeys : List Pubkey) :
    Option (Except TransactionError AccountLocks) :=
  if writableKeys.any fun key => locks.isLockedWrite key || locks.isLockedReadonly key then
    some (.error .accountInUse)
  else if readonlyKeys.any locks.isLockedWrite then some (.error .accountInUse)
  else (lockReadonlyKeys (insertWriteLocks locks writableKeys) readonlyKeys).map .ok

/-- `Accounts::lock_accounts_inner`, which `lock_accounts` and `lock_accounts_with_results`
call on each transaction's `get_account_locks`, or on the error it already has. -/
def lockAccountsInner (locks : AccountLocks) :
    List (Except TransactionError TransactionAccountLocks) →
      Option (List (Except TransactionError Unit) × AccountLocks)
  | [] => some ([], locks)
  | .error e :: rest => (lockAccountsInner locks rest).map fun locked => (.error e :: locked.1, locked.2)
  | .ok txLocks :: rest =>
    match lockAccount locks txLocks.writable txLocks.readonly with
    | none => none
    | some (.error e) => (lockAccountsInner locks rest).map fun locked => (.error e :: locked.1, locked.2)
    | some (.ok locks) => (lockAccountsInner locks rest).map fun locked => (.ok () :: locked.1, locked.2)

/-- The loop of `unlock_account` over the writable keys. -/
def unlockWriteKeys (locks : AccountLocks) : List Pubkey → AccountLocks
  | [] => locks
  | key :: keys => unlockWriteKeys (locks.unlockWrite key) keys

/-- The loop of `unlock_account` over the read-only keys. -/
def unlockReadonlyKeys (locks : AccountLocks) : List Pubkey → Option AccountLocks
  | [] => some locks
  | key :: keys => (locks.unlockReadonly key).bind fun locks => unlockReadonlyKeys locks keys

def unlockAccount (locks : AccountLocks) (writableKeys readonlyKeys : List Pubkey) : Option AccountLocks :=
  unlockReadonlyKeys (unlockWriteKeys locks writableKeys) readonlyKeys

/-- The transactions whose lock result is `Ok`. -/
def okTransactions (txs : List TransactionAccountLocks) (results : List (Except TransactionError Unit)) :
    List TransactionAccountLocks :=
  ((txs.zip results).filter fun tx => tx.2.isOk).map (·.1)

/-- `Accounts::unlock_accounts`, on the lock lists of `get_account_locks_unchecked`. -/
def unlockAccounts (locks : AccountLocks) (txs : List TransactionAccountLocks)
    (results : List (Except TransactionError Unit)) : Option AccountLocks :=
  (okTransactions txs results).foldlM (fun locks tx => unlockAccount locks tx.writable tx.readonly) locks

/-! ## The transactions holding locks -/

/-- The count entry of a key read by `n` transactions: none when there are none. -/
def countEntry (n : Nat) : Option Nat := if n = 0 then none else some n

/-- How many of the transactions read `key`. -/
def readers (held : List TransactionAccountLocks) (key : Pubkey) : Nat :=
  held.countP fun tx => key ∈ tx.readonly

/-- The locks the transactions `held` account for. -/
def heldLocks (held : List TransactionAccountLocks) : AccountLocks where
  writeLocks := (held.flatMap (·.writable)).toFinset
  readonlyLocks key := countEntry (readers held key)

/-- `tx` writes a key that `other` reads or writes. -/
def WritesInto (tx other : TransactionAccountLocks) : Prop :=
  ∃ key ∈ tx.writable, key ∈ other.writable ∨ key ∈ other.readonly

/-- Two transactions that may hold their locks at the same time. -/
def Compatible (tx other : TransactionAccountLocks) : Prop :=
  ¬ WritesInto tx other ∧ ¬ WritesInto other tx

theorem Compatible.symm {tx other : TransactionAccountLocks} (compatible : Compatible tx other) :
    Compatible other tx :=
  ⟨compatible.2, compatible.1⟩

instance : Std.Symm Compatible := ⟨fun _ _ compatible => compatible.symm⟩

/-! ### The locks as counts -/

theorem countEntry_ne_some_zero (n : Nat) : countEntry n ≠ some 0 := by
  unfold countEntry
  split_ifs with zero
  · exact nofun
  · exact fun same => zero (Option.some.inj same)

theorem update_countEntry (count : Pubkey → Nat) (key : Pubkey) (n : Nat) :
    Function.update (fun key => countEntry (count key)) key (countEntry n) =
      fun key' => countEntry (Function.update count key n key') := by
  funext key'
  by_cases same : key' = key
  · subst same
    simp
  · simp [same]

theorem insertWriteLocks_eq (locks : AccountLocks) (keys : List Pubkey) :
    insertWriteLocks locks keys = { locks with writeLocks := locks.writeLocks ∪ keys.toFinset } := by
  induction keys generalizing locks with
  | nil => simp [insertWriteLocks]
  | cons key keys ih =>
    rw [insertWriteLocks, ih]
    congr 1
    ext k
    simp

/-- Read-locking distinct keys counts one more reader for each. -/
theorem lockReadonlyKeys_eq (writeLocks : Finset Pubkey) (count : Pubkey → Nat) {keys : List Pubkey}
    (distinct : keys.Nodup) :
    lockReadonlyKeys ⟨writeLocks, fun key => countEntry (count key)⟩ keys =
      some ⟨writeLocks, fun key => countEntry (count key + if key ∈ keys then 1 else 0)⟩ := by
  induction keys generalizing count with
  | nil => simp [lockReadonlyKeys]
  | cons key keys ih =>
    rw [List.nodup_cons] at distinct
    -- either way the key's count becomes one more
    have step : lockReadonlyKeys ⟨writeLocks, fun key => countEntry (count key)⟩ (key :: keys) =
        lockReadonlyKeys ⟨writeLocks, fun key' => countEntry (Function.update count key (count key + 1) key')⟩
          keys := by
      rw [lockReadonlyKeys]
      have next : countEntry (count key + 1) = some (count key + 1) := by simp [countEntry]
      by_cases zero : count key = 0
      · -- no reader yet: `insert_new_readonly` starts the count at one
        have absent : countEntry (count key) = none := by simp [countEntry, zero]
        simp only [lockReadonly, absent, insertNewReadonly, Option.bind_some]
        rw [← update_countEntry, next, zero]
      · have counted : countEntry (count key) = some (count key) := by simp [countEntry, zero]
        simp only [lockReadonly, counted]
        rw [← update_countEntry, next]
    rw [step, ih _ distinct.2]
    congr 2
    funext k
    by_cases same : k = key
    · subst same
      simp [distinct.1]
    · simp [same]

theorem unlockWriteKeys_eq (locks : AccountLocks) (keys : List Pubkey) :
    unlockWriteKeys locks keys = { locks with writeLocks := locks.writeLocks \ keys.toFinset } := by
  induction keys generalizing locks with
  | nil => simp [unlockWriteKeys]
  | cons key keys ih =>
    rw [unlockWriteKeys, ih, unlockWrite]
    congr 1
    ext k
    simp only [Finset.mem_sdiff, Finset.mem_erase, List.mem_toFinset, List.mem_cons, not_or]
    tauto

/-- Read-unlocking distinct keys that each have a reader counts one reader less for each,
and removes the keys left without one. -/
theorem unlockReadonlyKeys_eq (writeLocks : Finset Pubkey) (count : Pubkey → Nat) {keys : List Pubkey}
    (distinct : keys.Nodup) (present : ∀ key ∈ keys, 0 < count key) :
    unlockReadonlyKeys ⟨writeLocks, fun key => countEntry (count key)⟩ keys =
      some ⟨writeLocks, fun key => countEntry (count key - if key ∈ keys then 1 else 0)⟩ := by
  induction keys generalizing count with
  | nil => simp [unlockReadonlyKeys]
  | cons key keys ih =>
    rw [List.nodup_cons] at distinct
    have positive : count key ≠ 0 := (present key List.mem_cons_self).ne'
    have step : unlockReadonlyKeys ⟨writeLocks, fun key => countEntry (count key)⟩ (key :: keys) =
        unlockReadonlyKeys ⟨writeLocks, fun key' => countEntry (Function.update count key (count key - 1) key')⟩
          keys := by
      rw [unlockReadonlyKeys]
      have counted : countEntry (count key) = some (count key) := by simp [countEntry, positive]
      simp only [unlockReadonly, counted, positive, if_false]
      by_cases last : count key - 1 = 0
      · -- the last reader leaves: the entry is removed
        have gone : countEntry (count key - 1) = none := by simp [countEntry, last]
        rw [if_pos last, Option.bind_some, ← gone, update_countEntry]
      · have fewer : countEntry (count key - 1) = some (count key - 1) := by simp [countEntry, last]
        rw [if_neg last, Option.bind_some, ← fewer, update_countEntry]
    have present' : ∀ k ∈ keys, 0 < Function.update count key (count key - 1) k := by
      intro k mem
      have other : k ≠ key := fun same => distinct.1 (same ▸ mem)
      rw [Function.update_of_ne other]
      exact present k (List.mem_cons_of_mem _ mem)
    rw [step, ih _ distinct.2 present']
    congr 2
    funext k
    by_cases same : k = key
    · subst same
      simp [distinct.1]
    · simp [same]

/-! ### The locks of the held transactions -/

theorem readers_append (held : List TransactionAccountLocks) (tx : TransactionAccountLocks) (key : Pubkey) :
    readers (held ++ [tx]) key = readers held key + if key ∈ tx.readonly then 1 else 0 := by
  by_cases reads : key ∈ tx.readonly <;> simp [readers, List.countP_append, reads]

theorem readers_erase {held : List TransactionAccountLocks} {tx : TransactionAccountLocks} (mem : tx ∈ held)
    (key : Pubkey) : readers held key = readers (held.erase tx) key + if key ∈ tx.readonly then 1 else 0 := by
  rw [readers, (List.perm_cons_erase mem).countP_eq, List.countP_cons, readers]
  by_cases reads : key ∈ tx.readonly <;> simp [reads]

theorem isLockedWrite_heldLocks (held : List TransactionAccountLocks) (key : Pubkey) :
    (heldLocks held).isLockedWrite key = true ↔ ∃ tx ∈ held, key ∈ tx.writable := by
  simp [isLockedWrite, heldLocks]

theorem isLockedReadonly_heldLocks (held : List TransactionAccountLocks) (key : Pubkey) :
    (heldLocks held).isLockedReadonly key = true ↔ ∃ tx ∈ held, key ∈ tx.readonly := by
  have counted := @List.countP_pos_iff _ held fun tx => decide (key ∈ tx.readonly)
  simp only [decide_eq_true_eq] at counted
  rw [← counted]
  unfold isLockedReadonly heldLocks countEntry readers
  dsimp only
  split_ifs with zero <;> simp [zero, Nat.pos_iff_ne_zero]

/-- A transaction's writable keys are free exactly when it writes into no holder. -/
theorem any_writable_locked (held : List TransactionAccountLocks) (tx : TransactionAccountLocks) :
    (tx.writable.any fun key => (heldLocks held).isLockedWrite key || (heldLocks held).isLockedReadonly key) =
      true ↔ ∃ other ∈ held, WritesInto tx other := by
  simp only [List.any_eq_true, Bool.or_eq_true, isLockedWrite_heldLocks, isLockedReadonly_heldLocks]
  constructor
  · rintro ⟨key, writes, ⟨other, held, mem⟩ | ⟨other, held, mem⟩⟩
    · exact ⟨other, held, key, writes, .inl mem⟩
    · exact ⟨other, held, key, writes, .inr mem⟩
  · rintro ⟨other, held, key, writes, mem | mem⟩
    · exact ⟨key, writes, .inl ⟨other, held, mem⟩⟩
    · exact ⟨key, writes, .inr ⟨other, held, mem⟩⟩

theorem any_readonly_locked (held : List TransactionAccountLocks) (tx : TransactionAccountLocks) :
    tx.readonly.any (heldLocks held).isLockedWrite = true ↔
      ∃ other ∈ held, ∃ key ∈ other.writable, key ∈ tx.readonly := by
  simp only [List.any_eq_true, isLockedWrite_heldLocks]
  constructor
  · rintro ⟨key, reads, other, held, writes⟩
    exact ⟨other, held, key, writes, reads⟩
  · rintro ⟨other, held, key, writes, reads⟩
    exact ⟨key, reads, other, held, writes⟩

theorem heldLocks_append (held : List TransactionAccountLocks) (tx : TransactionAccountLocks) :
    heldLocks (held ++ [tx]) = ⟨(heldLocks held).writeLocks ∪ tx.writable.toFinset,
      fun key => countEntry (readers held key + if key ∈ tx.readonly then 1 else 0)⟩ := by
  simp only [heldLocks, readers_append, List.flatMap_append, List.flatMap_singleton, List.toFinset_append]

/-- Releasing a holder's locks: no other holder writes its writable keys. -/
theorem heldLocks_erase {held : List TransactionAccountLocks} (conflictFree : held.Pairwise Compatible)
    {tx : TransactionAccountLocks} (mem : tx ∈ held) :
    heldLocks (held.erase tx) = ⟨(heldLocks held).writeLocks \ tx.writable.toFinset,
      fun key => countEntry (readers held key - if key ∈ tx.readonly then 1 else 0)⟩ := by
  have others : ∀ other ∈ held.erase tx, Compatible tx other := by
    have first := conflictFree.perm (List.perm_cons_erase mem) Compatible.symm
    exact (List.pairwise_cons.mp first).1
  simp only [heldLocks, AccountLocks.mk.injEq]
  constructor
  · ext key
    simp only [List.mem_toFinset, List.mem_flatMap, Finset.mem_sdiff]
    constructor
    · rintro ⟨other, kept, writes⟩
      refine ⟨⟨other, List.mem_of_mem_erase kept, writes⟩, fun mine => (others other kept).2 ⟨key, writes, .inl mine⟩⟩
    · rintro ⟨⟨other, holds, writes⟩, notMine⟩
      have differs : other ≠ tx := fun same => notMine (same ▸ writes)
      exact ⟨other, (List.mem_erase_of_ne differs).mpr holds, writes⟩
  · funext key
    rw [readers_erase mem key, Nat.add_sub_cancel]

/-- `lock_account` turns down a transaction that is not compatible with every holder. -/
theorem lockAccount_heldLocks_of_conflict {held : List TransactionAccountLocks} {tx : TransactionAccountLocks}
    (conflict : ∃ other ∈ held, ¬ Compatible tx other) :
    lockAccount (heldLocks held) tx.writable tx.readonly = some (.error .accountInUse) := by
  obtain ⟨other, holds, incompatible⟩ := conflict
  unfold lockAccount
  by_cases writes : WritesInto tx other
  · rw [if_pos ((any_writable_locked held tx).mpr ⟨other, holds, writes⟩)]
  · -- the holder writes into the transaction: a read-only key, or a writable one
    have writtenInto : WritesInto other tx := by
      by_contra free
      exact incompatible ⟨writes, free⟩
    obtain ⟨key, theirs, mine | mine⟩ := writtenInto
    · rw [if_pos ((any_writable_locked held tx).mpr ⟨other, holds, key, mine, .inl theirs⟩)]
    · split_ifs with first second
      · rfl
      · rfl
      · exact absurd ((any_readonly_locked held tx).mpr ⟨other, holds, key, theirs, mine⟩) second

/-- `lock_account` adds a transaction compatible with every holder to the holders. -/
theorem lockAccount_heldLocks {held : List TransactionAccountLocks} {tx : TransactionAccountLocks}
    (compatible : ∀ other ∈ held, Compatible tx other) :
    lockAccount (heldLocks held) tx.writable tx.readonly = some (.ok (heldLocks (held ++ [tx]))) := by
  have writableFree : ¬ (tx.writable.any fun key =>
      (heldLocks held).isLockedWrite key || (heldLocks held).isLockedReadonly key) = true := by
    rw [any_writable_locked]
    rintro ⟨other, holds, writes⟩
    exact (compatible other holds).1 writes
  have readonlyFree : ¬ tx.readonly.any (heldLocks held).isLockedWrite = true := by
    rw [any_readonly_locked]
    rintro ⟨other, holds, key, theirs, mine⟩
    exact (compatible other holds).2 ⟨key, theirs, .inr mine⟩
  have distinctReadonly : tx.readonly.Nodup := (List.nodup_append.mp tx.distinct).2.1
  unfold lockAccount
  rw [if_neg writableFree, if_neg readonlyFree, insertWriteLocks_eq]
  change Option.map Except.ok (lockReadonlyKeys ⟨(heldLocks held).writeLocks ∪ tx.writable.toFinset,
    fun key => countEntry (readers held key)⟩ tx.readonly) = _
  rw [lockReadonlyKeys_eq _ (readers held) distinctReadonly, heldLocks_append]
  rfl

/-- `unlock_account` of a holder releases exactly its locks. -/
theorem unlockAccount_heldLocks {held : List TransactionAccountLocks} (conflictFree : held.Pairwise Compatible)
    {tx : TransactionAccountLocks} (mem : tx ∈ held) :
    unlockAccount (heldLocks held) tx.writable tx.readonly = some (heldLocks (held.erase tx)) := by
  have distinctReadonly : tx.readonly.Nodup := (List.nodup_append.mp tx.distinct).2.1
  have present : ∀ key ∈ tx.readonly, 0 < readers held key := fun key reads =>
    List.countP_pos_iff.mpr ⟨tx, mem, decide_eq_true reads⟩
  unfold unlockAccount
  rw [unlockWriteKeys_eq, heldLocks_erase conflictFree mem]
  exact unlockReadonlyKeys_eq ((heldLocks held).writeLocks \ tx.writable.toFinset) (readers held)
    distinctReadonly present

/-! ## Batches -/

/-- The transactions of a batch whose lock attempt succeeded. -/
def acquired : List (Except TransactionError TransactionAccountLocks) → List (Except TransactionError Unit) →
    List TransactionAccountLocks
  | .ok tx :: batch, .ok () :: results => tx :: acquired batch results
  | _ :: batch, _ :: results => acquired batch results
  | _, _ => []

-- one lemma per clause: the equations Lean derives for the overlapping second clause carry
-- side conditions that make `simp` slow
@[simp] theorem acquired_nil (results : List (Except TransactionError Unit)) : acquired [] results = [] := by
  cases results <;> rfl

@[simp] theorem acquired_ok_ok (tx : TransactionAccountLocks) (batch : List (Except TransactionError TransactionAccountLocks))
    (results : List (Except TransactionError Unit)) :
    acquired (.ok tx :: batch) (.ok () :: results) = tx :: acquired batch results := rfl

@[simp] theorem acquired_ok_error (tx : TransactionAccountLocks) (batch : List (Except TransactionError TransactionAccountLocks))
    (e : TransactionError) (results : List (Except TransactionError Unit)) :
    acquired (.ok tx :: batch) (.error e :: results) = acquired batch results := rfl

@[simp] theorem acquired_error (e : TransactionError) (batch : List (Except TransactionError TransactionAccountLocks))
    (result : Except TransactionError Unit) (results : List (Except TransactionError Unit)) :
    acquired (.error e :: batch) (result :: results) = acquired batch results := rfl

/-- A batch locks, in order, each transaction compatible with the holders and with those
of the batch locked before it, and leaves the locks alone for the others. -/
theorem lockAccountsInner_heldLocks {held : List TransactionAccountLocks}
    (conflictFree : held.Pairwise Compatible) (batch : List (Except TransactionError TransactionAccountLocks)) :
    ∃ results, lockAccountsInner (heldLocks held) batch = some (results, heldLocks (held ++ acquired batch results)) ∧
      (held ++ acquired batch results).Pairwise Compatible := by
  induction batch generalizing held with
  | nil => exact ⟨[], by simp [lockAccountsInner], by simpa using conflictFree⟩
  | cons entry batch ih =>
    cases entry with
    | error e =>
      obtain ⟨results, locked, free⟩ := ih conflictFree
      exact ⟨.error e :: results, by simp [lockAccountsInner, locked], by simpa using free⟩
    | ok tx =>
      by_cases conflict : ∃ other ∈ held, ¬ Compatible tx other
      · obtain ⟨results, locked, free⟩ := ih conflictFree
        refine ⟨.error .accountInUse :: results, ?_, by simpa using free⟩
        simp [lockAccountsInner, lockAccount_heldLocks_of_conflict conflict, locked]
      · simp only [not_exists, not_and, not_not] at conflict
        -- the transaction joins the holders
        have joined : (held ++ [tx]).Pairwise Compatible :=
          List.pairwise_append.mpr ⟨conflictFree, List.pairwise_singleton _ _,
            fun other holds _ same => (List.mem_singleton.mp same) ▸ (conflict other holds).symm⟩
        obtain ⟨results, locked, free⟩ := ih joined
        refine ⟨.ok () :: results, ?_, by simpa using free⟩
        simp [lockAccountsInner, lockAccount_heldLocks conflict, locked]

/-- Unlocking holders, each once, releases exactly their locks. -/
theorem foldlM_unlockAccount_heldLocks {held : List TransactionAccountLocks}
    (conflictFree : held.Pairwise Compatible) {txs : List TransactionAccountLocks} (holding : txs.Subperm held) :
    txs.foldlM (fun locks tx => unlockAccount locks tx.writable tx.readonly) (heldLocks held) =
      some (heldLocks (held.diff txs)) := by
  induction txs generalizing held with
  | nil => rfl
  | cons tx txs ih =>
    have mem : tx ∈ held := holding.subset List.mem_cons_self
    have rest : txs.Subperm (held.erase tx) := by
      simpa using holding.erase tx
    rw [List.foldlM_cons, unlockAccount_heldLocks conflictFree mem, Option.bind_eq_bind, Option.bind_some,
      ih (conflictFree.sublist List.erase_sublist) rest, List.diff_cons]

/-! ## Every run -/

/-- The lock states a run of lock and unlock calls reaches, with the transactions that hold
locks: a transaction is unlocked at most once, and only if its lock result was `Ok`. -/
inductive Reachable : AccountLocks → List TransactionAccountLocks → Prop
  | empty : Reachable AccountLocks.empty []
  | lock {locks : AccountLocks} {held : List TransactionAccountLocks}
      {batch : List (Except TransactionError TransactionAccountLocks)} {results : List (Except TransactionError Unit)}
      {locks' : AccountLocks} :
      Reachable locks held → lockAccountsInner locks batch = some (results, locks') →
      Reachable locks' (held ++ acquired batch results)
  | unlock {locks : AccountLocks} {held txs : List TransactionAccountLocks}
      {results : List (Except TransactionError Unit)} {locks' : AccountLocks} :
      Reachable locks held → (okTransactions txs results).Subperm held →
      unlockAccounts locks txs results = some locks' →
      Reachable locks' (held.diff (okTransactions txs results))

theorem Reachable.heldLocks {locks : AccountLocks} {held : List TransactionAccountLocks}
    (reachable : Reachable locks held) : locks = heldLocks held ∧ held.Pairwise Compatible := by
  induction reachable with
  | empty => exact ⟨rfl, List.Pairwise.nil⟩
  | @lock locks held batch results locks' _ locked ih =>
    obtain ⟨rfl, conflictFree⟩ := ih
    obtain ⟨results', locked', free⟩ := lockAccountsInner_heldLocks conflictFree batch
    rw [locked] at locked'
    obtain ⟨rfl, rfl⟩ := Prod.mk.inj (Option.some.inj locked')
    exact ⟨rfl, free⟩
  | @unlock locks held txs results locks' _ holding unlocked ih =>
    obtain ⟨rfl, conflictFree⟩ := ih
    rw [unlockAccounts, foldlM_unlockAccount_heldLocks conflictFree holding] at unlocked
    exact ⟨(Option.some.inj unlocked).symm, conflictFree.sublist (List.diff_sublist _ _)⟩

theorem account_locks_track_held {locks : AccountLocks} {held : List TransactionAccountLocks}
    (reachable : Reachable locks held) :
    locks = heldLocks held ∧ (∀ key, locks.readonlyLocks key ≠ some 0) ∧
      (∀ key, ¬ (locks.isLockedWrite key = true ∧ locks.isLockedReadonly key = true)) ∧
      held.Pairwise Compatible ∧
      (∀ batch, ∃ results,
        lockAccountsInner locks batch = some (results, heldLocks (held ++ acquired batch results))) ∧
      (∀ tx : TransactionAccountLocks, (∃ other ∈ held, ¬ Compatible tx other) →
        lockAccount locks tx.writable tx.readonly = some (.error .accountInUse)) ∧
      ∀ txs results, (okTransactions txs results).Subperm held →
        unlockAccounts locks txs results = some (heldLocks (held.diff (okTransactions txs results))) := by
  obtain ⟨rfl, conflictFree⟩ := reachable.heldLocks
  refine ⟨rfl, fun key => countEntry_ne_some_zero _, fun key both => ?_, conflictFree, fun batch => ?_,
    fun tx conflict => lockAccount_heldLocks_of_conflict conflict,
    fun txs results holding => foldlM_unlockAccount_heldLocks conflictFree holding⟩
  · -- a writer and a reader of one key are one transaction, or two that conflict
    obtain ⟨writer, writerHolds, writes⟩ := (isLockedWrite_heldLocks held key).mp both.1
    obtain ⟨reader, readerHolds, reads⟩ := (isLockedReadonly_heldLocks held key).mp both.2
    by_cases same : writer = reader
    · subst same
      exact List.disjoint_of_nodup_append writer.distinct writes reads
    · exact (conflictFree.forall writerHolds readerHolds same).1
        ⟨key, writes, .inr reads⟩
  · obtain ⟨results, locked, -⟩ := lockAccountsInner_heldLocks conflictFree batch
    exact ⟨results, locked⟩

theorem exampleWriter_distinct : ([Bytes.FixedBytes.replicate 32 1] ++ [Bytes.FixedBytes.replicate 32 2] : List Pubkey).Nodup := by
  decide

theorem exampleReader_distinct : ([Bytes.FixedBytes.replicate 32 3] ++ [Bytes.FixedBytes.replicate 32 2] : List Pubkey).Nodup := by
  decide

theorem exampleRival_distinct : ([Bytes.FixedBytes.replicate 32 1] ++ [] : List Pubkey).Nodup := by
  decide

/-- Writes `[1; 32]` and reads `[2; 32]`. -/
def exampleWriter : TransactionAccountLocks := ⟨[Bytes.FixedBytes.replicate 32 1], [Bytes.FixedBytes.replicate 32 2], exampleWriter_distinct⟩

/-- Writes `[3; 32]` and reads `[2; 32]` as well. -/
def exampleReader : TransactionAccountLocks := ⟨[Bytes.FixedBytes.replicate 32 3], [Bytes.FixedBytes.replicate 32 2], exampleReader_distinct⟩

/-- Writes `[1; 32]`, which `exampleWriter` holds. -/
def exampleRival : TransactionAccountLocks := ⟨[Bytes.FixedBytes.replicate 32 1], [], exampleRival_distinct⟩

/-- One batch from no locks: the writer and the reader lock, sharing the read lock of `[2; 32]`,
and the rival is refused with `AccountInUse`. -/
theorem account_locks_track_held_after_batch :
    ∃ locks, lockAccountsInner AccountLocks.empty [.ok exampleWriter, .ok exampleReader, .ok exampleRival] =
        some ([.ok (), .ok (), .error .accountInUse], locks) ∧
      Reachable locks [exampleWriter, exampleReader] ∧
      (locks = heldLocks [exampleWriter, exampleReader] ∧ (∀ key, locks.readonlyLocks key ≠ some 0) ∧
        (∀ key, ¬ (locks.isLockedWrite key = true ∧ locks.isLockedReadonly key = true)) ∧
        [exampleWriter, exampleReader].Pairwise Compatible ∧
        (∀ batch, ∃ results,
          lockAccountsInner locks batch = some (results, heldLocks ([exampleWriter, exampleReader] ++ acquired batch results))) ∧
        (∀ tx : TransactionAccountLocks, (∃ other ∈ [exampleWriter, exampleReader], ¬ Compatible tx other) →
          lockAccount locks tx.writable tx.readonly = some (.error .accountInUse)) ∧
        ∀ txs results, (okTransactions txs results).Subperm [exampleWriter, exampleReader] →
          unlockAccounts locks txs results =
            some (heldLocks ([exampleWriter, exampleReader].diff (okTransactions txs results)))) := by
  obtain ⟨locks, locked⟩ : ∃ locks, lockAccountsInner AccountLocks.empty
      [.ok exampleWriter, .ok exampleReader, .ok exampleRival] = some ([.ok (), .ok (), .error .accountInUse], locks) :=
    ⟨_, rfl⟩
  -- the batch's acquired transactions are the writer and the reader
  have reached : Reachable locks [exampleWriter, exampleReader] := Reachable.lock .empty locked
  exact ⟨locks, locked, reached, account_locks_track_held reached⟩

end EphemeralValidator.AccountsDb
