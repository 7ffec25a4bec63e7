import EphemeralValidator.Ledger.Columns

/-! # Looking up a transaction's status

`write_transaction_status` puts the status of a transaction under the `TransactionStatus`
key `(signature, slot)`, and `Ledger::get_transaction_status(signature, min_slot)` reads it
back with a forward scan of the column that starts at the key
`(signature, lowest_available_slot)`, where `lowest_available_slot` is
`lowest_cleanup_slot + 1`.  The scan takes the first entry of the signature at a slot no
later than `min_slot`, and stops at the first entry of another signature.

The store is the column's entries by index; a forward iterator from a seek key visits the
entries whose key is not below it, in byte order of the keys (the order RocksDB keeps).  The
keys decode back to their indexes (`columns_keys_round_trip`), so the scan sees indexes.

`lowest_cleanup_slot` starts at 0, meaning that nothing was cleaned up, but the scan still
starts at slot 1: a status written at slot 0 is never found
(`get_transaction_status_misses_slot_zero`).
-/

namespace EphemeralValidator.Ledger

open EphemeralValidator.Bytes EphemeralValidator.Solana

variable {Meta : Type}

/-- The `TransactionStatus` column, by index. -/
abbrev StatusStore (Meta : Type) := List ((Signature × Slot) × Meta)

namespace StatusStore

/-- `put_protobuf`: the entry of the index is replaced. -/
def put (store : StatusStore Meta) (index : Signature × Slot) (status : Meta) : StatusStore Meta :=
  (store.filter fun entry => entry.1 ≠ index) ++ [(index, status)]

/-- `get_protobuf`. -/
def get (store : StatusStore Meta) (index : Signature × Slot) : Option Meta :=
  (store.find? fun entry => entry.1 = index).map Prod.snd

/-- `iterator_cf` with `IteratorMode::From(seek, IteratorDirection::Forward)`: the entries
whose key is not below the seek key, in byte order of the keys. -/
def iterFrom (store : StatusStore Meta) (seek : Signature × Slot) : StatusStore Meta :=
  (store.filter fun entry => compare (TransactionStatus.key entry.1) (TransactionStatus.key seek) != .lt).mergeSort
    fun a b => compare (TransactionStatus.key a.1) (TransactionStatus.key b.1) != .gt

end StatusStore

/-- `ensure_lowest_cleanup_slot`: the lowest slot that may still be read; `none` is the
`expect("overflow from trusted value")`. -/
def ensureLowestCleanupSlot (lowestCleanupSlot : Slot) : Option Slot :=
  if lowestCleanupSlot.toNat + 1 < 2 ^ 64 then some (lowestCleanupSlot + 1) else none

/-- The loop of `get_transaction_status` over the scanned entries. -/
def scanTransactionStatus (store : StatusStore Meta) (signature : Signature) (minSlot : Slot) :
    StatusStore Meta → Option (Slot × Meta)
  | [] => none
  | ((statSignature, slot), _) :: rest =>
    if statSignature = signature ∧ slot ≤ minSlot then
      (store.get (signature, slot)).map fun status => (slot, status)
    -- left the range of the signature looked for
    else if statSignature ≠ signature then none
    else scanTransactionStatus store signature minSlot rest

/-- `Ledger::get_transaction_status`; the outer `none` is a panic. -/
def getTransactionStatus (store : StatusStore Meta) (lowestCleanupSlot : Slot) (signature : Signature)
    (minSlot : Slot) : Option (Option (Slot × Meta)) := do
  let lowestAvailableSlot ← ensureLowestCleanupSlot lowestCleanupSlot
  pure (scanTransactionStatus store signature minSlot (store.iterFrom (signature, lowestAvailableSlot)))

/-! ## What the scan visits -/

namespace StatusStore

/-- Status keys order by signature bytes, then by slot. -/
theorem compare_statusKey (a b : Signature × Slot) :
    compare (TransactionStatus.key a) (TransactionStatus.key b) =
      (compare a.1.bytes b.1.bytes).then (compare a.2.toNat b.2.toNat) := by
  rw [TransactionStatus.key, TransactionStatus.currentIndexLen, compare_signatureSlotKey, compare_uInt64]

theorem mem_iterFrom {store : StatusStore Meta} {seek : Signature × Slot} {entry : (Signature × Slot) × Meta} :
    entry ∈ store.iterFrom seek ↔
      entry ∈ store ∧ compare (TransactionStatus.key entry.1) (TransactionStatus.key seek) ≠ .lt := by
  rw [iterFrom, List.mem_mergeSort, List.mem_filter, bne_iff_ne]

/-- An entry of the signature looked for that a scan from `(signature, seekSlot)` visits is at
`seekSlot` or later: the keys order by signature, then slot. -/
theorem seekSlot_le_of_mem_iterFrom {store : StatusStore Meta} {signature : Signature} {seekSlot : Slot}
    {entry : (Signature × Slot) × Meta} (visited : entry ∈ store.iterFrom (signature, seekSlot))
    (same : entry.1.1 = signature) : seekSlot.toNat ≤ entry.1.2.toNat := by
  have notBelow := (mem_iterFrom.mp visited).2
  obtain ⟨⟨statSignature, slot⟩, status⟩ := entry
  dsimp only at same notBelow ⊢
  subst same
  rw [compare_statusKey, Std.compare_self, Ordering.eq_then, Ne, Nat.compare_eq_lt] at notBelow
  simp only at notBelow
  omega

end StatusStore

theorem scanTransactionStatus_eq_some {store : StatusStore Meta} {signature : Signature} {minSlot : Slot}
    {entries : StatusStore Meta} {slot : Slot} {status : Meta}
    (found : scanTransactionStatus store signature minSlot entries = some (slot, status)) :
    ∃ entry ∈ entries, entry.1 = (signature, slot) := by
  induction entries with
  | nil => cases found
  | cons entry rest ih =>
    obtain ⟨⟨statSignature, slot'⟩, status'⟩ := entry
    unfold scanTransactionStatus at found
    split at found
    · next matched =>
      obtain ⟨stored, -, same⟩ := Option.map_eq_some_iff.mp found
      cases same
      exact ⟨_, List.mem_cons_self, by rw [matched.1]⟩
    · split at found
      · cases found
      · obtain ⟨entry, member, same⟩ := ih found
        exact ⟨entry, List.mem_cons_of_mem _ member, same⟩

/-- A scan that meets no entry of the signature finds nothing. -/
theorem scanTransactionStatus_eq_none {store : StatusStore Meta} {signature : Signature} {minSlot : Slot}
    {entries : StatusStore Meta} (other : ∀ entry ∈ entries, entry.1.1 ≠ signature) :
    scanTransactionStatus store signature minSlot entries = none := by
  cases entries with
  | nil => rfl
  | cons entry rest =>
    obtain ⟨⟨statSignature, slot⟩, status⟩ := entry
    have differs : statSignature ≠ signature := other _ List.mem_cons_self
    simp [scanTransactionStatus, differs]

/-! ## Slot 0 -/

/-- With nothing cleaned up (`lowest_cleanup_slot` 0) the scan starts at slot 1: no status at
slot 0 is ever returned, and a signature whose statuses are all at slot 0 is not found. -/
theorem get_transaction_status_misses_slot_zero (store : StatusStore Meta) (signature : Signature)
    (minSlot : Slot) :
    (∀ status, getTransactionStatus store 0 signature minSlot ≠ some (some (0, status))) ∧
      ((∀ entry ∈ store, entry.1.1 = signature → entry.1.2 = 0) →
        getTransactionStatus store 0 signature minSlot = some none) := by
  have lookup : getTransactionStatus store 0 signature minSlot =
      some (scanTransactionStatus store signature minSlot (store.iterFrom (signature, 1))) := rfl
  have fromOne : ∀ entry ∈ store.iterFrom (signature, 1), entry.1.1 = signature → 1 ≤ entry.1.2.toNat :=
    fun _ visited same => StatusStore.seekSlot_le_of_mem_iterFrom visited same
  constructor
  · intro status found
    rw [lookup, Option.some.injEq] at found
    obtain ⟨entry, visited, same⟩ := scanTransactionStatus_eq_some found
    have late := fromOne entry visited (by rw [same])
    rw [same] at late
    simp at late
  · intro onlyZero
    rw [lookup, scanTransactionStatus_eq_none]
    intro entry visited same
    have late := fromOne entry visited same
    rw [onlyZero entry (StatusStore.mem_iterFrom.mp visited).1 same] at late
    simp at late

/-- One status, written at slot 0: it is in the column, and the lookup does not find it. -/
theorem get_transaction_status_misses_slot_zero_of_genesis_write :
    (StatusStore.put ([] : StatusStore Unit) (FixedBytes.zero 64, 0) ()).get (FixedBytes.zero 64, 0) = some () ∧
      getTransactionStatus (StatusStore.put [] (FixedBytes.zero 64, 0) ()) 0 (FixedBytes.zero 64) 0 = some none := by
  refine ⟨rfl, (get_transaction_status_misses_slot_zero _ _ _).2 ?_⟩
  intro entry written _
  simp only [StatusStore.put, List.filter_nil, List.nil_append, List.mem_singleton] at written
  rw [written]

end EphemeralValidator.Ledger
