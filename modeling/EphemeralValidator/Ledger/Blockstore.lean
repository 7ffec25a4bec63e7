import EphemeralValidator.Ledger.StatusLookup
import EphemeralValidator.Ledger.TransactionProto
import EphemeralValidator.Lib.SortedStore
import EphemeralValidator.Solana.Transaction

/-! # The block store: blocks, their transactions, and the replay

`write_transaction` puts one transaction into four columns: an `AddressSignatures` entry
`(address, slot, index, signature)` for each writable and read-only key, the `SlotSignatures`
entry `(slot, index) ↦ signature`, the status under `(signature, slot)`, and the protobuf
transaction under `(signature, slot)`; the index is the `usize` `transaction_slot_index`,
which must fit a `u32`.  `write_block` puts the slot's blocktime and blockhash.
`get_block(slot)` needs both, scans `SlotSignatures` backwards from `(slot, u32::MAX)` while
the entries are of the slot, and reads each signature's transaction and status.
`iter_blocks` asks for the blocks of slots 0, 1, … until one is missing, and
`process_ledger` replays each: `replay_slot`, then the block's successful transactions in
reverse, all verified first, then executed one per batch.

Each column is an ordered store of its entries by index (`Lib.SortedStore`), iterated in the
byte order of the keys.

For a ledger written by `write_transaction` and `write_block`, with distinct
`(slot, transaction_slot_index)` pairs and distinct `(signature, slot)` pairs, `get_block`
returns the slot's transactions with their statuses by decreasing index, and
`process_ledger` replays the successful ones slot after slot from 0, by increasing index
(`get_block_returns_slot_transactions_by_descending_index`).  The second condition is
needed: a signature written twice in one slot keeps one transaction and one status, the
last written, and `get_block` returns that one for both indexes
(`get_block_loses_rewritten_status`).
-/

namespace EphemeralValidator

open EphemeralValidator.Bytes EphemeralValidator.Lib

namespace Solana

/-- `TransactionStatusMeta`; the modelled code reads its status only. -/
structure TransactionStatusMeta where
  status : Except TransactionError Unit
  deriving DecidableEq

end Solana

namespace Ledger

open Solana

/-- The variants of `LedgerError` the block store returns. -/
inductive LedgerError where
  | transactionIndexOverflow
  | transactionNotFound
  | transactionStatusMetaNotFound
  /-- a `SlotSignatures` value that is not a 64-byte signature -/
  | invalidSignature
  /-- `check_lowest_cleanup_slot`: a read of a slot that was cleaned up -/
  | slotCleanedUp
  deriving DecidableEq, Repr

def u32Max : UInt32 := UInt32.ofNat (2 ^ 32 - 1)

/-- The byte order of the `SlotSignatures` keys. -/
def slotSignaturesOrder : Slot × UInt32 → Slot × UInt32 → Ordering :=
  compareOn slotSignatures.key

/-- The columns of the `Ledger` the block store reads and writes, and its
`lowest_cleanup_slot`. -/
structure Blockstore where
  blocktime : Slot → Option Int
  blockhash : Slot → Option Hash
  addressSignatures : List ((Pubkey × Slot × UInt32 × Signature) × Bool)
  slotSignatures : List ((Slot × UInt32) × List UInt8)
  transactionStatus : StatusStore TransactionStatusMeta
  transaction : List ((Signature × Slot) × Generated.Transaction)
  transactionMemos : List ((Signature × Slot) × String)
  lowestCleanupSlot : Slot

structure VersionedConfirmedBlock where
  previousBlockhash : Hash
  blockhash : Hash
  parentSlot : Slot
  transactions : List (VersionedTransaction × TransactionStatusMeta)
  blockTime : Option Int
  blockHeight : Option Slot

/-- `slot.saturating_sub(1)`. -/
def previousSlot (slot : Slot) : Slot := if slot = 0 then 0 else slot - 1

/-- `Signature::try_from(&*tx_signature)?`. -/
def signatureTryFrom (bytes : List UInt8) : Except LedgerError Signature :=
  match FixedBytes.tryFrom 64 bytes with
  | some signature => .ok signature
  | none => .error .invalidSignature

namespace Blockstore

def empty : Blockstore := ⟨fun _ => none, fun _ => none, [], [], [], [], [], 0⟩

/-! ## Writes -/

def writeBlock (l : Blockstore) (slot : Slot) (timestamp : Int) (blockhash : Hash) : Blockstore :=
  { l with
    blocktime := Function.update l.blocktime slot (some timestamp)
    blockhash := Function.update l.blockhash slot (some blockhash) }

/-- One `address_signatures_cf.put` per address, with whether it is writable. -/
def putAddressSignatures (column : List ((Pubkey × Slot × UInt32 × Signature) × Bool)) (slot : Slot)
    (index : UInt32) (signature : Signature) (writeable : Bool) (addresses : List Pubkey) :
    List ((Pubkey × Slot × UInt32 × Signature) × Bool) :=
  addresses.foldl (fun column address => SortedStore.put column (address, slot, index, signature) writeable)
    column

def writeTransactionStatus (l : Blockstore) (slot : Slot) (signature : Signature)
    (writableKeys readonlyKeys : List Pubkey) (status : TransactionStatusMeta) (transactionSlotIndex : Nat) :
    Except LedgerError Blockstore :=
  -- `u32::try_from(transaction_slot_index)`
  if transactionSlotIndex < 2 ^ 32 then
    let index := UInt32.ofNat transactionSlotIndex
    let addressSignatures := putAddressSignatures l.addressSignatures slot index signature true writableKeys
    .ok { l with
      addressSignatures := putAddressSignatures addressSignatures slot index signature false readonlyKeys
      slotSignatures := SortedStore.put l.slotSignatures (slot, index) signature.bytes
      transactionStatus := SortedStore.put l.transactionStatus (signature, slot) status }
  else .error .transactionIndexOverflow

/-- `write_transaction`: the status columns, then the transaction as the vendored protobuf.
The keys are those `get_account_locks_unchecked` gives of the transaction. -/
def writeTransaction (l : Blockstore) (signature : Signature) (slot : Slot) (transaction : VersionedTransaction)
    (writableKeys readonlyKeys : List Pubkey) (status : TransactionStatusMeta) (transactionSlotIndex : Nat) :
    Except LedgerError Blockstore := do
  let l ← l.writeTransactionStatus slot signature writableKeys readonlyKeys status transactionSlotIndex
  pure { l with
    transaction := SortedStore.put l.transaction (signature, slot) (.ofVersionedTransaction transaction) }

def writeTransactionMemos (l : Blockstore) (signature : Signature) (slot : Slot) (memos : String) : Blockstore :=
  { l with transactionMemos := SortedStore.put l.transactionMemos (signature, slot) memos }

/-! ## `get_block` -/

/-- `iter_current_index_filtered` with `IteratorMode::From(seek, IteratorDirection::Reverse)`
over `SlotSignatures`: the entries not above the seek key, greatest first, with their keys
decoded; `none` is a key that does not decode (a panic). -/
def slotSignaturesReverse (l : Blockstore) (seek : Slot × UInt32) : Option (List ((Slot × UInt32) × List UInt8)) :=
  Ledger.slotSignatures.iterCurrentIndexFiltered
    ((SortedStore.iterReverse slotSignaturesOrder l.slotSignatures seek).map fun entry =>
      (Ledger.slotSignatures.key entry.1, entry.2))

/-- The loop of `get_block` over that scan: the signatures of the slot, until the first entry
of another slot. -/
def collectSlotSignatures (slot : Slot) : List ((Slot × UInt32) × List UInt8) → Except LedgerError (List Signature)
  | [] => .ok []
  | ((txSlot, _), txSignature) :: rest =>
    if txSlot ≠ slot then .ok []
    else do
      let signature ← signatureTryFrom txSignature
      let signatures ← collectSlotSignatures slot rest
      pure (signature :: signatures)

/-- The transaction and status of one signature of the slot; `none` is the panic of
`VersionedTransaction::from` on a malformed protobuf. -/
def readBlockTransaction (l : Blockstore) (slot : Slot) (signature : Signature) :
    Option (Except LedgerError (VersionedTransaction × TransactionStatusMeta)) :=
  match SortedStore.get l.transaction (signature, slot) with
  | none => some (.error .transactionNotFound)
  | some transaction =>
    (VersionedTransaction.ofGenerated transaction).map fun transaction =>
      match SortedStore.get l.transactionStatus (signature, slot) with
      | none => .error .transactionStatusMetaNotFound
      | some status => .ok (transaction, status)

/-- The `collect::<LedgerResult<Vec<_>>>()` of `get_block`, which stops at the first error. -/
def readBlockTransactions (l : Blockstore) (slot : Slot) :
    List Signature → Option (Except LedgerError (List (VersionedTransaction × TransactionStatusMeta)))
  | [] => some (.ok [])
  | signature :: rest =>
    match l.readBlockTransaction slot signature with
    | none => none
    | some (.error error) => some (.error error)
    | some (.ok transaction) =>
      match l.readBlockTransactions slot rest with
      | none => none
      | some (.error error) => some (.error error)
      | some (.ok transactions) => some (.ok (transaction :: transactions))

/-- `Ledger::get_block`; the outer `none` is a panic. -/
def getBlock (l : Blockstore) (slot : Slot) : Option (Except LedgerError (Option VersionedConfirmedBlock)) :=
  match l.blockhash slot, l.blocktime slot with
  | some blockhash, some blockTime =>
    match l.slotSignaturesReverse (slot, u32Max) with
    | none => none
    | some entries =>
      match collectSlotSignatures slot entries with
      | .error error => some (.error error)
      | .ok signatures =>
        match l.readBlockTransactions slot signatures with
        | none => none
        | some (.error error) => some (.error error)
        | some (.ok transactions) =>
          some (.ok (some
            { previousBlockhash := (l.blockhash (previousSlot slot)).getD (FixedBytes.zero 32)
              blockhash
              parentSlot := previousSlot slot
              transactions
              blockTime := some blockTime
              blockHeight := some slot }))
  | _, _ => some (.ok none)

end Blockstore

/-! ## `iter_blocks` and `process_ledger` -/

/-- What `iter_blocks` hands its handler. -/
structure PreparedBlock where
  slot : Slot
  previousBlockhash : Hash
  blockhash : Hash
  blockTime : Option Int
  transactions : List VersionedTransaction

/-- The errors of `iter_blocks` and `process_ledger` (`LedgerError::BlockStoreProcessor`),
over those of the bank. -/
inductive ProcessError (ε : Type) where
  | blockHeightMismatch (slot blockHeight : Slot)
  | noTimestamp
  | transactionVerification (error : ε)
  | transactionNotExecuted (error : ε)

/-- What `process_ledger` uses of the bank: `replay_slot`, `verify_transaction`, and the
execution of a batch of one transaction, whose error is the batch's `NotExecuted`. -/
structure ReplayBank (σ Sanitized ε : Type) where
  replaySlot : σ → Slot → Hash → Hash → UInt64 → σ
  verifyTransaction : σ → VersionedTransaction → Except ε Sanitized
  executeTransaction : σ → Sanitized → Except ε σ

section Replay

variable {σ Sanitized ε : Type}

def checkBlockHeight (slot : Slot) : Option Slot → Except (ProcessError ε) Unit
  | some blockHeight => if slot ≠ blockHeight then .error (.blockHeightMismatch slot blockHeight) else .ok ()
  | none => .ok ()

/-- `iter_blocks`, looking at no more than `fuel` slots: a slot whose `get_block` is not
`Ok(Some(_))` ends it; the outer `none` is a panic. -/
def Blockstore.iterBlocks (l : Blockstore) (handler : σ → PreparedBlock → Except (ProcessError ε) σ) :
    Nat → Slot → σ → Option (Except (ProcessError ε) σ)
  | 0, _, s => some (.ok s)
  | fuel + 1, slot, s =>
    match l.getBlock slot with
    | none => none
    | some (.ok (some block)) =>
      match checkBlockHeight slot block.blockHeight with
      | .error error => some (.error error)
      | .ok () =>
        -- only the transactions that succeeded change any state
        let successful := (block.transactions.filter fun tx => tx.2.status.isOk).map Prod.fst
        match handler s ⟨slot, block.previousBlockhash, block.blockhash, block.blockTime, successful⟩ with
        | .error error => some (.error error)
        | .ok s => l.iterBlocks handler fuel (slot + 1) s
    | some _ => some (.ok s)

/-- The transactions of one block on the bank: all verified, then each executed in its own batch. -/
def replayTransactions (bank : ReplayBank σ Sanitized ε) (s : σ) (transactions : List VersionedTransaction) :
    Except (ProcessError ε) σ := do
  let blockTxs ← transactions.mapM fun tx => (bank.verifyTransaction s tx).mapError .transactionVerification
  blockTxs.foldlM (fun s tx => (bank.executeTransaction s tx).mapError .transactionNotExecuted) s

/-- The handler of `process_ledger`. -/
def replayBlock (bank : ReplayBank σ Sanitized ε) (s : σ) (block : PreparedBlock) : Except (ProcessError ε) σ := do
  let some timestamp := block.blockTime | throw .noTimestamp
  let s := bank.replaySlot s block.slot block.previousBlockhash block.blockhash (UInt64.ofInt timestamp)
  -- stored newest first: reversed, they are back in the order they ran
  replayTransactions bank s block.transactions.reverse

def Blockstore.processLedger (l : Blockstore) (bank : ReplayBank σ Sanitized ε) (s : σ) (fuel : Nat) :
    Option (Except (ProcessError ε) σ) :=
  l.iterBlocks (replayBlock bank) fuel 0 s

end Replay

/-! ## Runs of writes -/

/-- A call of `write_transaction`. -/
structure TransactionWrite where
  signature : Signature
  slot : Slot
  transaction : VersionedTransaction
  writableKeys : List Pubkey
  readonlyKeys : List Pubkey
  status : TransactionStatusMeta
  transactionSlotIndex : Nat

inductive LedgerWrite where
  | transaction (write : TransactionWrite)
  | transactionMemos (signature : Signature) (slot : Slot) (memos : String)
  | block (slot : Slot) (timestamp : Int) (blockhash : Hash)

namespace Blockstore

/-- A write as the ledger takes it: a `write_transaction` that fails changes nothing. -/
def step (l : Blockstore) : LedgerWrite → Blockstore
  | .transaction w =>
    match l.writeTransaction w.signature w.slot w.transaction w.writableKeys w.readonlyKeys w.status
        w.transactionSlotIndex with
    | .ok l => l
    | .error _ => l
  | .transactionMemos signature slot memos => l.writeTransactionMemos signature slot memos
  | .block slot timestamp blockhash => l.writeBlock slot timestamp blockhash

def run (l : Blockstore) (writes : List LedgerWrite) : Blockstore :=
  writes.foldl step l

end Blockstore

/-! ## Where the statuses `get_block` returns come from -/

namespace Blockstore

theorem readBlockTransaction_status {l : Blockstore} {slot : Slot} {signature : Signature}
    {transaction : VersionedTransaction} {status : TransactionStatusMeta}
    (read : l.readBlockTransaction slot signature = some (.ok (transaction, status))) :
    SortedStore.get l.transactionStatus (signature, slot) = some status := by
  unfold readBlockTransaction at read
  split at read
  · cases read
  · obtain ⟨decoded, -, same⟩ := Option.map_eq_some_iff.mp read
    split at same
    · cases same
    · next stored got =>
      cases same
      exact got

/-- Every transaction `get_block` returns comes with the status stored under its slot and one
of the slot's signatures. -/
theorem status_of_readBlockTransactions {l : Blockstore} {slot : Slot} {signatures : List Signature}
    {transactions : List (VersionedTransaction × TransactionStatusMeta)}
    (read : l.readBlockTransactions slot signatures = some (.ok transactions)) {transaction : VersionedTransaction}
    {status : TransactionStatusMeta} (member : (transaction, status) ∈ transactions) :
    ∃ signature, SortedStore.get l.transactionStatus (signature, slot) = some status := by
  induction signatures generalizing transactions with
  | nil =>
    cases read
    cases member
  | cons signature rest ih =>
    unfold readBlockTransactions at read
    split at read
    · cases read
    · cases read
    · next first firstRead =>
      split at read
      · cases read
      · cases read
      · next others restRead =>
        cases read
        cases List.mem_cons.mp member with
        | inl isFirst =>
          rw [← isFirst] at firstRead
          exact ⟨signature, readBlockTransaction_status firstRead⟩
        | inr later => exact ih restRead later

theorem status_of_mem_getBlock {l : Blockstore} {slot : Slot} {block : VersionedConfirmedBlock}
    (got : l.getBlock slot = some (.ok (some block))) {transaction : VersionedTransaction}
    {status : TransactionStatusMeta} (member : (transaction, status) ∈ block.transactions) :
    ∃ signature, SortedStore.get l.transactionStatus (signature, slot) = some status := by
  unfold getBlock at got
  split at got
  · split at got
    · cases got
    · split at got
      · cases got
      · split at got
        · cases got
        · cases got
        · next transactions read =>
          cases got
          exact status_of_readBlockTransactions read member
  · cases got

end Blockstore

/-! ## The order of the `SlotSignatures` keys -/

theorem slotSignaturesOrder_eq (a b : Slot × UInt32) :
    slotSignaturesOrder a b = (compare a.1.toNat b.1.toNat).then (compare a.2.toNat b.2.toNat) := by
  rw [slotSignaturesOrder, compareOn, ← compare_uInt64, ← compare_uInt32]
  exact SlotSignatures.compare_key a b

theorem slotSignaturesOrder_isLE {a b : Slot × UInt32} :
    (slotSignaturesOrder a b).isLE ↔ a.1.toNat < b.1.toNat ∨ a.1.toNat = b.1.toNat ∧ a.2.toNat ≤ b.2.toNat := by
  rw [slotSignaturesOrder_eq, Ordering.isLE_then_iff_or, Nat.compare_eq_lt, Nat.compare_eq_eq, Nat.isLE_compare]

theorem slotSignaturesOrder_eq_gt {a b : Slot × UInt32} :
    slotSignaturesOrder a b = .gt ↔ b.1.toNat < a.1.toNat ∨ a.1.toNat = b.1.toNat ∧ b.2.toNat < a.2.toNat := by
  rw [slotSignaturesOrder_eq, Ordering.then_eq_gt, Nat.compare_eq_gt, Nat.compare_eq_eq, Nat.compare_eq_gt]

instance : Std.TransCmp slotSignaturesOrder :=
  inferInstanceAs (Std.TransCmp (compareOn slotSignatures.key))

/-- Keys that compare equal are equal: `SlotSignatures::key` is injective. -/
instance : Std.LawfulEqCmp slotSignaturesOrder where
  compare_self {a} := by simp [slotSignaturesOrder_eq]
  eq_of_compare {a b} same := by
    rw [slotSignaturesOrder_eq, Ordering.then_eq_eq, Nat.compare_eq_eq, Nat.compare_eq_eq] at same
    exact Prod.ext (UInt64.toNat_inj.mp same.1) (UInt32.toNat_inj.mp same.2)

/-! ## What a run of writes puts into the ledger -/

/-- The `SlotSignatures` entry of a transaction write. -/
def TransactionWrite.slotSignaturesEntry (w : TransactionWrite) : (Slot × UInt32) × List UInt8 :=
  ((w.slot, UInt32.ofNat w.transactionSlotIndex), w.signature.bytes)

/-- The `write_transaction` calls of a run that the ledger takes: those whose index fits a
`u32`. -/
def transactionsWritten (writes : List LedgerWrite) : List TransactionWrite :=
  writes.filterMap fun
    | .transaction w => if w.transactionSlotIndex < 2 ^ 32 then some w else none
    | _ => none

/-- The timestamp and blockhash of the last `write_block` of a slot. -/
def blockWritten (writes : List LedgerWrite) (slot : Slot) : Option (Int × Hash) :=
  (writes.filterMap fun
    | .block blockSlot timestamp blockhash => if blockSlot = slot then some (timestamp, blockhash) else none
    | _ => none).getLast?

/-- The transactions written for a slot, highest index first. -/
def slotTransactionsDescending (writes : List LedgerWrite) (slot : Slot) : List TransactionWrite :=
  ((transactionsWritten writes).filter fun w => w.slot = slot).mergeSort fun a b =>
    b.transactionSlotIndex ≤ a.transactionSlotIndex

/-- The transactions written for a slot, lowest index first: the order they ran in. -/
def slotTransactionsAscending (writes : List LedgerWrite) (slot : Slot) : List TransactionWrite :=
  ((transactionsWritten writes).filter fun w => w.slot = slot).mergeSort fun a b =>
    a.transactionSlotIndex ≤ b.transactionSlotIndex

/-- The block `get_block` is to return for a slot: none without a block written, else the
slot's transactions with their statuses, highest index first. -/
def expectedBlock (writes : List LedgerWrite) (slot : Slot) : Option VersionedConfirmedBlock :=
  (blockWritten writes slot).map fun (blockTime, blockhash) =>
    { previousBlockhash := ((blockWritten writes (previousSlot slot)).map Prod.snd).getD (FixedBytes.zero 32)
      blockhash
      parentSlot := previousSlot slot
      transactions := (slotTransactionsDescending writes slot).map fun w => (w.transaction, w.status)
      blockTime := some blockTime
      blockHeight := some slot }

section Replay

variable {σ Sanitized ε : Type}

/-- What the replay of a slot is to do: `replay_slot` with the slot's block, then the slot's
successful transactions by increasing index, all verified, then each executed. -/
def replaySlotExpected (bank : ReplayBank σ Sanitized ε) (writes : List LedgerWrite) (s : σ) (slot : Slot) :
    Except (ProcessError ε) σ :=
  match blockWritten writes slot with
  | none => .ok s
  | some (blockTime, blockhash) =>
    let previousBlockhash := ((blockWritten writes (previousSlot slot)).map Prod.snd).getD (FixedBytes.zero 32)
    replayTransactions bank (bank.replaySlot s slot previousBlockhash blockhash (UInt64.ofInt blockTime))
      (((slotTransactionsAscending writes slot).filter fun w => w.status.status.isOk).map (·.transaction))

/-- The replay of the first `slots` slots, from slot 0 on. -/
def replayExpected (bank : ReplayBank σ Sanitized ε) (writes : List LedgerWrite) (slots : Nat) (s : σ) :
    Except (ProcessError ε) σ :=
  (List.range slots).foldlM (fun s slot => replaySlotExpected bank writes s (UInt64.ofNat slot)) s

end Replay

/-- No two transactions written share a slot and an index, or a signature and a slot. -/
structure DistinctWrites (writes : List LedgerWrite) : Prop where
  indexes : ((transactionsWritten writes).map fun w => (w.slot, w.transactionSlotIndex)).Nodup
  signatures : ((transactionsWritten writes).map fun w => (w.signature, w.slot)).Nodup

/-- What a ledger holds after `writes`: one entry per key in each column read by index, the
`SlotSignatures` entries of exactly the transactions written, each transaction and status
under its signature and slot, and the last block written for each slot. -/
structure Stored (writes : List LedgerWrite) (l : Blockstore) : Prop where
  slotSignaturesKeys : (l.slotSignatures.map Prod.fst).Nodup
  transactionKeys : (l.transaction.map Prod.fst).Nodup
  transactionStatusKeys : (l.transactionStatus.map Prod.fst).Nodup
  mem_slotSignatures : ∀ entry, entry ∈ l.slotSignatures ↔
    ∃ w ∈ transactionsWritten writes, entry = w.slotSignaturesEntry
  transaction : ∀ w ∈ transactionsWritten writes,
    ((w.signature, w.slot), .ofVersionedTransaction w.transaction) ∈ l.transaction
  transactionStatus : ∀ w ∈ transactionsWritten writes, ((w.signature, w.slot), w.status) ∈ l.transactionStatus
  blockhash : ∀ slot, l.blockhash slot = (blockWritten writes slot).map Prod.snd
  blocktime : ∀ slot, l.blocktime slot = (blockWritten writes slot).map Prod.fst

@[simp] theorem transactionsWritten_append (writes more : List LedgerWrite) :
    transactionsWritten (writes ++ more) = transactionsWritten writes ++ transactionsWritten more := by
  simp [transactionsWritten]

theorem blockWritten_append_block (writes : List LedgerWrite) (blockSlot : Slot) (timestamp : Int) (blockhash : Hash)
    (slot : Slot) :
    blockWritten (writes ++ [LedgerWrite.block blockSlot timestamp blockhash]) slot =
      if blockSlot = slot then some (timestamp, blockhash) else blockWritten writes slot := by
  by_cases same : blockSlot = slot
  · simp only [blockWritten, same, List.filterMap_append, ↓reduceIte, Option.some.injEq, List.filterMap_cons_some,
      List.filterMap_nil, List.getLast?_append, List.getLast?_singleton, List.getLast?_filterMap, Option.some_or]
  · simp only [blockWritten, List.filterMap_append, same, ↓reduceIte, List.filterMap_cons_none,
      List.filterMap_nil, List.append_nil, List.getLast?_filterMap]

theorem blockWritten_append_transaction (writes : List LedgerWrite) (w : TransactionWrite) (slot : Slot) :
    blockWritten (writes ++ [LedgerWrite.transaction w]) slot = blockWritten writes slot := by
  simp only [blockWritten, List.filterMap_append, List.filterMap_cons_none, List.filterMap_nil, List.append_nil]

theorem blockWritten_append_transactionMemos (writes : List LedgerWrite) (signature : Signature) (slot : Slot)
    (memos : String) (blockSlot : Slot) :
    blockWritten (writes ++ [LedgerWrite.transactionMemos signature slot memos]) blockSlot = blockWritten writes blockSlot := by
  simp only [blockWritten, List.filterMap_append, List.filterMap_cons_none, List.filterMap_nil, List.append_nil]

@[simp] theorem transactionsWritten_block (slot : Slot) (timestamp : Int) (blockhash : Hash) :
    transactionsWritten [.block slot timestamp blockhash] = [] := rfl

@[simp] theorem transactionsWritten_transactionMemos (signature : Signature) (slot : Slot) (memos : String) :
    transactionsWritten [.transactionMemos signature slot memos] = [] := rfl

theorem transactionsWritten_transaction_of_fits {w : TransactionWrite} (fits : w.transactionSlotIndex < 2 ^ 32) :
    transactionsWritten [.transaction w] = [w] := by
  have fits : w.transactionSlotIndex < 4294967296 := fits
  simp [transactionsWritten, fits]

theorem transactionsWritten_transaction_of_too_large {w : TransactionWrite}
    (tooLarge : ¬w.transactionSlotIndex < 2 ^ 32) : transactionsWritten [.transaction w] = [] := by
  have tooLarge : ¬w.transactionSlotIndex < 4294967296 := tooLarge
  simp [transactionsWritten, tooLarge]

/-- The last of distinct values differs from every one before it. -/
theorem ne_of_nodup_map_append {α β : Type} {f : α → β} {xs : List α} {x : α}
    (distinct : ((xs ++ [x]).map f).Nodup) : ∀ y ∈ xs, f y ≠ f x := by
  simp only [List.map_append, List.map_cons, List.map_nil, List.nodup_append, List.mem_map,
    List.mem_singleton] at distinct
  intro y member same
  exact distinct.2.2 _ ⟨y, member, rfl⟩ _ rfl same

theorem DistinctWrites.of_append {writes more : List LedgerWrite} (distinct : DistinctWrites (writes ++ more)) :
    DistinctWrites writes where
  indexes := by
    have all := distinct.indexes
    rw [transactionsWritten_append, List.map_append] at all
    exact all.sublist (List.sublist_append_left _ _)
  signatures := by
    have all := distinct.signatures
    rw [transactionsWritten_append, List.map_append] at all
    exact all.sublist (List.sublist_append_left _ _)

theorem mem_transactionsWritten {writes : List LedgerWrite} {w : TransactionWrite} :
    w ∈ transactionsWritten writes ↔ LedgerWrite.transaction w ∈ writes ∧ w.transactionSlotIndex < 2 ^ 32 := by
  constructor
  · intro member
    obtain ⟨write, written, taken⟩ := List.mem_filterMap.mp member
    cases write with
    | transaction w' =>
      by_cases fits : w'.transactionSlotIndex < 2 ^ 32
      · simp only [if_pos fits, Option.some.injEq] at taken
        subst taken
        exact ⟨written, fits⟩
      · simp only [if_neg fits, reduceCtorEq] at taken
    | transactionMemos => cases taken
    | block => cases taken
  · intro ⟨written, fits⟩
    exact List.mem_filterMap.mpr ⟨_, written, by simp only [if_pos fits]⟩

namespace Blockstore

theorem step_transaction_of_fits (l : Blockstore) {w : TransactionWrite} (fits : w.transactionSlotIndex < 2 ^ 32) :
    l.step (.transaction w) =
      { l with
        addressSignatures :=
          putAddressSignatures
            (putAddressSignatures l.addressSignatures w.slot (UInt32.ofNat w.transactionSlotIndex) w.signature true
              w.writableKeys)
            w.slot (UInt32.ofNat w.transactionSlotIndex) w.signature false w.readonlyKeys
        slotSignatures := SortedStore.put l.slotSignatures (w.slot, UInt32.ofNat w.transactionSlotIndex) w.signature.bytes
        transactionStatus := SortedStore.put l.transactionStatus (w.signature, w.slot) w.status
        transaction := SortedStore.put l.transaction (w.signature, w.slot) (.ofVersionedTransaction w.transaction) } := by
  simp only [step, writeTransaction, writeTransactionStatus, if_pos fits]
  rfl

theorem step_transaction_of_too_large (l : Blockstore) {w : TransactionWrite}
    (tooLarge : ¬w.transactionSlotIndex < 2 ^ 32) : l.step (.transaction w) = l := by
  simp only [step, writeTransaction, writeTransactionStatus, if_neg tooLarge]
  rfl

end Blockstore

/-- Two writes taken by the ledger at different slots or indexes have different
`SlotSignatures` keys: the index fits the `u32` it is stored as. -/
theorem slotSignaturesEntry_key_ne {w w' : TransactionWrite} (fits : w.transactionSlotIndex < 2 ^ 32)
    (fits' : w'.transactionSlotIndex < 2 ^ 32)
    (differ : (w'.slot, w'.transactionSlotIndex) ≠ (w.slot, w.transactionSlotIndex)) :
    w'.slotSignaturesEntry.1 ≠ (w.slot, UInt32.ofNat w.transactionSlotIndex) := by
  intro same
  simp only [TransactionWrite.slotSignaturesEntry, Prod.mk.injEq] at same
  have index : (UInt32.ofNat w'.transactionSlotIndex).toNat = (UInt32.ofNat w.transactionSlotIndex).toNat := by
    rw [same.2]
  simp only [UInt32.toNat_ofNat'] at index
  apply differ
  rw [same.1, Nat.mod_eq_of_lt fits, Nat.mod_eq_of_lt fits'] at *
  rw [index]

namespace Stored

theorem empty : Stored [] Blockstore.empty where
  slotSignaturesKeys := List.nodup_nil
  transactionKeys := List.nodup_nil
  transactionStatusKeys := List.nodup_nil
  mem_slotSignatures := by simp [Blockstore.empty, transactionsWritten]
  transaction := by simp [transactionsWritten]
  transactionStatus := by simp [transactionsWritten]
  blockhash := by simp only [Blockstore.empty, blockWritten, List.filterMap_nil, List.getLast?_nil, Option.map_none,
    implies_true]
  blocktime := by simp only [Blockstore.empty, blockWritten, List.filterMap_nil, List.getLast?_nil, Option.map_none,
    implies_true]

variable {done : List LedgerWrite} {l : Blockstore}

/-- Writes that put nothing into the columns `Stored` reads leave it as it was. -/
theorem of_writes {done' : List LedgerWrite} (stored : Stored done l)
    (sameTransactions : transactionsWritten done' = transactionsWritten done)
    (sameBlocks : ∀ slot, blockWritten done' slot = blockWritten done slot) : Stored done' l where
  slotSignaturesKeys := stored.slotSignaturesKeys
  transactionKeys := stored.transactionKeys
  transactionStatusKeys := stored.transactionStatusKeys
  mem_slotSignatures := by rw [sameTransactions]; exact stored.mem_slotSignatures
  transaction := by rw [sameTransactions]; exact stored.transaction
  transactionStatus := by rw [sameTransactions]; exact stored.transactionStatus
  blockhash slot := by rw [sameBlocks]; exact stored.blockhash slot
  blocktime slot := by rw [sameBlocks]; exact stored.blocktime slot

theorem writeTransactionMemos (stored : Stored done l) (signature : Signature) (slot : Slot) (memos : String) :
    Stored done (l.writeTransactionMemos signature slot memos) where
  slotSignaturesKeys := stored.slotSignaturesKeys
  transactionKeys := stored.transactionKeys
  transactionStatusKeys := stored.transactionStatusKeys
  mem_slotSignatures := stored.mem_slotSignatures
  transaction := stored.transaction
  transactionStatus := stored.transactionStatus
  blockhash := stored.blockhash
  blocktime := stored.blocktime

theorem writeBlock (stored : Stored done l) (slot : Slot) (timestamp : Int) (blockhash : Hash) :
    Stored (done ++ [LedgerWrite.block slot timestamp blockhash]) (l.writeBlock slot timestamp blockhash) where
  slotSignaturesKeys := stored.slotSignaturesKeys
  transactionKeys := stored.transactionKeys
  transactionStatusKeys := stored.transactionStatusKeys
  mem_slotSignatures := by
    rw [transactionsWritten_append, transactionsWritten_block, List.append_nil]
    exact stored.mem_slotSignatures
  transaction := by
    rw [transactionsWritten_append, transactionsWritten_block, List.append_nil]
    exact stored.transaction
  transactionStatus := by
    rw [transactionsWritten_append, transactionsWritten_block, List.append_nil]
    exact stored.transactionStatus
  blockhash other := by
    rw [blockWritten_append_block]
    by_cases same : slot = other
    · subst same
      simp [Blockstore.writeBlock]
    · simp [Blockstore.writeBlock, Function.update_of_ne (Ne.symm same), same, stored.blockhash other]
  blocktime other := by
    rw [blockWritten_append_block]
    by_cases same : slot = other
    · subst same
      simp [Blockstore.writeBlock]
    · simp [Blockstore.writeBlock, Function.update_of_ne (Ne.symm same), same, stored.blocktime other]

/-- A transaction the ledger takes adds its entries, and removes none of the earlier ones:
its keys are new. -/
theorem writeTransaction (stored : Stored done l) {w : TransactionWrite} (fits : w.transactionSlotIndex < 2 ^ 32)
    (distinct : DistinctWrites (done ++ [LedgerWrite.transaction w])) :
    Stored (done ++ [LedgerWrite.transaction w]) (l.step (.transaction w)) := by
  have written : transactionsWritten (done ++ [LedgerWrite.transaction w]) = transactionsWritten done ++ [w] := by
    rw [transactionsWritten_append, transactionsWritten_transaction_of_fits fits]
  have indexes := ne_of_nodup_map_append (written ▸ distinct.indexes)
  have signatures := ne_of_nodup_map_append (written ▸ distinct.signatures)
  rw [Blockstore.step_transaction_of_fits l fits]
  constructor
  · exact SortedStore.nodup_keys_put stored.slotSignaturesKeys _ _
  · exact SortedStore.nodup_keys_put stored.transactionKeys _ _
  · exact SortedStore.nodup_keys_put stored.transactionStatusKeys _ _
  · intro entry
    rw [SortedStore.mem_put, stored.mem_slotSignatures, written]
    constructor
    · rintro (⟨⟨w', member, rfl⟩, -⟩ | rfl)
      · exact ⟨w', List.mem_append_left _ member, rfl⟩
      · exact ⟨w, List.mem_append_right _ (List.mem_singleton_self w), rfl⟩
    · rintro ⟨w', member, rfl⟩
      cases List.mem_append.mp member with
      | inl earlier =>
        exact .inl ⟨⟨w', earlier, rfl⟩, slotSignaturesEntry_key_ne fits
          (mem_transactionsWritten.mp earlier).2 (indexes w' earlier)⟩
      | inr last =>
        rw [List.mem_singleton.mp last]
        exact .inr rfl
  · intro w' member
    rw [written] at member
    cases List.mem_append.mp member with
    | inl earlier => exact SortedStore.mem_put_of_ne (stored.transaction w' earlier) (signatures w' earlier)
    | inr last =>
      rw [List.mem_singleton.mp last]
      exact SortedStore.mem_put_self _ _ _
  · intro w' member
    rw [written] at member
    cases List.mem_append.mp member with
    | inl earlier => exact SortedStore.mem_put_of_ne (stored.transactionStatus w' earlier) (signatures w' earlier)
    | inr last =>
      rw [List.mem_singleton.mp last]
      exact SortedStore.mem_put_self _ _ _
  · intro slot
    rw [blockWritten_append_transaction]
    exact stored.blockhash slot
  · intro slot
    rw [blockWritten_append_transaction]
    exact stored.blocktime slot

theorem step (stored : Stored done l) {w : LedgerWrite} (distinct : DistinctWrites (done ++ [w])) :
    Stored (done ++ [w]) (l.step w) := by
  cases w with
  | transaction w =>
    by_cases fits : w.transactionSlotIndex < 2 ^ 32
    · exact stored.writeTransaction fits distinct
    · rw [Blockstore.step_transaction_of_too_large l fits]
      exact stored.of_writes (by rw [transactionsWritten_append, transactionsWritten_transaction_of_too_large fits,
        List.append_nil]) (blockWritten_append_transaction done w)
  | transactionMemos signature slot memos =>
    exact (stored.writeTransactionMemos signature slot memos).of_writes
      (by rw [transactionsWritten_append, transactionsWritten_transactionMemos, List.append_nil])
      (blockWritten_append_transactionMemos done signature slot memos)
  | block slot timestamp blockhash => exact stored.writeBlock slot timestamp blockhash

theorem run (stored : Stored done l) (rest : List LedgerWrite) (distinct : DistinctWrites (done ++ rest)) :
    Stored (done ++ rest) (l.run rest) := by
  induction rest generalizing done l with
  | nil => simpa [Blockstore.run] using stored
  | cons w rest ih =>
    have regrouped : done ++ w :: rest = done ++ [w] ++ rest := by simp
    rw [regrouped] at distinct ⊢
    exact ih (stored.step distinct.of_append) distinct

end Stored

/-! ## What `get_block` reads -/

namespace Blockstore

/-- The `SlotSignatures` entries of one slot, highest index first. -/
def slotEntries (l : Blockstore) (slot : Slot) : List ((Slot × UInt32) × List UInt8) :=
  (SortedStore.iterReverse slotSignaturesOrder l.slotSignatures (slot, u32Max)).filter fun entry =>
    entry.1.1 == slot

/-- The keys read back are the keys written, so the scan sees the column in key order. -/
theorem slotSignaturesReverse_eq (l : Blockstore) (seek : Slot × UInt32) :
    l.slotSignaturesReverse seek = some (SortedStore.iterReverse slotSignaturesOrder l.slotSignatures seek) :=
  slotSignatures_keysRoundTrip.iterCurrentIndexFiltered_keys _

/-- The loop of `get_block` takes the entries while they are of the slot, and decodes each
signature. -/
theorem collectSlotSignatures_eq (slot : Slot) (entries : List ((Slot × UInt32) × List UInt8)) :
    collectSlotSignatures slot entries =
      (entries.takeWhile fun entry => entry.1.1 == slot).mapM fun entry => signatureTryFrom entry.2 := by
  induction entries with
  | nil => rfl
  | cons entry rest ih =>
    obtain ⟨⟨txSlot, index⟩, txSignature⟩ := entry
    by_cases same : txSlot = slot
    · simp [collectSlotSignatures, same, ih]
    · simp [collectSlotSignatures, same]
      rfl

/-- A scan from `(slot, u32::MAX)` down meets the entries of the slot first: those it takes
are all of them. -/
theorem takeWhile_iterReverse (l : Blockstore) (keys : (l.slotSignatures.map Prod.fst).Nodup) (slot : Slot) :
    (SortedStore.iterReverse slotSignaturesOrder l.slotSignatures (slot, u32Max)).takeWhile
      (fun entry => entry.1.1 == slot) = l.slotEntries slot := by
  apply SortedStore.takeWhile_eq_filter_of_pairwise
  apply (SortedStore.descending_iterReverse keys _).imp_of_mem
  intro a b visited _ above onSlot
  -- an entry before one of the slot is not of a lower slot, and none is of a higher one
  have notAbove := (SortedStore.mem_iterReverse.mp visited).2
  rw [slotSignaturesOrder_isLE] at notAbove
  rw [slotSignaturesOrder_eq_gt] at above
  rw [beq_iff_eq] at onSlot ⊢
  subst onSlot
  dsimp only at notAbove
  apply UInt64.toNat_inj.mp
  omega

theorem collectSlotSignatures_iterReverse (l : Blockstore) (keys : (l.slotSignatures.map Prod.fst).Nodup)
    (slot : Slot) :
    collectSlotSignatures slot (SortedStore.iterReverse slotSignaturesOrder l.slotSignatures (slot, u32Max)) =
      (l.slotEntries slot).mapM fun entry => signatureTryFrom entry.2 := by
  rw [collectSlotSignatures_eq, takeWhile_iterReverse l keys]

end Blockstore

theorem mem_slotTransactionsDescending {writes : List LedgerWrite} {slot : Slot} {w : TransactionWrite} :
    w ∈ slotTransactionsDescending writes slot ↔ w ∈ transactionsWritten writes ∧ w.slot = slot := by
  simp [slotTransactionsDescending]

/-- Within a slot, the transactions written have distinct indexes. -/
theorem DistinctWrites.slot_indexes {writes : List LedgerWrite} (distinct : DistinctWrites writes) (slot : Slot) :
    ((transactionsWritten writes).filter fun w => w.slot = slot).Pairwise fun a b =>
      a.transactionSlotIndex ≠ b.transactionSlotIndex := by
  have pairs := List.pairwise_map.mp (distinct.indexes.sublist
    ((List.filter_sublist (p := fun w : TransactionWrite => decide (w.slot = slot))).map _))
  apply pairs.imp_of_mem
  intro a b aMember bMember differ same
  simp only [List.mem_filter, decide_eq_true_eq] at aMember bMember
  apply differ
  rw [aMember.2, bMember.2, same]

theorem pairwise_slotTransactionsDescending {writes : List LedgerWrite} (distinct : DistinctWrites writes)
    (slot : Slot) :
    (slotTransactionsDescending writes slot).Pairwise fun a b => b.transactionSlotIndex < a.transactionSlotIndex := by
  have sorted : (slotTransactionsDescending writes slot).Pairwise fun a b => decide (b.transactionSlotIndex ≤ a.transactionSlotIndex) :=
    List.pairwise_mergeSort (fun a b c ab bc => by simp only [decide_eq_true_eq] at ab bc ⊢; omega)
      (fun a b => by simp only [Bool.or_eq_true, decide_eq_true_eq]; omega) _
  have differ : (slotTransactionsDescending writes slot).Pairwise fun a b =>
      a.transactionSlotIndex ≠ b.transactionSlotIndex :=
    ((List.mergeSort_perm _ _).pairwise_iff Ne.symm).mpr (distinct.slot_indexes slot)
  apply (sorted.and differ).imp
  intro a b ⟨below, distinctIndexes⟩
  simp only [decide_eq_true_eq] at below
  omega

theorem pairwise_slotTransactionsAscending {writes : List LedgerWrite} (distinct : DistinctWrites writes)
    (slot : Slot) :
    (slotTransactionsAscending writes slot).Pairwise fun a b => a.transactionSlotIndex < b.transactionSlotIndex := by
  have sorted : (slotTransactionsAscending writes slot).Pairwise fun a b => decide (a.transactionSlotIndex ≤ b.transactionSlotIndex) :=
    List.pairwise_mergeSort (fun a b c ab bc => by simp only [decide_eq_true_eq] at ab bc ⊢; omega)
      (fun a b => by simp only [Bool.or_eq_true, decide_eq_true_eq]; omega) _
  have differ : (slotTransactionsAscending writes slot).Pairwise fun a b =>
      a.transactionSlotIndex ≠ b.transactionSlotIndex :=
    ((List.mergeSort_perm _ _).pairwise_iff Ne.symm).mpr (distinct.slot_indexes slot)
  apply (sorted.and differ).imp
  intro a b ⟨below, distinctIndexes⟩
  simp only [decide_eq_true_eq] at below
  omega

/-- The `SlotSignatures` entries of a slot's transactions, by decreasing index, are in
decreasing key order. -/
theorem descending_slotTransactionsDescending {writes : List LedgerWrite} (distinct : DistinctWrites writes)
    (slot : Slot) :
    SortedStore.Descending slotSignaturesOrder
      ((slotTransactionsDescending writes slot).map TransactionWrite.slotSignaturesEntry) := by
  apply List.pairwise_map.mpr
  apply (pairwise_slotTransactionsDescending distinct slot).imp_of_mem
  intro a b aMember bMember above
  obtain ⟨aWritten, aSlot⟩ := mem_slotTransactionsDescending.mp aMember
  obtain ⟨bWritten, bSlot⟩ := mem_slotTransactionsDescending.mp bMember
  have aFits := (mem_transactionsWritten.mp aWritten).2
  have bFits := (mem_transactionsWritten.mp bWritten).2
  rw [slotSignaturesOrder_eq_gt]
  right
  simp only [TransactionWrite.slotSignaturesEntry, UInt32.toNat_ofNat', Nat.mod_eq_of_lt aFits,
    Nat.mod_eq_of_lt bFits, aSlot, bSlot]
  exact ⟨trivial, above⟩

/-- In a ledger that holds what was written, the entries of a slot are those of the
transactions written for it, by decreasing index. -/
theorem slotEntries_of_stored {writes : List LedgerWrite} {l : Blockstore} (stored : Stored writes l)
    (distinct : DistinctWrites writes) (slot : Slot) :
    l.slotEntries slot = (slotTransactionsDescending writes slot).map TransactionWrite.slotSignaturesEntry := by
  apply SortedStore.Descending.eq_of_mem_iff ((SortedStore.descending_iterReverse stored.slotSignaturesKeys _).filter _)
    (descending_slotTransactionsDescending distinct slot)
  intro entry
  simp only [List.mem_filter, SortedStore.mem_iterReverse, stored.mem_slotSignatures, List.mem_map,
    mem_slotTransactionsDescending, beq_iff_eq]
  constructor
  · rintro ⟨⟨⟨w, member, rfl⟩, -⟩, onSlot⟩
    exact ⟨w, ⟨member, onSlot⟩, rfl⟩
  · rintro ⟨w, ⟨member, onSlot⟩, rfl⟩
    refine ⟨⟨⟨w, member, rfl⟩, ?_⟩, onSlot⟩
    -- every index is at most `u32::MAX`
    have below := (UInt32.ofNat w.transactionSlotIndex).toNat_lt
    rw [slotSignaturesOrder_isLE]
    right
    exact ⟨by rw [← onSlot]; rfl,
      by simp only [TransactionWrite.slotSignaturesEntry, u32Max, UInt32.toNat_ofNat']; omega⟩

theorem mapM_signatureTryFrom (ws : List TransactionWrite) :
    (ws.map TransactionWrite.slotSignaturesEntry).mapM (fun entry => signatureTryFrom entry.2) =
      .ok (ws.map (·.signature)) := by
  induction ws with
  | nil => rfl
  | cons w ws ih =>
    rw [List.map_cons, List.mapM_cons, ih]
    simp only [signatureTryFrom, TransactionWrite.slotSignaturesEntry, FixedBytes.tryFrom_bytes]
    rfl

theorem readBlockTransactions_of_stored {writes : List LedgerWrite} {l : Blockstore} (stored : Stored writes l)
    {slot : Slot} {ws : List TransactionWrite} (written : ∀ w ∈ ws, w ∈ transactionsWritten writes ∧ w.slot = slot) :
    l.readBlockTransactions slot (ws.map (·.signature)) = some (.ok (ws.map fun w => (w.transaction, w.status))) := by
  induction ws with
  | nil => rfl
  | cons w ws ih =>
    obtain ⟨member, onSlot⟩ := written w List.mem_cons_self
    have rest := ih fun w' member' => written w' (List.mem_cons_of_mem _ member')
    subst onSlot
    have transaction := SortedStore.get_eq_some_of_mem stored.transactionKeys (stored.transaction w member)
    have status := SortedStore.get_eq_some_of_mem stored.transactionStatusKeys (stored.transactionStatus w member)
    simp [Blockstore.readBlockTransactions, Blockstore.readBlockTransaction, transaction, status, rest,
      VersionedTransaction.ofGenerated_ofVersionedTransaction]

/-- `get_block` on a ledger that holds what was written. -/
theorem getBlock_of_stored {writes : List LedgerWrite} {l : Blockstore} (stored : Stored writes l)
    (distinct : DistinctWrites writes) (slot : Slot) : l.getBlock slot = some (.ok (expectedBlock writes slot)) := by
  have signatures :
      Blockstore.collectSlotSignatures slot
          (SortedStore.iterReverse slotSignaturesOrder l.slotSignatures (slot, u32Max)) =
        .ok ((slotTransactionsDescending writes slot).map (·.signature)) := by
    rw [Blockstore.collectSlotSignatures_iterReverse l stored.slotSignaturesKeys, slotEntries_of_stored stored distinct,
      mapM_signatureTryFrom]
  have transactions := @readBlockTransactions_of_stored _ _ stored slot _ fun w member =>
    mem_slotTransactionsDescending.mp member
  rw [Blockstore.getBlock, stored.blockhash slot, stored.blocktime slot, Blockstore.slotSignaturesReverse_eq]
  cases block : blockWritten writes slot with
  | none => simp [expectedBlock, block]
  | some written =>
    obtain ⟨blockTime, blockhash⟩ := written
    simp [expectedBlock, block, signatures, transactions, stored.blockhash]

/-! ## What `process_ledger` replays -/

/-- Stored newest first and reversed, the transactions of a slot are back in the order they ran. -/
theorem reverse_slotTransactionsDescending {writes : List LedgerWrite} (distinct : DistinctWrites writes)
    (slot : Slot) : (slotTransactionsDescending writes slot).reverse = slotTransactionsAscending writes slot := by
  have same : (slotTransactionsDescending writes slot).reverse.Perm (slotTransactionsAscending writes slot) :=
    (List.reverse_perm _).trans ((List.mergeSort_perm _ _).trans (List.mergeSort_perm _ _).symm)
  exact same.eq_of_pairwise (fun a b _ _ below above => absurd below (by omega))
    (List.pairwise_reverse.mpr (pairwise_slotTransactionsDescending distinct slot))
    (pairwise_slotTransactionsAscending distinct slot)

section Replay

variable {σ Sanitized ε : Type} {writes : List LedgerWrite} {l : Blockstore}

/-- The handler of `process_ledger` on the block of a slot written. -/
theorem replayBlock_of_written (distinct : DistinctWrites writes) (bank : ReplayBank σ Sanitized ε) (s : σ)
    {slot : Slot} {blockTime : Int} {blockhash : Hash} (written : blockWritten writes slot = some (blockTime, blockhash)) :
    replayBlock bank s
        ⟨slot, ((blockWritten writes (previousSlot slot)).map Prod.snd).getD (FixedBytes.zero 32), blockhash,
          some blockTime,
          (((slotTransactionsDescending writes slot).map fun w => (w.transaction, w.status)).filter
            fun tx => tx.2.status.isOk).map Prod.fst⟩ =
      replaySlotExpected bank writes s slot := by
  simp only [replayBlock, replaySlotExpected, written]
  rw [List.filter_map, List.map_map, ← List.map_reverse, ← List.filter_reverse,
    reverse_slotTransactionsDescending distinct slot]
  rfl

/-- From a slot on, `iter_blocks` with the handler of `process_ledger` replays slot after slot
while they have blocks, given fuel for one more. -/
theorem iterBlocks_of_stored (stored : Stored writes l) (distinct : DistinctWrites writes)
    (bank : ReplayBank σ Sanitized ε) (slots : Nat) :
    ∀ (start : Nat) (s : σ) (fuel : Nat), start + slots < 2 ^ 64 →
      (∀ slot, start ≤ slot → slot < start + slots → (blockWritten writes (UInt64.ofNat slot)).isSome) →
      blockWritten writes (UInt64.ofNat (start + slots)) = none → slots < fuel →
      l.iterBlocks (replayBlock bank) fuel (UInt64.ofNat start) s =
        some ((List.range' start slots).foldlM (fun s slot => replaySlotExpected bank writes s (UInt64.ofNat slot)) s) := by
  induction slots with
  | zero =>
    intro start s fuel _ _ missing enough
    obtain ⟨fuel, rfl⟩ : ∃ rest, fuel = rest + 1 := ⟨fuel - 1, by omega⟩
    simp only [Nat.add_zero] at missing
    simp [Blockstore.iterBlocks, getBlock_of_stored stored distinct, expectedBlock, missing]
    rfl
  | succ slots ih =>
    intro start s fuel bound blocks missing enough
    obtain ⟨fuel, rfl⟩ : ∃ rest, fuel = rest + 1 := ⟨fuel - 1, by omega⟩
    -- the slot `start` has its block: replay it, then go on from the next slot
    obtain ⟨⟨blockTime, blockhash⟩, written⟩ :=
      Option.isSome_iff_exists.mp (blocks start le_rfl (by omega))
    have next : UInt64.ofNat start + 1 = UInt64.ofNat (start + 1) := by
      rw [UInt64.ofNat_add, UInt64.ofNat_one]
    have rest : ∀ s', l.iterBlocks (replayBlock bank) fuel (UInt64.ofNat (start + 1)) s' =
        some ((List.range' (start + 1) slots).foldlM
          (fun s slot => replaySlotExpected bank writes s (UInt64.ofNat slot)) s') := fun s' =>
      ih (start + 1) s' fuel (by omega) (fun slot below above => blocks slot (by omega) (by omega))
        (by rw [show start + 1 + slots = start + (slots + 1) by omega]; exact missing) (by omega)
    simp only [Blockstore.iterBlocks, getBlock_of_stored stored distinct, expectedBlock, written, Option.map_some,
      checkBlockHeight, ne_eq, not_true_eq_false, if_false, replayBlock_of_written distinct bank s written,
      List.range'_succ, List.foldlM_cons]
    cases replaySlotExpected bank writes s (UInt64.ofNat start) with
    | error error => rfl
    | ok s =>
      rw [next]
      exact rest s

/-- `process_ledger` replays the slots from 0 up to the first without a block. -/
theorem processLedger_of_stored (stored : Stored writes l) (distinct : DistinctWrites writes)
    (bank : ReplayBank σ Sanitized ε) (s : σ) {slots : Slot} (blocks : ∀ slot < slots, (blockWritten writes slot).isSome)
    (missing : blockWritten writes slots = none) {fuel : Nat} (enough : slots.toNat < fuel) :
    l.processLedger bank s fuel = some (replayExpected bank writes slots.toNat s) := by
  have fromZero := iterBlocks_of_stored stored distinct bank slots.toNat 0 s fuel (by simpa using slots.toNat_lt)
    (fun slot _ below => blocks (UInt64.ofNat slot) (by
      rw [UInt64.lt_iff_toNat_lt, UInt64.toNat_ofNat', Nat.mod_eq_of_lt (by have := slots.toNat_lt; omega)]
      omega))
    (by simpa using missing) enough
  simpa [Blockstore.processLedger, replayExpected, List.range_eq_range'] using fromZero

end Replay

/-- Every ledger written from empty with distinct writes holds what was written. -/
theorem stored_run {writes : List LedgerWrite} (distinct : DistinctWrites writes) :
    Stored writes (Blockstore.empty.run writes) := by
  simpa using Stored.empty.run writes (by simpa using distinct)

/-! ## `get_block` and the replay -/

/-- On a ledger written with distinct `(slot, index)` and `(signature, slot)` pairs,
`get_block` returns, for a slot with a block, the slot's transactions and statuses by
decreasing index, and `None` for a slot without blocktime or blockhash; `process_ledger`
replays slot after slot from 0, up to the first without a block, the successful
transactions of each by increasing index. -/
theorem get_block_returns_slot_transactions_by_descending_index (writes : List LedgerWrite)
    (distinct : DistinctWrites writes) :
    (∀ slot, (Blockstore.empty.run writes).getBlock slot = some (.ok (expectedBlock writes slot))) ∧
      (∀ slot, (Blockstore.empty.run writes).getBlock slot = some (.ok none) ↔
        (Blockstore.empty.run writes).blockhash slot = none ∨ (Blockstore.empty.run writes).blocktime slot = none) ∧
      ∀ {σ Sanitized ε : Type} (bank : ReplayBank σ Sanitized ε) (s : σ) (slots : Slot),
        (∀ slot < slots, (blockWritten writes slot).isSome) → blockWritten writes slots = none →
        ∀ fuel, slots.toNat < fuel →
          (Blockstore.empty.run writes).processLedger bank s fuel = some (replayExpected bank writes slots.toNat s) := by
  have stored := stored_run distinct
  refine ⟨getBlock_of_stored stored distinct, ?_, ?_⟩
  · intro slot
    rw [getBlock_of_stored stored distinct, stored.blockhash, stored.blocktime]
    cases written : blockWritten writes slot <;> simp [expectedBlock, written]
  · intro σ Sanitized ε bank s slots blocks missing fuel enough
    exact processLedger_of_stored stored distinct bank s blocks missing enough

/-- Three transactions of slot 0, written out of index order, one of slot 1, and the blocks of
both slots: the writes are distinct, and `get_block(0)` lists the three from index 2 down. -/
theorem get_block_returns_slot_transactions_by_descending_index_of_two_blocks :
    let written (signature : UInt8) (slot : Slot) (index : Nat) : TransactionWrite :=
      ⟨FixedBytes.replicate 64 signature, slot, ⟨[], .default⟩, [], [], ⟨.ok ()⟩, index⟩
    let writes := [LedgerWrite.transaction (written 1 0 1), .transaction (written 2 0 0),
      .transaction (written 3 0 2), .transaction (written 4 1 0),
      .block 0 10 (FixedBytes.replicate 32 5), .block 1 11 (FixedBytes.replicate 32 6)]
    DistinctWrites writes ∧ (slotTransactionsDescending writes 0).map (·.transactionSlotIndex) = [2, 1, 0] ∧
      ((∀ slot, (Blockstore.empty.run writes).getBlock slot = some (.ok (expectedBlock writes slot))) ∧
        (∀ slot, (Blockstore.empty.run writes).getBlock slot = some (.ok none) ↔
          (Blockstore.empty.run writes).blockhash slot = none ∨ (Blockstore.empty.run writes).blocktime slot = none) ∧
        ∀ {σ Sanitized ε : Type} (bank : ReplayBank σ Sanitized ε) (s : σ) (slots : Slot),
          (∀ slot < slots, (blockWritten writes slot).isSome) → blockWritten writes slots = none →
          ∀ fuel, slots.toNat < fuel →
            (Blockstore.empty.run writes).processLedger bank s fuel = some (replayExpected bank writes slots.toNat s)) := by
  intro written writes
  have distinct : DistinctWrites writes := ⟨by decide, by decide⟩
  exact ⟨distinct, by simp [writes, written, slotTransactionsDescending, transactionsWritten, List.mergeSort],
    get_block_returns_slot_transactions_by_descending_index writes distinct⟩

/-- A signature written twice in one slot, first failed, then succeeded at the next index:
the two writes have distinct indexes, but the ledger keeps one status for the signature and
slot, and `get_block` cannot return the slot's transactions with the statuses written. -/
theorem get_block_loses_rewritten_status :
    let failed : TransactionWrite :=
      ⟨FixedBytes.zero 64, 0, ⟨[], .default⟩, [], [], ⟨.error .blockhashNotFound⟩, 0⟩
    let writes := [LedgerWrite.transaction failed,
      .transaction { failed with status := ⟨.ok ()⟩, transactionSlotIndex := 1 }, .block 0 0 (FixedBytes.zero 32)]
    ((transactionsWritten writes).map fun w => (w.slot, w.transactionSlotIndex)).Nodup ∧
      (Blockstore.empty.run writes).getBlock 0 ≠ some (.ok (expectedBlock writes 0)) := by
  intro failed writes
  refine ⟨by decide, fun same => ?_⟩
  -- the block expected lists the failed write with its status
  have listed : (failed.transaction, failed.status) ∈
      ((slotTransactionsDescending writes 0).map fun w => (w.transaction, w.status)) :=
    List.mem_map.mpr ⟨failed, mem_slotTransactionsDescending.mpr
      ⟨mem_transactionsWritten.mpr ⟨by simp [writes], by decide⟩, rfl⟩, rfl⟩
  obtain ⟨signature, stored⟩ := Blockstore.status_of_mem_getBlock same listed
  -- but the status column keeps the second status only
  have column : (Blockstore.empty.run writes).transactionStatus = [((FixedBytes.zero 64, 0), ⟨.ok ()⟩)] := by
    decide
  rw [column] at stored
  simp only [SortedStore.get, List.find?] at stored
  split at stored <;> simp [failed] at stored

end Ledger

end EphemeralValidator
