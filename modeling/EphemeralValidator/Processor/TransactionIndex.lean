import EphemeralValidator.Solana.Account
import EphemeralValidator.Lib.Except

/-! # Transaction indexes and the ledger's status columns

`execute_sanitized_transaction` numbers every transaction it runs with the counter behind
`TRANSACTION_INDEX_MUTEX`, a `usize` it increments before each use, and never resets; the
listener then hands the number to `write_transaction_status` as the transaction's
`transaction_slot_index`, which keys the `SlotSignatures` and `AddressSignatures` columns with
it after `u32::try_from`.  The listener writes each executed transaction in the order they
ran (`StatusPipeline.run_keeps_delivered`), so a run is modelled as execute-then-write, one
transaction after another; a write that fails ends the run, as the listener's `expect` does.

While the counter stays below `2 ^ 32` every write goes to keys no earlier write used
(`Keyed.step`, `Keyed.run`): the indexes grow by one with each transaction.  The counter does
not stop there: the `2 ^ 32`-th transaction of a run gets index `2 ^ 32`, which `u32::try_from`
refuses, and the listener panics (`transaction_index_overflows_u32`).
-/

namespace EphemeralValidator.Processor

open EphemeralValidator.Bytes EphemeralValidator.Solana

/-- What the listener writes of one executed transaction: its signature, the slot it is
written under, the writable and read-only keys of its message, and whether its status is
`Ok` (the rest of the status meta only goes into the status column). -/
structure ExecutedTransaction where
  signature : Signature
  slot : Nat
  writableKeys : List Pubkey
  readonlyKeys : List Pubkey
  succeeded : Bool

inductive LedgerError where
  | transactionIndexOverflow
  deriving DecidableEq, Repr

/-- The columns `write_transaction_status` puts into, as maps from their keys. -/
structure StatusColumns where
  addressSignatures : Pubkey × Nat × UInt32 × Signature → Option Bool
  slotSignatures : Nat × UInt32 → Option Signature
  transactionStatus : Signature × Nat → Option Bool

namespace StatusColumns

def empty : StatusColumns := ⟨fun _ => none, fun _ => none, fun _ => none⟩

/-- One `address_signatures_cf.put` for each address, with whether it is writable. -/
def putAddressSignatures (column : Pubkey × Nat × UInt32 × Signature → Option Bool) (slot : Nat)
    (index : UInt32) (signature : Signature) (writeable : Bool) (addresses : List Pubkey) :
    Pubkey × Nat × UInt32 × Signature → Option Bool :=
  addresses.foldl (fun column address => Function.update column (address, slot, index, signature) (some writeable))
    column

end StatusColumns

/-- `write_transaction_status`, with the transaction's index as the `usize` it is given. -/
def writeTransactionStatus (columns : StatusColumns) (slot : Nat) (signature : Signature)
    (writableKeys readonlyKeys : List Pubkey) (status : Bool) (transactionSlotIndex : UInt64) :
    Except LedgerError StatusColumns :=
  -- `u32::try_from(transaction_slot_index)`
  if transactionSlotIndex.toNat < 2 ^ 32 then
    let index := transactionSlotIndex.toUInt32
    let addressSignatures :=
      StatusColumns.putAddressSignatures columns.addressSignatures slot index signature true writableKeys
    .ok { addressSignatures :=
            StatusColumns.putAddressSignatures addressSignatures slot index signature false readonlyKeys
          slotSignatures := Function.update columns.slotSignatures (slot, index) (some signature)
          transactionStatus := Function.update columns.transactionStatus (signature, slot) (some status) }
  else .error .transactionIndexOverflow

/-- The counter of `TRANSACTION_INDEX_MUTEX` and the ledger's columns. -/
structure Processed where
  transactionIndex : UInt64
  columns : StatusColumns

namespace Processed

def new : Processed := ⟨0, StatusColumns.empty⟩

/-- `execute_sanitized_transaction` takes the next index, and the listener writes the
transaction with it. -/
def step (p : Processed) (tx : ExecutedTransaction) : Except LedgerError Processed :=
  let transactionIndex := p.transactionIndex + 1
  match writeTransactionStatus p.columns tx.slot tx.signature tx.writableKeys tx.readonlyKeys tx.succeeded
      transactionIndex with
  | .ok columns => .ok ⟨transactionIndex, columns⟩
  | .error error => .error error

def run (p : Processed) (txs : List ExecutedTransaction) : Except LedgerError Processed :=
  txs.foldlM step p

end Processed

/-! ## Writes -/

theorem toNat_add_one_of_lt {index : UInt64} (below : index.toNat < 2 ^ 32) : (index + 1).toNat = index.toNat + 1 := by
  rw [UInt64.toNat_add, UInt64.toNat_one]
  exact Nat.mod_eq_of_lt (by omega)

namespace StatusColumns

/-- The puts of one transaction only add keys with its index. -/
theorem putAddressSignatures_isSome {column : Pubkey × Nat × UInt32 × Signature → Option Bool} {slot : Nat}
    {index : UInt32} {signature : Signature} {writeable : Bool} {addresses : List Pubkey}
    {key : Pubkey × Nat × UInt32 × Signature}
    (present : (putAddressSignatures column slot index signature writeable addresses key).isSome) :
    (column key).isSome ∨ key.2.2.1 = index := by
  induction addresses generalizing column with
  | nil => exact .inl present
  | cons address rest ih =>
    rcases ih present with earlier | same
    · dsimp only at earlier
      by_cases written : key = (address, slot, index, signature)
      · exact .inr (by rw [written])
      · rw [Function.update_of_ne written] at earlier
        exact .inl earlier
    · exact .inr same

end StatusColumns

theorem writeTransactionStatus_eq_ok {columns columns' : StatusColumns} {slot : Nat} {signature : Signature}
    {writableKeys readonlyKeys : List Pubkey} {status : Bool} {transactionSlotIndex : UInt64}
    (written : writeTransactionStatus columns slot signature writableKeys readonlyKeys status transactionSlotIndex =
      .ok columns') :
    transactionSlotIndex.toNat < 2 ^ 32 ∧
      columns'.slotSignatures = Function.update columns.slotSignatures (slot, transactionSlotIndex.toUInt32)
        (some signature) ∧
      ∀ key, (columns'.addressSignatures key).isSome →
        (columns.addressSignatures key).isSome ∨ key.2.2.1 = transactionSlotIndex.toUInt32 := by
  unfold writeTransactionStatus at written
  split at written
  · next fits =>
    cases written
    refine ⟨fits, rfl, fun key present => ?_⟩
    rcases StatusColumns.putAddressSignatures_isSome present with writable | same
    · exact StatusColumns.putAddressSignatures_isSome writable
    · exact .inr same
  · cases written

theorem writeTransactionStatus_isOk {columns : StatusColumns} {slot : Nat} {signature : Signature}
    {writableKeys readonlyKeys : List Pubkey} {status : Bool} {transactionSlotIndex : UInt64}
    (fits : transactionSlotIndex.toNat < 2 ^ 32) :
    ∃ columns', writeTransactionStatus columns slot signature writableKeys readonlyKeys status transactionSlotIndex =
      .ok columns' := by
  unfold writeTransactionStatus
  rw [if_pos fits]
  exact ⟨_, rfl⟩

theorem writeTransactionStatus_eq_error {columns : StatusColumns} {slot : Nat} {signature : Signature}
    {writableKeys readonlyKeys : List Pubkey} {status : Bool} {transactionSlotIndex : UInt64}
    (overflow : 2 ^ 32 ≤ transactionSlotIndex.toNat) :
    writeTransactionStatus columns slot signature writableKeys readonlyKeys status transactionSlotIndex =
      .error .transactionIndexOverflow := by
  unfold writeTransactionStatus
  rw [if_neg (by omega)]

/-! ## Keys along a run -/

/-- Every key of the index columns carries an index the counter has handed out, and the
counter is still a `u32`. -/
structure Keyed (p : Processed) : Prop where
  bounded : p.transactionIndex.toNat < 2 ^ 32
  slotSignatures_le : ∀ slot index, (p.columns.slotSignatures (slot, index)).isSome →
    index.toNat ≤ p.transactionIndex.toNat
  addressSignatures_le : ∀ key, (p.columns.addressSignatures key).isSome →
    key.2.2.1.toNat ≤ p.transactionIndex.toNat

namespace Keyed

theorem new : Keyed Processed.new where
  bounded := by decide
  slotSignatures_le _ _ present := by simp [Processed.new, StatusColumns.empty] at present
  addressSignatures_le _ present := by simp [Processed.new, StatusColumns.empty] at present

/-- The index of the next write is one past the counter. -/
theorem toNat_next {p : Processed} (keyed : Keyed p) :
    (p.transactionIndex + 1).toNat = p.transactionIndex.toNat + 1 :=
  toNat_add_one_of_lt keyed.bounded

theorem step {p p' : Processed} (keyed : Keyed p) {tx : ExecutedTransaction} (stepped : p.step tx = .ok p') :
    Keyed p' := by
  unfold Processed.step at stepped
  dsimp only at stepped
  split at stepped
  · next columns written =>
    cases stepped
    obtain ⟨fits, slots, addresses⟩ := writeTransactionStatus_eq_ok written
    have index : (p.transactionIndex + 1).toUInt32.toNat = (p.transactionIndex + 1).toNat := by
      rw [UInt64.toNat_toUInt32, Nat.mod_eq_of_lt fits]
    have advanced := keyed.toNat_next
    refine ⟨fits, ?_, ?_⟩
    · intro slot index' present
      simp only [slots] at present
      by_cases same : (slot, index') = (tx.slot, (p.transactionIndex + 1).toUInt32)
      · rw [(Prod.mk.inj same).2, index]
      · rw [Function.update_of_ne same] at present
        have within := keyed.slotSignatures_le _ _ present
        dsimp only
        omega
    · intro key present
      rcases addresses key present with earlier | same
      · have within := keyed.addressSignatures_le key earlier
        dsimp only
        omega
      · rw [same, index]
  · cases stepped

theorem run {p p' : Processed} (keyed : Keyed p) {txs : List ExecutedTransaction} (ran : p.run txs = .ok p') :
    Keyed p' := by
  induction txs generalizing p with
  | nil =>
    cases ran
    exact keyed
  | cons tx rest ih =>
    obtain ⟨q, stepped, rested⟩ := Lib.bind_eq_ok.mp ran
    exact ih (keyed.step stepped) rested

end Keyed

/-- While the counter stays a `u32`, every transaction is written, each with the next index. -/
theorem run_eq_ok {p : Processed} (keyed : Keyed p) (txs : List ExecutedTransaction)
    (room : p.transactionIndex.toNat + txs.length < 2 ^ 32) :
    ∃ p', p.run txs = .ok p' ∧ p'.transactionIndex.toNat = p.transactionIndex.toNat + txs.length := by
  induction txs generalizing p with
  | nil => exact ⟨p, rfl, rfl⟩
  | cons tx rest ih =>
    have fits : (p.transactionIndex + 1).toNat < 2 ^ 32 := by
      rw [keyed.toNat_next]
      simp only [List.length_cons] at room
      omega
    obtain ⟨columns, written⟩ :=
      @writeTransactionStatus_isOk p.columns tx.slot tx.signature tx.writableKeys tx.readonlyKeys tx.succeeded _ fits
    have stepped : p.step tx = .ok ⟨p.transactionIndex + 1, columns⟩ := by
      simp only [Processed.step, written]
    have next := keyed.step stepped
    obtain ⟨p', ran, counted⟩ := ih next (by simp only [List.length_cons] at room; simp only [keyed.toNat_next]; omega)
    refine ⟨p', ?_, ?_⟩
    · show p.step tx >>= (fun q => q.run rest) = .ok p'
      rw [stepped]
      exact ran
    · rw [counted, List.length_cons]
      simp only [keyed.toNat_next]
      omega

/-! ## The `u32` overflow -/

/-- The counter is never reset and the listener writes every transaction: a run's first
`2 ^ 32 - 1` transactions are written, and the next one gets index `2 ^ 32`, which
`write_transaction_status` refuses with `TransactionIndexOverflow`, on which the listener's
`expect` panics. -/
theorem transaction_index_overflows_u32 (txs : List ExecutedTransaction) (long : 2 ^ 32 ≤ txs.length) :
    (∃ p, Processed.new.run (txs.take (2 ^ 32 - 1)) = .ok p) ∧
      Processed.new.run txs = .error .transactionIndexOverflow := by
  obtain ⟨p, ran, counted⟩ := run_eq_ok Keyed.new (txs.take (2 ^ 32 - 1)) (by
    rw [List.length_take]
    show 0 + min (2 ^ 32 - 1) txs.length < 2 ^ 32
    omega)
  have keyed := Keyed.new.run ran
  obtain ⟨tx, rest, remaining⟩ : ∃ tx rest, txs.drop (2 ^ 32 - 1) = tx :: rest :=
    List.exists_cons_of_length_pos (by rw [List.length_drop]; omega)
  have overflow : 2 ^ 32 ≤ (p.transactionIndex + 1).toNat := by
    rw [keyed.toNat_next, counted, List.length_take]
    show 2 ^ 32 ≤ 0 + min (2 ^ 32 - 1) txs.length + 1
    omega
  have failed : p.step tx = .error .transactionIndexOverflow := by
    simp only [Processed.step, writeTransactionStatus_eq_error overflow]
  refine ⟨⟨p, ran⟩, ?_⟩
  -- the run is the written prefix, then the transaction that overflows
  have split : Processed.new.run txs =
      (Processed.new.run (txs.take (2 ^ 32 - 1)) >>= fun q => q.run (tx :: rest)) := by
    rw [← remaining]
    conv => lhs; rw [← List.take_append_drop (2 ^ 32 - 1) txs]
    exact List.foldlM_append
  rw [split, ran]
  show p.step tx >>= (fun q => q.run rest) = _
  rw [failed]
  rfl

/-- A run of `2 ^ 32` transactions. -/
theorem transaction_index_overflows_u32_of_replicate :
    2 ^ 32 ≤ (List.replicate (2 ^ 32) (⟨FixedBytes.zero 64, 0, [], [], true⟩ : ExecutedTransaction)).length ∧
      ((∃ p, Processed.new.run ((List.replicate (2 ^ 32) (⟨FixedBytes.zero 64, 0, [], [], true⟩ : ExecutedTransaction)).take
          (2 ^ 32 - 1)) = .ok p) ∧
        Processed.new.run (List.replicate (2 ^ 32) ⟨FixedBytes.zero 64, 0, [], [], true⟩) =
          .error .transactionIndexOverflow) :=
  ⟨by rw [List.length_replicate], transaction_index_overflows_u32 _ (by rw [List.length_replicate])⟩

end EphemeralValidator.Processor
