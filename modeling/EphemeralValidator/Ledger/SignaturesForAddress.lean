import EphemeralValidator.Ledger.Blockstore

/-! # The signatures of an address, newest first

`get_confirmed_signatures_for_address(pubkey, highest_slot, upper, lower, limit)` is to page
through the transactions that touched `pubkey`, newest first, strictly between two limit
signatures.  It looks each limit up with `get_transaction_status`, then stitches its answer
from three scans: `SlotSignatures` backwards over the upper limit's slot (the entries after
the upper signature), `AddressSignatures` backwards over `pubkey`'s entries in the slots
strictly between the limits, and `SlotSignatures` backwards over the lower limit's slot (the
entries before the lower signature).  A shared `limit` stops each scan.  Then it reads the
blocktime, status and memos of each signature found.

The two scans of the limit slots read `SlotSignatures`, which holds every transaction of the
slot: they never look at the address.  For a ledger written by `write_transaction`, the scan
of the upper limit's slot returns all the slot's transactions with a lower index than the
upper signature, newest first (`matchingUpper_of_stored`), and so the answer holds
transactions that do not touch `pubkey` at all, which the list the query is to return does
not (`get_confirmed_signatures_for_address_reports_other_addresses`).
-/

namespace EphemeralValidator

open EphemeralValidator.Bytes EphemeralValidator.Lib

namespace Ledger

open Solana

/-- One signature of the answer, with its slot, error, memos and blocktime. -/
structure ConfirmedTransactionStatusWithSignature where
  signature : Signature
  slot : Slot
  err : Option TransactionError
  memo : Option String
  blockTime : Option Int

structure SignatureInfosForAddress where
  infos : List ConfirmedTransactionStatusWithSignature
  foundUpper : Bool
  foundLower : Bool

def u64Max : Slot := UInt64.ofNat (2 ^ 64 - 1)

/-- `Slot::saturating_add(1)`. -/
def nextSlot (slot : Slot) : Slot := if slot.toNat + 1 < 2 ^ 64 then slot + 1 else slot

/-- The byte order of the `AddressSignatures` keys. -/
def addressSignaturesOrder :
    Pubkey × Slot × UInt32 × Signature → Pubkey × Slot × UInt32 × Signature → Ordering :=
  compareOn addressSignatures.key

/-- `TransactionResult::err`. -/
def transactionErr : Except TransactionError Unit → Option TransactionError
  | .error error => some error
  | .ok () => none

namespace Blockstore

/-- `iter_current_index_filtered` with `IteratorMode::From(seek, IteratorDirection::Reverse)`
over `AddressSignatures`; `none` is a key that does not decode (a panic). -/
def addressSignaturesReverse (l : Blockstore) (seek : Pubkey × Slot × UInt32 × Signature) :
    Option (List ((Pubkey × Slot × UInt32 × Signature) × Bool)) :=
  Ledger.addressSignatures.iterCurrentIndexFiltered
    ((SortedStore.iterReverse addressSignaturesOrder l.addressSignatures seek).map fun entry =>
      (Ledger.addressSignatures.key entry.1, entry.2))

/-- `get_block_time`, after `check_lowest_cleanup_slot`. -/
def getBlockTime (l : Blockstore) (slot : Slot) : Except LedgerError (Option Int) :=
  if 0 < l.lowestCleanupSlot ∧ slot ≤ l.lowestCleanupSlot then .error .slotCleanedUp
  else .ok (l.blocktime slot)

/-- `read_transaction_status`; `none` is the panic of `ensure_lowest_cleanup_slot`. -/
def readTransactionStatus (l : Blockstore) (index : Signature × Slot) : Option (Option TransactionStatusMeta) := do
  let _ ← ensureLowestCleanupSlot l.lowestCleanupSlot
  pure (SortedStore.get l.transactionStatus index)

/-! ## The limits -/

/-- Step 1: `(found_upper, include_upper, newest_slot, upper_slot)`; `none` is a panic. -/
def upperLimit (l : Blockstore) (highestSlot : Slot) : Option Signature → Option (Bool × Bool × Slot × Slot)
  | none => some (false, false, highestSlot, 0)
  | some signature =>
    (getTransactionStatus l.transactionStatus l.lowestCleanupSlot signature u64Max).map fun
      | some (slot, _) => (true, slot ≤ highestSlot, min (previousSlot slot) highestSlot, slot)
      | none => (false, false, highestSlot, 0)

/-- Step 2: `(found_lower, include_lower, oldest_slot, lower_slot)`; `none` is a panic. -/
def lowerLimit (l : Blockstore) (highestSlot : Slot) : Option Signature → Option (Bool × Bool × Slot × Slot)
  | none => some (false, false, 0, 0)
  | some signature =>
    (getTransactionStatus l.transactionStatus l.lowestCleanupSlot signature u64Max).map fun
      | some (slot, _) => (true, slot ≤ highestSlot, nextSlot slot, slot)
      | none => (false, false, 0, 0)

/-! ## The three scans -/

/-- The loop over the upper limit's slot: after the upper signature is passed, every
signature of the slot is taken. -/
def upperSlotScan (limit : Nat) (upperSlot : Slot) (upperSignature : Signature) :
    List (Slot × Signature) → Bool → List ((Slot × UInt32) × List UInt8) →
      Except LedgerError (List (Slot × Signature))
  | matching, _, [] => .ok matching
  | matching, passedSignature, ((txSlot, _), txSignature) :: rest =>
    if limit ≤ matching.length then .ok matching
    else if txSlot ≠ upperSlot then .ok matching
    else
      match signatureTryFrom txSignature with
      | .error error => .error error
      | .ok txSignature =>
        if txSignature = upperSignature then upperSlotScan limit upperSlot upperSignature matching true rest
        else if passedSignature then
          upperSlotScan limit upperSlot upperSignature (matching ++ [(txSlot, txSignature)]) passedSignature rest
        else upperSlotScan limit upperSlot upperSignature matching passedSignature rest

/-- The loop over `pubkey`'s `AddressSignatures` entries, from `newest_slot` down to
`oldest_slot`. -/
def addressScan (limit : Nat) (pubkey : Pubkey) (newestSlot oldestSlot : Slot) :
    List (Slot × Signature) → List ((Pubkey × Slot × UInt32 × Signature) × Bool) → List (Slot × Signature)
  | matching, [] => matching
  | matching, ((address, txSlot, _, signature), _) :: rest =>
    if limit ≤ matching.length then matching
    else if address ≠ pubkey then matching
    else if txSlot < oldestSlot then matching
    -- the seek key `(pubkey, newest_slot, u32::MAX, Signature::default())` is below some
    -- entries of `newest_slot` itself
    else if newestSlot < txSlot then addressScan limit pubkey newestSlot oldestSlot matching rest
    else addressScan limit pubkey newestSlot oldestSlot (matching ++ [(txSlot, signature)]) rest

/-- The loop over the lower limit's slot: the signatures of the slot until the lower one. -/
def lowerSlotScan (limit : Nat) (lowerSlot : Slot) (lowerSignature : Signature) :
    List (Slot × Signature) → List ((Slot × UInt32) × List UInt8) → Except LedgerError (List (Slot × Signature))
  | matching, [] => .ok matching
  | matching, ((txSlot, _), txSignature) :: rest =>
    if limit ≤ matching.length then .ok matching
    else if txSlot ≠ lowerSlot then .ok matching
    else
      match signatureTryFrom txSignature with
      | .error error => .error error
      | .ok txSignature =>
        if txSignature = lowerSignature then .ok matching
        else lowerSlotScan limit lowerSlot lowerSignature (matching ++ [(txSlot, txSignature)]) rest

/-- The scan of the upper limit's slot, when the limit was found at a slot not above
`highest_slot`; the `unwrap` of the signature is `none`. -/
def matchingUpper (l : Blockstore) (limit : Nat) (upperLimitSignature : Option Signature)
    (foundUpper includeUpper : Bool) (upperSlot : Slot) : Option (Except LedgerError (List (Slot × Signature))) :=
  if foundUpper && includeUpper then
    match upperLimitSignature with
    | none => none
    | some upperSignature =>
      (l.slotSignaturesReverse (upperSlot, u32Max)).map (upperSlotScan limit upperSlot upperSignature [] false)
  else some (.ok [])

/-- The scan of the address's entries, unless the limits leave no slot between them. -/
def matchingBetween (l : Blockstore) (limit : Nat) (pubkey : Pubkey) (newestSlot oldestSlot : Slot)
    (matching : List (Slot × Signature)) : Option (List (Slot × Signature)) :=
  if oldestSlot ≤ newestSlot then
    (l.addressSignaturesReverse (pubkey, newestSlot, u32Max, FixedBytes.zero 64)).map
      (addressScan limit pubkey newestSlot oldestSlot matching)
  else some matching

/-- The scan of the lower limit's slot, when the limit was found at a slot not above
`highest_slot`; the `unwrap` of the signature is `none`. -/
def matchingLower (l : Blockstore) (limit : Nat) (lowerLimitSignature : Option Signature)
    (foundLower includeLower : Bool) (lowerSlot : Slot) (matching : List (Slot × Signature)) :
    Option (Except LedgerError (List (Slot × Signature))) :=
  if foundLower && includeLower then
    match lowerLimitSignature with
    | none => none
    | some lowerSignature =>
      (l.slotSignaturesReverse (lowerSlot, u32Max)).map (lowerSlotScan limit lowerSlot lowerSignature matching)
  else some (.ok matching)

/-! ## The answer -/

/-- Step 4: the blocktime of each slot found, read once per slot. -/
def resolveBlocktimes (l : Blockstore) (blocktimes : List (Slot × Int)) :
    List (Slot × Signature) → Except LedgerError (List (Slot × Int))
  | [] => .ok blocktimes
  | (slot, _) :: rest =>
    if (blocktimes.lookup slot).isSome then l.resolveBlocktimes blocktimes rest
    else
      match l.getBlockTime slot with
      | .error error => .error error
      | .ok (some blocktime) => l.resolveBlocktimes (blocktimes ++ [(slot, blocktime)]) rest
      | .ok none => l.resolveBlocktimes blocktimes rest

/-- Step 5 for one signature found; `none` is a panic of `read_transaction_status`. -/
def statusInfo (l : Blockstore) (blocktimes : List (Slot × Int)) :
    Slot × Signature → Option ConfirmedTransactionStatusWithSignature
  | (slot, signature) => do
    let status ← l.readTransactionStatus (signature, slot)
    pure
      { slot, signature
        blockTime := blocktimes.lookup slot
        err := status.bind fun status => transactionErr status.status
        memo := SortedStore.get l.transactionMemos (signature, slot) }

/-- `Ledger::get_confirmed_signatures_for_address`; the outer `none` is a panic. -/
def getConfirmedSignaturesForAddress (l : Blockstore) (pubkey : Pubkey) (highestSlot : Slot)
    (upperLimitSignature lowerLimitSignature : Option Signature) (limit : Nat) :
    Option (Except LedgerError SignatureInfosForAddress) := do
  let (foundUpper, includeUpper, newestSlot, upperSlot) ← l.upperLimit highestSlot upperLimitSignature
  let (foundLower, includeLower, oldestSlot, lowerSlot) ← l.lowerLimit highestSlot lowerLimitSignature
  let _ ← ensureLowestCleanupSlot l.lowestCleanupSlot
  match ← l.matchingUpper limit upperLimitSignature foundUpper includeUpper upperSlot with
  | .error error => pure (.error error)
  | .ok matching =>
    let matching ← l.matchingBetween limit pubkey newestSlot oldestSlot matching
    match ← l.matchingLower limit lowerLimitSignature foundLower includeLower lowerSlot matching with
    | .error error => pure (.error error)
    | .ok matching =>
      match l.resolveBlocktimes [] matching with
      | .error error => pure (.error error)
      | .ok blocktimes => do
        let infos ← matching.mapM (l.statusInfo blocktimes)
        pure (.ok ⟨infos, foundUpper, foundLower⟩)

end Blockstore

/-! ## The list the query is to return -/

/-- `(slot, index)` before `(slot', index')`: an earlier slot, or the same slot and a lower
index. -/
def positionLt (a b : Slot × Nat) : Bool := a.1 < b.1 || (a.1 == b.1 && a.2 < b.2)

/-- The transactions written that touched `pubkey`, at slots up to `highest_slot`, strictly
between the limit signatures that were written, newest first, at most `limit` of them. -/
def signaturesForAddressExpected (writes : List LedgerWrite) (pubkey : Pubkey) (highestSlot : Slot)
    (upperLimitSignature lowerLimitSignature : Option Signature) (limit : Nat) : List (Slot × Signature) :=
  let written := transactionsWritten writes
  let position (w : TransactionWrite) : Slot × Nat := (w.slot, w.transactionSlotIndex)
  let found (signature : Signature) : Option (Slot × Nat) :=
    (written.find? fun w => w.signature == signature).map position
  let between (w : TransactionWrite) : Bool :=
    ((upperLimitSignature.bind found).all fun upper => positionLt (position w) upper) &&
      ((lowerLimitSignature.bind found).all fun lower => positionLt lower (position w))
  let touching := written.filter fun w =>
    (w.writableKeys.contains pubkey || w.readonlyKeys.contains pubkey) && decide (w.slot ≤ highestSlot) && between w
  ((touching.mergeSort fun a b => !positionLt (position a) (position b)).map fun w => (w.slot, w.signature)).take limit

/-! ## What a run of writes leaves in the status column -/

namespace Blockstore

theorem lowestCleanupSlot_step (l : Blockstore) (write : LedgerWrite) :
    (l.step write).lowestCleanupSlot = l.lowestCleanupSlot := by
  cases write with
  | transaction w =>
    by_cases fits : w.transactionSlotIndex < 2 ^ 32
    · rw [step_transaction_of_fits l fits]
    · rw [step_transaction_of_too_large l fits]
  | transactionMemos => rfl
  | block => rfl

theorem lowestCleanupSlot_run (l : Blockstore) (writes : List LedgerWrite) :
    (l.run writes).lowestCleanupSlot = l.lowestCleanupSlot := by
  induction writes generalizing l with
  | nil => rfl
  | cons write rest ih => exact (ih (l.step write)).trans (lowestCleanupSlot_step l write)

/-- A write puts into the status column only the status of the transaction it writes. -/
theorem mem_transactionStatus_step {l : Blockstore} {write : LedgerWrite}
    {entry : (Signature × Slot) × TransactionStatusMeta} (member : entry ∈ (l.step write).transactionStatus) :
    entry ∈ l.transactionStatus ∨ ∃ w ∈ transactionsWritten [write], entry.1 = (w.signature, w.slot) := by
  cases write with
  | transaction w =>
    by_cases fits : w.transactionSlotIndex < 2 ^ 32
    · rw [step_transaction_of_fits l fits] at member
      rcases SortedStore.mem_put.mp member with ⟨kept, -⟩ | written
      · exact .inl kept
      · rw [transactionsWritten_transaction_of_fits fits]
        exact .inr ⟨w, List.mem_singleton_self w, by rw [written]⟩
    · rw [step_transaction_of_too_large l fits] at member
      exact .inl member
  | transactionMemos => exact .inl member
  | block => exact .inl member

theorem mem_transactionStatus_run {l : Blockstore} {writes : List LedgerWrite}
    {entry : (Signature × Slot) × TransactionStatusMeta} (member : entry ∈ (l.run writes).transactionStatus) :
    entry ∈ l.transactionStatus ∨ ∃ w ∈ transactionsWritten writes, entry.1 = (w.signature, w.slot) := by
  induction writes generalizing l with
  | nil => exact .inl member
  | cons write rest ih =>
    have split : transactionsWritten (write :: rest) = transactionsWritten [write] ++ transactionsWritten rest := by
      rw [← transactionsWritten_append, List.singleton_append]
    rw [split]
    rcases ih member with before | ⟨w, written, same⟩
    · rcases mem_transactionStatus_step before with old | ⟨w, written, same⟩
      · exact .inl old
      · exact .inr ⟨w, List.mem_append_left _ written, same⟩
    · exact .inr ⟨w, List.mem_append_right _ written, same⟩

end Blockstore

/-! ## Looking up a signature written once -/

namespace StatusStore

variable {Meta : Type}

/-- A forward scan visits the entries in increasing key order. -/
theorem pairwise_iterFrom (store : StatusStore Meta) (seek : Signature × Slot) :
    (store.iterFrom seek).Pairwise fun a b =>
      compare (TransactionStatus.key a.1) (TransactionStatus.key b.1) != .gt :=
  List.pairwise_mergeSort
    (fun _ _ _ first second => by
      simp only [bne_iff_ne] at first second ⊢
      exact Std.TransCmp.le_trans first second)
    (fun a b => by
      cases ordered : compare (TransactionStatus.key a.1) (TransactionStatus.key b.1) with
      | gt => simp [Std.OrientedCmp.gt_iff_lt.mp ordered]
      | lt => simp
      | eq => simp) _

end StatusStore

/-- A forward scan from `(signature, 1)` starts at the one entry of `signature`, when that
entry is at a slot after 0: the keys order by signature, then slot, so every other entry the
scan visits is of a greater signature. -/
theorem StatusStore.iterFrom_eq_cons_of_unique {Meta : Type} {store : StatusStore Meta}
    (keys : (store.map Prod.fst).Nodup) {signature : Signature} {slot : Slot} {status : Meta}
    (member : ((signature, slot), status) ∈ store) (only : ∀ entry ∈ store, entry.1.1 = signature → entry.1.2 = slot)
    (afterGenesis : slot ≠ 0) :
    ∃ rest, store.iterFrom (signature, 1) = ((signature, slot), status) :: rest := by
  have positive : 1 ≤ slot.toNat := by
    have nonzero : slot.toNat ≠ 0 := fun zero => afterGenesis (UInt64.toNat_inj.mp zero)
    omega
  have visited : ((signature, slot), status) ∈ store.iterFrom (signature, 1) := by
    refine StatusStore.mem_iterFrom.mpr ⟨member, ?_⟩
    rw [StatusStore.compare_statusKey, Std.compare_self, Ordering.eq_then, Ne, Nat.compare_eq_lt]
    exact Nat.not_lt.mpr positive
  cases scanned : store.iterFrom (signature, 1) with
  | nil => rw [scanned] at visited; cases visited
  | cons head rest =>
    refine ⟨rest, ?_⟩
    have headVisited := StatusStore.mem_iterFrom.mp (scanned ▸ List.mem_cons_self : head ∈ store.iterFrom (signature, 1))
    rw [StatusStore.compare_statusKey] at headVisited
    rw [scanned] at visited
    rcases List.mem_cons.mp visited with same | later
    · rw [same]
    -- the head is not above our entry, and not below the seek key: it has our signature
    have notAbove := List.rel_of_pairwise_cons (scanned ▸ StatusStore.pairwise_iterFrom store (signature, 1)) later
    rw [bne_iff_ne, StatusStore.compare_statusKey] at notAbove
    cases ordered : compare head.1.1.bytes signature.bytes with
    | lt => simp [ordered] at headVisited
    | gt => simp [ordered] at notAbove
    | eq =>
      have sameSignature : head.1.1 = signature := FixedBytes.ext_bytes (Std.LawfulEqCmp.eq_of_compare ordered)
      have sameKey : head.1 = (signature, slot) := Prod.ext sameSignature (only head headVisited.1 sameSignature)
      rw [List.inj_on_of_nodup_map keys headVisited.1 member sameKey]

/-- `get_transaction_status` of a signature whose one status is at a slot after 0 finds it. -/
theorem getTransactionStatus_of_unique {Meta : Type} {store : StatusStore Meta} (keys : (store.map Prod.fst).Nodup)
    {signature : Signature} {slot minSlot : Slot} {status : Meta} (member : ((signature, slot), status) ∈ store)
    (only : ∀ entry ∈ store, entry.1.1 = signature → entry.1.2 = slot) (afterGenesis : slot ≠ 0)
    (early : slot ≤ minSlot) :
    getTransactionStatus store 0 signature minSlot = some (some (slot, status)) := by
  have lookup : getTransactionStatus store 0 signature minSlot =
      some (scanTransactionStatus store signature minSlot (store.iterFrom (signature, 1))) := rfl
  obtain ⟨rest, scanned⟩ := StatusStore.iterFrom_eq_cons_of_unique keys member only afterGenesis
  have stored : store.get (signature, slot) = some status := SortedStore.get_eq_some_of_mem keys member
  rw [lookup, scanned]
  simp [scanTransactionStatus, early, stored]

/-! ## The scans, entry by entry -/

@[simp] theorem signatureTryFrom_bytes (signature : Signature) : signatureTryFrom signature.bytes = .ok signature := by
  simp [signatureTryFrom]

/-- A list of options, all of them some, is one option. -/
theorem mapM_eq_some_of_isSome {α β : Type} {f : α → Option β} {xs : List α} (total : ∀ x ∈ xs, (f x).isSome) :
    ∃ ys, xs.mapM f = some ys ∧ ∀ x ∈ xs, ∃ y ∈ ys, f x = some y := by
  induction xs with
  | nil => exact ⟨[], rfl, by simp⟩
  | cons x xs ih =>
    obtain ⟨y, found⟩ := Option.isSome_iff_exists.mp (total x List.mem_cons_self)
    obtain ⟨ys, rest, all⟩ := ih fun x' member => total x' (List.mem_cons_of_mem _ member)
    refine ⟨y :: ys, by simp [List.mapM_cons, found, rest], ?_⟩
    intro x' member
    cases List.mem_cons.mp member with
    | inl same => exact ⟨y, List.mem_cons_self, same ▸ found⟩
    | inr later =>
      obtain ⟨y', member', found'⟩ := all x' later
      exact ⟨y', List.mem_cons_of_mem _ member', found'⟩

namespace Blockstore

section UpperSlotScan

variable {limit : Nat} {upperSlot : Slot} {upperSignature : Signature}

theorem upperSlotScan_of_full {matching : List (Slot × Signature)} (full : limit ≤ matching.length) (passed : Bool)
    (entries : List ((Slot × UInt32) × List UInt8)) :
    upperSlotScan limit upperSlot upperSignature matching passed entries = .ok matching := by
  cases entries with
  | nil => rfl
  | cons entry rest =>
    obtain ⟨⟨txSlot, index⟩, txSignature⟩ := entry
    simp [upperSlotScan, full]

/-- The scan stops at the first entry of another slot. -/
theorem upperSlotScan_takeWhile (matching : List (Slot × Signature)) (passed : Bool)
    (entries : List ((Slot × UInt32) × List UInt8)) :
    upperSlotScan limit upperSlot upperSignature matching passed entries =
      upperSlotScan limit upperSlot upperSignature matching passed
        (entries.takeWhile fun entry => entry.1.1 == upperSlot) := by
  induction entries generalizing matching passed with
  | nil => rfl
  | cons entry rest ih =>
    obtain ⟨⟨txSlot, index⟩, txSignature⟩ := entry
    by_cases same : txSlot = upperSlot
    · subst same
      simp only [List.takeWhile_cons, beq_self_eq_true, if_true, upperSlotScan, ih]
    · simp [upperSlotScan, same]

/-- Before the upper signature, the entries of the slot are passed over. -/
theorem upperSlotScan_skip {ws : List TransactionWrite} (onSlot : ∀ w ∈ ws, w.slot = upperSlot)
    (others : ∀ w ∈ ws, w.signature ≠ upperSignature) (matching : List (Slot × Signature))
    (rest : List ((Slot × UInt32) × List UInt8)) :
    upperSlotScan limit upperSlot upperSignature matching false (ws.map TransactionWrite.slotSignaturesEntry ++ rest) =
      upperSlotScan limit upperSlot upperSignature matching false rest := by
  induction ws with
  | nil => rfl
  | cons w ws ih =>
    by_cases full : limit ≤ matching.length
    · rw [upperSlotScan_of_full full, upperSlotScan_of_full full]
    · have skipped := ih (fun w' member => onSlot w' (List.mem_cons_of_mem _ member))
        (fun w' member => others w' (List.mem_cons_of_mem _ member))
      simp [upperSlotScan, TransactionWrite.slotSignaturesEntry, full, onSlot w List.mem_cons_self,
        others w List.mem_cons_self, ← skipped]

theorem upperSlotScan_upper {u : TransactionWrite} (onSlot : u.slot = upperSlot) (isUpper : u.signature = upperSignature)
    (matching : List (Slot × Signature)) (rest : List ((Slot × UInt32) × List UInt8)) :
    upperSlotScan limit upperSlot upperSignature matching false (u.slotSignaturesEntry :: rest) =
      upperSlotScan limit upperSlot upperSignature matching true rest := by
  by_cases full : limit ≤ matching.length
  · rw [upperSlotScan_of_full full, upperSlotScan_of_full full]
  · simp [upperSlotScan, TransactionWrite.slotSignaturesEntry, full, onSlot, isUpper]

/-- After the upper signature, every entry of the slot is taken, up to the limit. -/
theorem upperSlotScan_passed {ws : List TransactionWrite} (onSlot : ∀ w ∈ ws, w.slot = upperSlot)
    (others : ∀ w ∈ ws, w.signature ≠ upperSignature) (matching : List (Slot × Signature)) :
    upperSlotScan limit upperSlot upperSignature matching true (ws.map TransactionWrite.slotSignaturesEntry) =
      .ok (matching ++ (ws.map fun w => (w.slot, w.signature)).take (limit - matching.length)) := by
  induction ws generalizing matching with
  | nil => simp [upperSlotScan]
  | cons w ws ih =>
    by_cases full : limit ≤ matching.length
    · rw [upperSlotScan_of_full full, Nat.sub_eq_zero_of_le full, List.take_zero, List.append_nil]
    · have taken : upperSlotScan limit upperSlot upperSignature matching true (w.slotSignaturesEntry ::
            ws.map TransactionWrite.slotSignaturesEntry) =
          upperSlotScan limit upperSlot upperSignature (matching ++ [(w.slot, w.signature)]) true
            (ws.map TransactionWrite.slotSignaturesEntry) := by
        simp [upperSlotScan, TransactionWrite.slotSignaturesEntry, full, onSlot w List.mem_cons_self,
          others w List.mem_cons_self]
      have room : limit - matching.length = limit - (matching ++ [(w.slot, w.signature)]).length + 1 := by
        simp only [List.length_append, List.length_singleton]
        omega
      rw [List.map_cons, taken, ih (fun w' member => onSlot w' (List.mem_cons_of_mem _ member))
        (fun w' member => others w' (List.mem_cons_of_mem _ member)), room, List.map_cons, List.take_succ_cons,
        List.append_assoc, List.singleton_append]

end UpperSlotScan

/-- The scan of the address's entries only adds to what was found. -/
theorem addressScan_prefix (limit : Nat) (pubkey : Pubkey) (newestSlot oldestSlot : Slot)
    (matching : List (Slot × Signature)) (entries : List ((Pubkey × Slot × UInt32 × Signature) × Bool)) :
    ∃ extra, addressScan limit pubkey newestSlot oldestSlot matching entries = matching ++ extra := by
  induction entries generalizing matching with
  | nil => exact ⟨[], by simp [addressScan]⟩
  | cons entry rest ih =>
    obtain ⟨⟨address, txSlot, index, signature⟩, writable⟩ := entry
    simp only [addressScan]
    split_ifs
    · exact ⟨[], by simp⟩
    · exact ⟨[], by simp⟩
    · exact ⟨[], by simp⟩
    · exact ih matching
    · obtain ⟨extra, scanned⟩ := ih (matching ++ [(txSlot, signature)])
      exact ⟨(txSlot, signature) :: extra, by simp [scanned]⟩

/-- The scan of the lower limit's slot only adds to what was found, and fails on no entry
whose value is a signature. -/
theorem lowerSlotScan_prefix (limit : Nat) (lowerSlot : Slot) (lowerSignature : Signature)
    {entries : List ((Slot × UInt32) × List UInt8)}
    (decodes : ∀ entry ∈ entries, ∃ signature : Signature, entry.2 = signature.bytes) (matching : List (Slot × Signature)) :
    ∃ extra, lowerSlotScan limit lowerSlot lowerSignature matching entries = .ok (matching ++ extra) := by
  induction entries generalizing matching with
  | nil => exact ⟨[], by simp [lowerSlotScan]⟩
  | cons entry rest ih =>
    obtain ⟨⟨txSlot, index⟩, txSignature⟩ := entry
    obtain ⟨signature, bytes⟩ := decodes _ List.mem_cons_self
    dsimp only at bytes
    subst bytes
    simp only [lowerSlotScan, signatureTryFrom_bytes]
    split_ifs
    · exact ⟨[], by simp⟩
    · exact ⟨[], by simp⟩
    · exact ⟨[], by simp⟩
    · obtain ⟨extra, scanned⟩ := ih (fun entry member => decodes entry (List.mem_cons_of_mem _ member))
        (matching ++ [(txSlot, signature)])
      exact ⟨(txSlot, signature) :: extra, by simp [scanned]⟩

/-! ## Blocktimes and statuses -/

theorem getBlockTime_of_uncleaned {l : Blockstore} (uncleaned : l.lowestCleanupSlot = 0) (slot : Slot) :
    l.getBlockTime slot = .ok (l.blocktime slot) := by
  simp [getBlockTime, uncleaned]

theorem resolveBlocktimes_of_uncleaned {l : Blockstore} (uncleaned : l.lowestCleanupSlot = 0)
    (blocktimes : List (Slot × Int)) (matching : List (Slot × Signature)) :
    ∃ resolved, l.resolveBlocktimes blocktimes matching = .ok resolved := by
  induction matching generalizing blocktimes with
  | nil => exact ⟨blocktimes, rfl⟩
  | cons found rest ih =>
    obtain ⟨slot, signature⟩ := found
    by_cases known : (blocktimes.lookup slot).isSome
    · simp only [resolveBlocktimes, known, if_true]
      exact ih blocktimes
    · cases blocktime : l.blocktime slot with
      | none =>
        simp only [resolveBlocktimes, known, getBlockTime_of_uncleaned uncleaned, blocktime]
        exact ih blocktimes
      | some time =>
        simp only [resolveBlocktimes, known, getBlockTime_of_uncleaned uncleaned, blocktime]
        exact ih _

theorem statusInfo_isSome {l : Blockstore} (uncleaned : l.lowestCleanupSlot = 0) (blocktimes : List (Slot × Int))
    (found : Slot × Signature) : (l.statusInfo blocktimes found).isSome := by
  obtain ⟨slot, signature⟩ := found
  simp [statusInfo, readTransactionStatus, uncleaned, ensureLowestCleanupSlot]

/-- Each status reported is of the signature and slot it was read for. -/
theorem slot_of_statusInfo {l : Blockstore} {blocktimes : List (Slot × Int)} {slot : Slot} {signature : Signature}
    {info : ConfirmedTransactionStatusWithSignature} (read : l.statusInfo blocktimes (slot, signature) = some info) :
    info.slot = slot ∧ info.signature = signature := by
  cases status : l.readTransactionStatus (signature, slot) with
  | none => simp [statusInfo, status] at read
  | some status =>
    simp only [statusInfo, status, Option.pure_def, Option.bind_eq_bind, Option.bind_some, Option.some.injEq] at read
    rw [← read]
    exact ⟨rfl, rfl⟩

/-! ## The scans on a ledger that holds what was written -/

/-- The keys read back are the keys written, so the scan sees the column in key order. -/
theorem addressSignaturesReverse_eq (l : Blockstore) (seek : Pubkey × Slot × UInt32 × Signature) :
    l.addressSignaturesReverse seek =
      some (SortedStore.iterReverse addressSignaturesOrder l.addressSignatures seek) :=
  addressSignatures_keysRoundTrip.iterCurrentIndexFiltered_keys _

theorem matchingBetween_prefix (l : Blockstore) (limit : Nat) (pubkey : Pubkey) (newestSlot oldestSlot : Slot)
    (matching : List (Slot × Signature)) :
    ∃ extra, l.matchingBetween limit pubkey newestSlot oldestSlot matching = some (matching ++ extra) := by
  unfold matchingBetween
  split_ifs
  · obtain ⟨extra, scanned⟩ := addressScan_prefix limit pubkey newestSlot oldestSlot matching
      (SortedStore.iterReverse addressSignaturesOrder l.addressSignatures (pubkey, newestSlot, u32Max, FixedBytes.zero 64))
    exact ⟨extra, by rw [addressSignaturesReverse_eq, Option.map_some, scanned]⟩
  · exact ⟨[], by simp⟩

end Blockstore

section Stored

variable {writes : List LedgerWrite} {l : Blockstore}

/-- The scan of the upper limit's slot takes every transaction of the slot with a lower
index than the upper signature's, newest first, whatever addresses it touched. -/
theorem matchingUpper_of_stored (stored : Stored writes l) (distinct : DistinctWrites writes)
    (signatures : ((transactionsWritten writes).map (·.signature)).Nodup) (limit : Nat) {upper : TransactionWrite}
    (upperWritten : upper ∈ transactionsWritten writes) :
    l.matchingUpper limit (some upper.signature) true true upper.slot =
      some (.ok ((((slotTransactionsDescending writes upper.slot).filter fun w =>
        w.transactionSlotIndex < upper.transactionSlotIndex).map fun w => (w.slot, w.signature)).take limit)) := by
  obtain ⟨before, after, split⟩ :=
    List.append_of_mem (mem_slotTransactionsDescending.mpr ⟨upperWritten, rfl⟩)
  have sorted := pairwise_slotTransactionsDescending distinct upper.slot
  rw [split, List.pairwise_append, List.pairwise_cons] at sorted
  have above : ∀ w ∈ before, upper.transactionSlotIndex < w.transactionSlotIndex :=
    fun w member => sorted.2.2 w member upper List.mem_cons_self
  have below : ∀ w ∈ after, w.transactionSlotIndex < upper.transactionSlotIndex := sorted.2.1.1
  have members : ∀ w ∈ before ++ upper :: after, w ∈ transactionsWritten writes ∧ w.slot = upper.slot := by
    rw [← split]
    exact fun w member => mem_slotTransactionsDescending.mp member
  have widen : ∀ w ∈ before ++ after, w ∈ before ++ upper :: after := by
    intro w member
    rcases List.mem_append.mp member with early | late
    · exact List.mem_append_left _ early
    · exact List.mem_append_right _ (List.mem_cons_of_mem _ late)
  -- the other transactions of the slot have other indexes, hence other signatures
  have others : ∀ w ∈ before ++ after, w.signature ≠ upper.signature := by
    intro w member same
    have written := (members w (widen w member)).1
    have equal := List.inj_on_of_nodup_map signatures written upperWritten same
    subst equal
    rcases List.mem_append.mp member with early | late
    · exact Nat.lt_irrefl _ (above w early)
    · exact Nat.lt_irrefl _ (below w late)
  have onSlot : ∀ w ∈ before ++ after, w.slot = upper.slot := fun w member => (members w (widen w member)).2
  have taken : (before ++ upper :: after).filter (fun w => w.transactionSlotIndex < upper.transactionSlotIndex) = after := by
    rw [List.filter_append, List.filter_eq_nil_iff.mpr (fun w member => by simpa using Nat.le_of_lt (above w member)),
      List.filter_cons_of_neg (by simp), List.filter_eq_self.mpr (fun w member => by simpa using below w member),
      List.nil_append]
  have scanned : Blockstore.upperSlotScan limit upper.slot upper.signature [] false
      (SortedStore.iterReverse slotSignaturesOrder l.slotSignatures (upper.slot, u32Max)) =
        .ok (((after.map fun w => (w.slot, w.signature))).take limit) := by
    rw [Blockstore.upperSlotScan_takeWhile, Blockstore.takeWhile_iterReverse l stored.slotSignaturesKeys,
      slotEntries_of_stored stored distinct, split, List.map_append, List.map_cons,
      Blockstore.upperSlotScan_skip (fun w member => onSlot w (List.mem_append_left _ member))
        (fun w member => others w (List.mem_append_left _ member)),
      Blockstore.upperSlotScan_upper rfl rfl,
      Blockstore.upperSlotScan_passed (fun w member => onSlot w (List.mem_append_right _ member))
        (fun w member => others w (List.mem_append_right _ member))]
    simp
  rw [split, taken]
  simp [Blockstore.matchingUpper, Blockstore.slotSignaturesReverse_eq, scanned]

/-- The scan of the lower limit's slot fails on no entry: every value is a signature. -/
theorem matchingLower_of_stored (stored : Stored writes l) (limit : Nat) {lowerLimitSignature : Option Signature}
    {foundLower : Bool} (signed : foundLower = true → lowerLimitSignature.isSome) (includeLower : Bool)
    (lowerSlot : Slot) (matching : List (Slot × Signature)) :
    ∃ extra, l.matchingLower limit lowerLimitSignature foundLower includeLower lowerSlot matching =
      some (.ok (matching ++ extra)) := by
  unfold Blockstore.matchingLower
  by_cases scanning : (foundLower && includeLower) = true
  · rw [if_pos scanning]
    obtain ⟨lowerSignature, given⟩ := Option.isSome_iff_exists.mp (signed (Bool.and_eq_true_iff.mp scanning).1)
    rw [given, Blockstore.slotSignaturesReverse_eq]
    have decodes : ∀ entry ∈ SortedStore.iterReverse slotSignaturesOrder l.slotSignatures (lowerSlot, u32Max),
        ∃ signature : Signature, entry.2 = signature.bytes := by
      intro entry visited
      obtain ⟨w, -, same⟩ := (stored.mem_slotSignatures entry).mp (SortedStore.mem_iterReverse.mp visited).1
      exact ⟨w.signature, by rw [same]; rfl⟩
    obtain ⟨extra, scanned⟩ := Blockstore.lowerSlotScan_prefix limit lowerSlot lowerSignature decodes matching
    exact ⟨extra, by simp [scanned]⟩
  · rw [if_neg scanning]
    exact ⟨[], by simp⟩

end Stored

namespace Blockstore

theorem le_u64Max (slot : Slot) : slot ≤ u64Max := by
  have below := slot.toNat_lt
  have top : u64Max.toNat = 2 ^ 64 - 1 := rfl
  rw [UInt64.le_iff_toNat_le, top]
  omega

/-- The lower limit is found only for a signature given. -/
theorem isSome_of_lowerLimit {l : Blockstore} {highestSlot : Slot} {lowerLimitSignature : Option Signature}
    {includeLower : Bool} {oldestSlot lowerSlot : Slot}
    (limits : l.lowerLimit highestSlot lowerLimitSignature = some (true, includeLower, oldestSlot, lowerSlot)) :
    lowerLimitSignature.isSome := by
  cases lowerLimitSignature with
  | none => simp [lowerLimit] at limits
  | some signature => rfl

theorem lowerLimit_isSome {l : Blockstore} (uncleaned : l.lowestCleanupSlot = 0) (highestSlot : Slot)
    (lowerLimitSignature : Option Signature) : (l.lowerLimit highestSlot lowerLimitSignature).isSome := by
  cases lowerLimitSignature with
  | none => rfl
  | some signature => simp [lowerLimit, getTransactionStatus, uncleaned, ensureLowestCleanupSlot]

end Blockstore

/-- A transaction written is reported for no address it did not touch. -/
theorem not_mem_signaturesForAddressExpected {writes : List LedgerWrite}
    (signatures : ((transactionsWritten writes).map (·.signature)).Nodup) {w : TransactionWrite}
    (written : w ∈ transactionsWritten writes) {pubkey : Pubkey}
    (elsewhere : pubkey ∉ w.writableKeys ∧ pubkey ∉ w.readonlyKeys) (slot highestSlot : Slot)
    (upperLimitSignature lowerLimitSignature : Option Signature) (limit : Nat) :
    (slot, w.signature) ∉
      signaturesForAddressExpected writes pubkey highestSlot upperLimitSignature lowerLimitSignature limit := by
  intro member
  obtain ⟨w', sorted, same⟩ := List.mem_map.mp (List.mem_of_mem_take member)
  obtain ⟨written', touches⟩ := List.mem_filter.mp (List.mem_mergeSort.mp sorted)
  have equal : w' = w := List.inj_on_of_nodup_map signatures written' written (Prod.mk.inj same).2
  subst equal
  simp [elsewhere.1, elsewhere.2] at touches

/-! ## Transactions reported for an address they did not touch -/

/-- On a ledger written with distinct signatures and distinct `(slot, index)` pairs, take a
query whose upper limit signature is found at a slot after 0 and not above `highest_slot`,
with room for every transaction: it succeeds, and it reports every transaction of the upper
limit's slot with a lower index, even one that did not touch `pubkey`, which the list the
query is to return leaves out. -/
theorem get_confirmed_signatures_for_address_reports_other_addresses (writes : List LedgerWrite)
    (distinct : DistinctWrites writes) (signatures : ((transactionsWritten writes).map (·.signature)).Nodup)
    (pubkey : Pubkey) (highestSlot : Slot) (lowerLimitSignature : Option Signature) (limit : Nat)
    (enough : (transactionsWritten writes).length ≤ limit) {upper other : TransactionWrite}
    (upperWritten : upper ∈ transactionsWritten writes) (otherWritten : other ∈ transactionsWritten writes)
    (sameSlot : other.slot = upper.slot) (earlier : other.transactionSlotIndex < upper.transactionSlotIndex)
    (afterGenesis : upper.slot ≠ 0) (confirmed : upper.slot ≤ highestSlot)
    (elsewhere : pubkey ∉ other.writableKeys ∧ pubkey ∉ other.readonlyKeys) :
    ∃ result, (Blockstore.empty.run writes).getConfirmedSignaturesForAddress pubkey highestSlot
        (some upper.signature) lowerLimitSignature limit = some (.ok result) ∧
      (other.slot, other.signature) ∈ result.infos.map (fun info => (info.slot, info.signature)) ∧
      (other.slot, other.signature) ∉
        signaturesForAddressExpected writes pubkey highestSlot (some upper.signature) lowerLimitSignature limit := by
  set l := Blockstore.empty.run writes
  have stored : Stored writes l := stored_run distinct
  have uncleaned : l.lowestCleanupSlot = 0 := Blockstore.lowestCleanupSlot_run _ writes
  -- the upper signature has one status, at its own slot
  have only : ∀ entry ∈ l.transactionStatus, entry.1.1 = upper.signature → entry.1.2 = upper.slot := by
    intro entry member same
    rcases Blockstore.mem_transactionStatus_run member with initial | ⟨w, written, key⟩
    · cases initial
    · rw [key] at same ⊢
      rw [List.inj_on_of_nodup_map signatures written upperWritten same]
  have upperFound : l.upperLimit highestSlot (some upper.signature) =
      some (true, true, min (previousSlot upper.slot) highestSlot, upper.slot) := by
    rw [Blockstore.upperLimit, uncleaned, getTransactionStatus_of_unique stored.transactionStatusKeys
      (stored.transactionStatus upper upperWritten) only afterGenesis (Blockstore.le_u64Max _)]
    simp [confirmed]
  obtain ⟨⟨foundLower, includeLower, oldestSlot, lowerSlot⟩, lowerFound⟩ :=
    Option.isSome_iff_exists.mp (Blockstore.lowerLimit_isSome uncleaned highestSlot lowerLimitSignature)
  have signed : foundLower = true → lowerLimitSignature.isSome := by
    intro found
    subst found
    exact Blockstore.isSome_of_lowerLimit lowerFound
  -- the three scans, each adding to what the one before found
  have upperScan := matchingUpper_of_stored stored distinct signatures limit upperWritten
  set slotBelow := (slotTransactionsDescending writes upper.slot).filter fun w =>
    w.transactionSlotIndex < upper.transactionSlotIndex
  obtain ⟨between, betweenScan⟩ := l.matchingBetween_prefix limit pubkey (min (previousSlot upper.slot) highestSlot)
    oldestSlot ((slotBelow.map fun w => (w.slot, w.signature)).take limit)
  obtain ⟨lower, lowerScan⟩ := matchingLower_of_stored stored limit signed includeLower lowerSlot
    ((slotBelow.map fun w => (w.slot, w.signature)).take limit ++ between)
  set matching := (slotBelow.map fun w => (w.slot, w.signature)).take limit ++ between ++ lower
  obtain ⟨blocktimes, resolved⟩ := l.resolveBlocktimes_of_uncleaned uncleaned [] matching
  obtain ⟨infos, read, reported⟩ :=
    @mapM_eq_some_of_isSome _ _ _ matching fun found _ => Blockstore.statusInfo_isSome uncleaned blocktimes found
  refine ⟨⟨infos, true, foundLower⟩, ?_, ?_,
    not_mem_signaturesForAddressExpected signatures otherWritten elsewhere _ _ _ _ _⟩
  · have cleanupSlot : ensureLowestCleanupSlot 0 = some 1 := rfl
    simp only [Blockstore.getConfirmedSignaturesForAddress, upperFound, lowerFound, uncleaned, cleanupSlot,
      Option.bind_eq_bind, Option.bind_some, upperScan, betweenScan, lowerScan, resolved, read, Option.pure_def]
  · -- the whole slot fits the limit, so the scan of the upper limit's slot reaches `other`
    have fits : (slotBelow.map fun w => (w.slot, w.signature)).length ≤ limit := by
      rw [List.length_map]
      calc slotBelow.length ≤ (slotTransactionsDescending writes upper.slot).length := List.length_filter_le _ _
        _ = ((transactionsWritten writes).filter fun w => w.slot = upper.slot).length := List.length_mergeSort _
        _ ≤ (transactionsWritten writes).length := List.length_filter_le _ _
        _ ≤ limit := enough
    have below : other ∈ slotBelow :=
      List.mem_filter.mpr ⟨mem_slotTransactionsDescending.mpr ⟨otherWritten, sameSlot⟩, by simpa using earlier⟩
    have found : (other.slot, other.signature) ∈ matching := by
      apply List.mem_append_left _ (List.mem_append_left _ _)
      rw [List.take_of_length_le fits]
      exact List.mem_map_of_mem below
    obtain ⟨info, member, readInfo⟩ := reported _ found
    obtain ⟨infoSlot, infoSignature⟩ := Blockstore.slot_of_statusInfo readInfo
    exact List.mem_map.mpr ⟨info, member, by rw [infoSlot, infoSignature]⟩

/-- Two transactions in slot 1, the first touching no address, the second the zero key:
the zero key's signatures older than the second hold the first. -/
theorem get_confirmed_signatures_for_address_reports_other_addresses_of_untouched :
    let other : TransactionWrite := ⟨FixedBytes.zero 64, 1, ⟨[], .default⟩, [], [], ⟨.ok ()⟩, 0⟩
    let upper : TransactionWrite :=
      ⟨FixedBytes.replicate 64 1, 1, ⟨[], .default⟩, [FixedBytes.zero 32], [], ⟨.ok ()⟩, 1⟩
    let writes := [LedgerWrite.transaction other, .transaction upper]
    ∃ result, (Blockstore.empty.run writes).getConfirmedSignaturesForAddress (FixedBytes.zero 32) 1
        (some upper.signature) none 2 = some (.ok result) ∧
      (other.slot, other.signature) ∈ result.infos.map (fun info => (info.slot, info.signature)) ∧
      (other.slot, other.signature) ∉
        signaturesForAddressExpected writes (FixedBytes.zero 32) 1 (some upper.signature) none 2 :=
  get_confirmed_signatures_for_address_reports_other_addresses _ ⟨by decide, by decide⟩ (by decide) _ _ _ _
    (by decide) (mem_transactionsWritten.mpr ⟨by simp, by decide⟩) (mem_transactionsWritten.mpr ⟨by simp, by decide⟩)
    rfl (by decide) (by decide) (by decide) (by simp)

end Ledger

end EphemeralValidator
