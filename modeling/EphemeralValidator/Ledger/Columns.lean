import EphemeralValidator.Bytes.ByteOrder
import EphemeralValidator.Solana.Account

/-! # The ledger's column keys

Every column of the ledger's RocksDB store turns its index into a byte key
(`Column::key`) and back (`Column::index`).  The columns that changed layout over time
implement `ColumnIndexDeprecation`: `try_current_index` decodes the current layout,
`try_deprecated_index` the old one, and `index` tries them in turn.  Scans read keys
back with `iter_current_index_filtered`, which keeps exactly the keys
`try_current_index` accepts.

The results are that every column's key decodes to its index (`columns_keys_round_trip`),
so keys are injective and the filtered scans lose nothing, and that the big-endian
layouts order keys as their index tuples (`column_keys_order_as_indexes`), which the
range scans of the store rely on.  `AccountModDatas` writes its id little-endian: it
round-trips, and the store only reads it by id, never by range.

The decoders return `none` where the Rust code panics (`unwrap`, out-of-range slices).
-/

namespace EphemeralValidator.Ledger

open EphemeralValidator.Bytes EphemeralValidator.Solana

/-- `IndexError`. -/
inductive IndexError where
  | unpackError
  deriving DecidableEq, Repr

/-- A column under `ColumnIndexDeprecation`, with the `Column` methods its `index` uses. -/
structure ColumnIndexDeprecation (Index DeprecatedIndex : Type) where
  key : Index → List UInt8
  asIndex : Slot → Index
  tryDeprecatedIndex : List UInt8 → Option (Except IndexError DeprecatedIndex)
  tryCurrentIndex : List UInt8 → Option (Except IndexError Index)
  convertIndex : DeprecatedIndex → Index

namespace ColumnIndexDeprecation

variable {Index DeprecatedIndex : Type}

/-- The trait's `index`: the current layout, else the deprecated one, else `as_index(0)`. -/
def index (c : ColumnIndexDeprecation Index DeprecatedIndex) (key : List UInt8) : Option Index := do
  match ← c.tryCurrentIndex key with
  | .ok index => pure index
  | .error _ =>
    match ← c.tryDeprecatedIndex key with
    | .ok index => pure (c.convertIndex index)
    | .error _ => pure (c.asIndex 0)

/-- `LedgerColumn::iter_current_index_filtered` over the column's `(key, value)` pairs in
iterator order: keys in the current layout are decoded, all others skipped. -/
def iterCurrentIndexFiltered {V : Type} (c : ColumnIndexDeprecation Index DeprecatedIndex) :
    List (List UInt8 × V) → Option (List (Index × V))
  | [] => some []
  | (key, value) :: rest => do
    let decoded ← c.tryCurrentIndex key
    let rest ← iterCurrentIndexFiltered c rest
    pure (match decoded with
      | .ok index => (index, value) :: rest
      | .error _ => rest)

end ColumnIndexDeprecation

/-! ## The columns -/

namespace AddressSignatures

def currentIndexLen : Nat := 108

def deprecatedIndexLen : Nat := 112

/-- `AddressSignatures::key`: account address, slot, transaction index, signature. -/
def key : Pubkey × Slot × UInt32 × Signature → List UInt8
  | (pubkey, slot, transactionIndex, signature) =>
    let key := List.replicate currentIndexLen 0
    let key := writeSlice key 0 pubkey.bytes
    let key := BigEndian.writeU64 key 32 slot
    let key := BigEndian.writeU32 key 40 transactionIndex
    writeSlice key 44 signature.bytes

def tryDeprecatedIndex (key : List UInt8) :
    Option (Except IndexError (UInt64 × Pubkey × Slot × Signature)) :=
  if key.length ≠ deprecatedIndexLen then some (.error .unpackError) else do
    let primaryIndex ← BigEndian.readU64 (← rangeSlice key 0 8)
    let pubkey ← FixedBytes.tryFrom 32 (← rangeSlice key 8 40)
    let slot ← BigEndian.readU64 (← rangeSlice key 40 48)
    let signature ← FixedBytes.tryFrom 64 (← rangeSlice key 48 112)
    pure (.ok (primaryIndex, pubkey, slot, signature))

def tryCurrentIndex (key : List UInt8) :
    Option (Except IndexError (Pubkey × Slot × UInt32 × Signature)) :=
  if key.length ≠ currentIndexLen then some (.error .unpackError) else do
    let pubkey ← FixedBytes.tryFrom 32 (← rangeSlice key 0 32)
    let slot ← BigEndian.readU64 (← rangeSlice key 32 40)
    let transactionIndex ← BigEndian.readU32 (← rangeSlice key 40 44)
    let signature ← FixedBytes.tryFrom 64 (← rangeSlice key 44 108)
    pure (.ok (pubkey, slot, transactionIndex, signature))

def convertIndex : UInt64 × Pubkey × Slot × Signature → Pubkey × Slot × UInt32 × Signature
  | (_, pubkey, slot, signature) => (pubkey, slot, 0, signature)

/-- Meaningless for a column not keyed by slot. -/
def asIndex (_ : Slot) : Pubkey × Slot × UInt32 × Signature :=
  (FixedBytes.zero 32, 0, 0, FixedBytes.zero 64)

end AddressSignatures

def addressSignatures :
    ColumnIndexDeprecation (Pubkey × Slot × UInt32 × Signature) (UInt64 × Pubkey × Slot × Signature) :=
  ⟨AddressSignatures.key, AddressSignatures.asIndex, AddressSignatures.tryDeprecatedIndex,
    AddressSignatures.tryCurrentIndex, AddressSignatures.convertIndex⟩

namespace SlotSignatures

/-- `SLOT_SIGNATURES_INDEX_LEN`. -/
def currentIndexLen : Nat := 8 + 4

def deprecatedIndexLen : Nat := currentIndexLen + 8

/-- `SlotSignatures::key`: slot, transaction index. -/
def key : Slot × UInt32 → List UInt8
  | (slot, txIdx) =>
    let key := List.replicate currentIndexLen 0
    let key := BigEndian.writeU64 key 0 slot
    BigEndian.writeU32 key 8 txIdx

def tryDeprecatedIndex (key : List UInt8) : Option (Except IndexError (UInt64 × Slot × UInt32)) :=
  if key.length ≠ deprecatedIndexLen then some (.error .unpackError) else do
    let primaryIndex ← BigEndian.readU64 (← rangeSlice key 0 8)
    let slot ← BigEndian.readU64 (← rangeSlice key 8 16)
    let txIdx ← BigEndian.readU32 (← rangeSlice key 16 20)
    pure (.ok (primaryIndex, slot, txIdx))

def tryCurrentIndex (key : List UInt8) : Option (Except IndexError (Slot × UInt32)) :=
  if key.length ≠ currentIndexLen then some (.error .unpackError) else do
    let slot ← BigEndian.readU64 (← rangeSlice key 0 8)
    let txIdx ← BigEndian.readU32 (← rangeSlice key 8 12)
    pure (.ok (slot, txIdx))

def convertIndex : UInt64 × Slot × UInt32 → Slot × UInt32
  | (_, slot, txIdx) => (slot, txIdx)

def asIndex (slot : Slot) : Slot × UInt32 := (slot, 0)

end SlotSignatures

def slotSignatures : ColumnIndexDeprecation (Slot × UInt32) (UInt64 × Slot × UInt32) :=
  ⟨SlotSignatures.key, SlotSignatures.asIndex, SlotSignatures.tryDeprecatedIndex,
    SlotSignatures.tryCurrentIndex, SlotSignatures.convertIndex⟩

/-- The layout `TransactionStatus` and `TransactionMemos` share: signature, then slot. -/
def signatureSlotKey (currentIndexLen : Nat) : Signature × Slot → List UInt8
  | (signature, slot) =>
    let key := List.replicate currentIndexLen 0
    let key := writeSlice key 0 signature.bytes
    BigEndian.writeU64 key 64 slot

/-- Their common `try_current_index`. -/
def tryCurrentSignatureSlot (currentIndexLen : Nat) (key : List UInt8) :
    Option (Except IndexError (Signature × Slot)) :=
  if key.length ≠ currentIndexLen then some (.error .unpackError) else do
    let signature ← FixedBytes.tryFrom 64 (← rangeSlice key 0 64)
    let slot ← BigEndian.readU64 (← rangeSlice key 64 72)
    pure (.ok (signature, slot))

namespace TransactionStatus

def currentIndexLen : Nat := 72

def deprecatedIndexLen : Nat := 80

/-- `TransactionStatus::key`. -/
def key : Signature × Slot → List UInt8 := signatureSlotKey currentIndexLen

def tryDeprecatedIndex (key : List UInt8) : Option (Except IndexError (UInt64 × Signature × Slot)) :=
  if key.length ≠ deprecatedIndexLen then some (.error .unpackError) else do
    let primaryIndex ← BigEndian.readU64 (← rangeSlice key 0 8)
    let signature ← FixedBytes.tryFrom 64 (← rangeSlice key 8 72)
    let slot ← BigEndian.readU64 (← rangeSlice key 72 80)
    pure (.ok (primaryIndex, signature, slot))

def tryCurrentIndex : List UInt8 → Option (Except IndexError (Signature × Slot)) :=
  tryCurrentSignatureSlot currentIndexLen

def convertIndex : UInt64 × Signature × Slot → Signature × Slot
  | (_, signature, slot) => (signature, slot)

/-- Meaningless for a column not keyed by slot. -/
def asIndex (_ : Slot) : Signature × Slot := (FixedBytes.zero 64, 0)

end TransactionStatus

def transactionStatus : ColumnIndexDeprecation (Signature × Slot) (UInt64 × Signature × Slot) :=
  ⟨TransactionStatus.key, TransactionStatus.asIndex, TransactionStatus.tryDeprecatedIndex,
    TransactionStatus.tryCurrentIndex, TransactionStatus.convertIndex⟩

/-- `Transaction` delegates every method to `TransactionStatus`. -/
def transaction : ColumnIndexDeprecation (Signature × Slot) (UInt64 × Signature × Slot) :=
  transactionStatus

namespace TransactionMemos

def currentIndexLen : Nat := 72

/-- `TransactionMemos::key`. -/
def key : Signature × Slot → List UInt8 := signatureSlotKey currentIndexLen

/-- `Signature::try_from(&key[..64])`: a key shorter than 64 bytes panics here, as this
one has no length check. -/
def tryDeprecatedIndex (key : List UInt8) : Option (Except IndexError Signature) := do
  let bytes ← rangeSlice key 0 64
  pure (match FixedBytes.tryFrom 64 bytes with
    | some signature => .ok signature
    | none => .error .unpackError)

def tryCurrentIndex : List UInt8 → Option (Except IndexError (Signature × Slot)) :=
  tryCurrentSignatureSlot currentIndexLen

def convertIndex (signature : Signature) : Signature × Slot := (signature, 0)

def asIndex (index : Slot) : Signature × Slot := (FixedBytes.zero 64, index)

end TransactionMemos

def transactionMemos : ColumnIndexDeprecation (Signature × Slot) Signature :=
  ⟨TransactionMemos.key, TransactionMemos.asIndex, TransactionMemos.tryDeprecatedIndex,
    TransactionMemos.tryCurrentIndex, TransactionMemos.convertIndex⟩

/-! The blanket `Column` impl of the slot columns (`Blocktime`, `Blockhash`, `PerfSamples`). -/

namespace SlotColumn

def key (slot : Slot) : List UInt8 := BigEndian.writeU64 (List.replicate 8 0) 0 slot

def index (key : List UInt8) : Option Slot := do
  BigEndian.readU64 (← rangeSlice key 0 8)

end SlotColumn

namespace AccountModDatas

/-- `id.to_le_bytes().to_vec()`. -/
def key (id : UInt64) : List UInt8 := leBytes 8 id.toNat

/-- `u64::from_le_bytes(key.try_into().unwrap())`. -/
def index (key : List UInt8) : Option UInt64 :=
  if key.length = 8 then some (UInt64.ofNat (ofLeBytes key)) else none

end AccountModDatas

/-! ## What a key round trip gives -/

namespace ColumnIndexDeprecation

variable {Index DeprecatedIndex : Type} {c : ColumnIndexDeprecation Index DeprecatedIndex}

/-- What it takes of a column that it can read back what it writes: the current decoder
inverts the key, hence so does `index`, keys are injective, and a filtered scan of
written keys returns every entry, decoded, in iterator order. -/
structure KeysRoundTrip (c : ColumnIndexDeprecation Index DeprecatedIndex) : Prop where
  tryCurrentIndex_key : ∀ i, c.tryCurrentIndex (c.key i) = some (.ok i)
  index_key : ∀ i, c.index (c.key i) = some i
  key_injective : Function.Injective c.key
  iterCurrentIndexFiltered_keys : ∀ {V : Type} (entries : List (Index × V)),
    c.iterCurrentIndexFiltered (entries.map fun entry => (c.key entry.1, entry.2)) = some entries

theorem index_of_tryCurrentIndex {key : List UInt8} {i : Index}
    (current : c.tryCurrentIndex key = some (.ok i)) : c.index key = some i := by
  simp [index, current]

/-- The current decoder inverting the key is all a column needs. -/
theorem KeysRoundTrip.of_tryCurrentIndex (roundTrip : ∀ i, c.tryCurrentIndex (c.key i) = some (.ok i)) :
    KeysRoundTrip c := by
  have indexKey : ∀ i, c.index (c.key i) = some i := fun i => index_of_tryCurrentIndex (roundTrip i)
  refine ⟨roundTrip, indexKey, injective_of_decode_eq_some indexKey, ?_⟩
  · intro V entries
    -- one written entry at a time: its key decodes, so it is kept as it was
    induction entries with
    | nil => rfl
    | cons entry entries ih =>
      simp [iterCurrentIndexFiltered, roundTrip, ih]

end ColumnIndexDeprecation

/-! ## Keys as their fields laid end to end -/

theorem AddressSignatures.key_eq (pubkey : Pubkey) (slot : Slot) (transactionIndex : UInt32)
    (signature : Signature) :
    AddressSignatures.key (pubkey, slot, transactionIndex, signature) =
      pubkey.bytes ++ beBytes 8 slot.toNat ++ beBytes 4 transactionIndex.toNat ++ signature.bytes := by
  have zeros : List.replicate AddressSignatures.currentIndexLen (0 : UInt8) =
      [] ++ List.replicate 108 0 := rfl
  simp only [AddressSignatures.key, BigEndian.writeU64, BigEndian.writeU32]
  -- each field goes into the zeroed tail left by the one before
  rw [zeros, writeSlice_zeros [] List.length_nil, writeSlice_zeros ([] ++ pubkey.bytes) (by simp [pubkey.length_eq]),
    writeSlice_zeros ([] ++ pubkey.bytes ++ beBytes 8 slot.toNat) (by simp [pubkey.length_eq]),
    writeSlice_zeros ([] ++ pubkey.bytes ++ beBytes 8 slot.toNat ++ beBytes 4 transactionIndex.toNat)
      (by simp [pubkey.length_eq])]
  simp [pubkey.length_eq, signature.length_eq]

theorem SlotSignatures.key_eq (slot : Slot) (txIdx : UInt32) :
    SlotSignatures.key (slot, txIdx) = beBytes 8 slot.toNat ++ beBytes 4 txIdx.toNat := by
  have zeros : List.replicate SlotSignatures.currentIndexLen (0 : UInt8) =
      [] ++ List.replicate 12 0 := rfl
  simp only [SlotSignatures.key, BigEndian.writeU64, BigEndian.writeU32]
  rw [zeros, writeSlice_zeros [] List.length_nil, writeSlice_zeros ([] ++ beBytes 8 slot.toNat) (by simp)]
  simp

theorem signatureSlotKey_eq (signature : Signature) (slot : Slot) :
    signatureSlotKey 72 (signature, slot) = signature.bytes ++ beBytes 8 slot.toNat := by
  have zeros : List.replicate 72 (0 : UInt8) = [] ++ List.replicate 72 0 := rfl
  simp only [signatureSlotKey, BigEndian.writeU64]
  rw [zeros, writeSlice_zeros [] List.length_nil, writeSlice_zeros ([] ++ signature.bytes) (by simp [signature.length_eq])]
  simp [signature.length_eq]

theorem SlotColumn.key_eq (slot : Slot) : SlotColumn.key slot = beBytes 8 slot.toNat := by
  have zeros : List.replicate 8 (0 : UInt8) = [] ++ List.replicate 8 0 := rfl
  rw [SlotColumn.key, zeros, BigEndian.writeU64, writeSlice_zeros [] List.length_nil]
  simp

/-! ## Reading keys back -/

theorem AddressSignatures.tryCurrentIndex_key (i : Pubkey × Slot × UInt32 × Signature) :
    AddressSignatures.tryCurrentIndex (AddressSignatures.key i) = some (.ok i) := by
  obtain ⟨pubkey, slot, transactionIndex, signature⟩ := i
  rw [AddressSignatures.key_eq]
  set key := pubkey.bytes ++ beBytes 8 slot.toNat ++ beBytes 4 transactionIndex.toNat ++
    signature.bytes with hkey
  have length : key.length = AddressSignatures.currentIndexLen := by
    simp [key, pubkey.length_eq, signature.length_eq, AddressSignatures.currentIndexLen]
  -- each range the decoder reads is one field of the key
  have pubkeyField : rangeSlice key 0 32 = some pubkey.bytes :=
    rangeSlice_field [] _ (beBytes 8 slot.toNat ++ beBytes 4 transactionIndex.toNat ++ signature.bytes)
      (by simp [key]) rfl (by simp [pubkey.length_eq])
  have slotField : rangeSlice key 32 40 = some (beBytes 8 slot.toNat) :=
    rangeSlice_field pubkey.bytes _ (beBytes 4 transactionIndex.toNat ++ signature.bytes)
      (by simp [key]) pubkey.length_eq (by simp)
  have transactionIndexField : rangeSlice key 40 44 = some (beBytes 4 transactionIndex.toNat) :=
    rangeSlice_field (pubkey.bytes ++ beBytes 8 slot.toNat) _ signature.bytes
      (by simp [key]) (by simp [pubkey.length_eq]) (by simp)
  have signatureField : rangeSlice key 44 108 = some signature.bytes :=
    rangeSlice_field (pubkey.bytes ++ beBytes 8 slot.toNat ++ beBytes 4 transactionIndex.toNat) _ []
      (by simp [key]) (by simp [pubkey.length_eq]) (by simp [signature.length_eq])
  rw [AddressSignatures.tryCurrentIndex, if_neg (not_not.mpr length)]
  simp [pubkeyField, slotField, transactionIndexField, signatureField, BigEndian.readU64_beBytes,
    BigEndian.readU32_beBytes]

theorem SlotSignatures.tryCurrentIndex_key (i : Slot × UInt32) :
    SlotSignatures.tryCurrentIndex (SlotSignatures.key i) = some (.ok i) := by
  obtain ⟨slot, txIdx⟩ := i
  rw [SlotSignatures.key_eq]
  set key := beBytes 8 slot.toNat ++ beBytes 4 txIdx.toNat with hkey
  have length : key.length = SlotSignatures.currentIndexLen := by
    simp [key, SlotSignatures.currentIndexLen]
  have slotField : rangeSlice key 0 8 = some (beBytes 8 slot.toNat) :=
    rangeSlice_field [] _ (beBytes 4 txIdx.toNat) (by simp [key]) rfl (by simp)
  have txIdxField : rangeSlice key 8 12 = some (beBytes 4 txIdx.toNat) :=
    rangeSlice_field (beBytes 8 slot.toNat) _ [] (by simp [key]) (by simp) (by simp)
  rw [SlotSignatures.tryCurrentIndex, if_neg (not_not.mpr length)]
  simp [slotField, txIdxField, BigEndian.readU64_beBytes, BigEndian.readU32_beBytes]

theorem tryCurrentSignatureSlot_key (i : Signature × Slot) :
    tryCurrentSignatureSlot 72 (signatureSlotKey 72 i) = some (.ok i) := by
  obtain ⟨signature, slot⟩ := i
  rw [signatureSlotKey_eq]
  set key := signature.bytes ++ beBytes 8 slot.toNat with hkey
  have length : key.length = 72 := by simp [key, signature.length_eq]
  have signatureField : rangeSlice key 0 64 = some signature.bytes :=
    rangeSlice_field [] _ (beBytes 8 slot.toNat) (by simp [key]) rfl (by simp [signature.length_eq])
  have slotField : rangeSlice key 64 72 = some (beBytes 8 slot.toNat) :=
    rangeSlice_field signature.bytes _ [] (by simp [key]) signature.length_eq (by simp)
  rw [tryCurrentSignatureSlot, if_neg (not_not.mpr length)]
  simp [signatureField, slotField, BigEndian.readU64_beBytes]

theorem SlotColumn.index_key (slot : Slot) : SlotColumn.index (SlotColumn.key slot) = some slot := by
  have field : rangeSlice (SlotColumn.key slot) 0 8 = some (beBytes 8 slot.toNat) :=
    rangeSlice_field [] _ [] (by simp [SlotColumn.key_eq]) rfl (by simp)
  simp [SlotColumn.index, field, BigEndian.readU64_beBytes]

theorem AccountModDatas.index_key (id : UInt64) :
    AccountModDatas.index (AccountModDatas.key id) = some id := by
  have fits : id.toNat < 256 ^ 8 := id.toNat_lt
  rw [AccountModDatas.index, AccountModDatas.key, if_pos (length_leBytes 8 _), ofLeBytes_leBytes,
    Nat.mod_eq_of_lt fits, UInt64.ofNat_toNat]

/-! ## Keys order as their indexes -/

theorem AddressSignatures.compare_key (i j : Pubkey × Slot × UInt32 × Signature) :
    compare (AddressSignatures.key i) (AddressSignatures.key j) =
      (compare i.1.bytes j.1.bytes).then ((compare i.2.1 j.2.1).then
        ((compare i.2.2.1 j.2.2.1).then (compare i.2.2.2.bytes j.2.2.2.bytes))) := by
  obtain ⟨pubkey, slot, transactionIndex, signature⟩ := i
  obtain ⟨pubkey', slot', transactionIndex', signature'⟩ := j
  simp only [AddressSignatures.key_eq, List.append_assoc]
  -- the fields have fixed widths, so the keys compare field by field
  rw [compare_append_of_length_eq _ _ (by rw [pubkey.length_eq, pubkey'.length_eq]),
    compare_append_of_length_eq _ _ (by simp), compare_append_of_length_eq _ _ (by simp),
    compare_beBytes_uInt64, compare_beBytes_uInt32]

theorem SlotSignatures.compare_key (i j : Slot × UInt32) :
    compare (SlotSignatures.key i) (SlotSignatures.key j) =
      (compare i.1 j.1).then (compare i.2 j.2) := by
  obtain ⟨slot, txIdx⟩ := i
  obtain ⟨slot', txIdx'⟩ := j
  rw [SlotSignatures.key_eq, SlotSignatures.key_eq, compare_append_of_length_eq _ _ (by simp),
    compare_beBytes_uInt64, compare_beBytes_uInt32]

theorem compare_signatureSlotKey (i j : Signature × Slot) :
    compare (signatureSlotKey 72 i) (signatureSlotKey 72 j) =
      (compare i.1.bytes j.1.bytes).then (compare i.2 j.2) := by
  obtain ⟨signature, slot⟩ := i
  obtain ⟨signature', slot'⟩ := j
  rw [signatureSlotKey_eq, signatureSlotKey_eq,
    compare_append_of_length_eq _ _ (by rw [signature.length_eq, signature'.length_eq]),
    compare_beBytes_uInt64]

theorem SlotColumn.compare_key (a b : Slot) :
    compare (SlotColumn.key a) (SlotColumn.key b) = compare a b := by
  rw [SlotColumn.key_eq, SlotColumn.key_eq, compare_beBytes_uInt64]

/-! ## The columns of the ledger -/

/-- The big-endian address-signature keys round-trip.  The record is unfolded before the
decoder's lemma is applied: unifying its field with the decoder directly unfolds the decoder. -/
theorem addressSignatures_keysRoundTrip : ColumnIndexDeprecation.KeysRoundTrip addressSignatures :=
  .of_tryCurrentIndex fun i => by simpa only [addressSignatures] using AddressSignatures.tryCurrentIndex_key i

theorem slotSignatures_keysRoundTrip : ColumnIndexDeprecation.KeysRoundTrip slotSignatures :=
  .of_tryCurrentIndex fun i => by simpa only [slotSignatures] using SlotSignatures.tryCurrentIndex_key i

open ColumnIndexDeprecation in
theorem columns_keys_round_trip :
    KeysRoundTrip addressSignatures ∧ KeysRoundTrip slotSignatures ∧
      KeysRoundTrip transactionStatus ∧ KeysRoundTrip transaction ∧ KeysRoundTrip transactionMemos ∧
      (∀ slot, SlotColumn.index (SlotColumn.key slot) = some slot) ∧
      Function.Injective SlotColumn.key ∧
      (∀ id, AccountModDatas.index (AccountModDatas.key id) = some id) ∧
      Function.Injective AccountModDatas.key :=
  -- `TransactionStatus`, `Transaction` and `TransactionMemos` share the signature-slot layout
  ⟨addressSignatures_keysRoundTrip, slotSignatures_keysRoundTrip,
    .of_tryCurrentIndex tryCurrentSignatureSlot_key,
    .of_tryCurrentIndex tryCurrentSignatureSlot_key,
    .of_tryCurrentIndex tryCurrentSignatureSlot_key,
    SlotColumn.index_key, injective_of_decode_eq_some SlotColumn.index_key,
    AccountModDatas.index_key, injective_of_decode_eq_some AccountModDatas.index_key⟩

theorem column_keys_order_as_indexes :
    (∀ i j : Pubkey × Slot × UInt32 × Signature,
      compare (addressSignatures.key i) (addressSignatures.key j) =
        (compare i.1.bytes j.1.bytes).then ((compare i.2.1 j.2.1).then
          ((compare i.2.2.1 j.2.2.1).then (compare i.2.2.2.bytes j.2.2.2.bytes)))) ∧
      (∀ i j : Slot × UInt32,
        compare (slotSignatures.key i) (slotSignatures.key j) = (compare i.1 j.1).then (compare i.2 j.2)) ∧
      (∀ i j : Signature × Slot,
        compare (transactionStatus.key i) (transactionStatus.key j) =
          (compare i.1.bytes j.1.bytes).then (compare i.2 j.2)) ∧
      (∀ a b : Slot, compare (SlotColumn.key a) (SlotColumn.key b) = compare a b) :=
  ⟨AddressSignatures.compare_key, SlotSignatures.compare_key, compare_signatureSlotKey,
    SlotColumn.compare_key⟩

end EphemeralValidator.Ledger
