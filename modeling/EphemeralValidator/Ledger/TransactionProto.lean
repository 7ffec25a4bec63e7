import EphemeralValidator.Solana.Account

/-! # Transactions in the ledger's protobuf column

`write_transaction` stores a transaction as the `generated::Transaction` that the vendored
`solana-storage-proto` encodes from a `VersionedTransaction`; the message carries a
`versioned` flag that tells a legacy message from a v0 one.  Two decoders read it back: the
vendored `From<generated::Transaction> for VersionedTransaction`, which `get_block` uses,
and the ledger's own `versioned_tx_from_generated`, which `get_complete_transaction` uses.

The vendored decoder inverts the encoder on every transaction
(`VersionedTransaction.ofGenerated_ofVersionedTransaction`).  The ledger's decoder never reads
the flag and always builds a v0 message: it gives a v0 transaction back unchanged, and turns
a legacy one into a v0 message with the same fields and no address table lookups
(`versionedTxFromGenerated_ofVersionedTransaction`), so the two decoders agree on exactly
the v0 transactions.

A byte field without the width of a key, hash or signature makes the vendored decoder
panic (`unwrap`, `Hash::new`), modelled as `none`; the ledger's decoder drops such keys,
lookups and signatures instead, and panics only on the blockhash (`Hash::new`).
-/

namespace EphemeralValidator

open EphemeralValidator.Bytes

namespace Solana

/-! ## The SDK's transaction types -/

structure MessageHeader where
  numRequiredSignatures : UInt8
  numReadonlySignedAccounts : UInt8
  numReadonlyUnsignedAccounts : UInt8
  deriving DecidableEq, Repr

structure CompiledInstruction where
  programIdIndex : UInt8
  accounts : List UInt8
  data : List UInt8
  deriving DecidableEq, Repr

/-- `v0::MessageAddressTableLookup`. -/
structure MessageAddressTableLookup where
  accountKey : Pubkey
  writableIndexes : List UInt8
  readonlyIndexes : List UInt8
  deriving DecidableEq

/-- `solana_sdk::message::Message`, the legacy message. -/
structure LegacyMessage where
  header : MessageHeader
  accountKeys : List Pubkey
  recentBlockhash : Hash
  instructions : List CompiledInstruction
  deriving DecidableEq

/-- `v0::Message`. -/
structure V0Message where
  header : MessageHeader
  accountKeys : List Pubkey
  recentBlockhash : Hash
  instructions : List CompiledInstruction
  addressTableLookups : List MessageAddressTableLookup
  deriving DecidableEq

inductive VersionedMessage where
  | legacy (message : LegacyMessage)
  | v0 (message : V0Message)
  deriving DecidableEq

/-- `VersionedMessage::default()`: an empty legacy message. -/
def VersionedMessage.default : VersionedMessage :=
  .legacy ⟨⟨0, 0, 0⟩, [], FixedBytes.zero 32, []⟩

structure VersionedTransaction where
  signatures : List Signature
  message : VersionedMessage
  deriving DecidableEq

end Solana

open Solana

/-! ## The protobuf types of `solana-storage-proto` -/

namespace Generated

structure MessageHeader where
  numRequiredSignatures : UInt32
  numReadonlySignedAccounts : UInt32
  numReadonlyUnsignedAccounts : UInt32
  deriving DecidableEq

structure CompiledInstruction where
  programIdIndex : UInt32
  accounts : List UInt8
  data : List UInt8
  deriving DecidableEq

structure MessageAddressTableLookup where
  accountKey : List UInt8
  writableIndexes : List UInt8
  readonlyIndexes : List UInt8
  deriving DecidableEq

structure Message where
  header : Option MessageHeader
  accountKeys : List (List UInt8)
  recentBlockhash : List UInt8
  instructions : List CompiledInstruction
  versioned : Bool
  addressTableLookups : List MessageAddressTableLookup
  deriving DecidableEq

structure Transaction where
  signatures : List (List UInt8)
  message : Option Message
  deriving DecidableEq

/-! ### The vendored encoder, `From<…> for generated::…` -/

def MessageHeader.ofMessageHeader (value : Solana.MessageHeader) : MessageHeader :=
  ⟨value.numRequiredSignatures.toUInt32, value.numReadonlySignedAccounts.toUInt32,
    value.numReadonlyUnsignedAccounts.toUInt32⟩

def CompiledInstruction.ofCompiledInstruction (value : Solana.CompiledInstruction) : CompiledInstruction :=
  ⟨value.programIdIndex.toUInt32, value.accounts, value.data⟩

def MessageAddressTableLookup.ofMessageAddressTableLookup (lookup : Solana.MessageAddressTableLookup) :
    MessageAddressTableLookup :=
  ⟨lookup.accountKey.bytes, lookup.writableIndexes, lookup.readonlyIndexes⟩

def Message.ofLegacyMessage (message : LegacyMessage) : Message :=
  { header := some (.ofMessageHeader message.header)
    accountKeys := message.accountKeys.map (·.bytes)
    recentBlockhash := message.recentBlockhash.bytes
    instructions := message.instructions.map .ofCompiledInstruction
    versioned := false
    addressTableLookups := [] }

def Message.ofVersionedMessage : VersionedMessage → Message
  | .legacy message => .ofLegacyMessage message
  | .v0 message =>
    { header := some (.ofMessageHeader message.header)
      accountKeys := message.accountKeys.map (·.bytes)
      recentBlockhash := message.recentBlockhash.bytes
      instructions := message.instructions.map .ofCompiledInstruction
      versioned := true
      addressTableLookups := message.addressTableLookups.map .ofMessageAddressTableLookup }

def Transaction.ofVersionedTransaction (value : VersionedTransaction) : Transaction :=
  ⟨value.signatures.map (·.bytes), some (.ofVersionedMessage value.message)⟩

end Generated

/-! ## The vendored decoder, `From<generated::…> for …`; `none` is a panic -/

def Solana.MessageHeader.ofGenerated (value : Generated.MessageHeader) : Solana.MessageHeader :=
  ⟨value.numRequiredSignatures.toUInt8, value.numReadonlySignedAccounts.toUInt8,
    value.numReadonlyUnsignedAccounts.toUInt8⟩

def Solana.CompiledInstruction.ofGenerated (value : Generated.CompiledInstruction) :
    Solana.CompiledInstruction :=
  ⟨value.programIdIndex.toUInt8, value.accounts, value.data⟩

/-- `Pubkey::try_from(value.account_key).unwrap()`. -/
def Solana.MessageAddressTableLookup.ofGenerated (value : Generated.MessageAddressTableLookup) :
    Option Solana.MessageAddressTableLookup := do
  let accountKey ← FixedBytes.tryFrom 32 value.accountKey
  pure ⟨accountKey, value.writableIndexes, value.readonlyIndexes⟩

def Solana.VersionedMessage.ofGenerated (value : Generated.Message) : Option VersionedMessage := do
  let header ← value.header.map Solana.MessageHeader.ofGenerated
  let accountKeys ← value.accountKeys.mapM (FixedBytes.tryFrom 32)
  let recentBlockhash ← FixedBytes.tryFrom 32 value.recentBlockhash
  let instructions := value.instructions.map Solana.CompiledInstruction.ofGenerated
  let addressTableLookups ← value.addressTableLookups.mapM Solana.MessageAddressTableLookup.ofGenerated
  if !value.versioned then
    pure (.legacy ⟨header, accountKeys, recentBlockhash, instructions⟩)
  else
    pure (.v0 ⟨header, accountKeys, recentBlockhash, instructions, addressTableLookups⟩)

def Solana.VersionedTransaction.ofGenerated (value : Generated.Transaction) : Option VersionedTransaction := do
  let signatures ← value.signatures.mapM (FixedBytes.tryFrom 64)
  let message ← Solana.VersionedMessage.ofGenerated (← value.message)
  pure ⟨signatures, message⟩

/-! ## The ledger's decoder, `conversions/transaction.rs` -/

namespace Ledger

def headerFromGenerated (header : Generated.MessageHeader) : Solana.MessageHeader :=
  ⟨header.numRequiredSignatures.toUInt8, header.numReadonlySignedAccounts.toUInt8,
    header.numReadonlyUnsignedAccounts.toUInt8⟩

def compiledInstructionFromGenerated (instruction : Generated.CompiledInstruction) :
    Solana.CompiledInstruction :=
  ⟨instruction.programIdIndex.toUInt8, instruction.accounts, instruction.data⟩

/-- A lookup with an invalid key is dropped (with a warning). -/
def tryAddressTableLookupFromGenerated (lookup : Generated.MessageAddressTableLookup) :
    Option Solana.MessageAddressTableLookup := do
  let accountKey ← FixedBytes.tryFrom 32 lookup.accountKey
  pure ⟨accountKey, lookup.writableIndexes, lookup.readonlyIndexes⟩

def signaturesFromSlices (signatures : List (List UInt8)) : List Signature :=
  signatures.filterMap (FixedBytes.tryFrom 64)

def pubkeysFromSlices (pubkeys : List (List UInt8)) : List Pubkey :=
  pubkeys.filterMap (FixedBytes.tryFrom 32)

/-- `versioned_message_from_generated`: a v0 message whatever the `versioned` flag says;
`none` is the panic of `Hash::new` on a blockhash that is not 32 bytes. -/
def versionedMessageFromGenerated (msg : Generated.Message) : Option VersionedMessage := do
  let accountKeys := pubkeysFromSlices msg.accountKeys
  let recentBlockhash ← FixedBytes.tryFrom 32 msg.recentBlockhash
  pure (.v0
    { header := (msg.header.map headerFromGenerated).getD ⟨0, 0, 0⟩
      recentBlockhash
      accountKeys
      instructions := msg.instructions.map compiledInstructionFromGenerated
      addressTableLookups := msg.addressTableLookups.filterMap tryAddressTableLookupFromGenerated })

def versionedTxFromGenerated (tx : Generated.Transaction) : Option VersionedTransaction := do
  let message ← match tx.message with
    | some msg => versionedMessageFromGenerated msg
    | none => pure VersionedMessage.default
  let signatures := signaturesFromSlices tx.signatures
  pure ⟨signatures, message⟩

end Ledger

/-! ## Reading an encoded transaction back -/

namespace Solana

/-- The v0 message with the fields of a message, and no lookups if it is a legacy one. -/
def VersionedMessage.toV0 : VersionedMessage → V0Message
  | .legacy message => ⟨message.header, message.accountKeys, message.recentBlockhash, message.instructions, []⟩
  | .v0 message => message

@[simp] theorem MessageHeader.ofGenerated_ofMessageHeader (header : MessageHeader) :
    MessageHeader.ofGenerated (.ofMessageHeader header) = header := by
  simp [ofGenerated, Generated.MessageHeader.ofMessageHeader]

@[simp] theorem CompiledInstruction.ofGenerated_ofCompiledInstruction (instruction : CompiledInstruction) :
    CompiledInstruction.ofGenerated (.ofCompiledInstruction instruction) = instruction := by
  simp [ofGenerated, Generated.CompiledInstruction.ofCompiledInstruction]

@[simp] theorem MessageAddressTableLookup.ofGenerated_ofMessageAddressTableLookup
    (lookup : MessageAddressTableLookup) :
    MessageAddressTableLookup.ofGenerated (.ofMessageAddressTableLookup lookup) = some lookup := by
  simp [ofGenerated, Generated.MessageAddressTableLookup.ofMessageAddressTableLookup]

/-- A list encoded element by element is read back by a decoder that inverts the encoding. -/
theorem mapM_map_eq_some {α β : Type} {encode : α → β} {decode : β → Option α}
    (inverse : ∀ value, decode (encode value) = some value) (values : List α) :
    (values.map encode).mapM decode = some values := by
  induction values with
  | nil => rfl
  | cons value values ih => simp [inverse, ih]

/-- The vendored decoder inverts the encoder, for legacy and v0 messages alike. -/
theorem VersionedMessage.ofGenerated_ofVersionedMessage (message : VersionedMessage) :
    VersionedMessage.ofGenerated (.ofVersionedMessage message) = some message := by
  have keys : ∀ keys : List Pubkey, (keys.map (·.bytes)).mapM (FixedBytes.tryFrom 32) = some keys :=
    mapM_map_eq_some FixedBytes.tryFrom_bytes
  cases message with
  | legacy message =>
    simp only [ofGenerated, Generated.Message.ofVersionedMessage, Generated.Message.ofLegacyMessage, keys]
    simp [Function.comp_def]
  | v0 message =>
    have lookups := mapM_map_eq_some MessageAddressTableLookup.ofGenerated_ofMessageAddressTableLookup
      message.addressTableLookups
    simp only [ofGenerated, Generated.Message.ofVersionedMessage, keys, lookups]
    simp [Function.comp_def]

theorem VersionedTransaction.ofGenerated_ofVersionedTransaction (value : VersionedTransaction) :
    VersionedTransaction.ofGenerated (.ofVersionedTransaction value) = some value := by
  simp only [ofGenerated, Generated.Transaction.ofVersionedTransaction, mapM_map_eq_some FixedBytes.tryFrom_bytes]
  simp [VersionedMessage.ofGenerated_ofVersionedMessage]

end Solana

namespace Ledger

@[simp] theorem signaturesFromSlices_bytes (signatures : List Signature) :
    signaturesFromSlices (signatures.map (·.bytes)) = signatures := by
  simp [signaturesFromSlices, List.filterMap_map]

@[simp] theorem pubkeysFromSlices_bytes (pubkeys : List Pubkey) :
    pubkeysFromSlices (pubkeys.map (·.bytes)) = pubkeys := by
  simp [pubkeysFromSlices, List.filterMap_map]

/-- The ledger's decoder reads every encoded transaction back as the v0 form of its message. -/
theorem versionedTxFromGenerated_ofVersionedTransaction (value : VersionedTransaction) :
    versionedTxFromGenerated (.ofVersionedTransaction value) =
      some ⟨value.signatures, .v0 value.message.toV0⟩ := by
  obtain ⟨signatures, message⟩ := value
  -- both message versions land in the same `v0::Message`; they differ in the lookups only
  cases message with
  | legacy message =>
    simp [versionedTxFromGenerated, versionedMessageFromGenerated, Generated.Transaction.ofVersionedTransaction,
      Generated.Message.ofVersionedMessage, Generated.Message.ofLegacyMessage, VersionedMessage.toV0,
      headerFromGenerated, compiledInstructionFromGenerated, List.map_map, Function.comp_def,
      Generated.MessageHeader.ofMessageHeader, Generated.CompiledInstruction.ofCompiledInstruction]
  | v0 message =>
    simp [versionedTxFromGenerated, versionedMessageFromGenerated, Generated.Transaction.ofVersionedTransaction,
      Generated.Message.ofVersionedMessage, VersionedMessage.toV0, headerFromGenerated,
      compiledInstructionFromGenerated, tryAddressTableLookupFromGenerated, List.map_map, List.filterMap_map,
      Function.comp_def, Generated.MessageHeader.ofMessageHeader, Generated.CompiledInstruction.ofCompiledInstruction,
      Generated.MessageAddressTableLookup.ofMessageAddressTableLookup]

/-- The two decoders on an encoded transaction: the vendored one gives every transaction back,
the ledger's one only those with a v0 message. -/
theorem versioned_tx_from_generated_reads_legacy_as_v0 (value : VersionedTransaction) :
    VersionedTransaction.ofGenerated (.ofVersionedTransaction value) = some value ∧
      (versionedTxFromGenerated (.ofVersionedTransaction value) = some value ↔
        ∃ message, value.message = .v0 message) := by
  refine ⟨VersionedTransaction.ofGenerated_ofVersionedTransaction value, ?_⟩
  rw [versionedTxFromGenerated_ofVersionedTransaction]
  obtain ⟨signatures, message⟩ := value
  cases message with
  | legacy message => simp
  | v0 message => simp [VersionedMessage.toV0]

/-- An unsigned transaction with the default, legacy, message comes back from the ledger's
decoder as another transaction. -/
theorem versioned_tx_from_generated_reads_legacy_as_v0_of_default :
    VersionedTransaction.ofGenerated (.ofVersionedTransaction ⟨[], .default⟩) = some ⟨[], .default⟩ ∧
      versionedTxFromGenerated (.ofVersionedTransaction ⟨[], .default⟩) ≠ some ⟨[], .default⟩ := by
  obtain ⟨vendored, ledger⟩ := versioned_tx_from_generated_reads_legacy_as_v0 ⟨[], .default⟩
  refine ⟨vendored, fun same => ?_⟩
  obtain ⟨message, isV0⟩ := ledger.mp same
  cases isV0

end Ledger

end EphemeralValidator
