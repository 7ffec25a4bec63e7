import EphemeralValidator.Magicblock.MutateAccounts

/-! # The modifications that clone a program

`create_program_modifications` turns a program account and its program-data account, read
from the chain, into three `AccountModification`s: the program account as it is, a new
program-data account, and an upgrade buffer.  The program-data account of the upgradeable
BPF loader holds the bincode of `UpgradeableLoaderState::ProgramData { slot,
upgrade_authority_address }` in its first `size_of_programdata_metadata()` bytes, then the
bytecode; the mutator cuts the bytecode off there and writes it behind a new `ProgramData`
header (at the slot before `slot`, with the validator authority) and behind a `Buffer`
header (with the same authority).  Each account is funded with the rent-exempt minimum of
its length, and at least one lamport.

The loader's state, its bincode and its metadata sizes come from solana-sdk and are taken as
given (`LoaderStateLayout`): what the mutator relies on is that the codec decodes what it
encodes and that the metadata sizes are the lengths of the two headers it writes.  From that
alone, the header of each account decodes from exactly its first metadata bytes and the
bytecode follows unchanged (`create_program_modifications_splices_bytecode`).  A
program-data account without lamports or shorter than its metadata is rejected.  The example
at the end runs the mutator with the SDK's bincode, whose headers are 45 and 37 bytes.
-/

namespace EphemeralValidator.Mutator

open EphemeralValidator.Bytes EphemeralValidator.Solana EphemeralValidator.Magicblock

/-- `UpgradeableLoaderState`: the state the upgradeable BPF loader keeps at the head of the
data of its accounts. -/
inductive UpgradeableLoaderState where
  | uninitialized
  | buffer (authorityAddress : Option Pubkey)
  | program (programdataAddress : Pubkey)
  | programData (slot : Slot) (upgradeAuthorityAddress : Option Pubkey)
  deriving DecidableEq

/-- What the mutator takes from solana-sdk's `UpgradeableLoaderState`, as given: its bincode,
and the metadata sizes of a program-data account and of a buffer, which are the lengths of the
headers with an authority. -/
structure LoaderStateLayout where
  codec : Codec UpgradeableLoaderState
  /-- `UpgradeableLoaderState::size_of_programdata_metadata()` -/
  sizeOfProgramdataMetadata : Nat
  /-- `UpgradeableLoaderState::size_of_buffer_metadata()` -/
  sizeOfBufferMetadata : Nat
  length_encode_programData : ∀ slot authority,
    (codec.encode (.programData slot (some authority))).map List.length = some sizeOfProgramdataMetadata
  length_encode_buffer : ∀ authority,
    (codec.encode (.buffer (some authority))).map List.length = some sizeOfBufferMetadata

/-- `bpf_loader_upgradeable::id()`, `BPFLoaderUpgradeab1e11111111111111111111111`. -/
def bpfLoaderUpgradeableId : Pubkey :=
  ⟨[2, 168, 246, 145, 78, 136, 161, 176, 226, 16, 21, 62, 247, 99, 174, 43, 0, 194, 185, 61, 22, 193, 36, 210,
    192, 83, 122, 16, 4, 128, 0, 0], rfl⟩

inductive MutatorModificationError where
  | couldNotFindExecutableDataAccount (programDataPubkey programIdPubkey : Pubkey)
  | invalidProgramDataContent (programDataPubkey programIdPubkey : Pubkey)
  deriving DecidableEq

structure ProgramModifications where
  programIdModification : AccountModification
  programDataModification : AccountModification
  programBufferModification : AccountModification

/-- `AccountModification::from((pubkey, account))`: every field set from the account.  An
`Account` has the fields of an `AccountSharedData`. -/
def AccountModification.ofAccount (pubkey : Pubkey) (account : AccountSharedData) : AccountModification :=
  ⟨pubkey, some account.lamports, some account.owner, some account.executable, some account.data,
    some account.rentEpoch⟩

section Modifications

-- `validatorAuthority` is `validator::validator_authority_id()`, and `minimumBalance` is
-- `Rent::default().minimum_balance`, taken from solana-sdk as it is
variable (layout : LoaderStateLayout) (validatorAuthority : Pubkey) (minimumBalance : Nat → UInt64)

/-- An account of the upgradeable loader holding `data`, funded for its length. -/
def loaderAccount (data : List UInt8) : AccountSharedData :=
  { lamports := max (minimumBalance data.length) 1
    data
    owner := bpfLoaderUpgradeableId
    executable := false
    rentEpoch := UInt64.ofNat (2 ^ 64 - 1) }

/-- `create_program_data_modification`; `none` is the panic of the `unwrap` of
`bincode::serialize`. -/
def createProgramDataModification (programDataPubkey : Pubkey) (programDataBytecode : List UInt8) (slot : Slot) :
    Option AccountModification :=
  -- `slot.saturating_sub(1)`
  let deploySlot := if slot = 0 then 0 else slot - 1
  (layout.codec.encode (.programData deploySlot (some validatorAuthority))).map fun metadata =>
    AccountModification.ofAccount programDataPubkey (loaderAccount minimumBalance (metadata ++ programDataBytecode))

/-- `create_program_buffer_modification`; the buffer's pubkey is that of `Keypair::new()`. -/
def createProgramBufferModification (bufferPubkey : Pubkey) (programDataBytecode : List UInt8) :
    Option AccountModification :=
  (layout.codec.encode (.buffer (some validatorAuthority))).map fun metadata =>
    AccountModification.ofAccount bufferPubkey (loaderAccount minimumBalance (metadata ++ programDataBytecode))

/-- `create_program_modifications`; the outer `none` is a panic. -/
def createProgramModifications (bufferPubkey programIdPubkey : Pubkey) (programIdAccount : AccountSharedData)
    (programDataPubkey : Pubkey) (programDataAccount : AccountSharedData) (slot : Slot) :
    Option (Except MutatorModificationError ProgramModifications) :=
  if programDataAccount.lamports = 0 then
    some (.error (.couldNotFindExecutableDataAccount programDataPubkey programIdPubkey))
  else if programDataAccount.data.length < layout.sizeOfProgramdataMetadata then
    some (.error (.invalidProgramDataContent programDataPubkey programIdPubkey))
  else
    let programDataBytecode := programDataAccount.data.drop layout.sizeOfProgramdataMetadata
    let programIdModification := AccountModification.ofAccount programIdPubkey programIdAccount
    do
      let programDataModification ←
        createProgramDataModification layout validatorAuthority minimumBalance programDataPubkey programDataBytecode slot
      let programBufferModification ←
        createProgramBufferModification layout validatorAuthority minimumBalance bufferPubkey programDataBytecode
      pure (.ok ⟨programIdModification, programDataModification, programBufferModification⟩)

/-- A modification whose data is the loader header `state` in its first `size` bytes,
followed by `bytecode`, with at least the rent-exempt minimum of that length. -/
def HoldsLoaderState (modification : AccountModification) (size : Nat) (state : UpgradeableLoaderState)
    (bytecode : List UInt8) : Prop :=
  ∃ data lamports, modification.data = some data ∧ modification.lamports = some lamports ∧
    layout.codec.decode (data.take size) = some (state, []) ∧ data.drop size = bytecode ∧
    minimumBalance data.length ≤ lamports

variable {layout} {minimumBalance}

/-- A loader account holds at least the rent-exempt minimum of its data's length. -/
theorem minimumBalance_le_lamports (data : List UInt8) :
    minimumBalance data.length ≤ (loaderAccount minimumBalance data).lamports := by
  rw [UInt64.le_iff_toNat_le]
  simp [loaderAccount, UInt64.toNat_max]

/-- A loader account made of a header of the metadata size and the bytecode holds both. -/
theorem holdsLoaderState_loaderAccount {state : UpgradeableLoaderState} {metadata : List UInt8} {size : Nat}
    (encoded : layout.codec.encode state = some metadata) (length : metadata.length = size)
    (pubkey : Pubkey) (bytecode : List UInt8) :
    HoldsLoaderState layout minimumBalance
      (AccountModification.ofAccount pubkey (loaderAccount minimumBalance (metadata ++ bytecode))) size state bytecode := by
  refine ⟨metadata ++ bytecode, _, rfl, rfl, ?_, List.drop_left' length, minimumBalance_le_lamports _⟩
  rw [List.take_left' length]
  simpa using layout.codec.decode_encode [] encoded

end Modifications

/-- For a program-data account with lamports and at least its metadata, the program-data
modification holds a `ProgramData` header at the slot before `slot` with the validator
authority, and the buffer modification a `Buffer` header with the same authority, each
followed by the bytecode of the account and funded for its length; any other program-data
account is rejected. -/
theorem create_program_modifications_splices_bytecode (layout : LoaderStateLayout) (validatorAuthority : Pubkey)
    (minimumBalance : Nat → UInt64) (bufferPubkey programIdPubkey : Pubkey) (programIdAccount : AccountSharedData)
    (programDataPubkey : Pubkey) (programDataAccount : AccountSharedData) (slot : Slot) :
    (programDataAccount.lamports ≠ 0 → layout.sizeOfProgramdataMetadata ≤ programDataAccount.data.length →
      ∃ modifications, createProgramModifications layout validatorAuthority minimumBalance bufferPubkey
          programIdPubkey programIdAccount programDataPubkey programDataAccount slot = some (.ok modifications) ∧
        HoldsLoaderState layout minimumBalance modifications.programDataModification layout.sizeOfProgramdataMetadata
          (.programData (if slot = 0 then 0 else slot - 1) (some validatorAuthority))
          (programDataAccount.data.drop layout.sizeOfProgramdataMetadata) ∧
        HoldsLoaderState layout minimumBalance modifications.programBufferModification layout.sizeOfBufferMetadata
          (.buffer (some validatorAuthority)) (programDataAccount.data.drop layout.sizeOfProgramdataMetadata)) ∧
    (programDataAccount.lamports = 0 ∨ programDataAccount.data.length < layout.sizeOfProgramdataMetadata →
      ∃ error, createProgramModifications layout validatorAuthority minimumBalance bufferPubkey programIdPubkey
        programIdAccount programDataPubkey programDataAccount slot = some (.error error)) := by
  constructor
  · intro funded long
    set bytecode := programDataAccount.data.drop layout.sizeOfProgramdataMetadata
    -- the layout's sizes are those of the headers the mutator writes
    obtain ⟨dataMetadata, dataEncoded, dataLength⟩ :=
      Option.map_eq_some_iff.mp (layout.length_encode_programData (if slot = 0 then 0 else slot - 1) validatorAuthority)
    obtain ⟨bufferMetadata, bufferEncoded, bufferLength⟩ :=
      Option.map_eq_some_iff.mp (layout.length_encode_buffer validatorAuthority)
    refine ⟨⟨AccountModification.ofAccount programIdPubkey programIdAccount,
      AccountModification.ofAccount programDataPubkey (loaderAccount minimumBalance (dataMetadata ++ bytecode)),
      AccountModification.ofAccount bufferPubkey (loaderAccount minimumBalance (bufferMetadata ++ bytecode))⟩,
      ?_, holdsLoaderState_loaderAccount dataEncoded dataLength programDataPubkey bytecode,
      holdsLoaderState_loaderAccount bufferEncoded bufferLength bufferPubkey bytecode⟩
    simp [createProgramModifications, funded, Nat.not_lt.mpr long, createProgramDataModification,
      createProgramBufferModification, dataEncoded, bufferEncoded, bytecode]
  · intro rejected
    by_cases empty : programDataAccount.lamports = 0
    · exact ⟨.couldNotFindExecutableDataAccount programDataPubkey programIdPubkey,
        by simp [createProgramModifications, empty]⟩
    · have short := rejected.resolve_left empty
      exact ⟨.invalidProgramDataContent programDataPubkey programIdPubkey,
        by simp [createProgramModifications, empty, short]⟩

namespace UpgradeableLoaderState

/-- The bincode solana-sdk gives the states, the variant index as a `u32` and then the fields:
the layout of the example below. -/
def bincode : Codec UpgradeableLoaderState where
  encode
    | .uninitialized => Codec.u32.encode 0
    | .buffer authorityAddress => (Codec.prod Codec.u32 (Codec.option (Codec.fixed 32))).encode (1, authorityAddress)
    | .program programdataAddress => (Codec.prod Codec.u32 (Codec.fixed 32)).encode (2, programdataAddress)
    | .programData slot upgradeAuthorityAddress =>
      (Codec.prod Codec.u32 (Codec.prod Codec.u64 (Codec.option (Codec.fixed 32)))).encode
        (3, (slot, upgradeAuthorityAddress))
  decode bs := do
    let (index, rest) ← Codec.u32.decode bs
    match index.toNat with
    | 0 => pure (UpgradeableLoaderState.uninitialized, rest)
    | 1 => do
      let (authorityAddress, rest) ← (Codec.option (Codec.fixed 32)).decode rest
      pure (UpgradeableLoaderState.buffer authorityAddress, rest)
    | 2 => do
      let (programdataAddress, rest) ← (Codec.fixed 32).decode rest
      pure (UpgradeableLoaderState.program programdataAddress, rest)
    | 3 => do
      let ((slot, upgradeAuthorityAddress), rest) ←
        (Codec.prod Codec.u64 (Codec.option (Codec.fixed 32))).decode rest
      pure (UpgradeableLoaderState.programData slot upgradeAuthorityAddress, rest)
    | _ => none
  decode_encode := by
    intro state bs rest encoded
    -- the index decodes first, then the fields of its variant
    have index : ∀ (n : UInt32) (x rest : List UInt8), Codec.u32.encode n = some x →
        Codec.u32.decode (x ++ rest) = some (n, rest) := fun n x rest encodedIndex =>
      Codec.u32.decode_encode rest encodedIndex
    cases state with
    | uninitialized =>
      simp [index 0 bs rest encoded]
    | buffer authorityAddress =>
      obtain ⟨x, y, hx, hy, rfl⟩ := (Codec.prod_encode_eq_some _ _).mp encoded
      simp [List.append_assoc, index 1 x _ hx, Codec.decode_encode _ rest hy]
    | program programdataAddress =>
      obtain ⟨x, y, hx, hy, rfl⟩ := (Codec.prod_encode_eq_some _ _).mp encoded
      simp [List.append_assoc, index 2 x _ hx, Codec.decode_encode _ rest hy]
    | programData slot upgradeAuthorityAddress =>
      obtain ⟨x, y, hx, hy, rfl⟩ := (Codec.prod_encode_eq_some _ _).mp encoded
      simp [List.append_assoc, index 3 x _ hx, Codec.decode_encode _ rest hy]

/-- A `ProgramData` header with an authority is 45 bytes, the SDK's
`size_of_programdata_metadata()`. -/
theorem length_bincode_programData (slot : Slot) (authority : Pubkey) :
    (bincode.encode (.programData slot (some authority))).map List.length = some 45 := by
  simp only [bincode, Codec.prod, Codec.u32, Codec.u64, Codec.option, Codec.fixed, Option.pure_def, Option.bind_eq_bind,
    Option.bind_some, Option.map_some, List.length_append, length_leBytes, List.length_cons,
    authority.length_eq]

/-- A `Buffer` header with an authority is 37 bytes, the SDK's `size_of_buffer_metadata()`. -/
theorem length_bincode_buffer (authority : Pubkey) :
    (bincode.encode (.buffer (some authority))).map List.length = some 37 := by
  simp only [bincode, Codec.prod, Codec.u32, Codec.option, Codec.fixed, Option.pure_def, Option.bind_eq_bind,
    Option.bind_some, Option.map_some, List.length_append, length_leBytes, List.length_cons,
    authority.length_eq]

end UpgradeableLoaderState

/-- The SDK's layout: its bincode, with the metadata sizes 45 and 37. -/
def bincodeLayout : LoaderStateLayout :=
  ⟨UpgradeableLoaderState.bincode, 45, 37, UpgradeableLoaderState.length_bincode_programData,
    UpgradeableLoaderState.length_bincode_buffer⟩

/-- A program-data account of one bytecode byte, cloned at slot 5 with the SDK's layout: both
new accounts hold the byte behind their headers, the program data at slot 4. -/
theorem create_program_modifications_splices_bytecode_of_one_byte :
    let programData : AccountSharedData := ⟨1, List.replicate 45 0 ++ [7], FixedBytes.zero 32, false, 0⟩
    ∃ modifications, createProgramModifications bincodeLayout (FixedBytes.zero 32) (fun _ => 0)
        (FixedBytes.zero 32) (FixedBytes.zero 32) programData (FixedBytes.zero 32) programData 5 =
        some (.ok modifications) ∧
      HoldsLoaderState bincodeLayout (fun _ => 0) modifications.programDataModification
        bincodeLayout.sizeOfProgramdataMetadata (.programData 4 (some (FixedBytes.zero 32))) [7] ∧
      HoldsLoaderState bincodeLayout (fun _ => 0) modifications.programBufferModification
        bincodeLayout.sizeOfBufferMetadata (.buffer (some (FixedBytes.zero 32))) [7] :=
  (create_program_modifications_splices_bytecode _ _ _ _ _ _ _ _ _).1 (by decide) (by decide)

end EphemeralValidator.Mutator
