import EphemeralValidator.Bytes.Bincode

/-! # The Solana SDK types the validator's programs work on

The SDK itself is not part of the repository; this module fixes the parts of it the
modelled code relies on, with the behaviour the SDK documents:

* `Pubkey`, `Hash` (32 bytes) and `Signature` (64 bytes) are fixed byte arrays;
* `AccountSharedData` is the record an instruction reads and writes, with
  `deserialize_data`, `serialize_data`, `set_state` and `set_data_from_slice`;
* `InstructionError` lists the variants the modelled instructions return.

`serialize_data` is the one with a subtle contract: it refuses a value whose encoding is
longer than the current data, and otherwise overwrites only a prefix of the data, so the
bytes after the encoding survive.
-/

namespace EphemeralValidator.Solana

open EphemeralValidator.Bytes

abbrev Pubkey := FixedBytes 32
abbrev Hash := FixedBytes 32
abbrev Signature := FixedBytes 64
abbrev Slot := UInt64

/-- `==` on keys is equality; deciding `key ∈ keys` goes through this one instance. -/
instance pubkeyLawfulBEq : LawfulBEq Pubkey := inferInstance

/-- `bincode::ErrorKind`, as far as the modelled code distinguishes it. -/
inductive BincodeError where
  | sizeLimit
  | custom
  deriving DecidableEq, Repr

/-- The variants of `solana_sdk::instruction::InstructionError` returned by the
modelled instructions (`Custom` carries a program error code). -/
inductive InstructionError where
  | genericError
  | invalidArgument
  | invalidInstructionData
  | invalidAccountData
  | accountDataTooSmall
  | insufficientFunds
  | missingRequiredSignature
  | missingAccount
  | notEnoughAccountKeys
  | invalidAccountOwner
  | arithmeticOverflow
  | unsupportedProgramId
  | unsupportedSysvar
  | custom (code : UInt32)
  deriving DecidableEq, Repr

/-- `AccountSharedData`. -/
structure AccountSharedData where
  lamports : UInt64
  data : List UInt8
  owner : Pubkey
  executable : Bool
  rentEpoch : UInt64
  deriving DecidableEq

namespace AccountSharedData

/-- `deserialize_data`: `bincode::deserialize` of the data, trailing bytes allowed. -/
def deserializeData {α : Type} (c : Codec α) (account : AccountSharedData) :
    Except BincodeError α :=
  match c.deserialize account.data with
  | some a => .ok a
  | none => .error .custom

/-- `serialize_data`: fail with `SizeLimit` if the encoding is longer than the data,
otherwise write it over the first bytes of the data (`serialize_into` the mutable
slice); the rest of the data is left as it was. -/
def serializeData {α : Type} (c : Codec α) (account : AccountSharedData) (a : α) :
    Except BincodeError AccountSharedData :=
  match c.encode a with
  | none => .error .custom
  | some bs =>
    if bs.length > account.data.length then .error .sizeLimit
    else .ok { account with data := writeSlice account.data 0 bs }

/-- `StateMut::set_state`: `serialize_data`, with `SizeLimit` reported as
`AccountDataTooSmall` and every other failure as `GenericError`. -/
def setState {α : Type} (c : Codec α) (account : AccountSharedData) (a : α) :
    Except InstructionError AccountSharedData :=
  match account.serializeData c a with
  | .ok account => .ok account
  | .error .sizeLimit => .error .accountDataTooSmall
  | .error .custom => .error .genericError

/-- `set_data_from_slice`: the data becomes a copy of the slice (resized to it). -/
def setDataFromSlice (account : AccountSharedData) (bs : List UInt8) : AccountSharedData :=
  { account with data := bs }

theorem serializeData_eq_ok {α : Type} {c : Codec α} {account account' : AccountSharedData}
    {a : α} (h : account.serializeData c a = .ok account') :
    ∃ bs, c.encode a = some bs ∧ bs.length ≤ account.data.length ∧
      account'.data = bs ++ account.data.drop bs.length ∧
      account' = { account with data := account'.data } := by
  unfold serializeData at h
  split at h
  · cases h
  · next bs hbs =>
    split at h
    · cases h
    · next hfits =>
      cases h
      refine ⟨bs, hbs, by omega, ?_, rfl⟩
      simp [writeSlice]

theorem setState_eq_ok {α : Type} {c : Codec α} {account account' : AccountSharedData} {a : α}
    (h : account.setState c a = .ok account') : account.serializeData c a = .ok account' := by
  unfold setState at h
  split at h
  · next heq => cases h; exact heq
  · cases h
  · cases h

end AccountSharedData

end EphemeralValidator.Solana
