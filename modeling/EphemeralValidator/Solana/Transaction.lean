import EphemeralValidator.Solana.Account

/-! # The SDK's transaction types

`TransactionError` lists the variants the modelled code returns.  `get_account_locks`
hands the account locker the keys a message marks writable and those it marks
read-only; it first runs `validate_account_locks`, which rejects a message that loads
an account twice, so each key is in one list, once.  `TransactionAccountLocks` carries
that as a field.
-/

namespace EphemeralValidator.Solana

/-- The variants of `solana_sdk::transaction::TransactionError` the modelled code returns. -/
inductive TransactionError where
  | accountInUse
  | accountLoadedTwice
  | tooManyAccountLocks
  | alreadyProcessed
  | blockhashNotFound
  deriving DecidableEq, Repr

/-- `TransactionAccountLocks`, as `get_account_locks` returns them. -/
structure TransactionAccountLocks where
  writable : List Pubkey
  readonly : List Pubkey
  distinct : (writable ++ readonly).Nodup
  deriving DecidableEq

end EphemeralValidator.Solana
