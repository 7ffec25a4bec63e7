import EphemeralValidator.AccountCloner.Freshness

/-! # Hydrating the clone cache after a restart

After the ledger is replayed, `RemoteAccountClonerWorker::hydrate` runs `do_clone` in the
`Hydrating` stage on every account of the bank that passes its filters.  The clone cache
is empty then, so for an account delegated on chain the only thing that decides whether
the bank's copy is kept is `ValidatorStage::should_clone_delegated_account`: the record's
authority against the validator identity when it is set, and otherwise the bank copy's
owner against the record's owner.  Neither looks at the delegation slot.

The fetch of the snapshot, and the dumps themselves, are taken to succeed: their errors
only make `hydrate` log and go on.  For a program, `do_clone_program_accounts` also fetches
its program data and IDL accounts, and fails, before any dump, for a program of the
deprecated loader or one whose program data has no account.  `do_clone` is modelled by what
it does to the bank's copy of the account.

An account undelegated on chain, or delegated to another validator, gets the chain's copy
(`hydrate_dumps_undelegated`, `hydrate_dumps_delegated_elsewhere`); but the copy is kept for
a delegation to this validator whatever its slot, so an account undelegated and delegated
again to this validator keeps the copy of the earlier delegation
(`hydrate_keeps_copy_of_earlier_delegation`).
-/

namespace EphemeralValidator.AccountCloner

open EphemeralValidator.Bytes EphemeralValidator.Solana

/-- The fields of the delegation program's `DelegationRecord` the cloner reads. -/
structure DelegationRecord where
  authority : Pubkey
  owner : Pubkey
  delegationSlot : Nat
  deriving DecidableEq

/-- `AccountChainState`, with what `do_clone` reads of each case: whether an undelegated
account is executable, and its owner, which picks the loader of a program. -/
inductive AccountChainState where
  | feePayer
  | undelegated (executable : Bool) (owner : Pubkey)
  | delegated (delegationRecord : DelegationRecord)
  deriving DecidableEq

/-- `AccountChainState::account().is_some()`: a fee payer carries no account. -/
def AccountChainState.hasAccount : AccountChainState → Bool
  | .feePayer => false
  | .undelegated .. | .delegated _ => true

inductive ValidatorStage where
  | hydrating (validatorIdentity accountOwner : Pubkey)
  | running

def ValidatorStage.shouldCloneDelegatedAccount : ValidatorStage → DelegationRecord → Bool
  | .hydrating validatorIdentity accountOwner, record =>
    -- `Pubkey::default()` marks a record whose authority is not set
    if record.authority ≠ FixedBytes.zero 32 then record.authority ≠ validatorIdentity
    else accountOwner ≠ record.owner
  | .running, _ => true

structure AccountClonerPermissions where
  allowCloningRefresh : Bool
  allowCloningFeepayerAccounts : Bool
  allowCloningUndelegatedAccounts : Bool
  allowCloningDelegatedAccounts : Bool
  allowCloningProgramAccounts : Bool

def AccountClonerPermissions.canClone (permissions : AccountClonerPermissions) : Bool :=
  permissions.allowCloningFeepayerAccounts || permissions.allowCloningUndelegatedAccounts ||
    permissions.allowCloningDelegatedAccounts || permissions.allowCloningProgramAccounts

inductive AccountClonerUnclonableReason where
  | alreadyLocallyOverriden
  | noCloningAllowed
  | isBlacklisted
  | isNotAnAllowedProgram
  | doesNotAllowFeePayerAccount
  | doesNotAllowUndelegatedAccount
  | doesNotAllowDelegatedAccount
  | doesNotAllowProgramAccount
  deriving DecidableEq

/-- The dumps of `AccountDumper`, each of which overwrites the bank's copy. -/
inductive AccountDump where
  | feePayer
  | undelegated
  /-- `dump_program_accounts`: the program, its program data and its IDL -/
  | program
  /-- `dump_program_account_with_old_bpf`: a program of the first `bpf_loader` -/
  | programWithOldBpf
  | delegated
  deriving DecidableEq

/-- What `do_clone` returns and does: `unclonable`, `cloned` with the dump it made, if any
(`none` keeps the bank's copy), or `failed`, the error of `do_clone_program_accounts`, which
returns before any dump. -/
inductive CloneOutcome where
  | unclonable (reason : AccountClonerUnclonableReason)
  | cloned (dump : Option AccountDump)
  | failed
  deriving DecidableEq

/-- The worker's configuration that `do_clone` and `hydrate` read. -/
structure ClonerConfig where
  permissions : AccountClonerPermissions
  blacklistedAccounts : List Pubkey
  allowedProgramIds : Option (List Pubkey)
  validatorIdentity : Pubkey
  /-- the SDK's `bpf_loader_deprecated::ID` and `bpf_loader::ID`, which the program branch
  compares the program's owner with -/
  bpfLoaderDeprecated : Pubkey
  bpfLoader : Pubkey

/-- `do_clone_delegated_account`: a clone from the same delegation slot as the recorded one
keeps the bank's copy. -/
def doCloneDelegatedAccount (lastDelegationSlot : Option Nat) (delegationSlot : Nat) : Option AccountDump :=
  if lastDelegationSlot = some delegationSlot then none else some .delegated

/-- `do_clone_program_accounts`, given the owner of the program account and what the fetches of
its program-data account and of its IDL accounts return (`none` when one of them fails).  A
program of the deprecated loader, and one whose program data has no account, are errors. -/
def doCloneProgramAccounts (config : ClonerConfig) (owner : Pubkey) (programData : Option AccountChainState) :
    CloneOutcome :=
  if owner = config.bpfLoaderDeprecated then .failed
  else if owner = config.bpfLoader then .cloned (some .programWithOldBpf)
  else
    match programData with
    -- `.account().ok_or(ProgramDataDoesNotExist)`
    | some programData => if programData.hasAccount then .cloned (some .program) else .failed
    | none => .failed

/-- `do_clone` on the fetched chain state; `lastDelegationSlot` is the delegation slot of the
recorded `Cloned` output, if it was of a delegated account, and `programData` what the fetches
of a program's other accounts return. -/
def doClone (config : ClonerConfig) (stage : ValidatorStage) (lastDelegationSlot : Option Nat)
    (pubkey : Pubkey) (chainState : AccountChainState) (programData : Option AccountChainState) :
    CloneOutcome :=
  if pubkey ∈ config.blacklistedAccounts then .unclonable .isBlacklisted
  else
    match chainState with
    | .feePayer =>
      if !config.permissions.allowCloningFeepayerAccounts then .unclonable .doesNotAllowFeePayerAccount
      else .cloned (some .feePayer)
    | .undelegated executable owner =>
      if executable then
        match config.allowedProgramIds with
        | some allowedProgramIds =>
          if pubkey ∉ allowedProgramIds then .unclonable .isNotAnAllowedProgram
          else if !config.permissions.allowCloningProgramAccounts then .unclonable .doesNotAllowProgramAccount
          else doCloneProgramAccounts config owner programData
        | none =>
          if !config.permissions.allowCloningProgramAccounts then .unclonable .doesNotAllowProgramAccount
          else doCloneProgramAccounts config owner programData
      else if !config.permissions.allowCloningUndelegatedAccounts then
        .unclonable .doesNotAllowUndelegatedAccount
      else .cloned (some .undelegated)
    | .delegated delegationRecord =>
      if !config.permissions.allowCloningDelegatedAccounts then .unclonable .doesNotAllowDelegatedAccount
      -- the account was cloned when this validator ran before: answer as if just cloned
      else if !stage.shouldCloneDelegatedAccount delegationRecord then .cloned none
      else .cloned (doCloneDelegatedAccount lastDelegationSlot delegationRecord.delegationSlot)

/-- The bank's copy of an account, as `hydrate` reads it. -/
structure LocalAccount where
  lamports : Nat
  executable : Bool
  owner : Pubkey

/-- The filters of `hydrate`: not blacklisted, at most `u64::MAX / 2` lamports, and not the
executable data of an upgradeable program (`bpfLoaderUpgradeable` is its loader's id). -/
def hydrateCandidate (config : ClonerConfig) (bpfLoaderUpgradeable : Pubkey) (pubkey : Pubkey)
    (account : LocalAccount) : Bool :=
  pubkey ∉ config.blacklistedAccounts && account.lamports ≤ u64Max / 2 &&
    !(!account.executable && account.owner = bpfLoaderUpgradeable)

/-- `hydrate`: `do_clone` in the `Hydrating` stage, with an empty clone cache, on every
account of the bank that passes the filters, given the chain state of each and, for a program,
what the fetches of its other accounts return. -/
def hydrate (config : ClonerConfig) (bpfLoaderUpgradeable : Pubkey)
    (accounts : List (Pubkey × LocalAccount)) (chain : Pubkey → AccountChainState)
    (programData : Pubkey → Option AccountChainState) : List (Pubkey × CloneOutcome) :=
  if !config.permissions.canClone then []
  else
    (accounts.filter fun entry => hydrateCandidate config bpfLoaderUpgradeable entry.1 entry.2).map
      fun entry =>
        (entry.1, doClone config (.hydrating config.validatorIdentity entry.2.owner) none entry.1 (chain entry.1)
          (programData entry.1))

/-! ## The decision on a delegated account -/

/-- No stage reads the delegation slot of the record. -/
@[simp] theorem shouldCloneDelegatedAccount_delegationSlot (stage : ValidatorStage)
    (record : DelegationRecord) (slot : Nat) :
    stage.shouldCloneDelegatedAccount { record with delegationSlot := slot } =
      stage.shouldCloneDelegatedAccount record := by
  cases stage <;> rfl

theorem shouldCloneDelegatedAccount_hydrating_of_authority (validatorIdentity accountOwner : Pubkey)
    (record : DelegationRecord) (authoritySet : record.authority ≠ FixedBytes.zero 32) :
    (ValidatorStage.hydrating validatorIdentity accountOwner).shouldCloneDelegatedAccount record =
      decide (record.authority ≠ validatorIdentity) := by
  simp [ValidatorStage.shouldCloneDelegatedAccount, authoritySet]

/-- On a delegated account that is not blacklisted, with delegated clones allowed, `do_clone`
keeps the bank's copy unless the stage asks for a clone, and then leaves the choice to
`do_clone_delegated_account`. -/
theorem doClone_delegated (config : ClonerConfig) (stage : ValidatorStage)
    (lastDelegationSlot : Option Nat) (pubkey : Pubkey) (record : DelegationRecord)
    (programData : Option AccountChainState) (allowed : pubkey ∉ config.blacklistedAccounts)
    (enabled : config.permissions.allowCloningDelegatedAccounts = true) :
    doClone config stage lastDelegationSlot pubkey (.delegated record) programData =
      if stage.shouldCloneDelegatedAccount record then
        .cloned (doCloneDelegatedAccount lastDelegationSlot record.delegationSlot)
      else .cloned none := by
  cases h : stage.shouldCloneDelegatedAccount record <;> simp [doClone, allowed, enabled, h]

theorem canClone_of_allowCloningDelegatedAccounts {permissions : AccountClonerPermissions}
    (enabled : permissions.allowCloningDelegatedAccounts = true) : permissions.canClone = true := by
  simp [AccountClonerPermissions.canClone, enabled]

/-- `hydrate` answers for an account exactly when it is in the bank and passes the filters,
and then with what `do_clone` answers for it in the `Hydrating` stage. -/
theorem mem_hydrate (config : ClonerConfig) (bpfLoaderUpgradeable pubkey : Pubkey)
    (accounts : List (Pubkey × LocalAccount)) (chain : Pubkey → AccountChainState)
    (programData : Pubkey → Option AccountChainState) (outcome : CloneOutcome) :
    (pubkey, outcome) ∈ hydrate config bpfLoaderUpgradeable accounts chain programData ↔
      config.permissions.canClone = true ∧ ∃ account, (pubkey, account) ∈ accounts ∧
        hydrateCandidate config bpfLoaderUpgradeable pubkey account = true ∧
        outcome = doClone config (.hydrating config.validatorIdentity account.owner) none pubkey
          (chain pubkey) (programData pubkey) := by
  unfold hydrate
  cases config.permissions.canClone
  · simp
  · simp only [Bool.not_true, Bool.false_eq_true, ↓reduceIte, List.mem_map, List.mem_filter,
      Prod.mk.injEq, true_and]
    constructor
    · rintro ⟨⟨key, account⟩, ⟨stored, candidate⟩, rfl, rfl⟩
      exact ⟨account, stored, candidate, rfl⟩
    · rintro ⟨account, stored, candidate, rfl⟩
      exact ⟨(pubkey, account), ⟨stored, candidate⟩, rfl, rfl⟩

theorem not_mem_blacklistedAccounts_of_hydrateCandidate {config : ClonerConfig}
    {bpfLoaderUpgradeable pubkey : Pubkey} {account : LocalAccount}
    (candidate : hydrateCandidate config bpfLoaderUpgradeable pubkey account = true) :
    pubkey ∉ config.blacklistedAccounts := by
  simp only [hydrateCandidate, Bool.and_eq_true, decide_eq_true_eq] at candidate
  exact candidate.1.1

section Hydrated

variable {config : ClonerConfig} {bpfLoaderUpgradeable pubkey : Pubkey} {account : LocalAccount}
  {accounts : List (Pubkey × LocalAccount)} {chain : Pubkey → AccountChainState}
  {programData : Pubkey → Option AccountChainState}

/-- A previous run dumped the account from a delegation to this validator; after the restart,
whatever the delegation slot of the account's delegation on chain now, `hydrate` keeps the
bank's copy: a delegation to this validator at another slot than the one the copy was made
from is served from the earlier copy. -/
theorem hydrate_keeps_copy_of_earlier_delegation (earlier : DelegationRecord) (slot : Nat)
    (enabled : config.permissions.allowCloningDelegatedAccounts = true)
    (ours : earlier.authority = config.validatorIdentity)
    (authoritySet : config.validatorIdentity ≠ FixedBytes.zero 32)
    (stored : (pubkey, account) ∈ accounts)
    (candidate : hydrateCandidate config bpfLoaderUpgradeable pubkey account = true)
    (redelegated : chain pubkey = .delegated { earlier with delegationSlot := slot }) :
    doClone config .running none pubkey (.delegated earlier) (programData pubkey) = .cloned (some .delegated) ∧
      (pubkey, .cloned none) ∈ hydrate config bpfLoaderUpgradeable accounts chain programData := by
  have allowed := not_mem_blacklistedAccounts_of_hydrateCandidate candidate
  constructor
  · rw [doClone_delegated _ _ _ _ _ _ allowed enabled]
    simp [ValidatorStage.shouldCloneDelegatedAccount, doCloneDelegatedAccount]
  · rw [mem_hydrate]
    refine ⟨canClone_of_allowCloningDelegatedAccounts enabled, account, stored, candidate, ?_⟩
    rw [redelegated, doClone_delegated _ _ _ _ _ _ allowed enabled, shouldCloneDelegatedAccount_delegationSlot,
      shouldCloneDelegatedAccount_hydrating_of_authority _ _ _ (ours ▸ authoritySet)]
    simp [ours]

end Hydrated

/-- The account was dumped at delegation slot 5; on chain it is now delegated to this validator
again at slot 6, and `hydrate` keeps the copy of slot 5. -/
theorem hydrate_keeps_copy_of_earlier_delegation_at_six :
    doClone ⟨⟨true, true, true, true, true⟩, [], none, FixedBytes.replicate 32 1, FixedBytes.replicate 32 7,
          FixedBytes.replicate 32 8⟩ .running none (FixedBytes.replicate 32 3)
        (.delegated ⟨FixedBytes.replicate 32 1, FixedBytes.replicate 32 4, 5⟩) none =
      .cloned (some .delegated) ∧
    (FixedBytes.replicate 32 3, .cloned none) ∈
      hydrate ⟨⟨true, true, true, true, true⟩, [], none, FixedBytes.replicate 32 1, FixedBytes.replicate 32 7,
          FixedBytes.replicate 32 8⟩
        (FixedBytes.replicate 32 2)
        [(FixedBytes.replicate 32 3, ⟨1, false, FixedBytes.replicate 32 4⟩)]
        (fun _ => .delegated ⟨FixedBytes.replicate 32 1, FixedBytes.replicate 32 4, 6⟩) (fun _ => none) :=
  hydrate_keeps_copy_of_earlier_delegation ⟨FixedBytes.replicate 32 1, FixedBytes.replicate 32 4, 5⟩ 6
    rfl rfl (by decide) (List.mem_singleton_self _) (by decide) rfl

end EphemeralValidator.AccountCloner
