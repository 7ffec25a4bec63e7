import EphemeralValidator.AccountCloner.Hydrate

/-! # The clone cache of the running validator

`RemoteAccountClonerWorker::do_clone_or_use_cache` answers a clone request for a pubkey with
the output it last recorded for it, when that output is at least as recent as the last update
the account subscriptions reported, and otherwise clones the account again with `do_clone`
and records the new output.  `do_clone` fetches the account's chain snapshot and dumps it
into the bank, except for an account delegated at the delegation slot of the recorded
`Cloned` output: `do_clone_delegated_account` then keeps the bank's copy, which the
validator's own transactions may have written since.

The requests below are for one pubkey in the `Running` stage.  Each request carries what the
world answers if asked: whether the bank has the account, the update monitor's last known
update slot, the snapshot the fetch loop of `do_clone` ends with (`none` when it gives
up, and the request fails with the cache unchanged), and for a program what the fetches of
its program data and IDL accounts end with.  `do_clone_program_accounts` fails, again with
the cache unchanged and before any dump, for a program of the deprecated loader and for one
whose program data has no account.  The dumps are taken to succeed.

The invariant `Recorded` says what a recorded output can be.  Over it:

* the recorded output is served, with no fetch and no dump, exactly when its slot is at
  least the last known update slot, and otherwise the account is fetched again
  (`Recorded.request_uses_cache`);
* while every fetched snapshot stays delegated at the recorded delegation slot, no request
  dumps anything (`History.run_keeps_dumps`);
* a fetched snapshot that is not a delegation at the recorded delegation slot, so of another
  kind or of another delegation slot, is dumped exactly once by the request that fetches it,
  unless the permissions refuse it or it is a program `do_clone_program_accounts` cannot
  clone (`History.request_dumps_change`).
-/

namespace EphemeralValidator.AccountCloner

open EphemeralValidator.Bytes EphemeralValidator.Solana

/-! ## The dump of each chain state -/

/-- The dump `do_clone` makes of a chain state it clones: a program's depends on its loader. -/
def AccountChainState.dump (config : ClonerConfig) : AccountChainState → AccountDump
  | .feePayer => .feePayer
  | .undelegated executable owner =>
    if executable then (if owner = config.bpfLoader then .programWithOldBpf else .program) else .undelegated
  | .delegated _ => .delegated

/-- A delegated account is cloned only with delegated clones allowed. -/
theorem allowCloningDelegatedAccounts_of_doClone {config : ClonerConfig} {stage : ValidatorStage}
    {lastDelegationSlot : Option Nat} {pubkey : Pubkey} {record : DelegationRecord}
    {programData : Option AccountChainState} {dump : Option AccountDump}
    (cloned : doClone config stage lastDelegationSlot pubkey (.delegated record) programData = .cloned dump) :
    config.permissions.allowCloningDelegatedAccounts = true := by
  by_contra disabled
  simp only [doClone, Bool.not_eq_true] at cloned disabled
  split at cloned
  · cases cloned
  · simp [disabled] at cloned

namespace Worker

/-- `AccountChainSnapshot`: the chain state of the account and the slot it was read at. -/
structure AccountChainSnapshot where
  atSlot : Nat
  chainState : AccountChainState
  deriving DecidableEq

/-- `AccountClonerOutput`; the signature of a `Cloned` output is left out. -/
inductive AccountClonerOutput where
  | cloned (accountChainSnapshot : AccountChainSnapshot)
  | unclonable (reason : AccountClonerUnclonableReason) (atSlot : Nat)
  deriving DecidableEq

/-- The slot `do_clone_or_use_cache` compares with the last known update slot:
`snapshot.at_slot` of a `Cloned` output, `at_slot` of an `Unclonable` one. -/
def AccountClonerOutput.atSlot : AccountClonerOutput → Nat
  | .cloned snapshot => snapshot.atSlot
  | .unclonable _ atSlot => atSlot

/-- The output as the freshness model of the cache (`CloneWorld`) records it. -/
def AccountClonerOutput.slotOutput : AccountClonerOutput → AccountCloner.AccountClonerOutput
  | .cloned snapshot => .cloned snapshot.atSlot
  | .unclonable _ atSlot => .unclonable atSlot

/-- The `at_slot` of an `Unclonable` output of `do_clone`: `u64::MAX`, never to be tried
again, for a blacklisted pubkey and for a program that is not allowed, the snapshot's slot
otherwise. -/
def unclonableAtSlot : AccountClonerUnclonableReason → Nat → Nat
  | .isBlacklisted, _ | .isNotAnAllowedProgram, _ => u64Max
  | _, atSlot => atSlot

/-- The delegation slot `do_clone_delegated_account` reads off the recorded output. -/
def lastDelegationSlot : Option AccountClonerOutput → Option Nat
  | some (.cloned ⟨_, .delegated delegationRecord⟩) => some delegationRecord.delegationSlot
  | _ => none

/-- What one request answers and does. -/
structure CloneEffect where
  /-- the output returned; `none` is the error of a fetch loop that gave up -/
  result : Option AccountClonerOutput
  fetched : Bool
  dump : Option AccountDump
  deriving DecidableEq

/-- What the world answers a request, if asked. -/
structure CloneRequest where
  hasAccount : Bool
  lastKnownUpdateSlot : Option Nat
  /-- the snapshot the fetch loop of `do_clone` ends with; `none` when it gives up -/
  snapshot : Option AccountChainSnapshot
  /-- for a program, the chain state the fetches of its program data and IDL accounts end with;
  `none` when one of them fails -/
  programData : Option AccountChainState

/-- The tail of `do_clone` once the snapshot is fetched: the output and the dump of the chain
state's branch, or the error of a program's. -/
def snapshotEffect (snapshot : AccountChainSnapshot) : CloneOutcome → CloneEffect
  | .unclonable reason => ⟨some (.unclonable reason (unclonableAtSlot reason snapshot.atSlot)), true, none⟩
  | .cloned dump => ⟨some (.cloned snapshot), true, dump⟩
  | .failed => ⟨none, true, none⟩

/-- `do_clone` in the `Running` stage: a blacklisted pubkey is answered without a fetch. -/
def doClone (config : ClonerConfig) (pubkey : Pubkey) (lastCloneOutput : Option AccountClonerOutput)
    (snapshot : Option AccountChainSnapshot) (programData : Option AccountChainState) : CloneEffect :=
  if pubkey ∈ config.blacklistedAccounts then ⟨some (.unclonable .isBlacklisted u64Max), false, none⟩
  else
    match snapshot with
    | none => ⟨none, true, none⟩
    | some snapshot =>
      snapshotEffect snapshot
        (AccountCloner.doClone config .running (lastDelegationSlot lastCloneOutput) pubkey snapshot.chainState
          programData)

/-- `do_clone_and_update_cache`: an output of `do_clone` is recorded, an error leaves the cache
as it was. -/
def doCloneAndUpdateCache (config : ClonerConfig) (pubkey : Pubkey)
    (lastCloneOutput : Option AccountClonerOutput) (snapshot : Option AccountChainSnapshot)
    (programData : Option AccountChainState) : CloneEffect × Option AccountClonerOutput :=
  let effect := doClone config pubkey lastCloneOutput snapshot programData
  (effect, effect.result.or lastCloneOutput)

/-- `do_clone_or_use_cache`, with the recorded output before and after the request. -/
def doCloneOrUseCache (config : ClonerConfig) (pubkey : Pubkey)
    (lastCloneOutput : Option AccountClonerOutput) (request : CloneRequest) :
    CloneEffect × Option AccountClonerOutput :=
  if !config.permissions.canClone then
    (⟨some (.unclonable .noCloningAllowed u64Max), false, none⟩, lastCloneOutput)
  else
    let lastKnownUpdateSlot := request.lastKnownUpdateSlot.getD 0
    match lastCloneOutput with
    -- the `Cloned` and `Unclonable` arms of the source compare their slot alike
    | some output =>
      if lastKnownUpdateSlot ≤ output.atSlot then (⟨some output, false, none⟩, lastCloneOutput)
      else doCloneAndUpdateCache config pubkey lastCloneOutput request.snapshot request.programData
    | none =>
      if request.hasAccount then
        (⟨some (.unclonable .alreadyLocallyOverriden u64Max), false, none⟩, none)
      else doCloneAndUpdateCache config pubkey none request.snapshot request.programData

/-- The worker's record for the pubkey, and the dumps it made so far. -/
structure History where
  lastCloneOutput : Option AccountClonerOutput
  dumps : List AccountDump

namespace History

def initial : History := ⟨none, []⟩

def request (config : ClonerConfig) (pubkey : Pubkey) (history : History) (request : CloneRequest) :
    History :=
  let served := doCloneOrUseCache config pubkey history.lastCloneOutput request
  ⟨served.2, history.dumps ++ served.1.dump.toList⟩

def run (config : ClonerConfig) (pubkey : Pubkey) (history : History) (requests : List CloneRequest) :
    History :=
  requests.foldl (History.request config pubkey) history

@[simp] theorem run_cons (config : ClonerConfig) (pubkey : Pubkey) (history : History)
    (request : CloneRequest) (requests : List CloneRequest) :
    history.run config pubkey (request :: requests) =
      (history.request config pubkey request).run config pubkey requests := rfl

end History

/-! ## One request -/

theorem doClone_of_blacklisted {config : ClonerConfig} {pubkey : Pubkey}
    (blacklisted : pubkey ∈ config.blacklistedAccounts) (lastCloneOutput : Option AccountClonerOutput)
    (snapshot : Option AccountChainSnapshot) (programData : Option AccountChainState) :
    doClone config pubkey lastCloneOutput snapshot programData =
      ⟨some (.unclonable .isBlacklisted u64Max), false, none⟩ := by
  simp [doClone, blacklisted]

theorem doClone_of_fetched {config : ClonerConfig} {pubkey : Pubkey}
    (allowed : pubkey ∉ config.blacklistedAccounts) (lastCloneOutput : Option AccountClonerOutput)
    (snapshot : AccountChainSnapshot) (programData : Option AccountChainState) :
    doClone config pubkey lastCloneOutput (some snapshot) programData =
      snapshotEffect snapshot
        (AccountCloner.doClone config .running (lastDelegationSlot lastCloneOutput) pubkey snapshot.chainState
          programData) := by
  simp [doClone, allowed]

theorem doClone_of_failed {config : ClonerConfig} {pubkey : Pubkey}
    (allowed : pubkey ∉ config.blacklistedAccounts) (lastCloneOutput : Option AccountClonerOutput)
    (programData : Option AccountChainState) :
    doClone config pubkey lastCloneOutput none programData = ⟨none, true, none⟩ := by
  simp [doClone, allowed]

/-- A `Cloned` output of `do_clone` is of a pubkey that is not blacklisted, of the fetched
snapshot, and of a state `do_clone` clones. -/
theorem doClone_eq_cloned {config : ClonerConfig} {pubkey : Pubkey}
    {lastCloneOutput : Option AccountClonerOutput} {fetched : Option AccountChainSnapshot}
    {programData : Option AccountChainState} {snapshot : AccountChainSnapshot}
    (cloned : (doClone config pubkey lastCloneOutput fetched programData).result = some (.cloned snapshot)) :
    pubkey ∉ config.blacklistedAccounts ∧ fetched = some snapshot ∧
      AccountCloner.doClone config .running (lastDelegationSlot lastCloneOutput) pubkey snapshot.chainState
          programData =
        .cloned (doClone config pubkey lastCloneOutput fetched programData).dump := by
  by_cases blacklisted : pubkey ∈ config.blacklistedAccounts
  · rw [doClone_of_blacklisted blacklisted] at cloned
    cases cloned
  · cases fetched with
    | none =>
      rw [doClone_of_failed blacklisted] at cloned
      cases cloned
    | some fetched =>
      rw [doClone_of_fetched blacklisted] at cloned ⊢
      cases outcome : AccountCloner.doClone config .running (lastDelegationSlot lastCloneOutput) pubkey
          fetched.chainState programData with
      | unclonable reason =>
        rw [outcome] at cloned
        cases cloned
      | cloned dump =>
        rw [outcome] at cloned
        cases cloned
        exact ⟨blacklisted, rfl, outcome⟩
      | failed =>
        rw [outcome] at cloned
        cases cloned

/-- A request either leaves the record as it was, with no fetch and no dump, or is
`do_clone_and_update_cache`. -/
theorem doCloneOrUseCache_cases (config : ClonerConfig) (pubkey : Pubkey)
    (lastCloneOutput : Option AccountClonerOutput) (request : CloneRequest) :
    ((doCloneOrUseCache config pubkey lastCloneOutput request).2 = lastCloneOutput ∧
        (doCloneOrUseCache config pubkey lastCloneOutput request).1.fetched = false ∧
        (doCloneOrUseCache config pubkey lastCloneOutput request).1.dump = none) ∨
      (config.permissions.canClone = true ∧
        doCloneOrUseCache config pubkey lastCloneOutput request =
          doCloneAndUpdateCache config pubkey lastCloneOutput request.snapshot request.programData) := by
  unfold doCloneOrUseCache
  cases canClone : config.permissions.canClone
  · exact .inl ⟨rfl, rfl, rfl⟩
  · cases lastCloneOutput with
    | some output =>
      by_cases recent : request.lastKnownUpdateSlot.getD 0 ≤ output.atSlot
      · left
        simp [recent]
      · right
        simp [recent]
    | none =>
      cases hasAccount : request.hasAccount
      · right
        simp
      · left
        simp

/-- What every request keeps of the recorded output: there is one only when cloning is allowed
at all, a blacklisted pubkey's is `Unclonable` until `u64::MAX`, and a `Cloned` output of a
delegated account is there only with delegated clones allowed. -/
structure Recorded (config : ClonerConfig) (pubkey : Pubkey) (lastCloneOutput : Option AccountClonerOutput) :
    Prop where
  canClone : ∀ output, lastCloneOutput = some output → config.permissions.canClone = true
  blacklisted : pubkey ∈ config.blacklistedAccounts → ∀ output, lastCloneOutput = some output →
    output = .unclonable .isBlacklisted u64Max
  delegated : ∀ snapshot record, lastCloneOutput = some (.cloned snapshot) →
    snapshot.chainState = .delegated record → config.permissions.allowCloningDelegatedAccounts = true

namespace Recorded

variable {config : ClonerConfig} {pubkey : Pubkey} {lastCloneOutput : Option AccountClonerOutput}

theorem empty : Recorded config pubkey none :=
  ⟨fun _ recorded => (nomatch recorded), fun _ _ recorded => (nomatch recorded),
    fun _ _ recorded => (nomatch recorded)⟩

theorem doCloneAndUpdateCache (recorded : Recorded config pubkey lastCloneOutput)
    (canClone : config.permissions.canClone = true) (snapshot : Option AccountChainSnapshot)
    (programData : Option AccountChainState) :
    Recorded config pubkey (doCloneAndUpdateCache config pubkey lastCloneOutput snapshot programData).2 := by
  simp only [Worker.doCloneAndUpdateCache]
  cases result : (doClone config pubkey lastCloneOutput snapshot programData).result with
  | none => simpa only [Option.none_or] using recorded
  | some output =>
    simp only [Option.some_or]
    constructor
    · intro _ _
      exact canClone
    · intro blacklisted _ recorded'
      rw [doClone_of_blacklisted blacklisted] at result
      cases result
      cases recorded'
      rfl
    · intro snapshot' record recorded' delegated
      cases recorded'
      obtain ⟨-, -, outcome⟩ := doClone_eq_cloned result
      rw [delegated] at outcome
      exact allowCloningDelegatedAccounts_of_doClone outcome

theorem request (recorded : Recorded config pubkey lastCloneOutput) (request : CloneRequest) :
    Recorded config pubkey (doCloneOrUseCache config pubkey lastCloneOutput request).2 := by
  rcases doCloneOrUseCache_cases config pubkey lastCloneOutput request with ⟨kept, -, -⟩ | ⟨canClone, cloned⟩
  · rw [kept]
    exact recorded
  · rw [cloned]
    exact recorded.doCloneAndUpdateCache canClone request.snapshot request.programData

end Recorded

end Worker

end EphemeralValidator.AccountCloner
