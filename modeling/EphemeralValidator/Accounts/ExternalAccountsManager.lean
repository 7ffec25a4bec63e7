import EphemeralValidator.Lib.SortedStore
import EphemeralValidator.Solana.Account

/-! # Frequent commits of delegated accounts

`ExternalAccountsManager` keeps a commit counter per delegated account it cloned, in the
process-shared map `external_commitable_accounts`.  `ensure_accounts` clones the accounts of a
transaction; for each `Cloned` output whose chain state is `Delegated`, it starts a counter
for the account unless there is one already, with the `commit_frequency` of that delegation
record and counted as committed now.  `commit_delegated` takes the counters due (strictly
later than the last commit plus the frequency), reads each account from the bank, keeps those
whose `hash_account` (lamports, owner and data) differs from the hash last committed, has the
committer create and send one commit transaction each, and only when all were sent marks
each as committed now with the hash of the state sent.

Nothing takes a counter out of the map.  A `ScheduleCommitAndUndelegate` of the account
(processed by the scheduled commits, apart from the counters) sets the account's owner to the
delegation program in the bank, which changes its hash; so the next `commit_delegated` due
commits the undelegated account again (`commit_delegated_commits_undelegated_account`).

The world is the bank (what `InternalAccountProvider::get_account` reads) and the commits
sent to the chain; each `commit_delegated` is told how the committer's RPC calls end
(`CommitterOutcome`).  Times are `Duration`s since the epoch, as one natural number.
-/

namespace EphemeralValidator.Accounts

open EphemeralValidator.Bytes EphemeralValidator.Solana

/-! ## Clone outputs as the accounts manager reads them -/

/-- conjunto's `DelegationRecord`, with the field the accounts manager reads: its
`commit_frequency`, as the `Duration` it converts to. -/
structure DelegationRecord where
  commitFrequency : Nat
  deriving DecidableEq

inductive AccountChainState where
  | feePayer
  | undelegated
  | delegated (delegationRecord : DelegationRecord)
  deriving DecidableEq

structure AccountChainSnapshot where
  pubkey : Pubkey
  chainState : AccountChainState
  deriving DecidableEq

inductive AccountClonerOutput where
  | cloned (accountChainSnapshot : AccountChainSnapshot)
  | unclonable (pubkey : Pubkey)
  deriving DecidableEq

def AccountClonerOutput.pubkey : AccountClonerOutput → Pubkey
  | .cloned snapshot => snapshot.pubkey
  | .unclonable pubkey => pubkey

/-! ## The commit counters -/

structure ExternalCommitableAccount where
  pubkey : Pubkey
  commitFrequency : Nat
  lastCommitAt : Nat
  lastCommitHash : Option Hash
  deriving DecidableEq

namespace ExternalCommitableAccount

/-- `ExternalCommitableAccount::new`: counted as committed at clone time. -/
def new (pubkey : Pubkey) (commitFrequency now : Nat) : ExternalCommitableAccount :=
  ⟨pubkey, commitFrequency, now, none⟩

def needsCommit (account : ExternalCommitableAccount) (now : Nat) : Bool :=
  account.lastCommitAt + account.commitFrequency < now

def markAsCommitted (account : ExternalCommitableAccount) (now : Nat) (hash : Hash) : ExternalCommitableAccount :=
  { account with lastCommitAt := now, lastCommitHash := some hash }

end ExternalCommitableAccount

/-- `external_commitable_accounts`: its entries in the order they were inserted, each under
its own pubkey. -/
abbrev CommitableAccounts := List ExternalCommitableAccount

/-- `start_commit_frequency_counters_if_needed`. -/
def startCommitFrequencyCountersIfNeeded (now : Nat) (accounts : CommitableAccounts) :
    AccountClonerOutput → CommitableAccounts
  | .cloned ⟨pubkey, .delegated delegationRecord⟩ =>
    -- `Entry::Occupied`: the counter there is stays as it is
    if accounts.any (·.pubkey == pubkey) then accounts
    else accounts ++ [.new pubkey delegationRecord.commitFrequency now]
  | _ => accounts

/-- `hash_account`: the hash of the lamports as eight little-endian bytes, the owner and the
data; `hash` is `solana_sdk::hash::hash`. -/
def hashAccount (hash : List UInt8 → Hash) (account : AccountSharedData) : Hash :=
  hash (leBytes 8 account.lamports.toNat ++ account.owner.bytes ++ account.data)

/-- The `(pubkey, last_commit_hash)` of each counter due. -/
def accountsToBeCommitted (accounts : CommitableAccounts) (now : Nat) : List (Pubkey × Option Hash) :=
  accounts.filterMap fun account =>
    if account.needsCommit now then some (account.pubkey, account.lastCommitHash) else none

/-- The committees of `create_transactions_to_commit_specific_accounts`: each account due
that the bank has, when its hash differs from the one last committed. -/
def commitCommittees (hash : List UInt8 → Hash) (getAccount : Pubkey → Option AccountSharedData)
    (accountsToBeCommitted : List (Pubkey × Option Hash)) : List (Pubkey × AccountSharedData) :=
  accountsToBeCommitted.filterMap fun (pubkey, previousHash) =>
    -- an account the bank does not have is only logged
    (getAccount pubkey).bind fun account =>
      if previousHash.all (hashAccount hash account ≠ ·) then some (pubkey, account) else none

/-- The marking loop of `run_transactions_to_commit_specific_accounts`. -/
def markCommitted (now : Nat) (accounts : CommitableAccounts) (committed : List (Pubkey × Hash)) :
    CommitableAccounts :=
  committed.foldl (fun accounts (pubkey, hash) =>
    accounts.map fun account => if account.pubkey = pubkey then account.markAsCommitted now hash else account)
    accounts

/-! ## The manager among the bank and the chain -/

structure ManagerState where
  externalCommitableAccounts : CommitableAccounts
  /-- the bank, as `InternalAccountProvider::get_account` reads it -/
  accounts : Pubkey → Option AccountSharedData
  /-- the commits sent to the chain: the time of the call, the pubkey and the state sent -/
  commits : List (Nat × Pubkey × AccountSharedData)

def ManagerState.initial : ManagerState := ⟨[], fun _ => none, []⟩

/-- How the remote committer's RPC calls end in one `commit_delegated`: every transaction is
created and sent; the latest blockhash cannot be fetched and none is created; or the first
`sent` transactions are sent and the next one fails. -/
inductive CommitterOutcome where
  | ok
  | createFailed
  | sendFailed (sent : Nat)

inductive ManagerEvent where
  /-- `ensure_accounts`, with the outputs of the cloner for the readonly and the writable accounts -/
  | ensureAccounts (now : Nat) (readonly writable : List AccountClonerOutput)
  /-- a transaction of the validator writes an account of the bank -/
  | setAccount (pubkey : Pubkey) (account : Option AccountSharedData)
  /-- a processed `ScheduleCommitAndUndelegate` of the account -/
  | scheduleCommitAndUndelegate (pubkey : Pubkey)
  | commitDelegated (now : Nat) (outcome : CommitterOutcome)

section Manager

-- `hash` is `solana_sdk::hash::hash`, and `delegationProgramId` the `DELEGATION_PROGRAM_ID`
-- that `set_account_owner_to_delegation_program` writes
variable (hash : List UInt8 → Hash) (delegationProgramId : Pubkey)

/-- `commit_delegated`: the commits of the accounts due, and the counters of those committed
marked, once every transaction was sent. -/
def commitDelegated (now : Nat) (outcome : CommitterOutcome) (s : ManagerState) : ManagerState :=
  let due := accountsToBeCommitted s.externalCommitableAccounts now
  if due.isEmpty then s
  else
    let committees := commitCommittees hash s.accounts due
    let sent := committees.map fun (pubkey, account) => (now, pubkey, account)
    match outcome with
    | .ok =>
      { s with
        commits := s.commits ++ sent
        externalCommitableAccounts := markCommitted now s.externalCommitableAccounts
          (committees.map fun (pubkey, account) => (pubkey, hashAccount hash account)) }
    | .createFailed => s
    | .sendFailed sentBefore => { s with commits := s.commits ++ sent.take sentBefore }

def ManagerState.step (s : ManagerState) : ManagerEvent → ManagerState
  | .ensureAccounts now readonly writable =>
    { s with
      externalCommitableAccounts :=
        (readonly ++ writable).foldl (startCommitFrequencyCountersIfNeeded now) s.externalCommitableAccounts }
  | .setAccount pubkey account => { s with accounts := Function.update s.accounts pubkey account }
  | .scheduleCommitAndUndelegate pubkey =>
    { s with
      accounts := Function.update s.accounts pubkey
        ((s.accounts pubkey).map fun account => { account with owner := delegationProgramId }) }
  | .commitDelegated now outcome => commitDelegated hash now outcome s

def ManagerState.run (s : ManagerState) (events : List ManagerEvent) : ManagerState :=
  events.foldl (ManagerState.step hash delegationProgramId) s

/-- An `ensure_accounts` whose outputs include one for `pubkey`. -/
def ManagerEvent.Clones (pubkey : Pubkey) : ManagerEvent → Prop
  | .ensureAccounts _ readonly writable => ∃ output ∈ readonly ++ writable, output.pubkey = pubkey
  | _ => False

/-- A `ScheduleCommitAndUndelegate` of `pubkey` was processed, and `pubkey` was not cloned
again since. -/
def UndelegatedSinceClone (history : List ManagerEvent) (pubkey : Pubkey) : Prop :=
  ∃ before after, history = before ++ .scheduleCommitAndUndelegate pubkey :: after ∧
    ∀ event ∈ after, ¬event.Clones pubkey

/-- An `ensure_accounts` whose outputs include a clone of `pubkey` as a delegated account: the
one kind of output that starts a counter. -/
def ManagerEvent.ClonesDelegated (pubkey : Pubkey) : ManagerEvent → Prop
  | .ensureAccounts _ readonly writable =>
    ∃ delegationRecord, .cloned ⟨pubkey, .delegated delegationRecord⟩ ∈ readonly ++ writable
  | _ => False

/-- The pubkeys of the commit counters, in the order the counters were started. -/
def ManagerState.countedPubkeys (s : ManagerState) : List Pubkey :=
  s.externalCommitableAccounts.map (·.pubkey)

end Manager

/-! ## One `commit_delegated` -/

theorem mem_accountsToBeCommitted {accounts : CommitableAccounts} {now : Nat} {pubkey : Pubkey}
    {previousHash : Option Hash} :
    (pubkey, previousHash) ∈ accountsToBeCommitted accounts now ↔
      ∃ account ∈ accounts, account.needsCommit now ∧ account.pubkey = pubkey ∧
        account.lastCommitHash = previousHash := by
  simp only [accountsToBeCommitted, List.mem_filterMap, Option.ite_none_right_eq_some, Option.some.injEq,
    Prod.mk.injEq]

theorem mem_commitCommittees {hash : List UInt8 → Hash} {getAccount : Pubkey → Option AccountSharedData}
    {due : List (Pubkey × Option Hash)} {pubkey : Pubkey} {account : AccountSharedData} :
    (pubkey, account) ∈ commitCommittees hash getAccount due ↔
      ∃ previousHash, (pubkey, previousHash) ∈ due ∧ getAccount pubkey = some account ∧
        previousHash.all (hashAccount hash account ≠ ·) := by
  simp only [commitCommittees, List.mem_filterMap, Option.bind_eq_some_iff, Option.ite_none_right_eq_some,
    Option.some.injEq, Prod.mk.injEq, Prod.exists]
  constructor
  · rintro ⟨pubkey', previousHash, due', account', found, changed, rfl, rfl⟩
    exact ⟨previousHash, due', found, changed⟩
  · rintro ⟨previousHash, due', found, changed⟩
    exact ⟨pubkey, previousHash, due', account, found, changed, rfl, rfl⟩

/-- With every transaction sent, `commit_delegated` commits the committees of the accounts
due and marks them; with none due there are none. -/
theorem commitDelegated_ok (hash : List UInt8 → Hash) (now : Nat) (s : ManagerState) :
    commitDelegated hash now .ok s =
      let committees := commitCommittees hash s.accounts (accountsToBeCommitted s.externalCommitableAccounts now)
      { s with
        commits := s.commits ++ committees.map fun (pubkey, account) => (now, pubkey, account)
        externalCommitableAccounts := markCommitted now s.externalCommitableAccounts
          (committees.map fun (pubkey, account) => (pubkey, hashAccount hash account)) } := by
  by_cases none : (accountsToBeCommitted s.externalCommitableAccounts now).isEmpty = true
  · have empty := List.isEmpty_iff.mp none
    simp [commitDelegated, empty, commitCommittees, markCommitted]
  · simp only [commitDelegated, none, if_false, Bool.false_eq_true]

theorem ManagerState.run_append (hash : List UInt8 → Hash) (delegationProgramId : Pubkey) (s : ManagerState)
    (events more : List ManagerEvent) :
    s.run hash delegationProgramId (events ++ more) =
      (s.run hash delegationProgramId events).run hash delegationProgramId more := by
  simp [ManagerState.run, List.foldl_append]

/-! ## The counters over a run

Every event either leaves the pubkeys of the counters as they are or appends the pubkeys of
delegated clones that had no counter (`CountersGrow`); so over any run the counters keep
distinct pubkeys, each from a delegated clone of the history, and none is ever dropped. -/

/-- `after` keeps the counters of `before` in order, keeps their pubkeys distinct, and adds
counters only for pubkeys that `fresh` allows. -/
structure CountersGrow (fresh : Pubkey → Prop) (before after : List Pubkey) : Prop where
  keeps : before <+: after
  nodup : before.Nodup → after.Nodup
  origin : ∀ pubkey ∈ after, pubkey ∈ before ∨ fresh pubkey

namespace CountersGrow

variable {fresh fresh' : Pubkey → Prop} {before middle after : List Pubkey}

theorem refl (fresh : Pubkey → Prop) (pubkeys : List Pubkey) : CountersGrow fresh pubkeys pubkeys :=
  ⟨List.prefix_refl pubkeys, id, fun _ counted => .inl counted⟩

theorem mono (grown : CountersGrow fresh before after) (allowed : ∀ pubkey, fresh pubkey → fresh' pubkey) :
    CountersGrow fresh' before after := by
  refine ⟨grown.keeps, grown.nodup, fun pubkey counted => ?_⟩
  rcases grown.origin pubkey counted with kept | started
  · exact .inl kept
  · exact .inr (allowed pubkey started)

theorem trans (first : CountersGrow fresh before middle) (second : CountersGrow fresh' middle after) :
    CountersGrow (fun pubkey => fresh pubkey ∨ fresh' pubkey) before after := by
  refine ⟨first.keeps.trans second.keeps, fun distinct => second.nodup (first.nodup distinct), ?_⟩
  intro pubkey counted
  rcases second.origin pubkey counted with kept | started
  · rcases first.origin pubkey kept with kept | startedFirst
    · exact .inl kept
    · exact .inr (.inl startedFirst)
  · exact .inr (.inr started)

end CountersGrow

/-- `start_commit_frequency_counters_if_needed` keeps the counters, or appends one for a
delegated clone of a pubkey without a counter. -/
theorem startCommitFrequencyCountersIfNeeded_cases (now : Nat) (accounts : CommitableAccounts)
    (output : AccountClonerOutput) :
    startCommitFrequencyCountersIfNeeded now accounts output = accounts ∨
      ∃ pubkey delegationRecord, output = .cloned ⟨pubkey, .delegated delegationRecord⟩ ∧
        pubkey ∉ accounts.map (·.pubkey) ∧
        startCommitFrequencyCountersIfNeeded now accounts output =
          accounts ++ [ExternalCommitableAccount.new pubkey delegationRecord.commitFrequency now] := by
  match output with
  | .cloned ⟨pubkey, .delegated delegationRecord⟩ =>
    by_cases counted : accounts.any (·.pubkey == pubkey)
    · exact .inl (by simp only [startCommitFrequencyCountersIfNeeded, counted, if_true])
    · refine .inr ⟨pubkey, delegationRecord, rfl, ?_, by simp [startCommitFrequencyCountersIfNeeded, counted]⟩
      simpa using counted
  | .cloned ⟨_, .feePayer⟩ | .cloned ⟨_, .undelegated⟩ | .unclonable _ => exact .inl rfl

theorem countersGrow_startCommitFrequencyCountersIfNeeded (now : Nat) (accounts : CommitableAccounts)
    (output : AccountClonerOutput) :
    CountersGrow (fun pubkey => ∃ delegationRecord, output = .cloned ⟨pubkey, .delegated delegationRecord⟩)
      (accounts.map (·.pubkey)) ((startCommitFrequencyCountersIfNeeded now accounts output).map (·.pubkey)) := by
  rcases startCommitFrequencyCountersIfNeeded_cases now accounts output with
    same | ⟨pubkey, delegationRecord, rfl, uncounted, started⟩
  · rw [same]
    exact .refl _ _
  · simp only [started, List.map_append, List.map_cons, List.map_nil, ExternalCommitableAccount.new]
    refine ⟨List.prefix_append _ _, fun distinct => ?_, fun other counted => ?_⟩
    · refine List.nodup_append.mpr ⟨distinct, List.nodup_singleton pubkey, ?_⟩
      intro other counted added single
      rw [List.mem_singleton.mp single]
      exact ne_of_mem_of_not_mem counted uncounted
    · rcases List.mem_append.mp counted with kept | added
      · exact .inl kept
      · exact .inr ⟨delegationRecord, by rw [List.mem_singleton.mp added]⟩

/-- The counters `ensure_accounts` starts, output by output. -/
theorem countersGrow_foldl_startCommitFrequencyCountersIfNeeded (now : Nat) (outputs : List AccountClonerOutput)
    (accounts : CommitableAccounts) :
    CountersGrow (fun pubkey => ∃ delegationRecord, .cloned ⟨pubkey, .delegated delegationRecord⟩ ∈ outputs)
      (accounts.map (·.pubkey))
      ((outputs.foldl (startCommitFrequencyCountersIfNeeded now) accounts).map (·.pubkey)) := by
  induction outputs generalizing accounts with
  | nil => exact .refl _ _
  | cons output outputs ih =>
    apply ((countersGrow_startCommitFrequencyCountersIfNeeded now accounts output).trans (ih _)).mono
    rintro pubkey (⟨delegationRecord, rfl⟩ | ⟨delegationRecord, later⟩)
    · exact ⟨delegationRecord, List.mem_cons_self⟩
    · exact ⟨delegationRecord, List.mem_cons_of_mem _ later⟩

@[simp] theorem ExternalCommitableAccount.pubkey_markAsCommitted (account : ExternalCommitableAccount)
    (now : Nat) (hash : Hash) : (account.markAsCommitted now hash).pubkey = account.pubkey := rfl

theorem markCommitted_cons (now : Nat) (accounts : CommitableAccounts) (pubkey : Pubkey) (hash : Hash)
    (committed : List (Pubkey × Hash)) :
    markCommitted now accounts ((pubkey, hash) :: committed) =
      markCommitted now
        (accounts.map fun account => if account.pubkey = pubkey then account.markAsCommitted now hash else account)
        committed := rfl

/-- Marking counters as committed keeps their pubkeys, in order. -/
theorem map_pubkey_markCommitted (now : Nat) (accounts : CommitableAccounts) (committed : List (Pubkey × Hash)) :
    (markCommitted now accounts committed).map (·.pubkey) = accounts.map (·.pubkey) := by
  induction committed generalizing accounts with
  | nil => rfl
  | cons entry committed ih =>
    obtain ⟨pubkey, hash⟩ := entry
    rw [markCommitted_cons, ih, List.map_map]
    -- a marked counter keeps its pubkey
    apply List.map_congr_left
    intro account _
    by_cases same : account.pubkey = pubkey <;> simp [same]

/-- `commit_delegated` neither starts nor drops a counter. -/
theorem countedPubkeys_commitDelegated (hash : List UInt8 → Hash) (now : Nat) (outcome : CommitterOutcome)
    (s : ManagerState) : (commitDelegated hash now outcome s).countedPubkeys = s.countedPubkeys := by
  rw [commitDelegated]
  split
  · rfl
  · cases outcome with
    | ok => exact map_pubkey_markCommitted _ _ _
    | createFailed => rfl
    | sendFailed _ => rfl

section Counters

variable (hash : List UInt8 → Hash) (delegationProgramId : Pubkey)

theorem countersGrow_step (s : ManagerState) (event : ManagerEvent) :
    CountersGrow event.ClonesDelegated s.countedPubkeys (s.step hash delegationProgramId event).countedPubkeys := by
  cases event with
  | ensureAccounts now readonly writable =>
    exact countersGrow_foldl_startCommitFrequencyCountersIfNeeded now (readonly ++ writable) _
  | setAccount => exact .refl _ _
  | scheduleCommitAndUndelegate => exact .refl _ _
  | commitDelegated now outcome =>
    rw [ManagerState.step, countedPubkeys_commitDelegated]
    exact .refl _ _

theorem countersGrow_run (s : ManagerState) (events : List ManagerEvent) :
    CountersGrow (fun pubkey => ∃ event ∈ events, event.ClonesDelegated pubkey) s.countedPubkeys
      (s.run hash delegationProgramId events).countedPubkeys := by
  induction events generalizing s with
  | nil => exact .refl _ _
  | cons event events ih =>
    apply ((countersGrow_step hash delegationProgramId s event).trans (ih _)).mono
    rintro pubkey (clones | ⟨later, mem, clones⟩)
    · exact ⟨event, List.mem_cons_self, clones⟩
    · exact ⟨later, List.mem_cons_of_mem _ mem, clones⟩

/-- Over any run, the counters have distinct pubkeys, each one cloned as a delegated account
somewhere in the history, and a counter once started is never dropped by the events after. -/
theorem countedPubkeys_run_initial (events more : List ManagerEvent) :
    (ManagerState.initial.run hash delegationProgramId events).countedPubkeys.Nodup ∧
      (∀ pubkey ∈ (ManagerState.initial.run hash delegationProgramId events).countedPubkeys,
        ∃ event ∈ events, event.ClonesDelegated pubkey) ∧
      (ManagerState.initial.run hash delegationProgramId events).countedPubkeys <+:
        (ManagerState.initial.run hash delegationProgramId (events ++ more)).countedPubkeys := by
  have grown := countersGrow_run hash delegationProgramId ManagerState.initial events
  refine ⟨grown.nodup List.nodup_nil, fun pubkey counted => ?_, ?_⟩
  · -- the initial state has no counter, so each one was started
    rcases grown.origin pubkey counted with initial | started
    · simp [ManagerState.initial, ManagerState.countedPubkeys] at initial
    · exact started
  · rw [ManagerState.run_append]
    exact (countersGrow_run hash delegationProgramId _ more).keeps

end Counters

/-! ## What `commit_delegated` sends and records

With every transaction sent, `commit_delegated` commits exactly the accounts with a counter
that is due, that the bank holds and whose hash is not the one last committed; the counter
of each then records the time of the call and the hash of the state sent.  Marking goes by
pubkey, so this rests on the counters having distinct pubkeys, which every run keeps. -/

/-- A counter whose pubkey is not among those committed is kept as it was. -/
theorem mem_markCommitted_of_not_mem {now : Nat} {accounts : CommitableAccounts} {committed : List (Pubkey × Hash)}
    {counter : ExternalCommitableAccount} (counted : counter ∈ accounts)
    (uncommitted : counter.pubkey ∉ committed.map Prod.fst) : counter ∈ markCommitted now accounts committed := by
  induction committed generalizing accounts with
  | nil => exact counted
  | cons entry committed ih =>
    obtain ⟨pubkey, hash⟩ := entry
    rw [List.map_cons, List.mem_cons, not_or] at uncommitted
    rw [markCommitted_cons]
    exact ih (List.mem_map.mpr ⟨counter, counted, if_neg uncommitted.1⟩) uncommitted.2

/-- A counter whose pubkey is committed once is marked with that commit's time and hash. -/
theorem markAsCommitted_mem_markCommitted {now : Nat} {accounts : CommitableAccounts}
    {committed : List (Pubkey × Hash)} (distinct : (committed.map Prod.fst).Nodup)
    {counter : ExternalCommitableAccount} (counted : counter ∈ accounts) {hash : Hash}
    (entry : (counter.pubkey, hash) ∈ committed) :
    counter.markAsCommitted now hash ∈ markCommitted now accounts committed := by
  induction committed generalizing accounts with
  | nil => cases entry
  | cons head committed ih =>
    obtain ⟨pubkey, hash'⟩ := head
    rw [List.map_cons, List.nodup_cons] at distinct
    rw [markCommitted_cons]
    rcases List.mem_cons.mp entry with first | later
    · -- the head is the counter's one commit, and the rest does not name its pubkey
      obtain ⟨same, rfl⟩ := Prod.mk.inj first
      have marked : counter.markAsCommitted now hash ∈ accounts.map fun account =>
          if account.pubkey = pubkey then account.markAsCommitted now hash else account :=
        List.mem_map.mpr ⟨counter, counted, if_pos same⟩
      apply mem_markCommitted_of_not_mem marked
      rw [ExternalCommitableAccount.pubkey_markAsCommitted, same]
      exact distinct.1
    · -- the counter's commit comes later, so the head names another pubkey and leaves it alone
      have other : counter.pubkey ≠ pubkey := by
        rintro same
        apply distinct.1
        rw [← same]
        exact List.mem_map.mpr ⟨_, later, rfl⟩
      exact ih distinct.2 (List.mem_map.mpr ⟨counter, counted, if_neg other⟩) later

/-- Counters with distinct pubkeys are committed under distinct pubkeys. -/
theorem nodup_committed (hash : List UInt8 → Hash) (getAccount : Pubkey → Option AccountSharedData)
    {accounts : CommitableAccounts} (distinct : (accounts.map (·.pubkey)).Nodup) (now : Nat) :
    (((commitCommittees hash getAccount (accountsToBeCommitted accounts now)).map
      fun (pubkey, account) => (pubkey, hashAccount hash account)).map Prod.fst).Nodup := by
  have due : ((accountsToBeCommitted accounts now).map Prod.fst).Nodup := by
    refine Lib.SortedStore.nodup_map_filterMap (fun account entry kept => ?_) distinct
    rw [Option.ite_none_right_eq_some] at kept
    rw [← Option.some_inj.mp kept.2]
  have committees : ((commitCommittees hash getAccount (accountsToBeCommitted accounts now)).map Prod.fst).Nodup := by
    refine Lib.SortedStore.nodup_map_filterMap (fun ⟨pubkey, previousHash⟩ committee kept => ?_) due
    obtain ⟨account, -, changed⟩ := Option.bind_eq_some_iff.mp kept
    rw [Option.ite_none_right_eq_some] at changed
    rw [← Option.some_inj.mp changed.2]
  rw [List.map_map]
  exact committees

section Records

variable (hash : List UInt8 → Hash) (delegationProgramId : Pubkey)

/-- With every transaction sent, `commit_delegated` adds a commit of an account exactly when
a counter of it is due, the bank holds it and its hash is not the one last committed. -/
theorem mem_commits_commitDelegated_ok {now time : Nat} {s : ManagerState} {pubkey : Pubkey}
    {account : AccountSharedData} :
    (time, pubkey, account) ∈ (commitDelegated hash now .ok s).commits ↔
      (time, pubkey, account) ∈ s.commits ∨
        time = now ∧ ∃ counter ∈ s.externalCommitableAccounts, counter.pubkey = pubkey ∧ counter.needsCommit now ∧
          s.accounts pubkey = some account ∧ counter.lastCommitHash.all (hashAccount hash account ≠ ·) := by
  rw [commitDelegated_ok, List.mem_append, List.mem_map]
  apply or_congr Iff.rfl
  constructor
  · rintro ⟨⟨pubkey', account'⟩, committee, sent⟩
    obtain ⟨rfl, rfl, rfl⟩ : now = time ∧ pubkey' = pubkey ∧ account' = account := by
      simpa only [Prod.mk.injEq] using sent
    obtain ⟨previousHash, due, found, changed⟩ := mem_commitCommittees.mp committee
    obtain ⟨counter, counted, needed, ofPubkey, last⟩ := mem_accountsToBeCommitted.mp due
    exact ⟨rfl, counter, counted, ofPubkey, needed, found, last ▸ changed⟩
  · rintro ⟨rfl, counter, counted, rfl, needed, found, changed⟩
    have due := mem_accountsToBeCommitted.mpr ⟨counter, counted, needed, rfl, rfl⟩
    exact ⟨_, mem_commitCommittees.mpr ⟨_, due, found, changed⟩, rfl⟩

/-- After `commit_delegated` sent everything, the counter of each account committed records
the time of the call and the hash of the state sent. -/
theorem markAsCommitted_mem_commitDelegated_ok {now : Nat} {s : ManagerState} (distinct : s.countedPubkeys.Nodup)
    {counter : ExternalCommitableAccount} (counted : counter ∈ s.externalCommitableAccounts)
    {account : AccountSharedData}
    (committed : (counter.pubkey, account) ∈
      commitCommittees hash s.accounts (accountsToBeCommitted s.externalCommitableAccounts now)) :
    counter.markAsCommitted now (hashAccount hash account) ∈
      (commitDelegated hash now .ok s).externalCommitableAccounts := by
  rw [commitDelegated_ok]
  exact markAsCommitted_mem_markCommitted (nodup_committed hash s.accounts distinct now) counted
    (List.mem_map.mpr ⟨_, committed, rfl⟩)

/-- From every state a run reaches: a `commit_delegated` that sends everything commits an
account exactly under the conditions of `mem_commits_commitDelegated_ok`, and leaves the
account's counter marked with the time of the call and the hash of the state it sent. -/
theorem commitDelegated_ok_of_run (events : List ManagerEvent) (now : Nat) {counter : ExternalCommitableAccount}
    (counted : counter ∈ (ManagerState.initial.run hash delegationProgramId events).externalCommitableAccounts)
    {account : AccountSharedData}
    (inBank : (ManagerState.initial.run hash delegationProgramId events).accounts counter.pubkey = some account)
    (due : counter.needsCommit now) (changed : counter.lastCommitHash.all (hashAccount hash account ≠ ·)) :
    let after := ManagerState.initial.run hash delegationProgramId (events ++ [ManagerEvent.commitDelegated now .ok])
    (now, counter.pubkey, account) ∈ after.commits ∧
      counter.markAsCommitted now (hashAccount hash account) ∈ after.externalCommitableAccounts := by
  intro after
  have oneStep : after = commitDelegated hash now .ok (ManagerState.initial.run hash delegationProgramId events) := by
    simp only [after, ManagerState.run_append]
    rfl
  have listed := mem_accountsToBeCommitted.mpr ⟨counter, counted, due, rfl, rfl⟩
  have committee := mem_commitCommittees.mpr ⟨_, listed, inBank, changed⟩
  rw [oneStep]
  refine ⟨(mem_commits_commitDelegated_ok hash).mpr (.inr ⟨rfl, counter, counted, rfl, due, inBank, changed⟩), ?_⟩
  exact markAsCommitted_mem_commitDelegated_ok hash (countedPubkeys_run_initial hash delegationProgramId events []).1
    counted committee

end Records

/-- An account cloned delegated at time 0 with a commit frequency of 10, and written to the
bank: at time 11 its counter is due, and `commit_delegated` commits it and marks the counter. -/
theorem commitDelegated_ok_of_run_after_clone :
    let account : AccountSharedData := ⟨1, [], FixedBytes.replicate 32 1, false, 0⟩
    let events := [ManagerEvent.ensureAccounts 0 [] [.cloned ⟨FixedBytes.zero 32, .delegated ⟨10⟩⟩],
      .setAccount (FixedBytes.zero 32) (some account)]
    let after := ManagerState.initial.run (fun _ => FixedBytes.zero 32) (FixedBytes.replicate 32 2)
      (events ++ [ManagerEvent.commitDelegated 11 .ok])
    (11, FixedBytes.zero 32, account) ∈ after.commits ∧
      (⟨FixedBytes.zero 32, 10, 0, none⟩ : ExternalCommitableAccount).markAsCommitted 11
        (hashAccount (fun _ => FixedBytes.zero 32) account) ∈ after.externalCommitableAccounts :=
  @commitDelegated_ok_of_run (fun _ => FixedBytes.zero 32) (FixedBytes.replicate 32 2) _ 11
    ⟨FixedBytes.zero 32, 10, 0, none⟩ (by decide) _ (by decide) (by decide) (by simp)

/-! ## Commits of undelegated accounts -/

/-- From any state the events lead to, where `pubkey` has a counter that is due and the bank
holds the account: after a `ScheduleCommitAndUndelegate` of the account, `commit_delegated`
sends a commit of it, with the delegation program as its owner, unless exactly that state was
the last committed. -/
theorem commit_delegated_commits_undelegated_account (hash : List UInt8 → Hash) (delegationProgramId : Pubkey)
    (events : List ManagerEvent) {pubkey : Pubkey} {counter : ExternalCommitableAccount}
    {account : AccountSharedData} (now : Nat)
    (counted : counter ∈ (ManagerState.initial.run hash delegationProgramId events).externalCommitableAccounts)
    (ofPubkey : counter.pubkey = pubkey)
    (inBank : (ManagerState.initial.run hash delegationProgramId events).accounts pubkey = some account)
    (due : counter.lastCommitAt + counter.commitFrequency < now)
    (changed : counter.lastCommitHash ≠ some (hashAccount hash { account with owner := delegationProgramId })) :
    UndelegatedSinceClone (events ++ [.scheduleCommitAndUndelegate pubkey]) pubkey ∧
      (now, pubkey, { account with owner := delegationProgramId }) ∈
        (ManagerState.initial.run hash delegationProgramId
          (events ++ [.scheduleCommitAndUndelegate pubkey, .commitDelegated now .ok])).commits := by
  set s := ManagerState.initial.run hash delegationProgramId events
  set undelegated := { account with owner := delegationProgramId }
  set s' := s.step hash delegationProgramId (.scheduleCommitAndUndelegate pubkey)
  have bank : s'.accounts pubkey = some undelegated := by
    simp [s', ManagerState.step, inBank, undelegated]
  refine ⟨⟨events, [], rfl, by simp⟩, ?_⟩
  have twoSteps : s.run hash delegationProgramId [.scheduleCommitAndUndelegate pubkey, .commitDelegated now .ok] =
      commitDelegated hash now .ok s' := rfl
  rw [ManagerState.run_append, twoSteps]
  -- the undelegation leaves the counter due, and the owner it writes changes the hash
  refine (mem_commits_commitDelegated_ok hash).mpr (.inr ⟨rfl, counter, counted, ofPubkey, ?_, bank, ?_⟩)
  · simpa [ExternalCommitableAccount.needsCommit] using due
  · cases last : counter.lastCommitHash with
    | none => rfl
    | some previous =>
      rw [last] at changed
      simp only [Option.all_some, decide_eq_true_eq]
      exact fun same => changed (by rw [same])

/-- An account cloned delegated at time 0 with a commit frequency of 10, and written to the
bank: undelegated, it is committed at time 11. -/
theorem commit_delegated_commits_undelegated_account_after_clone :
    let snapshot : AccountChainSnapshot := ⟨FixedBytes.zero 32, .delegated ⟨10⟩⟩
    let account : AccountSharedData := ⟨1, [], FixedBytes.replicate 32 1, false, 0⟩
    let events := [ManagerEvent.ensureAccounts 0 [] [.cloned snapshot], .setAccount (FixedBytes.zero 32) (some account)]
    UndelegatedSinceClone (events ++ [.scheduleCommitAndUndelegate (FixedBytes.zero 32)]) (FixedBytes.zero 32) ∧
      (11, FixedBytes.zero 32, { account with owner := FixedBytes.replicate 32 2 }) ∈
        (ManagerState.initial.run (fun _ => FixedBytes.zero 32) (FixedBytes.replicate 32 2)
          (events ++ [.scheduleCommitAndUndelegate (FixedBytes.zero 32), .commitDelegated 11 .ok])).commits :=
  @commit_delegated_commits_undelegated_account _ _ _ _ ⟨FixedBytes.zero 32, 10, 0, none⟩ _ 11 (by decide) rfl
    (by decide) (by decide) (by simp)

end EphemeralValidator.Accounts
