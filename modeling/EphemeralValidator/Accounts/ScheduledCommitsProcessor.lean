import EphemeralValidator.Magicblock.MagicContext

/-! # Processing the scheduled commits

`RemoteScheduledCommitsProcessor::process` (magicblock-accounts) takes every commit out of
the `TransactionScheduler` and handles them one after the other: it asks the committer for
the commit transaction of the accounts the bank still has, registers a `SentCommit` under
the commit's id in the process-global `SENT_COMMITS`, and executes the commit's
`ScheduledCommitSent` transaction, whose instruction (`process_scheduled_commit_sent`)
removes that entry again and logs it.  The commit transactions are handed to the
background sender only once the whole batch went through.  Both fallible steps return
early with `?`.

The committer's and the bank's answers are given by the position of the commit in the
batch, so that every pattern of failures is a `ProcessEnv`.  `settled_or_fails` splits
every batch at its first failure; `process_of_settled` says what a batch does that goes
through, and `process_drops_commits_after_failure` what a failure does: the failing commit
and those after it are neither in the scheduler nor logged, the commit transactions of
those before it are never sent, and a failed execution leaves the failing commit's entry
in `SENT_COMMITS`.
-/

namespace EphemeralValidator.Accounts

open EphemeralValidator.Bytes EphemeralValidator.Solana EphemeralValidator.Magicblock

/-- `AccountCommittee`, with the owner of its `UndelegationRequest`. -/
structure AccountCommittee where
  pubkey : Pubkey
  accountData : AccountSharedData
  slot : Slot
  undelegationRequest : Option Pubkey

/-- `CommitAccountsPayload`, its transaction given by the signature `get_signature` reads. -/
structure CommitAccountsPayload where
  transaction : Option Signature
  committees : List (Pubkey × AccountSharedData)

structure SendableCommitAccountsPayload where
  transaction : Signature
  committees : List (Pubkey × AccountSharedData)

/-- `SentCommit`; `SENT_COMMITS` holds its printable form, which carries the same fields. -/
structure SentCommit where
  commitId : UInt64
  slot : Slot
  blockhash : Hash
  payer : Pubkey
  chainSignatures : List Signature
  includedPubkeys : List Pubkey
  excludedPubkeys : List Pubkey
  requestedUndelegationToOwner : Option Pubkey

/-- Why `process` returns early. -/
inductive AccountsError (ε : Type) where
  /-- an error of `create_commit_accounts_transaction` -/
  | committer (error : ε)
  /-- `execute_legacy_transaction` failed before the instruction removed the entry -/
  | transactionError (error : ε)
  /-- the instruction's `CANNOT_FIND_SCHEDULED_COMMIT` -/
  | cannotFindScheduledCommit

/-- What `process` gets from outside: the bank's accounts, and the answers of the committer
and of the bank's execution of the `ScheduledCommitSent` transaction, by the position of the
commit in the batch. -/
structure ProcessEnv (ε : Type) where
  getAccount : Pubkey → Option AccountSharedData
  createCommitAccountsTransaction : Nat → List AccountCommittee → Except ε CommitAccountsPayload
  executeLegacyTransaction : Nat → Except ε Unit

/-- The state `process` reads and writes: the `TransactionScheduler`, `SENT_COMMITS`, the
`SentCommit`s that `process_scheduled_commit_sent` removed and logged, and the batches of
payloads handed to `process_accounts_commits_in_background`. -/
structure CommitsState (Tx : Type) where
  scheduledCommits : List (ScheduledCommit Tx)
  sentCommits : UInt64 → Option SentCommit
  sentCommitLogs : List SentCommit
  backgroundPayloads : List (List SendableCommitAccountsPayload)

variable {Tx ε : Type}

/-- The committees of a commit: its accounts that the bank still has. -/
def committeesOf (getAccount : Pubkey → Option AccountSharedData) (commit : ScheduledCommit Tx) :
    List AccountCommittee :=
  commit.accounts.filterMap fun pubkey =>
    (getAccount pubkey).map fun accountData =>
      ⟨pubkey, accountData, commit.slot, if commit.requestUndelegation then some commit.owner else none⟩

def sendablePayloads (payload : CommitAccountsPayload) : List SendableCommitAccountsPayload :=
  match payload.transaction with
  | some transaction => [⟨transaction, payload.committees⟩]
  | none => []

/-- `included_pubkeys`, a `HashSet` collected into a vector. -/
def includedPubkeys (payload : CommitAccountsPayload) : List Pubkey :=
  ((sendablePayloads payload).flatMap fun sendable => sendable.committees.map Prod.fst).dedup

/-- The `SentCommit` that `process` registers for a commit and the committer's payload;
`excluded_pubkeys` filters the `HashSet` of the commit's accounts. -/
def sentCommitOf (commit : ScheduledCommit Tx) (payload : CommitAccountsPayload) : SentCommit where
  commitId := commit.id
  slot := commit.slot
  blockhash := commit.blockhash
  payer := commit.payer
  chainSignatures := (sendablePayloads payload).map SendableCommitAccountsPayload.transaction
  includedPubkeys := includedPubkeys payload
  excludedPubkeys := commit.accounts.dedup.filter fun pubkey => pubkey ∉ includedPubkeys payload
  requestedUndelegationToOwner := if commit.requestUndelegation then some commit.owner else none

namespace CommitsState

def registerScheduledCommitSent (s : CommitsState Tx) (commit : SentCommit) : CommitsState Tx :=
  { s with sentCommits := Function.update s.sentCommits commit.commitId (some commit) }

/-- The part of `process_scheduled_commit_sent` after its checks: remove the entry and log it. -/
def processScheduledCommitSent (s : CommitsState Tx) (commitId : UInt64) :
    Except (AccountsError ε) (CommitsState Tx) :=
  match s.sentCommits commitId with
  | none => .error .cannotFindScheduledCommit
  | some commit =>
    .ok { s with sentCommits := Function.update s.sentCommits commitId none,
                 sentCommitLogs := s.sentCommitLogs ++ [commit] }

/-- Executing the commit's `ScheduledCommitSent` transaction, at position `index`. -/
def executeCommitSent (s : CommitsState Tx) (env : ProcessEnv ε) (index : Nat) (commitId : UInt64) :
    Except (AccountsError ε) (CommitsState Tx) :=
  match env.executeLegacyTransaction index with
  | .error error => .error (.transactionError error)
  | .ok () => s.processScheduledCommitSent commitId

end CommitsState

/-- The loop of `process` over the taken commits, from position `index`, with the queue of
sendable payloads; an error keeps what was written to `SENT_COMMITS` and drops the queue. -/
def processCommits (env : ProcessEnv ε) :
    Nat → List (ScheduledCommit Tx) → CommitsState Tx → List SendableCommitAccountsPayload →
      CommitsState Tx × Except (AccountsError ε) (List SendableCommitAccountsPayload)
  | _, [], s, queue => (s, .ok queue)
  | index, commit :: rest, s, queue =>
    match env.createCommitAccountsTransaction index (committeesOf env.getAccount commit) with
    | .error error => (s, .error (.committer error))
    | .ok payload =>
      let s := s.registerScheduledCommitSent (sentCommitOf commit payload)
      match s.executeCommitSent env index commit.id with
      | .error error => (s, .error error)
      | .ok s => processCommits env (index + 1) rest s (queue ++ sendablePayloads payload)

/-- `RemoteScheduledCommitsProcessor::process`. -/
def CommitsState.process (env : ProcessEnv ε) (s : CommitsState Tx) : CommitsState Tx × Except (AccountsError ε) Unit :=
  -- `take_scheduled_commits` leaves the scheduler empty
  let scheduledCommits := s.scheduledCommits
  let s := { s with scheduledCommits := [] }
  if scheduledCommits.isEmpty then (s, .ok ())
  else
    match processCommits env 0 scheduledCommits s [] with
    | (s, .ok queue) => ({ s with backgroundPayloads := s.backgroundPayloads ++ [queue] }, .ok ())
    | (s, .error error) => (s, .error error)


/-! ## What a registered commit records -/

theorem mem_includedPubkeys {payload : CommitAccountsPayload} {pubkey : Pubkey} :
    pubkey ∈ includedPubkeys payload ↔
      payload.transaction.isSome ∧ ∃ entry ∈ payload.committees, entry.1 = pubkey := by
  unfold includedPubkeys sendablePayloads
  -- a payload without a transaction sends nothing
  cases payload.transaction with
  | none =>
    simp only [List.flatMap_nil, List.dedup_nil, List.not_mem_nil, Option.isSome_none, Bool.false_eq_true,
      Prod.exists, exists_and_right, exists_eq_right, false_and]
  | some transaction =>
    simp only [List.flatMap_cons, List.flatMap_nil, List.append_nil, List.mem_dedup, List.mem_map, Prod.exists,
      exists_and_right, exists_eq_right, Option.isSome_some, true_and]

theorem mem_accounts_of_mem_committeesOf {getAccount : Pubkey → Option AccountSharedData}
    {commit : ScheduledCommit Tx} {pubkey : Pubkey}
    (member : pubkey ∈ (committeesOf getAccount commit).map AccountCommittee.pubkey) :
    pubkey ∈ commit.accounts := by
  simp only [committeesOf, List.mem_map, List.mem_filterMap, Option.map_eq_some_iff] at member
  obtain ⟨_, ⟨candidate, stored, _, _, rfl⟩, rfl⟩ := member
  exact stored

/-- When the payload only names committees it was given, the included and excluded pubkeys
of the registered `SentCommit` split the commit's accounts. -/
theorem sentCommitOf_partition (getAccount : Pubkey → Option AccountSharedData)
    (commit : ScheduledCommit Tx) (payload : CommitAccountsPayload)
    (honest : ∀ entry ∈ payload.committees,
      entry.1 ∈ (committeesOf getAccount commit).map AccountCommittee.pubkey)
    (pubkey : Pubkey) :
    (pubkey ∈ commit.accounts ↔ pubkey ∈ (sentCommitOf commit payload).includedPubkeys ∨
        pubkey ∈ (sentCommitOf commit payload).excludedPubkeys) ∧
      ¬ (pubkey ∈ (sentCommitOf commit payload).includedPubkeys ∧
        pubkey ∈ (sentCommitOf commit payload).excludedPubkeys) := by
  have included : pubkey ∈ includedPubkeys payload → pubkey ∈ commit.accounts := by
    rw [mem_includedPubkeys]
    rintro ⟨-, entry, member, rfl⟩
    exact mem_accounts_of_mem_committeesOf (honest entry member)
  simp only [sentCommitOf, List.mem_filter, List.mem_dedup, decide_eq_true_eq]
  constructor
  · constructor
    · intro stored
      by_cases named : pubkey ∈ includedPubkeys payload
      · exact .inl named
      · exact .inr ⟨stored, named⟩
    · rintro (named | ⟨stored, -⟩)
      · exact included named
      · exact stored
  · rintro ⟨named, -, unnamed⟩
    exact unnamed named

/-! ## One commit of the loop -/

namespace CommitsState

/-- The state after `process_scheduled_commit_sent` consumed the `SentCommit`s `logged`,
each one just after it was registered. -/
def consumeAll (s : CommitsState Tx) (logged : List SentCommit) : CommitsState Tx :=
  { s with
    sentCommits := fun commitId =>
      if commitId ∈ logged.map SentCommit.commitId then none else s.sentCommits commitId
    sentCommitLogs := s.sentCommitLogs ++ logged }

@[simp] theorem consumeAll_nil (s : CommitsState Tx) : s.consumeAll [] = s := by
  simp [consumeAll]

@[simp] theorem consumeAll_scheduledCommits (s : CommitsState Tx) (logged : List SentCommit) :
    (s.consumeAll logged).scheduledCommits = s.scheduledCommits := rfl

@[simp] theorem consumeAll_sentCommitLogs (s : CommitsState Tx) (logged : List SentCommit) :
    (s.consumeAll logged).sentCommitLogs = s.sentCommitLogs ++ logged := rfl

@[simp] theorem consumeAll_backgroundPayloads (s : CommitsState Tx) (logged : List SentCommit) :
    (s.consumeAll logged).backgroundPayloads = s.backgroundPayloads := rfl

@[simp] theorem registerScheduledCommitSent_scheduledCommits (s : CommitsState Tx) (commit : SentCommit) :
    (s.registerScheduledCommitSent commit).scheduledCommits = s.scheduledCommits := rfl

@[simp] theorem registerScheduledCommitSent_sentCommitLogs (s : CommitsState Tx) (commit : SentCommit) :
    (s.registerScheduledCommitSent commit).sentCommitLogs = s.sentCommitLogs := rfl

@[simp] theorem registerScheduledCommitSent_backgroundPayloads (s : CommitsState Tx) (commit : SentCommit) :
    (s.registerScheduledCommitSent commit).backgroundPayloads = s.backgroundPayloads := rfl

theorem consumeAll_sentCommits_of_mem (s : CommitsState Tx) {logged : List SentCommit}
    {commitId : UInt64} (member : commitId ∈ logged.map SentCommit.commitId) :
    (s.consumeAll logged).sentCommits commitId = none :=
  if_pos member

theorem consumeAll_consumeAll (s : CommitsState Tx) (logged more : List SentCommit) :
    (s.consumeAll logged).consumeAll more = s.consumeAll (logged ++ more) := by
  simp only [consumeAll, List.map_append, List.mem_append, List.append_assoc, mk.injEq, and_true,
    true_and]
  funext commitId
  by_cases later : commitId ∈ more.map SentCommit.commitId <;> simp [later]

theorem executeCommitSent_registerScheduledCommitSent (s : CommitsState Tx) (env : ProcessEnv ε)
    (index : Nat) (commit : SentCommit) (executed : env.executeLegacyTransaction index = .ok ()) :
    (s.registerScheduledCommitSent commit).executeCommitSent env index commit.commitId =
      .ok (s.consumeAll [commit]) := by
  simp only [executeCommitSent, executed, processScheduledCommitSent, registerScheduledCommitSent,
    Function.update_self, Function.update_idem, consumeAll]
  congr 2
  funext commitId
  by_cases same : commitId = commit.commitId <;> simp [same]

end CommitsState

section Loop

variable {env : ProcessEnv ε} {index : Nat} {commit : ScheduledCommit Tx}
  {rest : List (ScheduledCommit Tx)} {s : CommitsState Tx} {queue : List SendableCommitAccountsPayload}

theorem processCommits_cons_of_committer_error {error : ε}
    (failed : env.createCommitAccountsTransaction index (committeesOf env.getAccount commit) = .error error) :
    processCommits env index (commit :: rest) s queue = (s, .error (.committer error)) := by
  simp [processCommits, failed]

theorem processCommits_cons_of_transaction_error {payload : CommitAccountsPayload} {error : ε}
    (created : env.createCommitAccountsTransaction index (committeesOf env.getAccount commit) = .ok payload)
    (failed : env.executeLegacyTransaction index = .error error) :
    processCommits env index (commit :: rest) s queue =
      (s.registerScheduledCommitSent (sentCommitOf commit payload), .error (.transactionError error)) := by
  simp [processCommits, created, CommitsState.executeCommitSent, failed]

theorem processCommits_cons_of_executed {payload : CommitAccountsPayload}
    (created : env.createCommitAccountsTransaction index (committeesOf env.getAccount commit) = .ok payload)
    (executed : env.executeLegacyTransaction index = .ok ()) :
    processCommits env index (commit :: rest) s queue =
      processCommits env (index + 1) rest (s.consumeAll [sentCommitOf commit payload])
        (queue ++ sendablePayloads payload) := by
  have consumed : (s.registerScheduledCommitSent (sentCommitOf commit payload)).executeCommitSent env
      index commit.id = .ok (s.consumeAll [sentCommitOf commit payload]) :=
    s.executeCommitSent_registerScheduledCommitSent env index _ executed
  simp only [processCommits, created]
  rw [consumed]

end Loop

/-! ## The batch, split at its first failure -/

/-- `Settled env index commits logged sendables`: every commit of `commits`, the first at
position `index`, gets a payload from the committer and its `ScheduledCommitSent`
transaction executes; `logged` are the registered `SentCommit`s and `sendables` the
payloads queued for the background sender. -/
inductive Settled (env : ProcessEnv ε) :
    Nat → List (ScheduledCommit Tx) → List SentCommit → List SendableCommitAccountsPayload → Prop where
  | nil (index : Nat) : Settled env index [] [] []
  | cons {index : Nat} {commit : ScheduledCommit Tx} {rest : List (ScheduledCommit Tx)}
      {payload : CommitAccountsPayload} {logged : List SentCommit}
      {sendables : List SendableCommitAccountsPayload} :
      env.createCommitAccountsTransaction index (committeesOf env.getAccount commit) = .ok payload →
      env.executeLegacyTransaction index = .ok () →
      Settled env (index + 1) rest logged sendables →
      Settled env index (commit :: rest) (sentCommitOf commit payload :: logged)
        (sendablePayloads payload ++ sendables)

/-- The commit at position `index` does not go through: the committer fails, or it answers
and the execution of the commit's `ScheduledCommitSent` transaction fails. -/
def Fails (env : ProcessEnv ε) (index : Nat) (commit : ScheduledCommit Tx) : Prop :=
  ∀ payload, env.createCommitAccountsTransaction index (committeesOf env.getAccount commit) = .ok payload →
    env.executeLegacyTransaction index ≠ .ok ()

section Settled

variable {env : ProcessEnv ε}

theorem Settled.commitIds {index : Nat} {done : List (ScheduledCommit Tx)} {logged : List SentCommit}
    {sendables : List SendableCommitAccountsPayload} (settled : Settled env index done logged sendables) :
    logged.map SentCommit.commitId = done.map ScheduledCommit.id := by
  induction settled with
  | nil => rfl
  | cons _ _ _ ih => simp [ih, sentCommitOf]

/-- Every registered `SentCommit` is the one of a settled commit and the committer's payload
for it. -/
theorem Settled.mem_logged {index : Nat} {done : List (ScheduledCommit Tx)} {logged : List SentCommit}
    {sendables : List SendableCommitAccountsPayload} (settled : Settled env index done logged sendables)
    {sent : SentCommit} (member : sent ∈ logged) :
    ∃ commit ∈ done, ∃ position payload,
      env.createCommitAccountsTransaction position (committeesOf env.getAccount commit) = .ok payload ∧
        sent = sentCommitOf commit payload := by
  induction settled with
  | nil => cases member
  | @cons index commit rest payload logged sendables created _ _ ih =>
    cases member with
    | head => exact ⟨commit, List.mem_cons_self, index, payload, created, rfl⟩
    | tail _ member =>
      obtain ⟨other, stored, position, otherPayload, otherCreated, rfl⟩ := ih member
      exact ⟨other, List.mem_cons_of_mem _ stored, position, otherPayload, otherCreated, rfl⟩

/-- The run lemma of the loop: a settled prefix registers and consumes its `SentCommit`s
and queues its payloads, and the loop goes on after it. -/
theorem processCommits_append_of_settled {index : Nat} {done : List (ScheduledCommit Tx)}
    {logged : List SentCommit} {sendables : List SendableCommitAccountsPayload}
    (settled : Settled env index done logged sendables) (rest : List (ScheduledCommit Tx))
    (s : CommitsState Tx) (queue : List SendableCommitAccountsPayload) :
    processCommits env index (done ++ rest) s queue =
      processCommits env (index + done.length) rest (s.consumeAll logged) (queue ++ sendables) := by
  induction settled generalizing s queue with
  | nil => simp
  | @cons index commit done payload logged sendables created executed _ ih =>
    rw [List.cons_append, processCommits_cons_of_executed created executed, ih,
      CommitsState.consumeAll_consumeAll, List.append_assoc, List.length_cons, Nat.add_assoc,
      Nat.add_comm 1 done.length]
    rfl

end Settled

/-! ## A whole call of `process` -/

section Process

variable {env : ProcessEnv ε} {s : CommitsState Tx}

theorem process_of_loop_error {final : CommitsState Tx} {error : AccountsError ε}
    (failed : processCommits env 0 s.scheduledCommits { s with scheduledCommits := [] } [] =
      (final, .error error)) :
    s.process env = (final, .error error) := by
  have nonempty : s.scheduledCommits ≠ [] := by
    intro empty
    simp [empty, processCommits] at failed
  simp [CommitsState.process, nonempty, failed]

/-- A batch that goes through: the scheduler is left empty, every commit's `SentCommit` was
registered and consumed, and the queue of commit transactions reaches the background
sender. -/
theorem process_of_settled {logged : List SentCommit} {sendables : List SendableCommitAccountsPayload}
    (settled : Settled env 0 s.scheduledCommits logged sendables) (nonempty : s.scheduledCommits ≠ []) :
    s.process env =
      ({ ({ s with scheduledCommits := [] }.consumeAll logged) with
          backgroundPayloads := s.backgroundPayloads ++ [sendables] }, .ok ()) := by
  have run := processCommits_append_of_settled settled [] { s with scheduledCommits := [] } []
  rw [List.append_nil] at run
  simp [CommitsState.process, nonempty, run, processCommits]

/-- What every commit of a batch that goes through ends with: no commit is left in the
scheduler, one `SentCommit` per commit, in order, is logged by the instruction that removed
it, no entry of theirs is left in `SENT_COMMITS`, and their payloads are sent. -/
theorem process_settles_every_commit {logged : List SentCommit}
    {sendables : List SendableCommitAccountsPayload}
    (settled : Settled env 0 s.scheduledCommits logged sendables) (nonempty : s.scheduledCommits ≠ []) :
    (s.process env).2 = .ok () ∧ (s.process env).1.scheduledCommits = [] ∧
      (s.process env).1.sentCommitLogs = s.sentCommitLogs ++ logged ∧
      logged.map SentCommit.commitId = s.scheduledCommits.map ScheduledCommit.id ∧
      (∀ commit ∈ s.scheduledCommits, (s.process env).1.sentCommits commit.id = none) ∧
      (s.process env).1.backgroundPayloads = s.backgroundPayloads ++ [sendables] := by
  have ids := settled.commitIds
  rw [process_of_settled settled nonempty]
  refine ⟨rfl, rfl, rfl, ids, ?_, rfl⟩
  intro commit member
  apply CommitsState.consumeAll_sentCommits_of_mem
  rw [ids]
  exact List.mem_map_of_mem member

/-- A batch of two commits that both go through, with a committer that answers each with a
transaction: both are logged, in order, and both payloads go to the background sender. -/
theorem process_settles_every_commit_of_two :
    let first : ScheduledCommit Unit :=
      ⟨0, 0, FixedBytes.zero 32, [FixedBytes.replicate 32 1], FixedBytes.zero 32, FixedBytes.zero 32, (), false⟩
    let second : ScheduledCommit Unit := { first with id := 1 }
    let payload : CommitAccountsPayload := ⟨some (FixedBytes.zero 64), []⟩
    let env : ProcessEnv Unit := ⟨fun _ => none, fun _ _ => .ok payload, fun _ => .ok ()⟩
    let s : CommitsState Unit := ⟨[first, second], fun _ => none, [], []⟩
    let logged := [sentCommitOf first payload, sentCommitOf second payload]
    let sendables : List SendableCommitAccountsPayload := [⟨FixedBytes.zero 64, []⟩, ⟨FixedBytes.zero 64, []⟩]
    (s.process env).2 = .ok () ∧ (s.process env).1.scheduledCommits = [] ∧
      (s.process env).1.sentCommitLogs = s.sentCommitLogs ++ logged ∧
      logged.map SentCommit.commitId = s.scheduledCommits.map ScheduledCommit.id ∧
      (∀ commit ∈ s.scheduledCommits, (s.process env).1.sentCommits commit.id = none) ∧
      (s.process env).1.backgroundPayloads = s.backgroundPayloads ++ [sendables] :=
  process_settles_every_commit (.cons rfl rfl (.cons rfl rfl (.nil 2))) (List.cons_ne_nil _ _)

/-- With a committer whose payloads only name the committees it was given, every logged
`SentCommit` splits its commit's accounts into included and excluded pubkeys. -/
theorem Settled.partition
    (honest : ∀ position committees payload,
      env.createCommitAccountsTransaction position committees = .ok payload →
        ∀ entry ∈ payload.committees, entry.1 ∈ committees.map AccountCommittee.pubkey)
    {index : Nat} {done : List (ScheduledCommit Tx)} {logged : List SentCommit}
    {sendables : List SendableCommitAccountsPayload} (settled : Settled env index done logged sendables)
    {sent : SentCommit} (member : sent ∈ logged) :
    ∃ commit ∈ done, sent.commitId = commit.id ∧ ∀ pubkey,
      (pubkey ∈ commit.accounts ↔ pubkey ∈ sent.includedPubkeys ∨ pubkey ∈ sent.excludedPubkeys) ∧
        ¬ (pubkey ∈ sent.includedPubkeys ∧ pubkey ∈ sent.excludedPubkeys) := by
  obtain ⟨commit, stored, position, payload, created, rfl⟩ := settled.mem_logged member
  exact ⟨commit, stored, rfl,
    sentCommitOf_partition env.getAccount commit payload (honest position _ payload created)⟩

/-- A commit of two accounts, one of which the bank no longer has, and a committer that
commits exactly the committees it is given: the account the bank has is included, the other
excluded. -/
theorem Settled.partition_of_missing_account :
    let account : AccountSharedData := ⟨5, [], FixedBytes.zero 32, false, 0⟩
    let commit : ScheduledCommit Unit := ⟨0, 0, FixedBytes.zero 32,
      [FixedBytes.replicate 32 1, FixedBytes.replicate 32 2], FixedBytes.zero 32, FixedBytes.zero 32, (), false⟩
    let env : ProcessEnv Unit :=
      ⟨fun pubkey => if pubkey = FixedBytes.replicate 32 1 then some account else none,
        fun _ committees => .ok ⟨some (FixedBytes.zero 64), committees.map fun committee => (committee.pubkey, committee.accountData)⟩,
        fun _ => .ok ()⟩
    let sent := sentCommitOf commit ⟨some (FixedBytes.zero 64), [(FixedBytes.replicate 32 1, account)]⟩
    (∃ sendables, Settled env 0 [commit] [sent] sendables) ∧
      sent.includedPubkeys = [FixedBytes.replicate 32 1] ∧ sent.excludedPubkeys = [FixedBytes.replicate 32 2] ∧
      ∃ stored ∈ [commit], sent.commitId = stored.id ∧ ∀ pubkey,
        (pubkey ∈ stored.accounts ↔ pubkey ∈ sent.includedPubkeys ∨ pubkey ∈ sent.excludedPubkeys) ∧
          ¬ (pubkey ∈ sent.includedPubkeys ∧ pubkey ∈ sent.excludedPubkeys) := by
  intro account commit env sent
  -- the committer's payload names only the committees it was given
  have honest : ∀ position committees payload, env.createCommitAccountsTransaction position committees = .ok payload →
      ∀ entry ∈ payload.committees, entry.1 ∈ committees.map AccountCommittee.pubkey := by
    intro position committees payload created entry member
    cases created
    obtain ⟨committee, listed, rfl⟩ := List.mem_map.mp member
    exact List.mem_map_of_mem listed
  have settled : Settled env 0 [commit] [sent] _ := .cons rfl rfl (.nil 1)
  exact ⟨⟨_, settled⟩, by decide, by decide, Settled.partition honest settled (List.mem_singleton_self _)⟩

/-- A batch whose commit at position `done.length` fails: `process` returns an error with
the scheduler empty, so that commit and every commit after it are dropped: none of them is
logged, and none is left for a later call.  The payloads of the commits before it are never
sent, and when the committer answered for the failing commit its entry stays in
`SENT_COMMITS`. -/
theorem process_drops_commits_after_failure (done rest : List (ScheduledCommit Tx))
    (commit : ScheduledCommit Tx) (logged : List SentCommit)
    (sendables : List SendableCommitAccountsPayload)
    (queued : s.scheduledCommits = done ++ commit :: rest)
    (settled : Settled env 0 done logged sendables) (fails : Fails env done.length commit) :
    (s.process env).2.isOk = false ∧ (s.process env).1.scheduledCommits = [] ∧
      (s.process env).1.sentCommitLogs = s.sentCommitLogs ++ logged ∧
      logged.map SentCommit.commitId = done.map ScheduledCommit.id ∧
      (s.process env).1.backgroundPayloads = s.backgroundPayloads ∧
      ∀ payload, env.createCommitAccountsTransaction done.length (committeesOf env.getAccount commit) =
          .ok payload → (s.process env).1.sentCommits commit.id = some (sentCommitOf commit payload) := by
  have run := processCommits_append_of_settled settled (commit :: rest) { s with scheduledCommits := [] } []
  rw [← queued, Nat.zero_add, List.nil_append] at run
  -- the failing commit ends the loop, with its entry registered or not
  cases created : env.createCommitAccountsTransaction done.length (committeesOf env.getAccount commit) with
  | error error =>
    rw [processCommits_cons_of_committer_error created] at run
    rw [process_of_loop_error run]
    refine ⟨rfl, rfl, rfl, settled.commitIds, rfl, ?_⟩
    intro payload answered
    cases answered
  | ok payload =>
    cases executed : env.executeLegacyTransaction done.length with
    | ok _ => exact absurd executed (fails payload created)
    | error error =>
      rw [processCommits_cons_of_transaction_error created executed] at run
      rw [process_of_loop_error run]
      refine ⟨rfl, rfl, rfl, settled.commitIds, rfl, ?_⟩
      intro answer answered
      cases answered
      simp [CommitsState.registerScheduledCommitSent, sentCommitOf]

end Process

/-- A batch of two commits: the first goes through, the second's `ScheduledCommitSent`
transaction fails.  Nothing is sent and the second's entry stays. -/
theorem process_drops_commits_after_failure_at_second :
    let first : ScheduledCommit Unit :=
      ⟨0, 0, FixedBytes.zero 32, [FixedBytes.replicate 32 1], FixedBytes.zero 32, FixedBytes.zero 32, (), false⟩
    let second : ScheduledCommit Unit := { first with id := 1 }
    let env : ProcessEnv Unit :=
      ⟨fun _ => none, fun _ _ => .ok ⟨none, []⟩, fun index => if index = 0 then .ok () else .error ()⟩
    let s : CommitsState Unit := ⟨[first, second], fun _ => none, [], []⟩
    (s.process env).2.isOk = false ∧ (s.process env).1.scheduledCommits = [] ∧
      (s.process env).1.sentCommitLogs = s.sentCommitLogs ++ [sentCommitOf first ⟨none, []⟩] ∧
      [sentCommitOf first ⟨none, []⟩].map SentCommit.commitId = [first].map ScheduledCommit.id ∧
      (s.process env).1.backgroundPayloads = s.backgroundPayloads ∧
      ∀ payload, env.createCommitAccountsTransaction [first].length (committeesOf env.getAccount second) =
          .ok payload → (s.process env).1.sentCommits second.id = some (sentCommitOf second payload) :=
  process_drops_commits_after_failure [_] [] _ _ [] rfl
    (.cons rfl rfl (.nil 1)) (fun _ _ => by simp)

end EphemeralValidator.Accounts
