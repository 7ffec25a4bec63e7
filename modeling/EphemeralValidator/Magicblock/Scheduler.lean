import EphemeralValidator.Lib.Except
import EphemeralValidator.Magicblock.ScheduleCommit
import EphemeralValidator.Magicblock.InstructionContextFrames

/-! # The commit scheduler as a system

`process_schedule_commit` checks its accounts, draws an id from the process-global
counter `COMMIT_ID`, builds a `ScheduledCommit` for the committed accounts and queues it
in the `MagicContext` account.  The validator's `AcceptScheduleCommits` transaction moves
the queue into the process-global `TransactionScheduler` vector, and the committer drains
that vector with `take_scheduled_commits`.

The instruction reads its accounts through the transaction: an instruction account is the
transaction's account of its key, so a committee listed twice is one account, and the owner
an undelegation writes at its first occurrence is what its second occurrence is checked
against.  The calling program is found in the transaction's instruction trace, which the
runtime records depth first: it is the program of the frame that invoked the current one.

The system state is the context account with the two statics.  A failed instruction, or
one whose transaction fails later, leaves the accounts as they were but not the statics:
an id drawn by `fetch_add` stays spent.  A run records which commits reached the context
account and which the committer took.  Two facts hold along every run: each commit that
reached the account is, at every moment, in exactly one of the three places (taken, in
the global vector, or still queued), in scheduling order, and an accept signed by the
validator authority moves the whole queue to the end of the global vector; and the ids are
distinct as long as the counter has not been drawn more than `2 ^ 64` times.  Past that the
counter wraps: the last section runs the scheduler, with every instruction succeeding,
into a repeated id.
-/

namespace EphemeralValidator.Magicblock

open EphemeralValidator.Bytes EphemeralValidator.Solana EphemeralValidator.Lib

/-! ## `process_schedule_commit` -/

/-- `get_instruction_account_with_idx`: the transaction's account an instruction account
stands for.  A transaction lists each key once, so the instruction accounts of one key are
one account. -/
def instructionAccount (keys : List Pubkey) (accounts : Pubkey → AccountSharedData) (idx : Nat) :
    Except InstructionError AccountSharedData := do
  let key ← instructionPubkey keys idx
  pure (accounts key)

/-- What `process_schedule_commit` reads from the runtime besides the accounts.  The runtime
lists the instructions of a transaction depth first, the current one among them. -/
structure ScheduleCommitEnv where
  signers : List Pubkey
  /-- the keys of the instruction accounts: payer, context, then the committees -/
  keys : List Pubkey
  /-- `find_index_of_program_account(&crate::id())` found the program -/
  magicProgramFound : Bool
  /-- the instruction contexts of the trace, which `InstructionContextFrames::try_from` reads -/
  trace : List InstructionContext
  /-- `get_current_instruction_context` -/
  current : InstructionContext
  depthFirst : DepthFirst ((InstructionContextFrames.frames trace).map InstructionFrame.getNestingLevel)
  traced : current ∈ trace
  /-- the clock sysvar, if the sysvar cache has it -/
  clock : Option Slot
  blockhash : Hash

/-- The calling program: `InstructionContextFrames::try_from` on the trace, then
`find_program_id_of_parent_of_current_instruction`.  Their panics are out of reach on a trace
the runtime records (`ScheduleCommitEnv.parentProgramId_eq_some`); what is left is the `None`
of a top-level instruction, or of a caller without a program key. -/
def ScheduleCommitEnv.parentProgramId (env : ScheduleCommitEnv) : Option Pubkey :=
  match InstructionContextFrames.findProgramIdOfParentOfCurrentInstruction env.trace env.current with
  | some (.ok programId) => programId
  | _ => none

/-- The loop over the committees (instruction accounts from index 2 on): each must be
owned by the calling program; its key is recorded and, for an undelegation, its owner
becomes the delegation program. -/
def scheduleCommittees (parentProgramId delegationProgramId : Pubkey) (requestUndelegation : Bool)
    (keys : List Pubkey) : List Nat → List Pubkey → (Pubkey → AccountSharedData) →
    Except InstructionError (List Pubkey × (Pubkey → AccountSharedData))
  | [], pubkeys, accounts => .ok (pubkeys, accounts)
  | idx :: rest, pubkeys, accounts => do
    let accPubkey ← instructionPubkey keys idx
    let acc ← instructionAccount keys accounts idx
    if parentProgramId ≠ acc.owner then throw .invalidAccountOwner
    let accounts :=
      if requestUndelegation then Function.update accounts accPubkey { acc with owner := delegationProgramId }
      else accounts
    scheduleCommittees parentProgramId delegationProgramId requestUndelegation keys rest
      (pubkeys ++ [accPubkey]) accounts

/-- The checks of `process_schedule_commit` before the id is drawn, through the
committee loop: the payer, the calling program, the committed keys and the accounts as
the loop leaves them. -/
def scheduleCommitChecks (magicContextId delegationProgramId : Pubkey) (requestUndelegation : Bool)
    (env : ScheduleCommitEnv) (accounts : Pubkey → AccountSharedData) :
    Except InstructionError (Pubkey × Pubkey × List Pubkey × (Pubkey → AccountSharedData)) := do
  checkMagicContextId magicContextId env.keys 1
  if !env.magicProgramFound then throw .unsupportedProgramId
  -- `ix_accs_len <= COMMITTEES_START`: there must be an account to commit
  if env.keys.length ≤ 2 then throw .notEnoughAccountKeys
  let payer ← instructionPubkey env.keys 0
  if payer ∉ env.signers then throw .missingRequiredSignature
  let parentProgramId ← match env.parentProgramId with
    | none => throw .invalidInstructionData
    | some programId => pure programId
  let (pubkeys, accounts) ← scheduleCommittees parentProgramId delegationProgramId
    requestUndelegation env.keys (List.range' 2 (env.keys.length - 2)) [] accounts
  pure (payer, parentProgramId, pubkeys, accounts)

variable {Tx : Type} (txCodec : Codec Tx)

/-- `process_schedule_commit` on the transaction's accounts and the value of `COMMIT_ID`.
It returns the counter afterwards and, on success, the commit it queued (the source logs its
id) with the accounts. -/
def processScheduleCommit (magicContextId delegationProgramId : Pubkey)
    (scheduledCommitSent : UInt64 → Hash → Tx) (requestUndelegation : Bool)
    (env : ScheduleCommitEnv) (accounts : Pubkey → AccountSharedData) (commitId : UInt64) :
    UInt64 × Except InstructionError (ScheduledCommit Tx × (Pubkey → AccountSharedData)) :=
  match scheduleCommitChecks magicContextId delegationProgramId requestUndelegation env accounts with
  | .error e => (commitId, .error e)
  | .ok (payer, parentProgramId, pubkeys, accounts) =>
    -- `COMMIT_ID.fetch_add(1)`, wrapping; the id is spent even if a later step fails
    let id := commitId
    let commitId := commitId + 1
    match env.clock with
    | none => (commitId, .error .unsupportedSysvar)
    | some slot =>
      let commit : ScheduledCommit Tx :=
        { id, slot, blockhash := env.blockhash, accounts := pubkeys, payer,
          owner := parentProgramId, commitSentTransaction := scheduledCommitSent id env.blockhash,
          requestUndelegation }
      -- `get_instruction_account_with_idx(MAGIC_CONTEXT_IDX)`, written back by `set_state`
      match instructionPubkey env.keys 1 with
      | .error e => (commitId, .error e)
      | .ok contextKey =>
        match scheduleCommit txCodec (accounts contextKey) commit with
        | .error _ => (commitId, .error .genericError)
        | .ok contextAccount => (commitId, .ok (commit, Function.update accounts contextKey contextAccount))

/-! ## What one instruction can do -/

section Instruction

variable {txCodec}

theorem instructionAccount_eq_ok {keys : List Pubkey} {accounts : Pubkey → AccountSharedData} {idx : Nat}
    {account : AccountSharedData} :
    instructionAccount keys accounts idx = .ok account ↔ ∃ key, keys[idx]? = some key ∧ accounts key = account := by
  simp only [instructionAccount, bind_eq_ok, pure_eq_ok, instructionPubkey_eq_ok]

/-- One pass of the committee loop: the key of the index, owned by the calling program as the
loop has left it, recorded, and the owner rewritten for an undelegation. -/
theorem scheduleCommittees_cons_eq_ok {parentProgramId delegationProgramId : Pubkey} {requestUndelegation : Bool}
    {keys : List Pubkey} {idx : Nat} {rest : List Nat} {pubkeys : List Pubkey}
    {accounts : Pubkey → AccountSharedData} {result : List Pubkey × (Pubkey → AccountSharedData)} :
    scheduleCommittees parentProgramId delegationProgramId requestUndelegation keys (idx :: rest) pubkeys accounts =
        .ok result ↔
      ∃ key, keys[idx]? = some key ∧ (accounts key).owner = parentProgramId ∧
        scheduleCommittees parentProgramId delegationProgramId requestUndelegation keys rest (pubkeys ++ [key])
          (if requestUndelegation then Function.update accounts key { accounts key with owner := delegationProgramId }
            else accounts) = .ok result := by
  simp only [scheduleCommittees, bind_eq_ok, throw_bind, ite_throw_eq_ok, instructionPubkey_eq_ok,
    instructionAccount_eq_ok, not_not]
  constructor
  · rintro ⟨key, found, acc, ⟨key', found', rfl⟩, owned, looped⟩
    rw [found] at found'
    cases found'
    exact ⟨key, found, owned.symm, looped⟩
  · rintro ⟨key, found, owned, looped⟩
    exact ⟨key, found, accounts key, ⟨key, found, rfl⟩, owned.symm, looped⟩

/-- The committee loop keeps the data of every account, and every account whose key it does
not visit. -/
theorem scheduleCommittees_keeps {parentProgramId delegationProgramId : Pubkey} {requestUndelegation : Bool}
    {keys : List Pubkey} {idxs : List Nat} {pubkeys pubkeys' : List Pubkey}
    {accounts accounts' : Pubkey → AccountSharedData}
    (looped : scheduleCommittees parentProgramId delegationProgramId requestUndelegation keys idxs pubkeys accounts =
      .ok (pubkeys', accounts')) :
    (∀ key, (accounts' key).data = (accounts key).data) ∧
      ∀ key, key ∉ idxs.filterMap (keys[·]?) → accounts' key = accounts key := by
  induction idxs generalizing pubkeys accounts with
  | nil =>
    simp only [scheduleCommittees, Except.ok.injEq, Prod.mk.injEq] at looped
    rw [looped.2]
    exact ⟨fun _ => rfl, fun _ _ => rfl⟩
  | cons idx rest ih =>
    obtain ⟨key, found, -, looped⟩ := scheduleCommittees_cons_eq_ok.mp looped
    obtain ⟨data, unvisited⟩ := ih looped
    -- an undelegation rewrites the owner of the visited account only
    have visit : ∀ other, (if requestUndelegation then
        Function.update accounts key { accounts key with owner := delegationProgramId } else accounts) other =
          accounts other ∨ (other = key ∧ (if requestUndelegation then
            Function.update accounts key { accounts key with owner := delegationProgramId } else accounts) other =
              { accounts key with owner := delegationProgramId }) := by
      intro other
      split
      · by_cases same : other = key
        · subst same
          exact .inr ⟨rfl, Function.update_self _ _ _⟩
        · exact .inl (Function.update_of_ne same _ _)
      · exact .inl rfl
    refine ⟨fun other => ?_, fun other notVisited => ?_⟩
    · rw [data other]
      rcases visit other with kept | ⟨rfl, rewritten⟩
      · rw [kept]
      · rw [rewritten]
    · rw [List.filterMap_cons, found] at notVisited
      rw [unvisited other (fun later => notVisited (List.mem_cons_of_mem _ later))]
      rcases visit other with kept | ⟨rfl, -⟩
      · exact kept
      · exact absurd List.mem_cons_self notVisited

/-- The keys at the indices from `start` on, read one by one, are the keys after `start`. -/
theorem filterMap_range'_getElem? (keys : List Pubkey) (start : Nat) :
    (List.range' start (keys.length - start)).filterMap (keys[·]?) = keys.drop start := by
  induction h : keys.length - start generalizing start with
  | zero =>
    rw [List.range'_zero, List.filterMap_nil, List.drop_eq_nil_of_le (by omega)]
  | succ n ih =>
    have inBounds : start < keys.length := by omega
    rw [List.range'_succ, List.filterMap_cons, List.getElem?_eq_getElem inBounds,
      ih (start + 1) (by omega), List.drop_eq_getElem_cons inBounds]

/-- What a successful committee loop checked and did, for keys that may repeat: it recorded
the key of each index in turn, the account of each key it visited was owned by the calling
program before the loop, and for an undelegation each one is now owned by the delegation
program.  A key listed again after an undelegation is checked against the owner the loop
wrote, which passes only if the calling program is the delegation program. -/
theorem scheduleCommittees_eq_ok {parentProgramId delegationProgramId : Pubkey}
    {requestUndelegation : Bool} {keys : List Pubkey} {idxs : List Nat}
    {pubkeys pubkeys' : List Pubkey} {accounts accounts' : Pubkey → AccountSharedData}
    (looped : scheduleCommittees parentProgramId delegationProgramId requestUndelegation keys idxs
      pubkeys accounts = .ok (pubkeys', accounts')) :
    pubkeys' = pubkeys ++ idxs.filterMap (keys[·]?) ∧
      (∀ key ∈ idxs.filterMap (keys[·]?), (accounts key).owner = parentProgramId) ∧
      (requestUndelegation = true →
        ∀ key ∈ idxs.filterMap (keys[·]?), (accounts' key).owner = delegationProgramId) := by
  induction idxs generalizing pubkeys accounts with
  | nil =>
    simp only [scheduleCommittees, Except.ok.injEq, Prod.mk.injEq] at looped
    obtain ⟨rfl, -⟩ := looped
    simp
  | cons idx rest ih =>
    obtain ⟨key, found, owned, looped⟩ := scheduleCommittees_cons_eq_ok.mp looped
    obtain ⟨recorded, checked, undelegated⟩ := ih looped
    have keyOwner : ∀ other, ((if requestUndelegation then
        Function.update accounts key { accounts key with owner := delegationProgramId } else accounts) other).owner =
          parentProgramId → (accounts other).owner = parentProgramId := by
      intro other owner
      split at owner
      · -- a rewritten account was the one just checked
        by_cases same : other = key
        · subst same
          exact owned
        · rwa [Function.update_of_ne same] at owner
      · exact owner
    refine ⟨?_, ?_, ?_⟩
    · rw [recorded, List.filterMap_cons, found, List.append_assoc]
      rfl
    · intro other member
      rw [List.filterMap_cons, found] at member
      rcases List.mem_cons.mp member with rfl | later
      · exact owned
      · exact keyOwner other (checked other later)
    · intro undelegation other member
      rw [List.filterMap_cons, found] at member
      rcases List.mem_cons.mp member with rfl | later
      · -- the last write of the key is this pass's, or a later pass's for the same key
        by_cases visitedLater : other ∈ rest.filterMap (keys[·]?)
        · exact undelegated undelegation other visitedLater
        · rw [(scheduleCommittees_keeps looped).2 other visitedLater, if_pos undelegation, Function.update_self]
      · exact undelegated undelegation other later

/-- What passing the checks of `process_schedule_commit` means: the context is the second key,
the payer is the first and signed, there is an account to commit, the calling program was
found, and the committee loop ran over the indices from 2 on. -/
theorem scheduleCommitChecks_eq_ok {magicContextId delegationProgramId : Pubkey}
    {requestUndelegation : Bool} {env : ScheduleCommitEnv} {accounts : Pubkey → AccountSharedData}
    {payer parentProgramId : Pubkey} {pubkeys : List Pubkey} {accounts' : Pubkey → AccountSharedData}
    (checked : scheduleCommitChecks magicContextId delegationProgramId requestUndelegation env accounts =
      .ok (payer, parentProgramId, pubkeys, accounts')) :
    env.keys[1]? = some magicContextId ∧ env.keys[0]? = some payer ∧ payer ∈ env.signers ∧
      2 < env.keys.length ∧ env.parentProgramId = some parentProgramId ∧
      scheduleCommittees parentProgramId delegationProgramId requestUndelegation env.keys
        (List.range' 2 (env.keys.length - 2)) [] accounts = .ok (pubkeys, accounts') := by
  simp only [scheduleCommitChecks, bind_eq_ok, throw_bind, ite_throw_eq_ok] at checked
  obtain ⟨⟨⟩, context, -, enough, payer', hpayer, signed, checked⟩ := checked
  have contextKey : env.keys[1]? = some magicContextId := by
    simp only [checkMagicContextId, bind_eq_ok, instructionPubkey_eq_ok] at context
    obtain ⟨provided, found, same⟩ := context
    split at same
    · next equal => rw [found, equal]
    · cases same
  split at checked
  · exact absurd checked throw_ne_ok
  · next programId found =>
    simp only [bind_eq_ok, pure_eq_ok, Prod.mk.injEq] at checked
    obtain ⟨parent, hparent, looped, hloop, rfl, rfl, rfl, rfl⟩ := checked
    cases hparent
    exact ⟨contextKey, instructionPubkey_eq_ok.mp hpayer, not_not.mp signed, by omega, found, hloop⟩

/-- The counter moves by at most one: `fetch_add` runs once or not at all. -/
theorem processScheduleCommit_commitId (magicContextId delegationProgramId : Pubkey)
    (scheduledCommitSent : UInt64 → Hash → Tx) (requestUndelegation : Bool)
    (env : ScheduleCommitEnv) (accounts : Pubkey → AccountSharedData) (commitId : UInt64) :
    (processScheduleCommit txCodec magicContextId delegationProgramId scheduledCommitSent
      requestUndelegation env accounts commitId).1 ∈ [commitId, commitId + 1] := by
  unfold processScheduleCommit
  split
  · simp
  -- past the checks the id is drawn, so every outcome carries `commitId + 1`
  cases env.clock with
  | none => simp
  | some slot =>
    simp only
    split
    · simp
    · split <;> simp

/-- A successful `process_schedule_commit` drew its id, and queued its commit in the context
account, the transaction's account of the second key: the account as the committee loop left
it, whose data is the data it had. -/
theorem processScheduleCommit_eq_ok {magicContextId delegationProgramId : Pubkey}
    {scheduledCommitSent : UInt64 → Hash → Tx} {requestUndelegation : Bool}
    {env : ScheduleCommitEnv} {accounts : Pubkey → AccountSharedData} {commitId : UInt64}
    {commit : ScheduledCommit Tx} {accounts' : Pubkey → AccountSharedData}
    (scheduled : (processScheduleCommit txCodec magicContextId delegationProgramId scheduledCommitSent
      requestUndelegation env accounts commitId).2 = .ok (commit, accounts')) :
    (processScheduleCommit txCodec magicContextId delegationProgramId scheduledCommitSent
      requestUndelegation env accounts commitId).1 = commitId + 1 ∧ commit.id = commitId ∧
    ∃ contextAccount contextAccount', contextAccount.data = (accounts magicContextId).data ∧
      scheduleCommit txCodec contextAccount commit = .ok contextAccount' ∧
      accounts' magicContextId = contextAccount' := by
  unfold processScheduleCommit at scheduled ⊢
  cases checked : scheduleCommitChecks magicContextId delegationProgramId requestUndelegation env accounts with
  | error e => simp [checked] at scheduled
  | ok result =>
    obtain ⟨payer, parentProgramId, pubkeys, looped⟩ := result
    obtain ⟨contextKey, -, -, -, -, loop⟩ := scheduleCommitChecks_eq_ok checked
    cases clock : env.clock with
    | none => simp [checked, clock] at scheduled
    | some slot =>
      simp only [checked, clock, instructionPubkey_eq_ok.mpr contextKey] at scheduled ⊢
      split at scheduled
      · simp at scheduled
      · next contextAccount' queued =>
        simp only [Except.ok.injEq, Prod.mk.injEq] at scheduled
        obtain ⟨rfl, rfl⟩ := scheduled
        exact ⟨rfl, rfl, looped magicContextId, contextAccount', (scheduleCommittees_keeps loop).1 magicContextId,
          queued, Function.update_self _ _ _⟩

/-- The converse: once the checks pass, the clock is there and `schedule_commit`
accepts the commit, the instruction succeeds with that commit. -/
theorem processScheduleCommit_eq_of_checks {magicContextId delegationProgramId : Pubkey}
    {scheduledCommitSent : UInt64 → Hash → Tx} {requestUndelegation : Bool}
    {env : ScheduleCommitEnv} {accounts : Pubkey → AccountSharedData} {commitId : UInt64}
    {payer parentProgramId : Pubkey} {pubkeys : List Pubkey} {looped : Pubkey → AccountSharedData}
    {slot : Slot} {contextAccount' : AccountSharedData}
    (checked : scheduleCommitChecks magicContextId delegationProgramId requestUndelegation env accounts =
      .ok (payer, parentProgramId, pubkeys, looped))
    (clock : env.clock = some slot)
    (queued : scheduleCommit txCodec (looped magicContextId)
      ⟨commitId, slot, env.blockhash, pubkeys, payer, parentProgramId,
        scheduledCommitSent commitId env.blockhash, requestUndelegation⟩ = .ok contextAccount') :
    processScheduleCommit txCodec magicContextId delegationProgramId scheduledCommitSent
        requestUndelegation env accounts commitId =
      (commitId + 1, .ok (⟨commitId, slot, env.blockhash, pubkeys, payer, parentProgramId,
        scheduledCommitSent commitId env.blockhash, requestUndelegation⟩,
        Function.update looped magicContextId contextAccount')) := by
  obtain ⟨contextKey, -⟩ := scheduleCommitChecks_eq_ok checked
  unfold processScheduleCommit
  rw [checked]
  simp only [clock, instructionPubkey_eq_ok.mpr contextKey, queued]

/-- A successful `process_schedule_commit` queued the commit its checks describe, and changed
nothing but the context account besides what the committee loop did. -/
theorem processScheduleCommit_checks {magicContextId delegationProgramId : Pubkey}
    {scheduledCommitSent : UInt64 → Hash → Tx} {requestUndelegation : Bool}
    {env : ScheduleCommitEnv} {accounts : Pubkey → AccountSharedData} {commitId : UInt64}
    {commit : ScheduledCommit Tx} {accounts' : Pubkey → AccountSharedData}
    (scheduled : (processScheduleCommit txCodec magicContextId delegationProgramId scheduledCommitSent
      requestUndelegation env accounts commitId).2 = .ok (commit, accounts')) :
    ∃ looped contextAccount', scheduleCommitChecks magicContextId delegationProgramId requestUndelegation env
        accounts = .ok (commit.payer, commit.owner, commit.accounts, looped) ∧
      commit.requestUndelegation = requestUndelegation ∧
      scheduleCommit txCodec (looped magicContextId) commit = .ok contextAccount' ∧
      accounts' = Function.update looped magicContextId contextAccount' := by
  unfold processScheduleCommit at scheduled
  cases checked : scheduleCommitChecks magicContextId delegationProgramId requestUndelegation env accounts with
  | error e => simp [checked] at scheduled
  | ok result =>
    obtain ⟨payer, parentProgramId, pubkeys, looped⟩ := result
    obtain ⟨contextKey, -⟩ := scheduleCommitChecks_eq_ok checked
    cases clock : env.clock with
    | none => simp [checked, clock] at scheduled
    | some slot =>
      simp only [checked, clock, instructionPubkey_eq_ok.mpr contextKey] at scheduled
      split at scheduled
      · simp at scheduled
      · next contextAccount' queued =>
        simp only [Except.ok.injEq, Prod.mk.injEq] at scheduled
        obtain ⟨rfl, rfl⟩ := scheduled
        exact ⟨looped, contextAccount', rfl, rfl, queued, rfl⟩

/-- On a zero-filled context account, a `ScheduleCommit` whose checks pass queues its commit
whenever the context with that one commit fits: the committee loop leaves the context's data
as it was. -/
theorem processScheduleCommit_ok_of_zeroed {magicContextId delegationProgramId : Pubkey}
    {scheduledCommitSent : UInt64 → Hash → Tx} {requestUndelegation : Bool}
    {env : ScheduleCommitEnv} {accounts : Pubkey → AccountSharedData} {commitId : UInt64}
    {payer parentProgramId : Pubkey} {pubkeys : List Pubkey} {looped : Pubkey → AccountSharedData}
    {slot : Slot} {bs : List UInt8}
    (checked : scheduleCommitChecks magicContextId delegationProgramId requestUndelegation env accounts =
      .ok (payer, parentProgramId, pubkeys, looped))
    (clock : env.clock = some slot)
    (encoded : (MagicContext.codec txCodec).encode ⟨[] ++ [⟨commitId, slot, env.blockhash, pubkeys, payer,
      parentProgramId, scheduledCommitSent commitId env.blockhash, requestUndelegation⟩]⟩ = some bs)
    (fits : bs.length ≤ MagicContext.size) (zeroed : (accounts magicContextId).data = MagicContext.zero) :
    ∃ commit accounts', (processScheduleCommit txCodec magicContextId delegationProgramId scheduledCommitSent
      requestUndelegation env accounts commitId).2 = .ok (commit, accounts') := by
  obtain ⟨-, -, -, -, -, loop⟩ := scheduleCommitChecks_eq_ok checked
  have inv : ContextInv txCodec (looped magicContextId) [] :=
    (ContextInv.initial zeroed).of_data_eq ((scheduleCommittees_keeps loop).1 _)
  obtain ⟨contextAccount', queued⟩ := inv.scheduleCommit_ok encoded fits
  rw [processScheduleCommit_eq_of_checks checked clock queued]
  exact ⟨_, _, rfl⟩

end Instruction

/-! ## The system -/

/-- The process constants the instructions use: `MAGIC_CONTEXT_PUBKEY`,
`validator_authority_id()`, `DELEGATION_PROGRAM_ID` and `scheduled_commit_sent`. -/
structure SchedulerConfig (Tx : Type) where
  txCodec : Codec Tx
  magicContextId : Pubkey
  validatorAuthority : Pubkey
  delegationProgramId : Pubkey
  scheduledCommitSent : UInt64 → Hash → Tx

/-- The state the scheduling instructions share: the context account, the global
`TransactionScheduler` vector and `COMMIT_ID`. -/
structure SchedulerState (Tx : Type) where
  contextAccount : AccountSharedData
  scheduledCommits : List (ScheduledCommit Tx)
  commitId : UInt64

inductive SchedulerEvent where
  /-- `ScheduleCommit`, or `ScheduleCommitAndUndelegate` when `requestUndelegation`; the
  context account is the bank's, the transaction's other accounts come with the call, and
  `committed` says whether the enclosing transaction commits -/
  | scheduleCommit (requestUndelegation : Bool) (env : ScheduleCommitEnv)
      (accounts : Pubkey → AccountSharedData) (committed : Bool)
  /-- the validator's `AcceptScheduleCommits` transaction -/
  | acceptScheduledCommits (signers keys : List Pubkey)
  /-- `TransactionScheduler::take_scheduled_commits` -/
  | takeScheduledCommits

def SchedulerEvent.isScheduleCommit : SchedulerEvent → Bool
  | .scheduleCommit .. => true
  | _ => false

/-- What a run did besides changing the state: the commits that reached the context
account, and the commits the committer took. -/
structure SchedulerTrace (Tx : Type) where
  created : List (ScheduledCommit Tx)
  taken : List (ScheduledCommit Tx)

def SchedulerTrace.append {Tx : Type} (t u : SchedulerTrace Tx) : SchedulerTrace Tx :=
  ⟨t.created ++ u.created, t.taken ++ u.taken⟩

@[simp] theorem SchedulerTrace.created_append {t u : SchedulerTrace Tx} :
    (t.append u).created = t.created ++ u.created := rfl

@[simp] theorem SchedulerTrace.taken_append {t u : SchedulerTrace Tx} :
    (t.append u).taken = t.taken ++ u.taken := rfl

namespace SchedulerState

variable (cfg : SchedulerConfig Tx)

def step (s : SchedulerState Tx) : SchedulerEvent → SchedulerState Tx × SchedulerTrace Tx
  | .scheduleCommit requestUndelegation env accounts committed =>
    match processScheduleCommit cfg.txCodec cfg.magicContextId cfg.delegationProgramId
        cfg.scheduledCommitSent requestUndelegation env
        (Function.update accounts cfg.magicContextId s.contextAccount) s.commitId with
    | (commitId, .ok (commit, accounts)) =>
      -- the accounts are written back only if the transaction commits; the counter is not
      if committed then
        ({ s with contextAccount := accounts cfg.magicContextId, commitId }, ⟨[commit], []⟩)
      else ({ s with commitId }, ⟨[], []⟩)
    | (commitId, .error _) => ({ s with commitId }, ⟨[], []⟩)
  | .acceptScheduledCommits signers keys =>
    match processAcceptScheduledCommits cfg.txCodec cfg.magicContextId cfg.validatorAuthority
        signers keys s.contextAccount s.scheduledCommits with
    | (scheduledCommits, .ok contextAccount) => ({ s with contextAccount, scheduledCommits }, ⟨[], []⟩)
    | (scheduledCommits, .error _) => ({ s with scheduledCommits }, ⟨[], []⟩)
  | .takeScheduledCommits => ({ s with scheduledCommits := [] }, ⟨[], s.scheduledCommits⟩)

def run : SchedulerState Tx → List SchedulerEvent → SchedulerState Tx × SchedulerTrace Tx
  | s, [] => (s, ⟨[], []⟩)
  | s, e :: es =>
    let rest := run (s.step cfg e).1 es
    (rest.1, (s.step cfg e).2.append rest.2)

@[simp] theorem run_nil (s : SchedulerState Tx) : s.run cfg [] = (s, ⟨[], []⟩) := rfl

@[simp] theorem run_cons (s : SchedulerState Tx) (e : SchedulerEvent) (es : List SchedulerEvent) :
    s.run cfg (e :: es) =
      (((s.step cfg e).1.run cfg es).1, (s.step cfg e).2.append ((s.step cfg e).1.run cfg es).2) :=
  rfl

end SchedulerState

@[simp] theorem SchedulerTrace.append_empty {t : SchedulerTrace Tx} : t.append ⟨[], []⟩ = t := by
  simp [SchedulerTrace.append]

theorem SchedulerTrace.append_assoc {t u v : SchedulerTrace Tx} :
    (t.append u).append v = t.append (u.append v) := by
  simp [SchedulerTrace.append]

/-! ## Conservation of commits -/

variable (cfg : SchedulerConfig Tx)

/-- Every commit that reached the context account is in exactly one place, in the order
it was scheduled: taken by the committer, in the global vector, or still queued. -/
def Conserved (s : SchedulerState Tx) (trace : SchedulerTrace Tx) : Prop :=
  ∃ pending, ContextInv cfg.txCodec s.contextAccount pending ∧
    trace.created = trace.taken ++ s.scheduledCommits ++ pending

variable {cfg}

/-- A successful `ScheduleCommit` in the system read the bank's context account and queued
its commit there. -/
theorem SchedulerState.step_scheduleCommit_ok {s : SchedulerState Tx} {requestUndelegation : Bool}
    {env : ScheduleCommitEnv} {accounts accounts' : Pubkey → AccountSharedData} {commitId : UInt64}
    {commit : ScheduledCommit Tx} {pending : List (ScheduledCommit Tx)}
    (inv : ContextInv cfg.txCodec s.contextAccount pending)
    (scheduled : processScheduleCommit cfg.txCodec cfg.magicContextId cfg.delegationProgramId
      cfg.scheduledCommitSent requestUndelegation env
      (Function.update accounts cfg.magicContextId s.contextAccount) s.commitId = (commitId, .ok (commit, accounts'))) :
    commitId = s.commitId + 1 ∧ commit.id = s.commitId ∧
      ContextInv cfg.txCodec (accounts' cfg.magicContextId) (pending ++ [commit]) := by
  obtain ⟨drawn, id, contextAccount, contextAccount', data, queued, written⟩ :=
    processScheduleCommit_eq_ok (by rw [scheduled])
  rw [Function.update_self] at data
  rw [scheduled] at drawn
  refine ⟨drawn, id, ?_⟩
  rw [written]
  exact (inv.of_data_eq data).scheduleCommit queued

/-- In the system, an accept signed by the validator authority, with the authority and the
context as its first two accounts, moves the queue to the end of the global vector and
leaves the context account empty. -/
theorem SchedulerState.step_acceptScheduledCommits_signed {s : SchedulerState Tx}
    {pending : List (ScheduledCommit Tx)} {signers keys : List Pubkey}
    (inv : ContextInv cfg.txCodec s.contextAccount pending)
    (authorityKey : keys[0]? = some cfg.validatorAuthority) (contextKey : keys[1]? = some cfg.magicContextId)
    (signed : cfg.validatorAuthority ∈ signers) :
    (s.step cfg (.acceptScheduledCommits signers keys)).1.scheduledCommits = s.scheduledCommits ++ pending ∧
      ContextInv cfg.txCodec (s.step cfg (.acceptScheduledCommits signers keys)).1.contextAccount [] ∧
      (s.step cfg (.acceptScheduledCommits signers keys)).1.commitId = s.commitId ∧
      (s.step cfg (.acceptScheduledCommits signers keys)).2.created = [] := by
  obtain ⟨account, accepted, emptied⟩ :=
    inv.processAcceptScheduledCommits_signed contextKey authorityKey signed s.scheduledCommits
  rw [SchedulerState.step, accepted]
  exact ⟨rfl, emptied, rfl, rfl⟩

theorem Conserved.step {s : SchedulerState Tx} {trace : SchedulerTrace Tx} (e : SchedulerEvent)
    (conserved : Conserved cfg s trace) :
    Conserved cfg (s.step cfg e).1 (trace.append (s.step cfg e).2) := by
  obtain ⟨pending, inv, hcreated⟩ := conserved
  cases e with
  | scheduleCommit requestUndelegation env accounts committed =>
    rw [SchedulerState.step]
    split
    · next commitId commit accounts' scheduled =>
      obtain ⟨-, -, queued⟩ := SchedulerState.step_scheduleCommit_ok inv scheduled
      split
      · -- a committed success queues its commit behind the pending ones
        exact ⟨pending ++ [commit], queued, by simp [hcreated]⟩
      · exact ⟨pending, inv, by simpa using hcreated⟩
    · exact ⟨pending, inv, by simpa using hcreated⟩
  | acceptScheduledCommits signers keys =>
    rw [SchedulerState.step]
    rcases @processAcceptScheduledCommits_cases _ cfg.txCodec cfg.magicContextId cfg.validatorAuthority signers keys
        s.contextAccount s.scheduledCommits with
      ⟨e, hresult⟩ | ⟨context, hdecode, hempty, hresult⟩ |
      ⟨context, account, hdecode, hwrite, hresult⟩
    · -- a failed accept leaves the global vector and the account as they were
      rw [hresult]
      exact ⟨pending, inv, by simpa using hcreated⟩
    · rw [hresult]
      exact ⟨pending, inv, by simpa using hcreated⟩
    · -- the queue moves to the end of the global vector and the account is emptied
      rw [hresult]
      have hpending := inv.pending_eq_nil hdecode
      subst hpending
      refine ⟨[], ?_, by simp [hcreated]⟩
      exact inv.acceptScheduledCommits (congrArg Prod.snd hresult)
  | takeScheduledCommits =>
    exact ⟨pending, inv, by simp [SchedulerState.step, hcreated]⟩

theorem Conserved.run {s : SchedulerState Tx} {trace : SchedulerTrace Tx} (es : List SchedulerEvent)
    (conserved : Conserved cfg s trace) :
    Conserved cfg (s.run cfg es).1 (trace.append (s.run cfg es).2) := by
  induction es generalizing s trace with
  | nil => simpa using conserved
  | cons e es ih =>
    rw [SchedulerState.run_cons, ← SchedulerTrace.append_assoc]
    exact ih (conserved.step e)

/-! ## Fresh ids -/

/-- The counter has been drawn `allocated` times, without wrapping, and the ids of the
commits so far are increasing and among the values drawn. -/
def IdsFresh (commitId : UInt64) (created : List (ScheduledCommit Tx)) (allocated : Nat) : Prop :=
  commitId = UInt64.ofNat allocated ∧
    created.Pairwise (fun c d => c.id.toNat < d.id.toNat) ∧ ∀ c ∈ created, c.id.toNat < allocated

section Fresh

variable {commitId : UInt64} {created : List (ScheduledCommit Tx)} {allocated : Nat}

/-- A draw that gives its id to no commit keeps the ids fresh. -/
theorem IdsFresh.skip (fresh : IdsFresh commitId created allocated) :
    IdsFresh (commitId + 1) created (allocated + 1) := by
  obtain ⟨hcounter, hsorted, hbelow⟩ := fresh
  exact ⟨by rw [hcounter, UInt64.ofNat_add, UInt64.ofNat_one], hsorted,
    fun c hc => Nat.lt_succ_of_lt (hbelow c hc)⟩

/-- So does a draw whose id a new commit gets, as long as the counter has not wrapped. -/
theorem IdsFresh.draw (fresh : IdsFresh commitId created allocated) (room : allocated < 2 ^ 64)
    {commit : ScheduledCommit Tx} (hid : commit.id = commitId) :
    IdsFresh (commitId + 1) (created ++ [commit]) (allocated + 1) := by
  obtain ⟨hcounter, hsorted, hbelow⟩ := fresh.skip
  have drawn : commit.id.toNat = allocated := by
    rw [hid, fresh.1]
    exact UInt64.toNat_ofNat_of_lt' room
  refine ⟨hcounter, ?_, ?_⟩
  · rw [List.pairwise_append]
    refine ⟨hsorted, List.pairwise_singleton _ _, ?_⟩
    intro c hc d hd
    rw [List.mem_singleton.mp hd, drawn]
    exact fresh.2.2 c hc
  · intro c hc
    rcases List.mem_append.mp hc with hc | hc
    · exact hbelow c hc
    · rw [List.mem_singleton.mp hc, drawn]
      exact Nat.lt_succ_self allocated

end Fresh

theorem IdsFresh.step {s : SchedulerState Tx} {created : List (ScheduledCommit Tx)} {allocated : Nat}
    (e : SchedulerEvent) (fresh : IdsFresh s.commitId created allocated)
    (room : e.isScheduleCommit → allocated < 2 ^ 64) :
    ∃ allocated', allocated' ≤ allocated + (if e.isScheduleCommit then 1 else 0) ∧
      IdsFresh (s.step cfg e).1.commitId (created ++ (s.step cfg e).2.created) allocated' := by
  cases e with
  | scheduleCommit requestUndelegation env accounts committed =>
    have room : allocated < 2 ^ 64 := room rfl
    rw [SchedulerState.step, SchedulerEvent.isScheduleCommit, if_pos rfl]
    split
    · next commitId commit accounts hresult =>
      obtain ⟨hcommitId, hid, -⟩ := processScheduleCommit_eq_ok (by rw [hresult])
      rw [hresult] at hcommitId
      subst hcommitId
      refine ⟨allocated + 1, le_refl _, ?_⟩
      -- the commit got the drawn id; it counts only if its transaction commits
      split
      · exact fresh.draw room hid
      · simpa using fresh.skip
    · next commitId e hresult =>
      -- a failed instruction drew an id or failed before drawing one
      have drawn := @processScheduleCommit_commitId _ cfg.txCodec cfg.magicContextId
        cfg.delegationProgramId cfg.scheduledCommitSent requestUndelegation env
        (Function.update accounts cfg.magicContextId s.contextAccount) s.commitId
      rw [hresult, List.mem_pair] at drawn
      rcases drawn with rfl | rfl
      · exact ⟨allocated, Nat.le_succ allocated, by simpa using fresh⟩
      · exact ⟨allocated + 1, le_refl _, by simpa using fresh.skip⟩
  | acceptScheduledCommits signers keys =>
    refine ⟨allocated, by simp, ?_⟩
    rw [SchedulerState.step]
    split <;> simpa using fresh
  | takeScheduledCommits =>
    exact ⟨allocated, by simp, by simpa [SchedulerState.step] using fresh⟩

theorem IdsFresh.run {s : SchedulerState Tx} {created : List (ScheduledCommit Tx)} {allocated : Nat}
    (es : List SchedulerEvent) (fresh : IdsFresh s.commitId created allocated)
    (room : allocated + es.countP SchedulerEvent.isScheduleCommit ≤ 2 ^ 64) :
    ∃ allocated', allocated' ≤ allocated + es.countP SchedulerEvent.isScheduleCommit ∧
      IdsFresh (s.run cfg es).1.commitId (created ++ (s.run cfg es).2.created) allocated' := by
  induction es generalizing s created allocated with
  | nil => exact ⟨allocated, by simp, by simpa using fresh⟩
  | cons e es ih =>
    rw [List.countP_cons] at room ⊢
    -- `draws` is the one id the first event may draw
    have draws : (if e.isScheduleCommit then 1 else 0) ≤ 1 := by split <;> omega
    have stepRoom : e.isScheduleCommit → allocated < 2 ^ 64 := by
      intro schedule
      rw [if_pos schedule] at room
      omega
    obtain ⟨allocated₁, hallocated₁, fresh₁⟩ := fresh.step e stepRoom
    obtain ⟨allocated₂, hallocated₂, fresh₂⟩ := ih fresh₁ (by omega)
    refine ⟨allocated₂, by omega, ?_⟩
    simpa [List.append_assoc] using fresh₂

/-! ## Rounds of schedule and accept -/

theorem SchedulerState.run_append (s : SchedulerState Tx) (es fs : List SchedulerEvent) :
    s.run cfg (es ++ fs) =
      (((s.run cfg es).1.run cfg fs).1, (s.run cfg es).2.append ((s.run cfg es).1.run cfg fs).2) := by
  induction es generalizing s with
  | nil => simp [SchedulerTrace.append]
  | cons e es ih => simp [ih, SchedulerTrace.append_assoc]

section Pairs

variable (σ α : SchedulerEvent) (commitAt : UInt64 → ScheduledCommit Tx)

/-- Alternating a schedule that always succeeds on an empty queue with an accept that
always empties a queue of one: every pair draws one id and creates one commit. -/
theorem SchedulerState.run_pairs
    (scheduled : ∀ s : SchedulerState Tx, ContextInv cfg.txCodec s.contextAccount [] →
      ContextInv cfg.txCodec (s.step cfg σ).1.contextAccount [commitAt s.commitId] ∧
        (s.step cfg σ).1.commitId = s.commitId + 1 ∧ (s.step cfg σ).2.created = [commitAt s.commitId])
    (accepted : ∀ (s : SchedulerState Tx) (commit : ScheduledCommit Tx),
      ContextInv cfg.txCodec s.contextAccount [commit] →
      ContextInv cfg.txCodec (s.step cfg α).1.contextAccount [] ∧
        (s.step cfg α).1.commitId = s.commitId ∧ (s.step cfg α).2.created = [])
    (n : Nat) (s : SchedulerState Tx) (inv : ContextInv cfg.txCodec s.contextAccount []) :
    let result := s.run cfg (List.replicate n [σ, α]).flatten
    ContextInv cfg.txCodec result.1.contextAccount [] ∧
      result.1.commitId = s.commitId + UInt64.ofNat n ∧
      result.2.created = (List.range n).map fun i => commitAt (s.commitId + UInt64.ofNat i) := by
  induction n generalizing s with
  | zero => simp [inv]
  | succ n ih =>
    obtain ⟨inv₁, counter₁, created₁⟩ := scheduled s inv
    obtain ⟨inv₂, counter₂, created₂⟩ := accepted (s.step cfg σ).1 (commitAt s.commitId) inv₁
    obtain ⟨inv₃, counter₃, created₃⟩ := ih ((s.step cfg σ).1.step cfg α).1 inv₂
    have shift : ∀ i : Nat, s.commitId + 1 + UInt64.ofNat i = s.commitId + UInt64.ofNat (i + 1) := by
      intro i
      rw [UInt64.ofNat_add, UInt64.ofNat_one, add_assoc, add_comm 1]
    simp only [List.replicate_succ, List.flatten_cons, List.cons_append, List.nil_append,
      SchedulerState.run_cons]
    refine ⟨inv₃, ?_, ?_⟩
    · rw [counter₃, counter₂, counter₁, shift]
    · simp only [SchedulerTrace.created_append, created₁, created₂, created₃, counter₂, counter₁,
        shift, List.range_succ_eq_map, List.map_cons, List.map_map]
      simp [Function.comp_def]

end Pairs

/-! ## A concrete run -/

section ConcreteRun

/-- The constants of the run: the context, the validator authority and the delegation
program have keys `[1; 32]`, `[2; 32]` and `[3; 32]`, and commit transactions are `()`. -/
def wrapConfig : SchedulerConfig Unit :=
  ⟨Codec.unit, FixedBytes.replicate 32 1, FixedBytes.replicate 32 2, FixedBytes.replicate 32 3,
    fun _ _ => ()⟩

def wrapContext : AccountSharedData := ⟨0, MagicContext.zero, FixedBytes.zero 32, false, 0⟩

/-- The instruction trace of the run's transactions: the program `[6; 32]` at the top, which
invokes the magic program `[7; 32]`. -/
def wrapTrace : List InstructionContext :=
  [⟨1, some (FixedBytes.replicate 32 6)⟩, ⟨2, some (FixedBytes.replicate 32 7)⟩]

theorem wrapTrace_depthFirst :
    DepthFirst ((InstructionContextFrames.frames wrapTrace).map InstructionFrame.getNestingLevel) :=
  DepthFirst.one_call

theorem wrapTrace_current : (⟨2, some (FixedBytes.replicate 32 7)⟩ : InstructionContext) ∈ wrapTrace :=
  List.mem_cons_of_mem _ List.mem_cons_self

/-- A `ScheduleCommit` of `[5; 32]` paid and signed by `[4; 32]`, issued by the magic program
when `[6; 32]` calls it. -/
def wrapEnv : ScheduleCommitEnv :=
  ⟨[FixedBytes.replicate 32 4],
    [FixedBytes.replicate 32 4, FixedBytes.replicate 32 1, FixedBytes.replicate 32 5],
    true, wrapTrace, ⟨2, some (FixedBytes.replicate 32 7)⟩, wrapTrace_depthFirst, wrapTrace_current,
    some 0, FixedBytes.zero 32⟩

/-- The account committed by the run, owned by the program `[6; 32]` that calls in. -/
def wrapCommittee : AccountSharedData := ⟨0, [], FixedBytes.replicate 32 6, false, 0⟩

/-- The transaction's accounts: the committee `[5; 32]`, and empty system accounts. -/
def wrapAccounts (key : Pubkey) : AccountSharedData :=
  if key = FixedBytes.replicate 32 5 then wrapCommittee else ⟨0, [], FixedBytes.zero 32, false, 0⟩

/-- The run's `ScheduleCommit`, in a transaction that commits. -/
def wrapSchedule : SchedulerEvent :=
  .scheduleCommit false wrapEnv wrapAccounts true

/-- The validator's accept, signed by the authority. -/
def wrapAccept : SchedulerEvent :=
  .acceptScheduledCommits [FixedBytes.replicate 32 2]
    [FixedBytes.replicate 32 2, FixedBytes.replicate 32 1]

/-- The commit `wrapSchedule` queues when the counter stands at `id`. -/
def wrapCommit (id : UInt64) : ScheduledCommit Unit :=
  ⟨id, 0, FixedBytes.zero 32, [FixedBytes.replicate 32 5], FixedBytes.replicate 32 4,
    FixedBytes.replicate 32 6, (), false⟩

/-- One queued `wrapCommit` fits the context account many times over. -/
theorem wrapCommit_encode (id : UInt64) :
    ∃ bs, (MagicContext.codec Codec.unit).encode ⟨[] ++ [wrapCommit id]⟩ = some bs ∧
      bs.length ≤ MagicContext.size :=
  -- the codecs reduce to the encoding by unfolding; only its length is then counted, through
  -- the lengths of the fixed-size fields
  ⟨_, rfl, by simp [MagicContext.size, wrapCommit, FixedBytes.length_eq]⟩

theorem wrapSchedule_step (s : SchedulerState Unit)
    (inv : ContextInv wrapConfig.txCodec s.contextAccount []) :
    ContextInv wrapConfig.txCodec (s.step wrapConfig wrapSchedule).1.contextAccount [wrapCommit s.commitId] ∧
      (s.step wrapConfig wrapSchedule).1.commitId = s.commitId + 1 ∧
      (s.step wrapConfig wrapSchedule).2.created = [wrapCommit s.commitId] := by
  -- the checks do not read the context account, which stays a variable
  have checked : scheduleCommitChecks (FixedBytes.replicate 32 1) (FixedBytes.replicate 32 3) false wrapEnv
      (Function.update wrapAccounts (FixedBytes.replicate 32 1) s.contextAccount) =
      .ok (FixedBytes.replicate 32 4, FixedBytes.replicate 32 6, [FixedBytes.replicate 32 5],
        Function.update wrapAccounts (FixedBytes.replicate 32 1) s.contextAccount) := by
    rfl
  obtain ⟨bs, encoded, fits⟩ := wrapCommit_encode s.commitId
  obtain ⟨contextAccount', queued⟩ := inv.scheduleCommit_ok encoded fits
  have scheduled := @processScheduleCommit_eq_of_checks _ Codec.unit _ _ (fun _ _ => ()) _ _ _
    s.commitId _ _ _ _ _ _ checked rfl (by rw [Function.update_self]; exact queued)
  have stepped : s.step wrapConfig wrapSchedule =
      ({ s with contextAccount := contextAccount', commitId := s.commitId + 1 },
        ⟨[wrapCommit s.commitId], []⟩) := by
    rw [wrapSchedule, SchedulerState.step]
    simp only [wrapConfig]
    rw [scheduled]
    simp only [if_true, Function.update_self]
    rfl
  rw [stepped]
  exact ⟨inv.scheduleCommit queued, rfl, rfl⟩

theorem wrapAccept_step (s : SchedulerState Unit) (commit : ScheduledCommit Unit)
    (inv : ContextInv wrapConfig.txCodec s.contextAccount [commit]) :
    ContextInv wrapConfig.txCodec (s.step wrapConfig wrapAccept).1.contextAccount [] ∧
      (s.step wrapConfig wrapAccept).1.commitId = s.commitId ∧
      (s.step wrapConfig wrapAccept).2.created = [] := by
  obtain ⟨-, emptied, counter, created⟩ := @SchedulerState.step_acceptScheduledCommits_signed _ wrapConfig s [commit]
    [FixedBytes.replicate 32 2] [FixedBytes.replicate 32 2, FixedBytes.replicate 32 1] inv rfl rfl
    (List.mem_singleton_self _)
  exact ⟨emptied, counter, created⟩

end ConcreteRun

/-- Over any run from a zero-filled context account and fresh statics, every commit that
reached the context account is, in scheduling order, either taken by the committer, in
the global vector, or still queued in the account, which decodes to exactly the queued
ones; an accept signed by the validator authority would move exactly those to the end of the
global vector and leave the account empty; and as long as at most `2 ^ 64` `ScheduleCommit`
instructions ran, no two commits share an id. -/
theorem commits_moved_exactly_once (cfg : SchedulerConfig Tx) {contextAccount : AccountSharedData}
    (zeroed : contextAccount.data = MagicContext.zero) (events : List SchedulerEvent) :
    let result := (SchedulerState.mk contextAccount [] 0).run cfg events
    (∃ pending, MagicContext.deserialize cfg.txCodec result.1.contextAccount = .ok ⟨pending⟩ ∧
      result.2.created = result.2.taken ++ result.1.scheduledCommits ++ pending ∧
      ∀ signers keys, keys[0]? = some cfg.validatorAuthority → keys[1]? = some cfg.magicContextId →
        cfg.validatorAuthority ∈ signers →
        (result.1.step cfg (.acceptScheduledCommits signers keys)).1.scheduledCommits =
            result.1.scheduledCommits ++ pending ∧
          MagicContext.deserialize cfg.txCodec
            (result.1.step cfg (.acceptScheduledCommits signers keys)).1.contextAccount = .ok ⟨[]⟩) ∧
    (events.countP SchedulerEvent.isScheduleCommit ≤ 2 ^ 64 →
      (result.2.created.map ScheduledCommit.id).Nodup) := by
  intro result
  constructor
  · have initial : Conserved cfg ⟨contextAccount, [], 0⟩ ⟨[], []⟩ :=
      ⟨[], ContextInv.initial zeroed, rfl⟩
    obtain ⟨pending, inv, hcreated⟩ := initial.run events
    refine ⟨pending, inv.deserialize, by simpa using hcreated, ?_⟩
    intro signers keys authorityKey contextKey signed
    obtain ⟨moved, emptied, -⟩ := SchedulerState.step_acceptScheduledCommits_signed inv authorityKey contextKey signed
    exact ⟨moved, emptied.deserialize⟩
  · intro room
    have initial : IdsFresh (0 : UInt64) ([] : List (ScheduledCommit Tx)) 0 :=
      ⟨rfl, List.Pairwise.nil, by simp⟩
    obtain ⟨-, -, -, increasing, -⟩ :=
      IdsFresh.run (s := ⟨contextAccount, [], 0⟩) events initial (by simpa using room)
    -- increasing ids, as numbers below `2 ^ 64`, are distinct ids
    rw [List.Nodup, List.pairwise_map]
    exact (by simpa using increasing : List.Pairwise _ result.2.created).imp
      fun lt same => absurd (congrArg UInt64.toNat same) (Nat.ne_of_lt lt)

/-- Two rounds of the run above, the committer taking the first commit between them and the
second still queued at the end. -/
theorem commits_moved_exactly_once_of_round :
    wrapContext.data = MagicContext.zero ∧
      let events := [wrapSchedule, wrapAccept, .takeScheduledCommits, wrapSchedule]
      let result := (SchedulerState.mk wrapContext [] 0).run wrapConfig events
      (∃ pending, MagicContext.deserialize wrapConfig.txCodec result.1.contextAccount = .ok ⟨pending⟩ ∧
        result.2.created = result.2.taken ++ result.1.scheduledCommits ++ pending ∧
        ∀ signers keys, keys[0]? = some wrapConfig.validatorAuthority → keys[1]? = some wrapConfig.magicContextId →
          wrapConfig.validatorAuthority ∈ signers →
          (result.1.step wrapConfig (.acceptScheduledCommits signers keys)).1.scheduledCommits =
              result.1.scheduledCommits ++ pending ∧
            MagicContext.deserialize wrapConfig.txCodec
              (result.1.step wrapConfig (.acceptScheduledCommits signers keys)).1.contextAccount = .ok ⟨[]⟩) ∧
      (events.countP SchedulerEvent.isScheduleCommit ≤ 2 ^ 64 →
        (result.2.created.map ScheduledCommit.id).Nodup) :=
  ⟨rfl, commits_moved_exactly_once wrapConfig rfl [wrapSchedule, wrapAccept, .takeScheduledCommits, wrapSchedule]⟩

/-- `2 ^ 64` schedule-and-accept rounds and one more schedule, all of them successful:
the counter wraps and the last commit gets the id of the first. -/
theorem commit_ids_repeat_after_wrap :
    let events := (List.replicate (2 ^ 64) [wrapSchedule, wrapAccept]).flatten ++ [wrapSchedule]
    let result := (SchedulerState.mk wrapContext [] 0).run wrapConfig events
    wrapContext.data = MagicContext.zero ∧
      events.countP SchedulerEvent.isScheduleCommit = 2 ^ 64 + 1 ∧
      result.2.created.length = 2 ^ 64 + 1 ∧
      ¬ (result.2.created.map ScheduledCommit.id).Nodup := by
  intro events result
  obtain ⟨inv, counter, created⟩ := SchedulerState.run_pairs wrapSchedule wrapAccept wrapCommit
    wrapSchedule_step wrapAccept_step (2 ^ 64) ⟨wrapContext, [], 0⟩ (ContextInv.initial rfl)
  obtain ⟨-, -, createdLast⟩ := wrapSchedule_step _ inv
  -- `2 ^ 64` draws bring the counter back to zero
  have wrapped : (0 : UInt64) + UInt64.ofNat (2 ^ 64) = 0 := by decide
  have hcreated : result.2.created =
      ((List.range (2 ^ 64)).map fun i => wrapCommit (0 + UInt64.ofNat i)) ++ [wrapCommit 0] := by
    show ((SchedulerState.mk wrapContext [] 0).run wrapConfig
      ((List.replicate (2 ^ 64) [wrapSchedule, wrapAccept]).flatten ++ [wrapSchedule])).2.created = _
    rw [SchedulerState.run_append, SchedulerTrace.created_append, created, SchedulerState.run_cons,
      SchedulerTrace.created_append, createdLast, counter, SchedulerState.run_nil]
    show List.map (fun i => wrapCommit (0 + UInt64.ofNat i)) (List.range (2 ^ 64)) ++
      ([wrapCommit (0 + UInt64.ofNat (2 ^ 64))] ++ []) = _
    rw [wrapped, List.append_nil]
  refine ⟨rfl, ?_, ?_, ?_⟩
  · -- one schedule per round, counted by induction so that nothing unfolds `2 ^ 64` times
    have rounds : ∀ n, ((List.replicate n [wrapSchedule, wrapAccept]).flatten).countP
        SchedulerEvent.isScheduleCommit = n := by
      intro n
      induction n with
      | zero => rfl
      | succ n ih =>
        have round : [wrapSchedule, wrapAccept].countP SchedulerEvent.isScheduleCommit = 1 := rfl
        rw [List.replicate_succ, List.flatten_cons, List.countP_append, ih, round, Nat.add_comm]
    rw [List.countP_append, rounds]
    rfl
  · rw [hcreated, List.length_append, List.length_map, List.length_range, List.length_singleton]
  · rw [hcreated, List.map_append, List.nodup_append]
    rintro ⟨-, -, disjoint⟩
    -- the first commit, drawn at zero, and the last share the id `0`
    have first : (wrapCommit (0 + UInt64.ofNat 0)).id ∈
        ((List.range (2 ^ 64)).map fun i => wrapCommit (0 + UInt64.ofNat i)).map ScheduledCommit.id :=
      List.mem_map_of_mem (List.mem_map_of_mem (List.mem_range.mpr (by norm_num)))
    exact disjoint _ first _ (List.mem_singleton_self _) rfl

/-! ## What a queued commit guarantees -/

section Queued

variable {txCodec}

/-- An undelegation that lists a committee twice writes the delegation program as its owner at
the first occurrence and checks that owner at the second: the loop goes through only if the
calling program is the delegation program. -/
theorem scheduleCommittees_undelegation_of_repeated {parentProgramId delegationProgramId : Pubkey}
    {keys : List Pubkey} {idxs : List Nat} {pubkeys pubkeys' : List Pubkey}
    {accounts accounts' : Pubkey → AccountSharedData}
    (looped : scheduleCommittees parentProgramId delegationProgramId true keys idxs pubkeys accounts =
      .ok (pubkeys', accounts'))
    (repeated : ¬ (idxs.filterMap (keys[·]?)).Nodup) : parentProgramId = delegationProgramId := by
  induction idxs generalizing pubkeys accounts with
  | nil => exact absurd List.nodup_nil repeated
  | cons idx rest ih =>
    obtain ⟨key, found, -, looped⟩ := scheduleCommittees_cons_eq_ok.mp looped
    rw [List.filterMap_cons, found, List.nodup_cons, not_and_or, not_not] at repeated
    rcases repeated with again | later
    · -- the later pass checks the owner this pass wrote
      obtain ⟨-, owned, -⟩ := scheduleCommittees_eq_ok looped
      have rewritten := owned key again
      rw [if_pos rfl, Function.update_self] at rewritten
      exact rewritten.symm
    · exact ih looped later

/-- A `ScheduleCommitAndUndelegate` whose committees repeat a key fails, unless the program
that calls it is the delegation program itself. -/
theorem processScheduleCommit_undelegation_of_repeated {magicContextId delegationProgramId : Pubkey}
    {scheduledCommitSent : UInt64 → Hash → Tx} {env : ScheduleCommitEnv}
    {accounts : Pubkey → AccountSharedData} {commitId : UInt64} {commit : ScheduledCommit Tx}
    {accounts' : Pubkey → AccountSharedData}
    (scheduled : (processScheduleCommit txCodec magicContextId delegationProgramId scheduledCommitSent
      true env accounts commitId).2 = .ok (commit, accounts'))
    (repeated : ¬ (env.keys.drop 2).Nodup) : commit.owner = delegationProgramId := by
  obtain ⟨looped, -, checked, -⟩ := processScheduleCommit_checks scheduled
  obtain ⟨-, -, -, -, -, loop⟩ := scheduleCommitChecks_eq_ok checked
  rw [← filterMap_range'_getElem?] at repeated
  exact scheduleCommittees_undelegation_of_repeated loop repeated

/-- The delegation program `[3; 32]` itself calls `ScheduleCommitAndUndelegate` with its
committee `[5; 32]` listed twice: the second pass finds the owner the first pass wrote. -/
theorem processScheduleCommit_undelegation_of_repeated_by_delegation_program :
    let env : ScheduleCommitEnv :=
      ⟨[FixedBytes.replicate 32 4],
        [FixedBytes.replicate 32 4, FixedBytes.replicate 32 1, FixedBytes.replicate 32 5, FixedBytes.replicate 32 5],
        true, [⟨1, some (FixedBytes.replicate 32 3)⟩, ⟨2, some (FixedBytes.replicate 32 7)⟩],
        ⟨2, some (FixedBytes.replicate 32 7)⟩, DepthFirst.one_call, List.mem_cons_of_mem _ List.mem_cons_self,
        some 0, FixedBytes.zero 32⟩
    let accounts (key : Pubkey) : AccountSharedData :=
      if key = FixedBytes.replicate 32 1 then wrapContext
      else if key = FixedBytes.replicate 32 5 then ⟨0, [], FixedBytes.replicate 32 3, false, 0⟩
      else ⟨0, [], FixedBytes.zero 32, false, 0⟩
    ¬ (env.keys.drop 2).Nodup ∧ ∃ commit accounts', (processScheduleCommit Codec.unit (FixedBytes.replicate 32 1)
        (FixedBytes.replicate 32 3) (fun _ _ => ()) true env accounts 0).2 = .ok (commit, accounts') ∧
      commit.owner = FixedBytes.replicate 32 3 := by
  intro env accounts
  -- the checks end with the accounts as the loop leaves them, kept as a variable
  obtain ⟨looped, checked⟩ : ∃ looped, scheduleCommitChecks (FixedBytes.replicate 32 1) (FixedBytes.replicate 32 3)
      true env accounts = .ok (FixedBytes.replicate 32 4, FixedBytes.replicate 32 3,
        [FixedBytes.replicate 32 5, FixedBytes.replicate 32 5], looped) := ⟨_, rfl⟩
  obtain ⟨bs, encoded, fits⟩ : ∃ bs, (MagicContext.codec Codec.unit).encode
      ⟨[] ++ [⟨0, 0, FixedBytes.zero 32, [FixedBytes.replicate 32 5, FixedBytes.replicate 32 5],
        FixedBytes.replicate 32 4, FixedBytes.replicate 32 3, (), true⟩]⟩ = some bs ∧ bs.length ≤ MagicContext.size :=
    ⟨_, rfl, by simp [MagicContext.size, FixedBytes.length_eq]⟩
  obtain ⟨commit, accounts', scheduled⟩ := @processScheduleCommit_ok_of_zeroed _ Codec.unit _ _ (fun _ _ => ())
    _ _ _ 0 _ _ _ _ _ _ checked rfl encoded fits rfl
  exact ⟨by decide, commit, accounts', scheduled, processScheduleCommit_undelegation_of_repeated scheduled (by decide)⟩

end Queued

end EphemeralValidator.Magicblock
