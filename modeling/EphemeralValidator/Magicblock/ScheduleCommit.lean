import EphemeralValidator.Magicblock.MagicContext

/-! # Scheduling and accepting commits

`process_schedule_commit` (with `TransactionScheduler::schedule_commit`) appends a
`ScheduledCommit` to the `MagicContext` account by decoding the context, pushing the
commit and writing it back with `set_state`.  `process_accept_scheduled_commits` moves
the queued commits into the process-global `TransactionScheduler` vector, zero-fills the
account and writes the empty context.  `take_scheduled_commits` drains the global vector.

`set_state` only overwrites a prefix of the account data, so stale bytes of older, shorter
encodings stay behind the current one.  The invariant `ContextInv` records what is true
anyway: the data has its full size and *starts with* the encoding of the queued commits.
Because bincode decoding ignores trailing bytes and the count sits in the first eight
bytes, that is enough for `deserialize` and for `has_scheduled_commits`.
-/

namespace EphemeralValidator.Magicblock

open EphemeralValidator.Bytes EphemeralValidator.Solana

variable {Tx : Type} (txCodec : Codec Tx)

/-! ## The instructions -/

/-- `get_instruction_pubkey_with_idx`: the key of an instruction account. -/
def instructionPubkey (keys : List Pubkey) (idx : Nat) : Except InstructionError Pubkey :=
  match keys[idx]? with
  | some key => .ok key
  | none => .error .notEnoughAccountKeys

theorem instructionPubkey_eq_ok {keys : List Pubkey} {idx : Nat} {key : Pubkey} :
    instructionPubkey keys idx = .ok key ↔ keys[idx]? = some key := by
  unfold instructionPubkey
  cases keys[idx]? <;> simp

theorem instructionPubkey_eq_error {keys : List Pubkey} {idx : Nat} {e : InstructionError} :
    instructionPubkey keys idx = .error e ↔ keys[idx]? = none ∧ e = .notEnoughAccountKeys := by
  unfold instructionPubkey
  cases keys[idx]? <;> simp [eq_comm]

/-- `check_magic_context_id`. -/
def checkMagicContextId (magicContextId : Pubkey) (keys : List Pubkey) (idx : Nat) :
    Except InstructionError Unit := do
  let provided ← instructionPubkey keys idx
  if provided = magicContextId then pure () else throw .missingAccount

/-- `TransactionScheduler::schedule_commit`. -/
def scheduleCommit (contextAccount : AccountSharedData) (commit : ScheduledCommit Tx) :
    Except InstructionError AccountSharedData :=
  match MagicContext.deserialize txCodec contextAccount with
  | .error _ => .error .genericError
  | .ok context => contextAccount.setState (MagicContext.codec txCodec) (context.addScheduledCommit commit)

/-- `process_accept_scheduled_commits`, given the instruction's signers and account keys
(index 0 the validator authority, index 1 the context), the context account and the
global vector.  It returns the global vector afterwards (extended before the final write,
and kept even if that write fails) and the context account. -/
def processAcceptScheduledCommits (magicContextId validatorAuthority : Pubkey)
    (signers keys : List Pubkey) (contextAccount : AccountSharedData)
    (scheduled : List (ScheduledCommit Tx)) :
    List (ScheduledCommit Tx) × Except InstructionError AccountSharedData :=
  match checkMagicContextId magicContextId keys 1 with
  | .error e => (scheduled, .error e)
  | .ok () =>
    match (MagicContext.codec txCodec).deserialize contextAccount.data with
    | none => (scheduled, .error .invalidAccountData)
    | some context =>
      -- nothing queued: succeed without touching the account
      if context.scheduledCommits.isEmpty then (scheduled, .ok contextAccount)
      else
        match instructionPubkey keys 0 with
        | .error e => (scheduled, .error e)
        | .ok provided =>
          if provided ≠ validatorAuthority then (scheduled, .error .invalidArgument)
          else if validatorAuthority ∉ signers then (scheduled, .error .missingRequiredSignature)
          else
            let (commits, emptied) := context.takeScheduledCommits
            -- `accept_scheduled_commits`, then zero-fill and write the emptied context
            let scheduled := scheduled ++ commits
            match (contextAccount.setDataFromSlice MagicContext.zero).serializeData
                (MagicContext.codec txCodec) emptied with
            | .ok account => (scheduled, .ok account)
            | .error _ => (scheduled, .error .genericError)

/-! ## The context account invariant -/

/-- The context account has its full size and starts with the encoding of `pending`. -/
def ContextInv (contextAccount : AccountSharedData) (pending : List (ScheduledCommit Tx)) : Prop :=
  contextAccount.data.length = MagicContext.size ∧
    ∃ bs, (MagicContext.codec txCodec).encode ⟨pending⟩ = some bs ∧
      ∃ tail, contextAccount.data = bs ++ tail

theorem size_pos : 0 < MagicContext.size := by
  unfold MagicContext.size
  omega

variable {txCodec}

theorem ContextInv.deserialize {contextAccount : AccountSharedData} {pending : List (ScheduledCommit Tx)}
    (inv : ContextInv txCodec contextAccount pending) :
    MagicContext.deserialize txCodec contextAccount = .ok ⟨pending⟩ := by
  obtain ⟨hlen, bs, hbs, tail, hdata⟩ := inv
  have nonempty : contextAccount.data.isEmpty = false := by
    rw [List.isEmpty_eq_false_iff, ← List.length_pos_iff, hlen]
    exact size_pos
  rw [MagicContext.deserialize, nonempty, if_neg Bool.false_ne_true,
    AccountSharedData.deserializeData, hdata, Codec.deserialize_encode_append _ tail hbs]

theorem ContextInv.hasScheduledCommits {contextAccount : AccountSharedData}
    {pending : List (ScheduledCommit Tx)} (inv : ContextInv txCodec contextAccount pending) :
    MagicContext.hasScheduledCommits contextAccount.data = true ↔ pending ≠ [] := by
  obtain ⟨-, bs, hbs, tail, hdata⟩ := inv
  rw [hdata]
  exact MagicContext.hasScheduledCommits_encode_append tail hbs

/-- Writing an encoding of `pending` with `serialize_data` over data of the full size
that already holds a shorter-or-equal valid prefix keeps the invariant. -/
theorem ContextInv.of_serializeData {account account' : AccountSharedData}
    {pending : List (ScheduledCommit Tx)} (hlen : account.data.length = MagicContext.size)
    (h : account.serializeData (MagicContext.codec txCodec) ⟨pending⟩ = .ok account') :
    ContextInv txCodec account' pending := by
  obtain ⟨bs, hbs, hle, hdata, -⟩ := AccountSharedData.serializeData_eq_ok h
  refine ⟨?_, bs, hbs, account.data.drop bs.length, hdata⟩
  rw [hdata, List.length_append, List.length_drop]
  omega

/-- One successful `schedule_commit` appends the commit to the queued ones. -/
theorem ContextInv.scheduleCommit {contextAccount contextAccount' : AccountSharedData}
    {pending : List (ScheduledCommit Tx)} {commit : ScheduledCommit Tx}
    (inv : ContextInv txCodec contextAccount pending)
    (h : scheduleCommit txCodec contextAccount commit = .ok contextAccount') :
    ContextInv txCodec contextAccount' (pending ++ [commit]) := by
  rw [Magicblock.scheduleCommit, inv.deserialize] at h
  exact ContextInv.of_serializeData inv.1 (AccountSharedData.setState_eq_ok h)

/-- What decodes to a context with no commits encodes the empty vector. -/
theorem ContextInv.pending_eq_nil {contextAccount : AccountSharedData}
    {pending : List (ScheduledCommit Tx)} {context : MagicContext Tx}
    (inv : ContextInv txCodec contextAccount pending)
    (hdecode : (MagicContext.codec txCodec).deserialize contextAccount.data = some context) :
    context = ⟨pending⟩ := by
  obtain ⟨-, bs, hbs, tail, hdata⟩ := inv
  rw [hdata, Codec.deserialize_encode_append _ tail hbs] at hdecode
  exact (Option.some.inj hdecode).symm

/-- The final write of an accept cannot fail: the empty context is eight bytes and the
zero-filled account is far longer. -/
theorem resetContext_ok (contextAccount : AccountSharedData) :
    ∃ account, (contextAccount.setDataFromSlice MagicContext.zero).serializeData
      (MagicContext.codec txCodec) (⟨[]⟩ : MagicContext Tx) = .ok account := by
  have fits : ¬ (leBytes 8 0).length > (contextAccount.setDataFromSlice MagicContext.zero).data.length := by
    rw [AccountSharedData.setDataFromSlice, MagicContext.zero, List.length_replicate, length_leBytes]
    unfold MagicContext.size
    omega
  unfold AccountSharedData.serializeData
  rw [MagicContext.encode_empty]
  exact ⟨_, if_neg fits⟩

/-- Everything an accept can do: fail and leave the global vector alone, find nothing
queued and change nothing, or move the queued commits to the end of the global vector and
leave the zero-filled account holding the empty context. -/
theorem processAcceptScheduledCommits_cases (magicContextId validatorAuthority : Pubkey)
    (signers keys : List Pubkey) (contextAccount : AccountSharedData)
    (scheduled : List (ScheduledCommit Tx)) :
    let result := processAcceptScheduledCommits txCodec magicContextId validatorAuthority signers keys
      contextAccount scheduled
    (∃ e, result = (scheduled, .error e)) ∨
    (∃ context, (MagicContext.codec txCodec).deserialize contextAccount.data = some context ∧
      context.scheduledCommits = [] ∧ result = (scheduled, .ok contextAccount)) ∨
    (∃ context account, (MagicContext.codec txCodec).deserialize contextAccount.data = some context ∧
      (contextAccount.setDataFromSlice MagicContext.zero).serializeData
        (MagicContext.codec txCodec) (⟨[]⟩ : MagicContext Tx) = .ok account ∧
      result = (scheduled ++ context.scheduledCommits, .ok account)) := by
  intro result
  unfold result processAcceptScheduledCommits
  split
  · exact .inl ⟨_, rfl⟩
  · split
    · exact .inl ⟨_, rfl⟩
    · next context hdecode =>
      split
      · next hempty =>
        exact .inr (.inl ⟨context, hdecode, List.isEmpty_iff.mp hempty, rfl⟩)
      · split
        · exact .inl ⟨_, rfl⟩
        · split
          · exact .inl ⟨_, rfl⟩
          · split
            · exact .inl ⟨_, rfl⟩
            · -- split the pair of `take_scheduled_commits` first, so that the emptied
              -- context is a variable when the final write is split on
              split
              next commits emptied htake =>
              obtain ⟨hcommits, hemptied⟩ := Prod.mk.inj htake.symm
              subst hcommits hemptied
              obtain ⟨account, hwrite⟩ := @resetContext_ok _ txCodec contextAccount
              split
              · next account' hwrite' =>
                rw [hwrite] at hwrite'
                cases hwrite'
                exact .inr (.inr ⟨context, account, hdecode, hwrite, rfl⟩)
              · next e hwrite' =>
                rw [hwrite] at hwrite'
                cases hwrite'

/-- One successful accept leaves an empty queue in the account. -/
theorem ContextInv.acceptScheduledCommits {magicContextId validatorAuthority : Pubkey}
    {signers keys : List Pubkey} {contextAccount contextAccount' : AccountSharedData}
    {pending scheduled : List (ScheduledCommit Tx)}
    (inv : ContextInv txCodec contextAccount pending)
    (h : (processAcceptScheduledCommits txCodec magicContextId validatorAuthority signers keys
      contextAccount scheduled).2 = .ok contextAccount') :
    ContextInv txCodec contextAccount' [] := by
  rcases processAcceptScheduledCommits_cases magicContextId validatorAuthority signers keys
      contextAccount scheduled with ⟨e, hfail⟩ | ⟨context, hdecode, hempty, hresult⟩ |
      ⟨context, account, -, hwrite, hresult⟩
  · rw [hfail] at h
    cases h
  · -- nothing was queued: the account is unchanged and already holds the empty context
    rw [hresult] at h
    cases h
    have hctx := inv.pending_eq_nil hdecode
    subst hctx
    rw [← hempty]
    exact inv
  · rw [hresult] at h
    cases h
    have zeroLength : (contextAccount.setDataFromSlice MagicContext.zero).data.length =
        MagicContext.size := by
      rw [AccountSharedData.setDataFromSlice, MagicContext.zero, List.length_replicate]
    exact ContextInv.of_serializeData zeroLength hwrite

/-- `schedule_commit` succeeds on a valid context account whenever the longer queue still
encodes within the account. -/
theorem ContextInv.scheduleCommit_ok {contextAccount : AccountSharedData}
    {pending : List (ScheduledCommit Tx)} {commit : ScheduledCommit Tx} {bs : List UInt8}
    (inv : ContextInv txCodec contextAccount pending)
    (hbs : (MagicContext.codec txCodec).encode ⟨pending ++ [commit]⟩ = some bs)
    (fits : bs.length ≤ MagicContext.size) :
    ∃ contextAccount', Magicblock.scheduleCommit txCodec contextAccount commit = .ok contextAccount' := by
  have roomy : ¬ bs.length > contextAccount.data.length := by
    rw [inv.1]
    omega
  simp only [Magicblock.scheduleCommit, inv.deserialize, MagicContext.addScheduledCommit,
    AccountSharedData.setState, AccountSharedData.serializeData, hbs, roomy, if_false]
  exact ⟨_, rfl⟩

theorem checkMagicContextId_eq_ok {magicContextId : Pubkey} {keys : List Pubkey} {idx : Nat}
    (contextKey : keys[idx]? = some magicContextId) : checkMagicContextId magicContextId keys idx = .ok () := by
  rw [checkMagicContextId, instructionPubkey_eq_ok.mpr contextKey]
  exact if_pos rfl

/-- The invariant is about the account's data alone. -/
theorem ContextInv.of_data_eq {contextAccount contextAccount' : AccountSharedData}
    {pending : List (ScheduledCommit Tx)} (inv : ContextInv txCodec contextAccount pending)
    (same : contextAccount'.data = contextAccount.data) : ContextInv txCodec contextAccount' pending := by
  unfold ContextInv
  rw [same]
  exact inv

theorem ContextInv.deserialize_data {contextAccount : AccountSharedData}
    {pending : List (ScheduledCommit Tx)} (inv : ContextInv txCodec contextAccount pending) :
    (MagicContext.codec txCodec).deserialize contextAccount.data = some ⟨pending⟩ := by
  obtain ⟨-, bs, hbs, tail, hdata⟩ := inv
  rw [hdata]
  exact Codec.deserialize_encode_append _ tail hbs

/-- An accept signed by the validator authority on a context with queued commits moves
them all to the end of the global vector and leaves the account empty. -/
theorem ContextInv.processAcceptScheduledCommits_ok {magicContextId validatorAuthority : Pubkey}
    {signers keys : List Pubkey} {contextAccount : AccountSharedData}
    {pending : List (ScheduledCommit Tx)} (inv : ContextInv txCodec contextAccount pending)
    (queued : pending ≠ []) (contextKey : keys[1]? = some magicContextId)
    (authorityKey : keys[0]? = some validatorAuthority) (signed : validatorAuthority ∈ signers)
    (scheduled : List (ScheduledCommit Tx)) :
    ∃ account, processAcceptScheduledCommits txCodec magicContextId validatorAuthority signers keys
        contextAccount scheduled = (scheduled ++ pending, .ok account) ∧
      ContextInv txCodec account [] := by
  have hcheck := checkMagicContextId_eq_ok contextKey
  have hdecode := inv.deserialize_data
  have hprovided : instructionPubkey keys 0 = .ok validatorAuthority := by
    simp [instructionPubkey, authorityKey]
  have nonempty : (⟨pending⟩ : MagicContext Tx).scheduledCommits.isEmpty = false :=
    List.isEmpty_eq_false_iff.mpr queued
  obtain ⟨account, hwrite⟩ := @resetContext_ok _ txCodec contextAccount
  refine ⟨account, ?_, ?_⟩
  · -- walk the branches, as in the inversion lemma: rewriting the body would make the
    -- kernel unfold the zero-filled buffer
    unfold processAcceptScheduledCommits
    split
    · next e hfail => rw [hcheck] at hfail; cases hfail
    split
    · next hnone => rw [hdecode] at hnone; cases hnone
    next context hsome =>
    rw [hdecode] at hsome
    cases hsome
    split
    · next hempty => rw [nonempty] at hempty; cases hempty
    -- the signature check went with the previous split, settled by `signed`
    split
    · next e hfail => rw [hprovided] at hfail; cases hfail
    next provided hsome =>
    rw [hprovided] at hsome
    cases hsome
    rw [if_neg (not_not.mpr rfl)]
    split
    next commits emptied htake =>
    obtain ⟨hcommits, hemptied⟩ := Prod.mk.inj htake.symm
    subst hcommits hemptied
    split
    · next account' hwrite' =>
      rw [hwrite] at hwrite'
      cases hwrite'
      rfl
    · next e hwrite' =>
      rw [hwrite] at hwrite'
      cases hwrite'
  · have zeroLength : (contextAccount.setDataFromSlice MagicContext.zero).data.length =
        MagicContext.size := by
      rw [AccountSharedData.setDataFromSlice, MagicContext.zero, List.length_replicate]
    exact ContextInv.of_serializeData zeroLength hwrite

/-- An accept on a context with nothing queued succeeds and changes nothing, whoever signed it. -/
theorem ContextInv.processAcceptScheduledCommits_nil {magicContextId validatorAuthority : Pubkey}
    {signers keys : List Pubkey} {contextAccount : AccountSharedData}
    (inv : ContextInv txCodec contextAccount []) (contextKey : keys[1]? = some magicContextId)
    (scheduled : List (ScheduledCommit Tx)) :
    processAcceptScheduledCommits txCodec magicContextId validatorAuthority signers keys contextAccount
      scheduled = (scheduled, .ok contextAccount) := by
  have hcheck := checkMagicContextId_eq_ok contextKey
  have hdecode := inv.deserialize_data
  unfold processAcceptScheduledCommits
  split
  · next e hfail => rw [hcheck] at hfail; cases hfail
  split
  · next hnone => rw [hdecode] at hnone; cases hnone
  next context hsome =>
  rw [hdecode] at hsome
  cases hsome
  rfl

/-- An accept signed by the validator authority moves whatever is queued, possibly nothing, to
the end of the global vector and leaves the account holding the empty context. -/
theorem ContextInv.processAcceptScheduledCommits_signed {magicContextId validatorAuthority : Pubkey}
    {signers keys : List Pubkey} {contextAccount : AccountSharedData}
    {pending : List (ScheduledCommit Tx)} (inv : ContextInv txCodec contextAccount pending)
    (contextKey : keys[1]? = some magicContextId) (authorityKey : keys[0]? = some validatorAuthority)
    (signed : validatorAuthority ∈ signers) (scheduled : List (ScheduledCommit Tx)) :
    ∃ account, processAcceptScheduledCommits txCodec magicContextId validatorAuthority signers keys
        contextAccount scheduled = (scheduled ++ pending, .ok account) ∧
      ContextInv txCodec account [] := by
  by_cases queued : pending = []
  · subst queued
    exact ⟨contextAccount, by rw [inv.processAcceptScheduledCommits_nil contextKey, List.append_nil], inv⟩
  · exact inv.processAcceptScheduledCommits_ok queued contextKey authorityKey signed scheduled

/-- The context accounts reachable from a zero-filled account by successful
`schedule_commit` and `process_accept_scheduled_commits` steps, indexed by the commits
scheduled since the last accept. -/
inductive ContextReachable (txCodec : Codec Tx) (magicContextId validatorAuthority : Pubkey) :
    AccountSharedData → List (ScheduledCommit Tx) → Prop
  | initial {contextAccount : AccountSharedData}
      (zeroed : contextAccount.data = MagicContext.zero) :
      ContextReachable txCodec magicContextId validatorAuthority contextAccount []
  | schedule {contextAccount contextAccount' : AccountSharedData}
      {pending : List (ScheduledCommit Tx)} (commit : ScheduledCommit Tx)
      (reached : ContextReachable txCodec magicContextId validatorAuthority contextAccount pending)
      (step : scheduleCommit txCodec contextAccount commit = .ok contextAccount') :
      ContextReachable txCodec magicContextId validatorAuthority contextAccount' (pending ++ [commit])
  | accept {contextAccount contextAccount' : AccountSharedData}
      {pending : List (ScheduledCommit Tx)} (signers keys : List Pubkey)
      (scheduled : List (ScheduledCommit Tx))
      (reached : ContextReachable txCodec magicContextId validatorAuthority contextAccount pending)
      (step : (processAcceptScheduledCommits txCodec magicContextId validatorAuthority signers keys
        contextAccount scheduled).2 = .ok contextAccount') :
      ContextReachable txCodec magicContextId validatorAuthority contextAccount' []

theorem ContextInv.initial {contextAccount : AccountSharedData}
    (zeroed : contextAccount.data = MagicContext.zero) : ContextInv txCodec contextAccount [] := by
  refine ⟨by simp [zeroed, MagicContext.zero], leBytes 8 0, MagicContext.encode_empty txCodec,
    List.replicate (MagicContext.size - 8) 0, ?_⟩
  have zeroCount : leBytes 8 0 = List.replicate 8 0 := rfl
  have sizeSplit : 8 + (MagicContext.size - 8) = MagicContext.size := by
    unfold MagicContext.size
    omega
  rw [zeroed, MagicContext.zero, zeroCount, ← List.replicate_add, sizeSplit]

theorem ContextReachable.inv {magicContextId validatorAuthority : Pubkey}
    {contextAccount : AccountSharedData} {pending : List (ScheduledCommit Tx)}
    (reached : ContextReachable txCodec magicContextId validatorAuthority contextAccount pending) :
    ContextInv txCodec contextAccount pending := by
  induction reached with
  | initial zeroed => exact ContextInv.initial zeroed
  | schedule commit _ step ih => exact ih.scheduleCommit step
  | accept signers keys scheduled _ step ih => exact ih.acceptScheduledCommits step

/-- Along every run of successful `schedule_commit` and accept steps from a zero-filled
context account, the account decodes to exactly the commits scheduled since the last
accept, in order, and the eight-byte check reports whether that list is non-empty. -/
theorem context_decodes_to_pending {magicContextId validatorAuthority : Pubkey}
    {contextAccount : AccountSharedData} {pending : List (ScheduledCommit Tx)}
    (reached : ContextReachable txCodec magicContextId validatorAuthority contextAccount pending) :
    MagicContext.deserialize txCodec contextAccount = .ok ⟨pending⟩ ∧
      (MagicContext.hasScheduledCommits contextAccount.data = true ↔ pending ≠ []) :=
  ⟨reached.inv.deserialize, reached.inv.hasScheduledCommits⟩

/-- A commit of `[5; 32]`, paid by `[4; 32]` for the program `[6; 32]`, with id `id`. -/
def pendingCommit (id : UInt64) : ScheduledCommit Unit :=
  ⟨id, 0, FixedBytes.zero 32, [FixedBytes.replicate 32 5], FixedBytes.replicate 32 4, FixedBytes.replicate 32 6,
    (), false⟩

/-- Two commits scheduled on a zero-filled context account, accepted by the validator authority
`[2; 32]` (the context is `[1; 32]`), and a third scheduled after the accept: the account decodes
to the third alone. -/
theorem context_decodes_to_pending_after_accept :
    ∃ contextAccount, ContextReachable Codec.unit (FixedBytes.replicate 32 1) (FixedBytes.replicate 32 2)
        contextAccount [pendingCommit 2] ∧
      MagicContext.deserialize Codec.unit contextAccount = .ok ⟨[pendingCommit 2]⟩ ∧
      (MagicContext.hasScheduledCommits contextAccount.data = true ↔ [pendingCommit 2] ≠ []) := by
  have zeroed : ContextReachable Codec.unit (FixedBytes.replicate 32 1) (FixedBytes.replicate 32 2)
      ⟨0, MagicContext.zero, FixedBytes.zero 32, false, 0⟩ [] := .initial rfl
  -- each queue the run builds encodes well within the account
  obtain ⟨bs₁, encoded₁, fits₁⟩ : ∃ bs, (MagicContext.codec Codec.unit).encode ⟨[] ++ [pendingCommit 0]⟩ = some bs ∧
      bs.length ≤ MagicContext.size := ⟨_, rfl, by simp [MagicContext.size, pendingCommit, FixedBytes.length_eq]⟩
  obtain ⟨account₁, scheduled₁⟩ := zeroed.inv.scheduleCommit_ok encoded₁ fits₁
  have reached₁ := zeroed.schedule (pendingCommit 0) scheduled₁
  obtain ⟨bs₂, encoded₂, fits₂⟩ : ∃ bs, (MagicContext.codec Codec.unit).encode
      ⟨[] ++ [pendingCommit 0] ++ [pendingCommit 1]⟩ = some bs ∧ bs.length ≤ MagicContext.size :=
    ⟨_, rfl, by simp [MagicContext.size, pendingCommit, FixedBytes.length_eq]⟩
  obtain ⟨account₂, scheduled₂⟩ := reached₁.inv.scheduleCommit_ok encoded₂ fits₂
  have reached₂ := reached₁.schedule (pendingCommit 1) scheduled₂
  -- the validator's accept, its keys the authority and the context, signed by the authority
  obtain ⟨account₃, accepted, -⟩ := reached₂.inv.processAcceptScheduledCommits_ok (by simp)
    (show [FixedBytes.replicate 32 2, FixedBytes.replicate 32 1][1]? = some (FixedBytes.replicate 32 1) from rfl)
    rfl (List.mem_singleton_self (FixedBytes.replicate 32 2)) []
  have reached₃ := reached₂.accept [FixedBytes.replicate 32 2] [FixedBytes.replicate 32 2, FixedBytes.replicate 32 1]
    [] (by rw [accepted])
  obtain ⟨bs₄, encoded₄, fits₄⟩ : ∃ bs, (MagicContext.codec Codec.unit).encode ⟨[] ++ [pendingCommit 2]⟩ = some bs ∧
      bs.length ≤ MagicContext.size := ⟨_, rfl, by simp [MagicContext.size, pendingCommit, FixedBytes.length_eq]⟩
  obtain ⟨account₄, scheduled₄⟩ := reached₃.inv.scheduleCommit_ok encoded₄ fits₄
  have reached₄ := reached₃.schedule (pendingCommit 2) scheduled₄
  exact ⟨account₄, reached₄, context_decodes_to_pending reached₄⟩

end EphemeralValidator.Magicblock
