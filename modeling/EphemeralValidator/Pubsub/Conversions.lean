import EphemeralValidator.Geyser.Service

/-! # Pubsub subscriptions, from the RPC request to the geyser stream

The validator's JSON-RPC pubsub serves `signatureSubscribe`, `logsSubscribe`,
`accountSubscribe`, `programSubscribe` and `slotSubscribe` from the geyser plugin: each
handler converts its parameters into a geyser request (`conversions.rs`), subscribes through
`GeyserRpcService`, and forwards what the client loop streams.  The handlers are modelled
down to the stream: a refused subscription is the message the subscriber is rejected with.

Over every run of broadcast batches, and under the configuration the validator starts the
geyser service with, the stream of each subscription is stated in the RPC's own terms:

* `signatureSubscribe` streams the transactions with the signature, but never a vote;
* `logsSubscribe` streams every transaction but the votes for `all`, only the votes for
  `allWithVotes`, and the transactions that mention the account for a one-account
  `mentions`; a `mentions` of no account or of several is refused;
* `accountSubscribe` streams the updates of the account, its data whole;
* `programSubscribe`, where it is accepted, streams the updates of the program's accounts
  whose data every RPC filter allows; but `try_rpc_filter_into_geyser_account_filter` keeps
  a memcmp's bytes only when they decode to nothing (`has_data` is `is_empty`), so a memcmp
  with bytes makes the geyser refuse the subscription whatever its limits.

Pubkey and signature strings are taken by what they parse to, as in `Geyser.Filters`; the
geyser's own refusal of a string that is not a pubkey is left out.
-/

namespace EphemeralValidator.Pubsub

open EphemeralValidator.Bytes EphemeralValidator.Solana EphemeralValidator.Lib EphemeralValidator.Geyser

/-- `PubsubError::InvalidParam`, the message without the debug print of its value. -/
inductive PubsubError where
  | invalidParam (message : String)

/-- `RpcTransactionLogsFilter`. -/
inductive RpcTransactionLogsFilter where
  | all
  | allWithVotes
  | mentions (accounts : List Pubkey)

/-! ## The conversions -/

/-- `geyser_sub_for_transaction_signature`: the signature string, by what it parses to. -/
def geyserSubForTransactionSignature (signature : Option Signature) :
    List (String × SubscribeRequestFilterTransactions) :=
  [("transaction_signature", ⟨some false, none, some signature, [], [], []⟩)]

/-- `try_geyser_sub_for_transaction_logs`. -/
def tryGeyserSubForTransactionLogs (logsFilter : RpcTransactionLogsFilter) :
    Except PubsubError (List (String × SubscribeRequestFilterTransactions)) := do
  let txSub : SubscribeRequestFilterTransactions := ⟨none, none, none, [], [], []⟩
  let txSub ← match logsFilter with
    | .all => pure { txSub with vote := some false }
    | .allWithVotes => pure { txSub with vote := some true }
    | .mentions accounts =>
      if accounts.length > 1 then
        throw (.invalidParam "Only one account mention can be specified in logs filter.")
      else pure { txSub with accountRequired := accounts }
  pure [("transaction_logs", txSub)]

/-- `geyser_sub_for_account`. -/
def geyserSubForAccount (account : Pubkey) : List (String × SubscribeRequestFilterAccounts) :=
  [("account", ⟨[account], [], []⟩)]

/-- `MemcmpEncodedBytes`: a string, by its length and what it decodes to, or bytes. -/
inductive MemcmpEncodedBytes where
  | binary (encodedLength : Nat) (decoded : Option (List UInt8))
  | base58 (encodedLength : Nat) (decoded : Option (List UInt8))
  | base64 (encodedLength : Nat) (decoded : Option (List UInt8))
  | bytes (data : List UInt8)

/-- `Memcmp`; the offset is a `usize`. -/
structure Memcmp where
  offset : Nat
  bytes : MemcmpEncodedBytes

/-- `Memcmp::bytes`: the bytes, decoded. -/
def Memcmp.decodedBytes (memcmp : Memcmp) : Option (List UInt8) :=
  match memcmp.bytes with
  | .binary _ decoded | .base58 _ decoded | .base64 _ decoded => decoded
  | .bytes data => some data

/-- `RpcFilterType`. -/
inductive RpcFilterType where
  | dataSize (size : UInt64)
  | memcmp (memcmp : Memcmp)
  | tokenAccountState

/-- The `Data` the conversion makes of a memcmp's bytes: a binary string is sent as base58. -/
def MemcmpEncodedBytes.toData : MemcmpEncodedBytes → MemcmpData
  | .bytes data => .bytes data
  | .binary encodedLength decoded | .base58 encodedLength decoded => .base58 encodedLength decoded
  | .base64 encodedLength decoded => .base64 encodedLength decoded

/-- `memcmp.offset.try_into()`, from `usize` to `u64`, with the conversion's error. -/
def tryOffsetIntoU64 (offset : Nat) : Except PubsubError UInt64 :=
  if offset < 2 ^ 64 then pure (UInt64.ofNat offset)
  else throw (.invalidParam "Program Account memcmp offset needs to be a u64.")

/-- `try_rpc_filter_into_geyser_account_filter`. -/
def tryRpcFilterIntoGeyserAccountFilter : RpcFilterType → Except PubsubError (Option AccountsFilterDataOneof)
  | .memcmp memcmp => do
    let offset ← tryOffsetIntoU64 memcmp.offset
    -- `has_data` is whether the bytes decode to nothing
    let hasData := (memcmp.decodedBytes.map List.isEmpty).getD false
    let data := if hasData then some memcmp.bytes.toData else none
    pure (some (.memcmp ⟨offset, data⟩))
  | .dataSize size => pure (some (.datasize size))
  | .tokenAccountState => pure (some (.tokenAccountState true))

/-- `try_geyser_sub_for_program`: the program id string, by what it parses to, and the
filters of the config, if any. -/
def tryGeyserSubForProgram (programId : Pubkey) (filters : Option (List RpcFilterType)) :
    Except PubsubError (List (String × SubscribeRequestFilterAccounts)) := do
  let filters ← filters.mapM fun filters => filters.mapM tryRpcFilterIntoGeyserAccountFilter
  pure [("program", ⟨[], [programId], filters.getD []⟩)]

/-- `geyser_sub_for_slot_update`. -/
def geyserSubForSlotUpdate : List (String × SubscribeRequestFilterSlots) :=
  [("slot", ⟨some false⟩)]

/-! ## What the RPC filters mean -/

/-- What Solana's `Memcmp::bytes_match` checks: the bytes decode, and lie at the offset
within the data. -/
def Memcmp.bytesMatch (memcmp : Memcmp) (data : List UInt8) : Bool :=
  match memcmp.decodedBytes with
  | some bytes =>
    decide (memcmp.offset + bytes.length ≤ data.length) &&
      slice data memcmp.offset (memcmp.offset + bytes.length) == bytes
  | none => false

/-- What Solana's `RpcFilterType::allows` asks of a program account's data. -/
def RpcFilterType.allows (validAccountData : List UInt8 → Bool) (data : List UInt8) : RpcFilterType → Bool
  | .dataSize size => data.length == size.toNat
  | .memcmp compared => compared.bytesMatch data
  | .tokenAccountState => validAccountData data

/-! ## The handlers, up to the stream -/

/-- `handle_signature_subscribe`: the filter it streams through, or the message it rejects
the subscriber with. -/
def handleSignatureSubscribe (config : ConfigGrpc) (signature : Option Signature) : Except String Full.Filter := do
  let sub := geyserSubForTransactionSignature signature
  match signature with
  | none => throw "Invalid Signature"
  | some _ =>
    (GeyserRpcService.transactionSubscribe config sub).mapError fun _ => "Failed to subscribe to signature"

/-- `handle_logs_subscribe`. -/
def handleLogsSubscribe (config : ConfigGrpc) (filter : RpcTransactionLogsFilter) : Except String Full.Filter := do
  let sub ← (tryGeyserSubForTransactionLogs filter).mapError fun _ => "Invalid filter"
  (GeyserRpcService.transactionSubscribe config sub).mapError fun _ => "Failed to subscribe to logs"

/-- `handle_account_subscribe`. -/
def handleAccountSubscribe (config : ConfigGrpc) (address : Option Pubkey) : Except String Full.Filter :=
  match address with
  | none => throw "Invalid Pubkey"
  | some pubkey =>
    (GeyserRpcService.accountsSubscribe config (geyserSubForAccount pubkey)).mapError
      fun _ => "Failed to subscribe to signature"

/-- `handle_program_subscribe`; it reports a refused subscription with the signature
handler's message. -/
def handleProgramSubscribe (config : ConfigGrpc) (programId : Pubkey) (filters : Option (List RpcFilterType)) :
    Except String Full.Filter := do
  let sub ← (tryGeyserSubForProgram programId filters).mapError fun _ => "Invalid config"
  (GeyserRpcService.accountsSubscribe config sub).mapError fun _ => "Failed to subscribe to signature"

/-- `handle_slot_subscribe`. -/
def handleSlotSubscribe (config : ConfigGrpc) : Except String Full.Filter :=
  (GeyserRpcService.slotSubscribe config geyserSubForSlotUpdate).mapError fun _ => "Failed to subscribe to slot"

/-! ## The transaction subscriptions -/

/-- The transaction test of a request filter, field by field. -/
theorem SubscribeRequestFilterTransactions.selects_iff {filter : SubscribeRequestFilterTransactions}
    {message : MessageTransactionInfo} :
    filter.Selects message ↔ (∀ isVote ∈ filter.vote, isVote = message.isVote) ∧
      (∀ isFailed ∈ filter.failed, isFailed = message.failed) ∧
      (∀ signature ∈ filter.signature, signature = some message.signature) ∧
      (filter.accountInclude = [] ∨ ∃ pubkey ∈ message.accountKeys, pubkey ∈ filter.accountInclude) ∧
      (∀ pubkey ∈ message.accountKeys, pubkey ∉ filter.accountExclude) ∧
      (filter.accountRequired = [] ∨ filter.accountRequired.length ≤ message.accountKeys.length ∧
        ∀ pubkey ∈ filter.accountRequired, pubkey ∈ message.accountKeys) := by
  constructor
  · rintro ⟨vote, failed, signature, accountInclude, accountExclude, accountRequired⟩
    exact ⟨vote, failed, signature, accountInclude, accountExclude, accountRequired⟩
  · rintro ⟨vote, failed, signature, accountInclude, accountExclude, accountRequired⟩
    exact ⟨vote, failed, signature, accountInclude, accountExclude, accountRequired⟩

/-- A transaction subscription of one filter that the geyser accepts streams, under the
filter's name, the transactions handed to it that the filter selects, and nothing else. -/
theorem stream_of_transactionSubscribe {config : ConfigGrpc} {name : String}
    {request : SubscribeRequestFilterTransactions} {filter : Full.Filter}
    (built : GeyserRpcService.transactionSubscribe config [(name, request)] = .ok filter)
    (selects : MessageTransactionInfo → Bool) (selects_iff : ∀ transaction, selects transaction = true ↔ request.Selects transaction)
    {Entry BlockMeta : Type} (validAccountData : List UInt8 → Bool)
    (initialMessages : Option (List (Full.Message Entry BlockMeta)))
    (batches : List (CommitmentLevel × List (Full.Message Entry BlockMeta))) :
    GeyserRpcService.clientLoop validAccountData filter initialMessages batches =
      some ((GeyserRpcService.handed .processed initialMessages batches).flatMap fun message =>
        if (message.transaction?).any selects then [⟨[name], message⟩] else []) := by
  obtain ⟨inner, compiled, getUpdate⟩ := GeyserRpcService.transactionSubscribe_getUpdate_singleton built
  have processed : filter.commitment = .processed := Full.Filter.commitment_of_new rfl built
  -- the compiled filter passes what the request selects
  have passes : inner.passes = selects := funext fun transaction =>
    Bool.eq_iff_iff.mpr ((FilterTransactionsInner.passes_iff compiled).trans (selects_iff transaction).symm)
  rw [← processed]
  exact GeyserRpcService.clientLoop_eq (fun message => by rw [getUpdate, passes]) initialMessages batches

/-- `logsSubscribe` with `all`, under the validator's geyser configuration: it is accepted,
and over every run its stream is every transaction handed but the votes. -/
theorem logs_subscribe_all_streams_non_votes :
    ∃ filter, handleLogsSubscribe ConfigGrpc.default .all = .ok filter ∧
      ∀ {Entry BlockMeta : Type} validAccountData (batches : List (CommitmentLevel × List (Full.Message Entry BlockMeta))),
        GeyserRpcService.clientLoop validAccountData filter none batches =
          some ((GeyserRpcService.handed .processed none batches).flatMap fun message =>
            if (message.transaction?).any (fun transaction => !transaction.isVote)
              then [⟨["transaction_logs"], message⟩] else []) := by
  obtain ⟨filter, built⟩ : ∃ filter, GeyserRpcService.transactionSubscribe ConfigGrpc.default
      [("transaction_logs", ⟨some false, none, none, [], [], []⟩)] = .ok filter := ⟨_, rfl⟩
  refine ⟨filter, by simp [handleLogsSubscribe, tryGeyserSubForTransactionLogs, built], ?_⟩
  intro Entry BlockMeta validAccountData batches
  refine stream_of_transactionSubscribe built _ (fun transaction => ?_) validAccountData none batches
  rw [SubscribeRequestFilterTransactions.selects_iff]
  cases vote : transaction.isVote <;> simp

/-- `logsSubscribe` with `allWithVotes`, meant to stream every transaction, votes included,
streams only the votes: the filter it makes asks for `vote = Some(true)`. -/
theorem logs_subscribe_all_with_votes_streams_only_votes :
    ∃ filter, handleLogsSubscribe ConfigGrpc.default .allWithVotes = .ok filter ∧
      ∀ {Entry BlockMeta : Type} validAccountData (batches : List (CommitmentLevel × List (Full.Message Entry BlockMeta))),
        GeyserRpcService.clientLoop validAccountData filter none batches =
          some ((GeyserRpcService.handed .processed none batches).flatMap fun message =>
            if (message.transaction?).any (fun transaction => transaction.isVote)
              then [⟨["transaction_logs"], message⟩] else []) := by
  obtain ⟨filter, built⟩ : ∃ filter, GeyserRpcService.transactionSubscribe ConfigGrpc.default
      [("transaction_logs", ⟨some true, none, none, [], [], []⟩)] = .ok filter := ⟨_, rfl⟩
  refine ⟨filter, by simp [handleLogsSubscribe, tryGeyserSubForTransactionLogs, built], ?_⟩
  intro Entry BlockMeta validAccountData batches
  refine stream_of_transactionSubscribe built _ (fun transaction => ?_) validAccountData none batches
  rw [SubscribeRequestFilterTransactions.selects_iff]
  cases vote : transaction.isVote <;> simp

/-- `logsSubscribe` with the `mentions` of one account: over every run its stream is the
transactions handed that have the account among their keys, votes included. -/
theorem logs_subscribe_mentions_streams_mentioning (account : Pubkey) :
    ∃ filter, handleLogsSubscribe ConfigGrpc.default (.mentions [account]) = .ok filter ∧
      ∀ {Entry BlockMeta : Type} validAccountData (batches : List (CommitmentLevel × List (Full.Message Entry BlockMeta))),
        GeyserRpcService.clientLoop validAccountData filter none batches =
          some ((GeyserRpcService.handed .processed none batches).flatMap fun message =>
            if (message.transaction?).any (fun transaction => decide (account ∈ transaction.accountKeys))
              then [⟨["transaction_logs"], message⟩] else []) := by
  obtain ⟨filter, built⟩ : ∃ filter, GeyserRpcService.transactionSubscribe ConfigGrpc.default
      [("transaction_logs", ⟨none, none, none, [], [], [account]⟩)] = .ok filter := ⟨_, rfl⟩
  refine ⟨filter, by simp [handleLogsSubscribe, tryGeyserSubForTransactionLogs, built], ?_⟩
  intro Entry BlockMeta validAccountData batches
  refine stream_of_transactionSubscribe built _ (fun transaction => ?_) validAccountData none batches
  rw [SubscribeRequestFilterTransactions.selects_iff]
  -- a required account among the keys leaves the key list long enough
  by_cases mentioned : account ∈ transaction.accountKeys
  · have long : 1 ≤ transaction.accountKeys.length := List.length_pos_of_mem mentioned
    simpa [mentioned] using long
  · simp [mentioned]

/-- `signatureSubscribe` of a signature: over every run, from the cached messages on, the
stream the handler reads is the transactions handed with that signature, but never a vote,
since the filter it makes asks for `vote = Some(false)`. -/
theorem signature_subscribe_streams_non_vote_transactions (signature : Signature) :
    ∃ filter, handleSignatureSubscribe ConfigGrpc.default (some signature) = .ok filter ∧
      ∀ {Entry BlockMeta : Type} validAccountData (initialMessages : Option (List (Full.Message Entry BlockMeta)))
        (batches : List (CommitmentLevel × List (Full.Message Entry BlockMeta))),
        GeyserRpcService.clientLoop validAccountData filter initialMessages batches =
          some ((GeyserRpcService.handed .processed initialMessages batches).flatMap fun message =>
            if (message.transaction?).any (fun transaction => decide (transaction.signature = signature) && !transaction.isVote)
              then [⟨["transaction_signature"], message⟩] else []) := by
  obtain ⟨filter, built⟩ : ∃ filter, GeyserRpcService.transactionSubscribe ConfigGrpc.default
      (geyserSubForTransactionSignature (some signature)) = .ok filter := ⟨_, rfl⟩
  refine ⟨filter, by simp [handleSignatureSubscribe, built], ?_⟩
  intro Entry BlockMeta validAccountData initialMessages batches
  refine stream_of_transactionSubscribe built _ (fun transaction => ?_) validAccountData initialMessages batches
  rw [SubscribeRequestFilterTransactions.selects_iff]
  by_cases same : transaction.signature = signature
  · cases vote : transaction.isVote <;> simp [same]
  · have other : ¬signature = transaction.signature := fun equal => same equal.symm
    simp [same, other]

/-! ## The account subscriptions -/

/-- An account subscription of one filter that the geyser accepts streams, under the
filter's name, the account updates handed to it that `selects` passes, where `selects` is
what the filter's account, owner and data tests answer. -/
theorem stream_of_accountsSubscribe {config : ConfigGrpc} {name : String} {request : SubscribeRequestFilterAccounts}
    {filter : Full.Filter} (built : GeyserRpcService.accountsSubscribe config [(name, request)] = .ok filter)
    {validAccountData : List UInt8 → Bool} (selects : MessageAccountInfo → Bool)
    (selects_eq : ∀ data, FilterAccountsData.new request.filters = .ok data → ∀ account : MessageAccountInfo,
      (data.isMatch validAccountData account.data).map (fun matched =>
        decide ((request.account = [] ∨ account.pubkey ∈ request.account) ∧
          (request.owner = [] ∨ account.owner ∈ request.owner) ∧ (data.isEmpty = true ∨ matched = true))) =
        some (selects account))
    {Entry BlockMeta : Type} (initialMessages : Option (List (Full.Message Entry BlockMeta)))
    (batches : List (CommitmentLevel × List (Full.Message Entry BlockMeta))) :
    GeyserRpcService.clientLoop validAccountData filter initialMessages batches =
      some ((GeyserRpcService.handed .processed initialMessages batches).flatMap fun message =>
        if (message.account?).any selects then [⟨[name], message⟩] else []) := by
  obtain ⟨data, dataOk, getUpdate⟩ := GeyserRpcService.accountsSubscribe_getUpdate_singleton built
  have processed : filter.commitment = .processed := Full.Filter.commitment_of_new rfl built
  rw [← processed]
  refine GeyserRpcService.clientLoop_eq (fun message => ?_) initialMessages batches
  rw [getUpdate]
  cases message with
  | account account =>
    have tested := selects_eq data dataOk account
    cases dataMatch : data.isMatch validAccountData account.data with
    | none =>
      rw [dataMatch] at tested
      cases tested
    | some matched =>
      rw [dataMatch, Option.map_some, Option.some.injEq] at tested
      simp only [Full.Message.account?, Option.map_some, Option.getD_some, Option.any_some, dataMatch, ← tested,
        decide_eq_true_eq]
  | _ => simp [Full.Message.account?]

/-- `accountSubscribe` of a pubkey: over every run, from the cached messages on, its stream
is the updates of that account handed to it, each with its data whole. -/
theorem account_subscribe_streams_account_updates (pubkey : Pubkey) :
    ∃ filter, handleAccountSubscribe ConfigGrpc.default (some pubkey) = .ok filter ∧
      ∀ {Entry BlockMeta : Type} validAccountData (initialMessages : Option (List (Full.Message Entry BlockMeta)))
        (batches : List (CommitmentLevel × List (Full.Message Entry BlockMeta))),
        GeyserRpcService.clientLoop validAccountData filter initialMessages batches =
          some ((GeyserRpcService.handed .processed initialMessages batches).flatMap fun message =>
            if (message.account?).any (fun account => decide (account.pubkey = pubkey))
              then [⟨["account"], message⟩] else []) := by
  obtain ⟨filter, built⟩ : ∃ filter, GeyserRpcService.accountsSubscribe ConfigGrpc.default
      (geyserSubForAccount pubkey) = .ok filter := ⟨_, rfl⟩
  refine ⟨filter, by simp [handleAccountSubscribe, built], ?_⟩
  intro Entry BlockMeta validAccountData initialMessages batches
  refine stream_of_accountsSubscribe built _ (fun data dataOk account => ?_) initialMessages batches
  -- no data filter: the defaults, which match every data
  simp only [FilterAccountsData.new, List.length_nil, Nat.zero_le, if_true, List.foldlM_nil, pure_eq_ok] at dataOk
  subst dataOk
  simp [FilterAccountsData.isMatch, FilterAccountsData.default, FilterAccountsData.memcmpMatch,
    FilterAccountsData.isEmpty]

/-- The geyser decodes the data the conversion makes of a memcmp's bytes as the RPC decodes
the bytes. -/
theorem decodedBytes_of_decodeMemcmpData {memcmp : Memcmp} {bytes : List UInt8}
    (decoded : FilterAccountsData.decodeMemcmpData (some memcmp.bytes.toData) = .ok bytes) :
    memcmp.decodedBytes = some bytes := by
  obtain ⟨offset, encoded⟩ := memcmp
  cases encoded with
  | bytes data =>
    simp only [MemcmpEncodedBytes.toData, FilterAccountsData.decodeMemcmpData, Except.ok.injEq] at decoded
    simp [Memcmp.decodedBytes, decoded]
  | binary encodedLength decodedBytes | base58 encodedLength decodedBytes | base64 encodedLength decodedBytes =>
    simp only [MemcmpEncodedBytes.toData, FilterAccountsData.decodeMemcmpData] at decoded
    split at decoded
    · split at decoded
      · cases decoded
        simp_all [Memcmp.decodedBytes]
      · cases decoded
    · cases decoded

/-- A filter the conversion makes and the geyser then takes means what the RPC filter means,
and reaches no further than `u64::MAX`: the geyser takes a memcmp only with the data the
conversion kept, which it keeps only for bytes that decode to nothing. -/
theorem allows_of_tryRpcFilterIntoGeyserAccountFilter {rpcFilter : RpcFilterType}
    {converted : Option AccountsFilterDataOneof} (conversion : tryRpcFilterIntoGeyserAccountFilter rpcFilter = .ok converted)
    {this this' : FilterAccountsData} (pushed : this.push converted = .ok this')
    (validAccountData : List UInt8 → Bool) (data : List UInt8) :
    (∀ value ∈ converted, value.Fits) ∧
      converted.all (AccountsFilterDataOneof.allows validAccountData data) = rpcFilter.allows validAccountData data := by
  cases rpcFilter with
  | dataSize size =>
    simp only [tryRpcFilterIntoGeyserAccountFilter, pure_eq_ok] at conversion
    subst conversion
    exact ⟨fun _ member => by cases member; trivial, rfl⟩
  | tokenAccountState =>
    simp only [tryRpcFilterIntoGeyserAccountFilter, pure_eq_ok] at conversion
    subst conversion
    exact ⟨fun _ member => by cases member; trivial, rfl⟩
  | memcmp memcmp =>
    simp only [tryRpcFilterIntoGeyserAccountFilter, bind_eq_ok, pure_eq_ok] at conversion
    obtain ⟨offset, offsetOk, rfl⟩ := conversion
    have fitsOffset : memcmp.offset < 2 ^ 64 := by
      by_contra big
      rw [tryOffsetIntoU64, if_neg big] at offsetOk
      cases offsetOk
    have sameOffset : offset.toNat = memcmp.offset := by
      simp only [tryOffsetIntoU64, fitsOffset, if_true, pure_eq_ok] at offsetOk
      subst offsetOk
      exact UInt64.toNat_ofNat_of_lt' fitsOffset
    -- the geyser decoded the data, so the conversion kept it
    simp only [FilterAccountsData.push, bind_eq_ok] at pushed
    obtain ⟨bytes, decoded, -⟩ := pushed
    have hasData : (memcmp.decodedBytes.map List.isEmpty).getD false = true := by
      by_contra dropped
      simp [dropped, FilterAccountsData.decodeMemcmpData] at decoded
    simp only [hasData, if_true] at decoded ⊢
    have same := decodedBytes_of_decodeMemcmpData decoded
    -- `has_data` held: the bytes decode to nothing
    have empty : bytes = [] := by
      simpa [same] using hasData
    refine ⟨fun value member => ?_, ?_⟩
    · rw [Option.mem_def, Option.some.injEq] at member
      subst member
      intro bytes' decoded'
      rw [decoded, Except.ok.injEq] at decoded'
      subst decoded'
      simpa [empty, sameOffset] using fitsOffset
    · simp [AccountsFilterDataOneof.allows, RpcFilterType.allows, Memcmp.bytesMatch, decoded, same, sameOffset]

/-- The filters a `programSubscribe` converts and the geyser then takes mean, together, what
the RPC filters mean. -/
theorem allows_of_mapM_tryRpcFilterIntoGeyserAccountFilter {rpcFilters : List RpcFilterType}
    {converted : List (Option AccountsFilterDataOneof)}
    (conversion : rpcFilters.mapM tryRpcFilterIntoGeyserAccountFilter = .ok converted)
    (pushed : ∀ value ∈ converted, ∃ this this', FilterAccountsData.push this value = .ok this')
    (validAccountData : List UInt8 → Bool) (data : List UInt8) :
    (∀ value ∈ converted, ∀ filter ∈ value, filter.Fits) ∧
      converted.all (fun value => value.all (AccountsFilterDataOneof.allows validAccountData data)) =
        rpcFilters.all (RpcFilterType.allows validAccountData data) := by
  induction rpcFilters generalizing converted with
  | nil =>
    simp only [List.mapM_nil, pure_eq_ok] at conversion
    subst conversion
    simp
  | cons rpcFilter rpcFilters ih =>
    rw [List.mapM_cons, bind_eq_ok] at conversion
    obtain ⟨value, first, conversion⟩ := conversion
    rw [bind_eq_ok] at conversion
    obtain ⟨values, rest, same⟩ := conversion
    rw [pure_eq_ok] at same
    subst same
    obtain ⟨this, this', firstPushed⟩ := pushed value List.mem_cons_self
    obtain ⟨firstFits, firstAllows⟩ := allows_of_tryRpcFilterIntoGeyserAccountFilter first firstPushed validAccountData data
    obtain ⟨restFits, restAllows⟩ := ih rest fun value member => pushed value (List.mem_cons_of_mem _ member)
    refine ⟨fun value' member => ?_, ?_⟩
    · rcases List.mem_cons.mp member with rfl | later
      · exact firstFits
      · exact restFits value' later
    · rw [List.all_cons, List.all_cons, firstAllows, restAllows]

/-- `programSubscribe`, wherever it is accepted: over every run, its stream is the updates
handed to it of the accounts the program owns whose data every RPC filter allows, as Solana
means them, each with its data whole. -/
theorem program_subscribe_streams_rpc_filter_matches (config : ConfigGrpc) (programId : Pubkey)
    (filters : Option (List RpcFilterType)) (filter : Full.Filter)
    (accepted : handleProgramSubscribe config programId filters = .ok filter) {Entry BlockMeta : Type}
    (validAccountData : List UInt8 → Bool) (batches : List (CommitmentLevel × List (Full.Message Entry BlockMeta))) :
    GeyserRpcService.clientLoop validAccountData filter none batches =
      some ((GeyserRpcService.handed .processed none batches).flatMap fun message =>
        if (message.account?).any (fun account => decide (account.owner = programId) &&
            (filters.getD []).all (RpcFilterType.allows validAccountData account.data))
          then [⟨["program"], message⟩] else []) := by
  simp only [handleProgramSubscribe, bind_eq_ok, mapError_eq_ok] at accepted
  obtain ⟨sub, converted, built⟩ := accepted
  simp only [tryGeyserSubForProgram, bind_eq_ok, pure_eq_ok] at converted
  obtain ⟨convertedFilters, conversion, rfl⟩ := converted
  -- no filters converts to no filters
  have mapped : (filters.getD []).mapM tryRpcFilterIntoGeyserAccountFilter = .ok (convertedFilters.getD []) := by
    cases filters with
    | none =>
      simp only [Option.mapM_none, pure_eq_ok] at conversion
      subst conversion
      rfl
    | some rpcFilters =>
      simp only [Option.mapM_some, map_eq_ok] at conversion
      obtain ⟨converted, mapped, rfl⟩ := conversion
      exact mapped
  refine stream_of_accountsSubscribe built _ (fun data dataOk account => ?_) none batches
  -- the geyser took each converted filter, which then means what its RPC filter means
  have pushed : ∀ value ∈ convertedFilters.getD [], ∃ this this', FilterAccountsData.push this value = .ok this' := by
    unfold FilterAccountsData.new at dataOk
    split at dataOk
    · exact foldlM_eq_ok_pass dataOk
    · cases dataOk
  obtain ⟨fits, allows⟩ := allows_of_mapM_tryRpcFilterIntoGeyserAccountFilter mapped pushed validAccountData account.data
  have matched := FilterAccountsData.isMatch_of_new validAccountData account.data dataOk fits
  rw [allows] at matched
  rw [matched, Option.map_some]
  by_cases empty : data.isEmpty = true
  · -- no data filter: every data matches
    have all : (filters.getD []).all (RpcFilterType.allows validAccountData account.data) = true := by
      have everything := FilterAccountsData.isMatch_of_isEmpty empty validAccountData account.data
      rw [matched, Option.some.injEq] at everything
      exact everything
    simp [empty, all]
  · simp [empty, -List.all_eq_true]

theorem program_subscribe_streams_sized_accounts :
    ∃ filter, handleProgramSubscribe ConfigGrpc.default (FixedBytes.replicate 32 7)
        (some [.dataSize 3, .memcmp ⟨2, .bytes []⟩]) = .ok filter ∧
      ∀ {Entry BlockMeta : Type} (validAccountData : List UInt8 → Bool)
        (batches : List (CommitmentLevel × List (Full.Message Entry BlockMeta))),
        GeyserRpcService.clientLoop validAccountData filter none batches =
          some ((GeyserRpcService.handed .processed none batches).flatMap fun message =>
            if (message.account?).any (fun account => decide (account.owner = FixedBytes.replicate 32 7) &&
                [RpcFilterType.dataSize 3, .memcmp ⟨2, .bytes []⟩].all (RpcFilterType.allows validAccountData account.data))
              then [⟨["program"], message⟩] else []) := by
  obtain ⟨filter, accepted⟩ : ∃ filter, handleProgramSubscribe ConfigGrpc.default (FixedBytes.replicate 32 7)
      (some [.dataSize 3, .memcmp ⟨2, .bytes []⟩]) = .ok filter := ⟨_, rfl⟩
  exact ⟨filter, accepted, fun validAccountData batches =>
    program_subscribe_streams_rpc_filter_matches _ _ _ filter accepted validAccountData batches⟩

/-- `programSubscribe` with a memcmp whose bytes do not decode to nothing is refused,
whatever the geyser's limits: the conversion drops the memcmp's data, and the geyser refuses
a memcmp without data. -/
theorem program_subscribe_refuses_memcmp_with_bytes (config : ConfigGrpc) (programId : Pubkey)
    (filters : List RpcFilterType) (memcmp : Memcmp) (member : RpcFilterType.memcmp memcmp ∈ filters)
    (withBytes : memcmp.decodedBytes ≠ some []) :
    ∃ message, handleProgramSubscribe config programId (some filters) = .error message := by
  cases handled : handleProgramSubscribe config programId (some filters) with
  | error message => exact ⟨message, rfl⟩
  | ok filter =>
    exfalso
    simp only [handleProgramSubscribe, bind_eq_ok, mapError_eq_ok, tryGeyserSubForProgram, Option.mapM_some,
      map_eq_ok, pure_eq_ok] at handled
    obtain ⟨_, ⟨_, ⟨convertedFilters, mapped, rfl⟩, rfl⟩, accepted⟩ := handled
    obtain ⟨value, valueMember, valueOk⟩ := exists_mem_of_mapM_eq_ok mapped member
    -- `has_data` fails, so the converted memcmp has no data
    have noData : (memcmp.decodedBytes.map List.isEmpty).getD false = false := by
      cases decoded : memcmp.decodedBytes with
      | none => rfl
      | some bytes =>
        cases bytes with
        | nil => exact absurd decoded withBytes
        | cons byte rest => rfl
    simp only [tryRpcFilterIntoGeyserAccountFilter, noData, bind_eq_ok, pure_eq_ok] at valueOk
    obtain ⟨offset, -, rfl⟩ := valueOk
    -- the geyser refuses that memcmp, or refuses the filters for being too many
    have dataRefused : ∃ error, FilterAccountsData.new convertedFilters = .error error := by
      unfold FilterAccountsData.new
      split
      · exact foldlM_eq_error_of_mem valueMember
          (fun _ => ⟨.memcmpDataUndefined, by simp [FilterAccountsData.push, FilterAccountsData.decodeMemcmpData]⟩) _
      · exact ⟨.tooManyFilters, rfl⟩
    obtain ⟨error, dataRefused⟩ := dataRefused
    obtain ⟨error', accountsRefused⟩ := @FilterAccounts.new_eq_error_of_data "program" ⟨[], [programId], convertedFilters⟩
      config.filters.accounts _ dataRefused
    obtain ⟨error'', refused⟩ := @Full.Filter.new_eq_error_of_accounts
      ⟨[("program", ⟨[], [programId], convertedFilters⟩)], [], [], [], [], [], none, []⟩ config.filters
      config.normalizeCommitmentLevel _ accountsRefused
    rw [Option.getD_some, GeyserRpcService.accountsSubscribe, refused] at accepted
    cases accepted

theorem program_subscribe_refuses_memcmp_of_one_byte :
    ∃ message, handleProgramSubscribe ConfigGrpc.default (FixedBytes.replicate 32 7)
      (some [.memcmp ⟨0, .bytes [1]⟩]) = .error message :=
  program_subscribe_refuses_memcmp_with_bytes _ _ _ ⟨0, .bytes [1]⟩ List.mem_cons_self (by decide)

end EphemeralValidator.Pubsub
