import Mathlib.Data.List.AList
import EphemeralValidator.Geyser.AccountMatch

/-! # The geyser RPC service: a subscription's filter and the stream it sends

`GeyserRpcService` serves the validator's pubsub subscriptions from the geyser plugin.  Each
of `accounts_subscribe`, `transaction_subscribe` and `slot_subscribe` builds a whole `Filter`
with `Filter::new` from a `SubscribeRequest` that holds the one map it was given, and
`client_loop` then sends the subscriber, through `handle_messages`, the updates that
`Filter::get_update` makes of every message the plugin broadcasts at the filter's
commitment.

`Full.Filter` is the whole filter; the account part (`Geyser.Filter`) and the filters of the
other messages are those of `Filters` and `MessageFilters`.  What a subscription receives
is stated for a filter built from one map: it sends nothing for the messages of the other
kinds (`transactionSubscribe_getUpdate` and its siblings), and over every run of broadcast
batches its stream is what the filter makes of the messages of the batches at its
commitment, in order (`clientLoop_eq`).

`ConfigGrpc.default` is the configuration `init_geyser_service` starts the service with.
Cancellation, a lagging or closed broadcast and a full channel, which end the loop, are
left out; a panic in `get_update` is `none`, the stream as a whole.
-/

namespace EphemeralValidator.Geyser

open EphemeralValidator.Bytes EphemeralValidator.Solana EphemeralValidator.Lib

/-! ## The configuration -/

/-- `usize::MAX` on the validator's 64-bit targets. -/
def usizeMax : Nat := 2 ^ 64 - 1

/-- `ConfigGrpcFilters`; the limits of slots, block metas and entries are their `max`. -/
structure ConfigGrpcFilters where
  accounts : ConfigGrpcFiltersAccounts
  slots : Nat
  transactions : ConfigGrpcFiltersTransactions
  blocks : ConfigGrpcFiltersBlocks
  blocksMeta : Nat
  entry : Nat

def ConfigGrpcFiltersAccounts.default : ConfigGrpcFiltersAccounts := ⟨usizeMax, true, usizeMax, [], usizeMax, []⟩

def ConfigGrpcFiltersTransactions.default : ConfigGrpcFiltersTransactions :=
  ⟨usizeMax, true, usizeMax, [], usizeMax, usizeMax⟩

def ConfigGrpcFiltersBlocks.default : ConfigGrpcFiltersBlocks := ⟨usizeMax, usizeMax, true, [], true, true, true⟩

def ConfigGrpcFilters.default : ConfigGrpcFilters :=
  ⟨ConfigGrpcFiltersAccounts.default, usizeMax, ConfigGrpcFiltersTransactions.default,
    ConfigGrpcFiltersBlocks.default, usizeMax, usizeMax⟩

/-- What the subscriptions read of `ConfigGrpc`. -/
structure ConfigGrpc where
  filters : ConfigGrpcFilters
  normalizeCommitmentLevel : Bool

/-- `ConfigGrpc::default`: the default limits, but no `any` transaction filter, and the
commitments normalized. -/
def ConfigGrpc.default : ConfigGrpc :=
  ⟨{ ConfigGrpcFilters.default with
      transactions := { ConfigGrpcFiltersTransactions.default with any := false } }, true⟩

/-! ## The filter sets of an empty map and of one filter -/

theorem FilterSlots.getFilters_of_new_nil {max : Nat} {this : FilterSlots} (built : FilterSlots.new [] max = .ok this)
    (message : MessageSlot) (commitment : Option CommitmentLevel) : this.getFilters message commitment = [] := by
  simp only [FilterSlots.new, bind_eq_ok, liftFilter_eq_ok, pure_eq_ok] at built
  obtain ⟨-, -, rfl⟩ := built
  rfl

theorem FilterTransactions.getFilters_of_new_nil {limit : ConfigGrpcFiltersTransactions} {this : FilterTransactions}
    (built : FilterTransactions.new [] limit = .ok this) (message : MessageTransactionInfo) :
    this.getFilters message = [] := by
  simp only [FilterTransactions.new, bind_eq_ok, liftFilter_eq_ok, List.foldlM_nil, pure_eq_ok] at built
  obtain ⟨-, -, rfl⟩ := built
  rfl

theorem FilterEntry.filters_of_new_nil {Config : Type} {max : Nat} {this : FilterEntry}
    (built : FilterEntry.new ([] : List (String × Config)) max = .ok this) : this.filters = [] := by
  simp only [FilterEntry.new, bind_eq_ok, liftFilter_eq_ok, pure_eq_ok] at built
  obtain ⟨-, -, rfl⟩ := built
  rfl

theorem FilterBlocksMeta.filters_of_new_nil {Config : Type} {max : Nat} {this : FilterBlocksMeta}
    (built : FilterBlocksMeta.new ([] : List (String × Config)) max = .ok this) : this.filters = [] := by
  simp only [FilterBlocksMeta.new, bind_eq_ok, liftFilter_eq_ok, pure_eq_ok] at built
  obtain ⟨-, -, rfl⟩ := built
  rfl

theorem FilterBlocks.getFilters_of_new_nil {limit : ConfigGrpcFiltersBlocks} {this : FilterBlocks}
    (built : FilterBlocks.new [] limit = .ok this) {Entry : Type} (message : MessageBlock Entry) :
    this.getFilters message = [] := by
  simp only [FilterBlocks.new, bind_eq_ok, liftFilter_eq_ok, List.foldlM_nil, pure_eq_ok] at built
  obtain ⟨-, -, rfl⟩ := built
  rfl

theorem FilterAccounts.getFilters_of_new_nil {limit : ConfigGrpcFiltersAccounts} {this : FilterAccounts}
    (built : FilterAccounts.new [] limit = .ok this) (validAccountData : List UInt8 → Bool) (pubkey owner : Pubkey)
    (data : List UInt8) : this.getFilters validAccountData pubkey owner data = some [] := by
  simp only [FilterAccounts.new, bind_eq_ok, List.foldlM_nil, pure_eq_ok] at built
  obtain ⟨-, -, rfl⟩ := built
  rfl

/-- A request of one transaction filter: its filter set names it for the transactions its
compilation passes. -/
theorem FilterTransactions.getFilters_of_new_singleton {name : String} {request : SubscribeRequestFilterTransactions}
    {limit : ConfigGrpcFiltersTransactions} {this : FilterTransactions}
    (built : FilterTransactions.new [(name, request)] limit = .ok this) :
    ∃ inner : FilterTransactionsInner, inner.Compiles request ∧
      ∀ message, this.getFilters message = if inner.passes message then [name] else [] := by
  simp only [FilterTransactions.new, bind_eq_ok, liftFilter_eq_ok, List.foldlM_cons, List.foldlM_nil,
    pure_eq_ok] at built
  obtain ⟨-, -, pushed, pushOk, rfl⟩ := built
  obtain ⟨inner, compiled, rfl⟩ := FilterTransactions.push_eq_ok pushOk
  refine ⟨inner, compiled, fun message => ?_⟩
  by_cases passes : inner.passes message = true <;> simp [FilterTransactions.getFilters, passes]

namespace Full

/-! ## The whole filter -/

/-- `SubscribeRequest`; `ping`, read only by `get_pong_msg`, is left out. -/
structure SubscribeRequest where
  accounts : List (String × SubscribeRequestFilterAccounts)
  slots : List (String × SubscribeRequestFilterSlots)
  transactions : List (String × SubscribeRequestFilterTransactions)
  blocks : List (String × SubscribeRequestFilterBlocks)
  /-- `SubscribeRequestFilterBlocksMeta` has no field -/
  blocksMeta : List (String × Unit)
  /-- `SubscribeRequestFilterEntry` has no field -/
  entry : List (String × Unit)
  /-- the `i32` of a `CommitmentLevel` -/
  commitment : Option Int
  accountsDataSlice : List SubscribeRequestAccountsDataSlice

/-- The errors of `Filter::new`. -/
inductive Error where
  | filter (error : MessageFilterError)
  /-- "failed to create CommitmentLevel from {commitment:?}" -/
  | commitment (value : Int)

/-- An error of a filter's own `new`. -/
def lift {α : Type} (check : Except MessageFilterError α) : Except Error α :=
  check.mapError .filter

/-- `Filter::decode_commitment`: `processed` when none is given. -/
def decodeCommitment (commitment : Option Int) : Except Error CommitmentLevel :=
  let value := commitment.getD 0
  if value = 0 then pure .processed
  else if value = 1 then pure .confirmed
  else if value = 2 then pure .finalized
  else throw (.commitment value)

/-- `Filter`. -/
structure Filter where
  accounts : FilterAccounts
  slots : FilterSlots
  transactions : FilterTransactions
  entry : FilterEntry
  blocks : FilterBlocks
  blocksMeta : FilterBlocksMeta
  commitment : CommitmentLevel
  accountsDataSlice : List FilterAccountsDataSlice

/-- The commitment of `Filter::new`: `processed` when normalizing, the request's otherwise. -/
def commitmentOf (config : SubscribeRequest) (normalizingCommitment : Bool) : Except Error CommitmentLevel :=
  if normalizingCommitment then pure .processed else decodeCommitment config.commitment

/-- `Filter::new`. -/
def Filter.new (config : SubscribeRequest) (limit : ConfigGrpcFilters) (normalizingCommitment : Bool) :
    Except Error Filter := do
  let commitment ← commitmentOf config normalizingCommitment
  let accounts ← lift (liftFilter (FilterAccounts.new config.accounts limit.accounts))
  let slots ← lift (FilterSlots.new config.slots limit.slots)
  let transactions ← lift (FilterTransactions.new config.transactions limit.transactions)
  let entry ← lift (FilterEntry.new config.entry limit.entry)
  let blocks ← lift (FilterBlocks.new config.blocks limit.blocks)
  let blocksMeta ← lift (FilterBlocksMeta.new config.blocksMeta limit.blocksMeta)
  let accountsDataSlice ← lift (liftFilter (FilterAccountsDataSlice.create config.accountsDataSlice))
  pure ⟨accounts, slots, transactions, entry, blocks, blocksMeta, commitment, accountsDataSlice⟩

/-- The account part: what `Geyser.Filter` models. -/
def Filter.accountPart (filter : Filter) : Geyser.Filter := ⟨filter.accounts, filter.accountsDataSlice⟩

/-! ## Messages and updates -/

/-- `Message`; an entry and a block meta are taken as they are. -/
inductive Message (Entry BlockMeta : Type) where
  | slot (message : MessageSlot)
  | account (message : MessageAccountInfo)
  | transaction (message : MessageTransactionInfo)
  | entry (message : Entry)
  | block (message : MessageBlock Entry)
  | blockMeta (message : BlockMeta)

/-- `SubscribeUpdate`: the names of the filters and the message as `MessageRef::to_proto`
sends it, the data of its accounts cut to the filter's slices. -/
structure SubscribeUpdate (Entry BlockMeta : Type) where
  filters : List String
  updateOneof : Message Entry BlockMeta

variable {Entry BlockMeta : Type}

/-- `MessageAccountInfo::to_proto`; `none` is a panic. -/
def toProtoAccount (slices : List FilterAccountsDataSlice) (account : MessageAccountInfo) :
    Option MessageAccountInfo :=
  (sliceData account.data slices).map fun data => { account with data }

/-- The block of `MessageRef::to_proto`: its accounts cut to the slices; `none` is a panic. -/
def toProtoBlock (slices : List FilterAccountsDataSlice) (block : MessageBlock Entry) :
    Option (MessageBlock Entry) := do
  let accounts ← block.accounts.mapM (toProtoAccount slices)
  pure { block with accounts }

/-- The `filter_map` of `get_update` on one pair of `get_filters`, for a message sent as
it is. -/
def updateOf (filters : List String) (message : Message Entry BlockMeta) : List (SubscribeUpdate Entry BlockMeta) :=
  if filters.isEmpty then [] else [⟨filters, message⟩]

/-- `Filter::get_update`, with `TokenAccount::valid_account_data` as `validAccountData`;
`none` is a panic. -/
def Filter.getUpdate (validAccountData : List UInt8 → Bool) (filter : Filter) (message : Message Entry BlockMeta)
    (commitment : Option CommitmentLevel) : Option (List (SubscribeUpdate Entry BlockMeta)) :=
  match message with
  | .slot message => pure (updateOf (filter.slots.getFilters message commitment) (.slot message))
  | .account message => do
    -- the account filters' names and sliced data, as the account part computes them
    let updates ← filter.accountPart.getUpdate validAccountData message
    pure (updates.map fun update => ⟨update.filters, .account { message with data := update.data }⟩)
  | .transaction message => pure (updateOf (filter.transactions.getFilters message) (.transaction message))
  | .entry message => pure (updateOf filter.entry.filters (.entry message))
  | .block message =>
    (filter.blocks.getFilters message).filterMapM fun entry =>
      if entry.1.isEmpty then pure none
      else (toProtoBlock filter.accountsDataSlice entry.2).map fun block => some ⟨entry.1, .block block⟩
  | .blockMeta message => pure (updateOf filter.blocksMeta.filters (.blockMeta message))

/-- The transaction a message carries, if it is one. -/
def Message.transaction? : Message Entry BlockMeta → Option MessageTransactionInfo
  | .transaction message => some message
  | _ => none

/-- The account a message carries, if it is one. -/
def Message.account? : Message Entry BlockMeta → Option MessageAccountInfo
  | .account message => some message
  | _ => none

/-- The slot update a message carries, if it is one. -/
def Message.slot? : Message Entry BlockMeta → Option MessageSlot
  | .slot message => some message
  | _ => none

/-! ## Building the filter -/

@[simp] theorem lift_eq_ok {α : Type} {check : Except MessageFilterError α} {a : α} :
    lift check = .ok a ↔ check = .ok a :=
  mapError_eq_ok

/-- `Filter::new` accepts a request exactly when its commitment decodes and each filter set
of it is accepted, and the filter holds what each built. -/
theorem Filter.new_eq_ok {config : SubscribeRequest} {limit : ConfigGrpcFilters} {normalizing : Bool}
    {filter : Filter} :
    Filter.new config limit normalizing = .ok filter ↔
      commitmentOf config normalizing = .ok filter.commitment ∧
      FilterAccounts.new config.accounts limit.accounts = .ok filter.accounts ∧
      FilterSlots.new config.slots limit.slots = .ok filter.slots ∧
      FilterTransactions.new config.transactions limit.transactions = .ok filter.transactions ∧
      FilterEntry.new config.entry limit.entry = .ok filter.entry ∧
      FilterBlocks.new config.blocks limit.blocks = .ok filter.blocks ∧
      FilterBlocksMeta.new config.blocksMeta limit.blocksMeta = .ok filter.blocksMeta ∧
      FilterAccountsDataSlice.create config.accountsDataSlice = .ok filter.accountsDataSlice := by
  simp only [Filter.new, bind_eq_ok, lift_eq_ok, liftFilter_eq_ok, pure_eq_ok]
  constructor
  · rintro ⟨_, commitment, _, accounts, _, slots, _, transactions, _, entry, _, blocks, _, blocksMeta, _, slices, rfl⟩
    exact ⟨commitment, accounts, slots, transactions, entry, blocks, blocksMeta, slices⟩
  · rintro ⟨commitment, accounts, slots, transactions, entry, blocks, blocksMeta, slices⟩
    exact ⟨_, commitment, _, accounts, _, slots, _, transactions, _, entry, _, blocks, _, blocksMeta, _, slices, rfl⟩

/-- A request without a commitment gives a filter at `processed`, normalized or not. -/
theorem Filter.commitment_of_new {config : SubscribeRequest} {limit : ConfigGrpcFilters} {normalizing : Bool}
    {filter : Filter} (noCommitment : config.commitment = none) (built : Filter.new config limit normalizing = .ok filter) :
    filter.commitment = .processed := by
  have decoded := (Filter.new_eq_ok.mp built).1
  cases normalizing <;> simp [commitmentOf, decodeCommitment, noCommitment] at decoded <;> exact decoded.symm

/-- A request whose account filters are refused is refused. -/
theorem Filter.new_eq_error_of_accounts {config : SubscribeRequest} {limit : ConfigGrpcFilters} {normalizing : Bool}
    {error : FilterError} (refused : FilterAccounts.new config.accounts limit.accounts = .error error) :
    ∃ error', Filter.new config limit normalizing = .error error' := by
  cases decoded : commitmentOf config normalizing with
  | error error' => exact ⟨error', by simp [Filter.new, decoded]⟩
  | ok commitment => exact ⟨.filter (.filter error), by simp [Filter.new, decoded, lift, liftFilter, refused, Except.mapError]⟩

end Full

/-! ## The service -/

namespace GeyserRpcService

variable {Entry BlockMeta : Type}

/-- `accounts_subscribe`: `Filter::new` on a request of accounts alone. -/
def accountsSubscribe (config : ConfigGrpc) (accountSubscription : List (String × SubscribeRequestFilterAccounts)) :
    Except Full.Error Full.Filter :=
  Full.Filter.new ⟨accountSubscription, [], [], [], [], [], none, []⟩ config.filters config.normalizeCommitmentLevel

/-- `transaction_subscribe`: `Filter::new` on a request of transactions alone. -/
def transactionSubscribe (config : ConfigGrpc)
    (transactionSubscription : List (String × SubscribeRequestFilterTransactions)) : Except Full.Error Full.Filter :=
  Full.Filter.new ⟨[], [], transactionSubscription, [], [], [], none, []⟩ config.filters config.normalizeCommitmentLevel

/-- `slot_subscribe`: `Filter::new` on a request of slots alone. -/
def slotSubscribe (config : ConfigGrpc) (slotSubscription : List (String × SubscribeRequestFilterSlots)) :
    Except Full.Error Full.Filter :=
  Full.Filter.new ⟨[], slotSubscription, [], [], [], [], none, []⟩ config.filters config.normalizeCommitmentLevel

/-- `handle_messages`: the updates sent for a batch broadcast at `commitment`, none unless it
is the filter's; `none` is a panic. -/
def handleMessages (validAccountData : List UInt8 → Bool) (filter : Full.Filter) (commitment : CommitmentLevel)
    (messages : List (Full.Message Entry BlockMeta)) : Option (List (Full.SubscribeUpdate Entry BlockMeta)) :=
  if commitment = filter.commitment then
    (messages.mapM fun message => filter.getUpdate validAccountData message (some commitment)).map List.flatten
  else pure []

/-- `client_loop`: the stream a subscriber receives, the initial messages from the cache
first, at the filter's own commitment, then each batch of the broadcast in turn. -/
def clientLoop (validAccountData : List UInt8 → Bool) (filter : Full.Filter)
    (initialMessages : Option (List (Full.Message Entry BlockMeta)))
    (batches : List (CommitmentLevel × List (Full.Message Entry BlockMeta))) :
    Option (List (Full.SubscribeUpdate Entry BlockMeta)) := do
  let initial ← match initialMessages with
    | some messages => handleMessages validAccountData filter filter.commitment messages
    | none => pure []
  let sent ← batches.mapM fun batch => handleMessages validAccountData filter batch.1 batch.2
  pure (initial ++ sent.flatten)

/-! ## What a subscription sends of a message -/

/-- A filter built from transactions alone sends nothing but transactions, each under the
names of the filters that pass it. -/
theorem transactionSubscribe_getUpdate {config : ConfigGrpc}
    {subscription : List (String × SubscribeRequestFilterTransactions)} {filter : Full.Filter}
    (built : transactionSubscribe config subscription = .ok filter) (validAccountData : List UInt8 → Bool)
    (message : Full.Message Entry BlockMeta) (commitment : Option CommitmentLevel) :
    filter.getUpdate validAccountData message commitment =
      some (((message.transaction?).map fun transaction =>
        Full.updateOf (filter.transactions.getFilters transaction) message).getD []) := by
  obtain ⟨-, accounts, slots, -, entry, blocks, blocksMeta, -⟩ := Full.Filter.new_eq_ok.mp built
  cases message with
  | slot message =>
    simp [Full.Filter.getUpdate, Full.Message.transaction?, FilterSlots.getFilters_of_new_nil slots, Full.updateOf]
  | account message =>
    simp [Full.Filter.getUpdate, Full.Filter.accountPart, Filter.getUpdate, Full.Message.transaction?,
      FilterAccounts.getFilters_of_new_nil accounts]
  | transaction message => rfl
  | entry message =>
    simp [Full.Filter.getUpdate, Full.Message.transaction?, FilterEntry.filters_of_new_nil entry, Full.updateOf]
  | block message =>
    simp [Full.Filter.getUpdate, Full.Message.transaction?, FilterBlocks.getFilters_of_new_nil blocks]
  | blockMeta message =>
    simp [Full.Filter.getUpdate, Full.Message.transaction?, FilterBlocksMeta.filters_of_new_nil blocksMeta,
      Full.updateOf]

/-- A subscription of one transaction filter sends each transaction its compilation passes,
under the filter's name, and nothing else. -/
theorem transactionSubscribe_getUpdate_singleton {config : ConfigGrpc} {name : String}
    {request : SubscribeRequestFilterTransactions} {filter : Full.Filter}
    (built : transactionSubscribe config [(name, request)] = .ok filter) :
    ∃ inner : FilterTransactionsInner, inner.Compiles request ∧
      ∀ {Entry BlockMeta : Type} validAccountData (message : Full.Message Entry BlockMeta) commitment,
        filter.getUpdate validAccountData message commitment =
          some (if (message.transaction?).any inner.passes then [⟨[name], message⟩] else []) := by
  obtain ⟨-, -, -, transactions, -⟩ := Full.Filter.new_eq_ok.mp built
  obtain ⟨inner, compiled, names⟩ := FilterTransactions.getFilters_of_new_singleton transactions
  refine ⟨inner, compiled, ?_⟩
  intro Entry BlockMeta validAccountData message commitment
  rw [transactionSubscribe_getUpdate built]
  cases message with
  | transaction transaction =>
    by_cases passes : inner.passes transaction = true <;>
      simp [Full.Message.transaction?, names, passes, Full.updateOf]
  | _ => simp [Full.Message.transaction?]

/-- A filter built from accounts alone sends nothing but account updates, as the account
part sends them. -/
theorem accountsSubscribe_getUpdate {config : ConfigGrpc}
    {subscription : List (String × SubscribeRequestFilterAccounts)} {filter : Full.Filter}
    (built : accountsSubscribe config subscription = .ok filter) (validAccountData : List UInt8 → Bool)
    (message : Full.Message Entry BlockMeta) (commitment : Option CommitmentLevel) :
    filter.getUpdate validAccountData message commitment =
      ((message.account?).map fun account => (filter.accountPart.getUpdate validAccountData account).map
        (List.map fun update => ⟨update.filters, .account { account with data := update.data }⟩)).getD (some []) := by
  obtain ⟨-, -, slots, transactions, entry, blocks, blocksMeta, -⟩ := Full.Filter.new_eq_ok.mp built
  cases message with
  | slot message =>
    simp [Full.Filter.getUpdate, Full.Message.account?, FilterSlots.getFilters_of_new_nil slots, Full.updateOf]
  | account message =>
    simp only [Full.Filter.getUpdate, Full.Message.account?, Option.map_some, Option.getD_some]
    cases filter.accountPart.getUpdate validAccountData message <;> rfl
  | transaction message =>
    simp [Full.Filter.getUpdate, Full.Message.account?, FilterTransactions.getFilters_of_new_nil transactions,
      Full.updateOf]
  | entry message =>
    simp [Full.Filter.getUpdate, Full.Message.account?, FilterEntry.filters_of_new_nil entry, Full.updateOf]
  | block message =>
    simp [Full.Filter.getUpdate, Full.Message.account?, FilterBlocks.getFilters_of_new_nil blocks]
  | blockMeta message =>
    simp [Full.Filter.getUpdate, Full.Message.account?, FilterBlocksMeta.filters_of_new_nil blocksMeta,
      Full.updateOf]

/-- A subscription of one account filter sends each account update its three tests pass,
with all its data and under the filter's name, and nothing else; the data filters' match is
made first, and its panic is the answer's. -/
theorem accountsSubscribe_getUpdate_singleton {config : ConfigGrpc} {name : String}
    {request : SubscribeRequestFilterAccounts} {filter : Full.Filter}
    (built : accountsSubscribe config [(name, request)] = .ok filter) :
    ∃ data, FilterAccountsData.new request.filters = .ok data ∧
      ∀ {Entry BlockMeta : Type} validAccountData (message : Full.Message Entry BlockMeta) commitment,
        filter.getUpdate validAccountData message commitment =
          ((message.account?).map fun account => (data.isMatch validAccountData account.data).map fun matched =>
            if (request.account = [] ∨ account.pubkey ∈ request.account) ∧
                (request.owner = [] ∨ account.owner ∈ request.owner) ∧ (data.isEmpty = true ∨ matched = true)
              then [⟨[name], message⟩] else []).getD (some []) := by
  obtain ⟨-, accounts, -, -, -, -, -, slices⟩ := Full.Filter.new_eq_ok.mp built
  obtain ⟨data, dataOk, names⟩ := FilterAccounts.getFilters_of_new_singleton accounts
  -- the request has no data slice: the data is sent whole
  have noSlices : filter.accountsDataSlice = [] := by
    simp only [FilterAccountsDataSlice.create, bind_eq_ok, pure_eq_ok] at slices
    obtain ⟨-, -, same⟩ := slices
    exact same.symm
  refine ⟨data, dataOk, ?_⟩
  intro Entry BlockMeta validAccountData message commitment
  rw [accountsSubscribe_getUpdate built]
  cases message with
  | account account =>
    cases dataMatch : data.isMatch validAccountData account.data with
    | none =>
      simp [Full.Message.account?, Full.Filter.accountPart, Filter.getUpdate, names, dataMatch]
    | some matched =>
      by_cases selected : (request.account = [] ∨ account.pubkey ∈ request.account) ∧
          (request.owner = [] ∨ account.owner ∈ request.owner) ∧ (data.isEmpty = true ∨ matched = true) <;>
        simp [Full.Message.account?, Full.Filter.accountPart, Filter.getUpdate, names, dataMatch, selected, noSlices,
          sliceData]
  | _ => simp [Full.Message.account?]

/-! ## The stream of a subscription -/

/-- The messages a subscription at `commitment` is handed: the initial ones, then those of
each batch broadcast at its commitment, in order. -/
def handed (commitment : CommitmentLevel) (initialMessages : Option (List (Full.Message Entry BlockMeta)))
    (batches : List (CommitmentLevel × List (Full.Message Entry BlockMeta))) : List (Full.Message Entry BlockMeta) :=
  initialMessages.getD [] ++ (batches.filter fun batch => decide (batch.1 = commitment)).flatMap (·.2)

theorem mapM_eq_some_map {α β : Type} {f : α → Option β} {g : α → β} {l : List α}
    (each : ∀ x ∈ l, f x = some (g x)) : l.mapM f = some (l.map g) := by
  induction l with
  | nil => rfl
  | cons x xs ih =>
    rw [List.mapM_cons, each x List.mem_cons_self, ih fun y member => each y (List.mem_cons_of_mem x member)]
    rfl

section Stream

variable {validAccountData : List UInt8 → Bool} {filter : Full.Filter}
  {sends : Full.Message Entry BlockMeta → List (Full.SubscribeUpdate Entry BlockMeta)}
  (getUpdate_eq : ∀ message, filter.getUpdate validAccountData message (some filter.commitment) = some (sends message))
include getUpdate_eq

/-- A batch at the filter's commitment is sent message by message; any other batch, not at all. -/
theorem handleMessages_eq (commitment : CommitmentLevel) (messages : List (Full.Message Entry BlockMeta)) :
    handleMessages validAccountData filter commitment messages =
      some (if commitment = filter.commitment then messages.flatMap sends else []) := by
  unfold handleMessages
  split
  · next same =>
    rw [same, mapM_eq_some_map fun message _ => getUpdate_eq message]
    simp [List.flatMap]
  · rfl

/-- Over every run of broadcast batches, a subscriber's stream is what its filter sends of
each message it is handed, in order, and it does not panic. -/
theorem clientLoop_eq (initialMessages : Option (List (Full.Message Entry BlockMeta)))
    (batches : List (CommitmentLevel × List (Full.Message Entry BlockMeta))) :
    clientLoop validAccountData filter initialMessages batches =
      some ((handed filter.commitment initialMessages batches).flatMap sends) := by
  -- the run is the concatenation of its batches, each sent as `handleMessages_eq` says
  have run : (batches.map fun batch => if batch.1 = filter.commitment then batch.2.flatMap sends else []).flatten =
      ((batches.filter fun batch => decide (batch.1 = filter.commitment)).flatMap (·.2)).flatMap sends := by
    induction batches with
    | nil => rfl
    | cons batch batches ih =>
      by_cases same : batch.1 = filter.commitment <;> simp [same, ih, List.flatMap_append]
  have sent : (batches.mapM fun batch => handleMessages validAccountData filter batch.1 batch.2) =
      some (batches.map fun batch => if batch.1 = filter.commitment then batch.2.flatMap sends else []) :=
    mapM_eq_some_map fun batch _ => handleMessages_eq getUpdate_eq batch.1 batch.2
  cases initialMessages with
  | none => simp [clientLoop, handed, sent, run]
  | some messages =>
    simp only [clientLoop, sent]
    simp [handed, run, handleMessages_eq getUpdate_eq, List.flatMap_append]

end Stream

end GeyserRpcService

end EphemeralValidator.Geyser
