import Mathlib.Data.List.AList
import EphemeralValidator.Geyser.Filters
import EphemeralValidator.Lib.Slice

/-! # The slot, transaction, entry and block filters of a geyser subscription

Besides the account filters, `Filter::new` builds from a `SubscribeRequest` one filter set
per kind of message, each a map from the filter's name to what it asks for, and
`Filter::get_filters` gives, for a message of that kind, the names of the filters it is
sent under.

* A slot filter passes every slot update, or, with `filter_by_commitment`, those at the
  commitment of the subscription.
* A transaction filter tests the vote and failed flags and the signature, then the
  transaction's account keys: one of them among `account_include`, none among
  `account_exclude`, and every one of `account_required` among them.  The two first lists
  are sorted when the filter is built and searched by `binary_search`; for the third, the
  keys are sorted and searched, after a length test: a required list longer than the key
  list fails even when its keys repeat.
* A block filter is sent with every block, with the block's transactions, accounts and
  entries cut down to what it asks for.  `FilterBlocks::new` checks `include_entries`
  against the limit `include_accounts`, not `include_entries`
  (`filterBlocks_new_checks_entries_against_accounts`).

`transaction_filter_selects_iff` and `block_filter_updates_perm` say, for every accepted
request with distinct filter names (the request is a map), which messages each filter
passes, in the request's own terms.  The maps of the source are `AList`s, whose entries
come in some order, as a `HashMap` iterates; what is stated does not depend on it.
-/

namespace EphemeralValidator.Geyser

open EphemeralValidator.Bytes EphemeralValidator.Solana EphemeralValidator.Lib

/-- The errors of `Filter::new` for these filters: those of the account filters' checks,
and one per message of their own. -/
inductive MessageFilterError where
  | filter (error : FilterError)
  /-- "invalid signature: {error}" -/
  | invalidSignature
  /-- "`include_transactions` is not allowed" -/
  | includeTransactionsNotAllowed
  /-- "`include_accounts` is not allowed" -/
  | includeAccountsNotAllowed
  /-- "`include_entries` is not allowed" -/
  | includeEntriesNotAllowed

/-- A check shared with the account filters, its error kept. -/
def liftFilter {α : Type} (check : Except FilterError α) : Except MessageFilterError α :=
  check.mapError .filter

/-- `anyhow::ensure!(condition, error)`. -/
def ensure (condition : Bool) (error : MessageFilterError) : Except MessageFilterError Unit :=
  if condition then pure () else throw error

/-- `CommitmentLevel`. -/
inductive CommitmentLevel where
  | processed
  | confirmed
  | finalized
  deriving DecidableEq

/-! ## The request -/

structure SubscribeRequestFilterSlots where
  filterByCommitment : Option Bool

structure SubscribeRequestFilterTransactions where
  vote : Option Bool
  failed : Option Bool
  /-- the signature string, given by what it parses to -/
  signature : Option (Option Signature)
  accountInclude : List Pubkey
  accountExclude : List Pubkey
  accountRequired : List Pubkey

structure SubscribeRequestFilterBlocks where
  accountInclude : List Pubkey
  includeTransactions : Option Bool
  includeAccounts : Option Bool
  includeEntries : Option Bool

/-- `ConfigGrpcFiltersTransactions`. -/
structure ConfigGrpcFiltersTransactions where
  max : Nat
  any : Bool
  accountIncludeMax : Nat
  accountIncludeReject : List Pubkey
  accountExcludeMax : Nat
  accountRequiredMax : Nat

/-- `ConfigGrpcFiltersBlocks`. -/
structure ConfigGrpcFiltersBlocks where
  max : Nat
  accountIncludeMax : Nat
  accountIncludeAny : Bool
  accountIncludeReject : List Pubkey
  includeTransactions : Bool
  includeAccounts : Bool
  includeEntries : Bool

/-! ## The messages -/

/-- `MessageSlot`. -/
structure MessageSlot where
  slot : Slot
  parent : Option Slot
  status : CommitmentLevel

/-- What the filters read of a transaction: its signature, its vote flag, whether its
status is an error, and the account keys of its message. -/
structure MessageTransactionInfo where
  signature : Signature
  isVote : Bool
  failed : Bool
  accountKeys : List Pubkey

/-- The parts of `MessageBlock` a block filter cuts down; the entries are taken as they are. -/
structure MessageBlock (Entry : Type) where
  transactions : List MessageTransactionInfo
  accounts : List MessageAccountInfo
  entries : List Entry

/-! ## Decoding pubkeys -/

/-- `Filter::decode_pubkeys`, collected: each pubkey checked against `reject`, in order. -/
def Filter.decodePubkeys (pubkeys reject : List Pubkey) : Except FilterError (List Pubkey) :=
  pubkeys.mapM fun pubkey => do
    checkPubkeyReject pubkey reject
    pure pubkey

/-- `Filter::decode_pubkeys_into_vec`: the decoded pubkeys, sorted for `binary_search`. -/
def Filter.decodePubkeysIntoVec (pubkeys reject : List Pubkey) :
    Except FilterError {vec : List Pubkey // Slice.Sorted vec} := do
  let vec ← Filter.decodePubkeys pubkeys reject
  pure ⟨Slice.sort vec, Slice.sorted_sort vec⟩

/-! ## Slot filters -/

/-- `FilterSlotsInner`. -/
structure FilterSlotsInner where
  filterByCommitment : Bool

def FilterSlotsInner.new (filter : SubscribeRequestFilterSlots) : FilterSlotsInner :=
  ⟨filter.filterByCommitment.getD false⟩

/-- `FilterSlots`. -/
structure FilterSlots where
  filters : AList fun _ : String => FilterSlotsInner

/-- `FilterSlots::new`; the limit is `ConfigGrpcFiltersSlots::max`. -/
def FilterSlots.new (configs : List (String × SubscribeRequestFilterSlots)) (max : Nat) :
    Except MessageFilterError FilterSlots := do
  liftFilter (checkMax configs.length max)
  pure ⟨configs.foldl (fun filters entry => filters.insert entry.1 (FilterSlotsInner.new entry.2)) ∅⟩

/-- `FilterSlots::get_filters`: the names of the filters a slot update is sent under. -/
def FilterSlots.getFilters (this : FilterSlots) (message : MessageSlot) (commitment : Option CommitmentLevel) :
    List String :=
  this.filters.entries.filterMap fun entry =>
    if !entry.2.filterByCommitment || commitment == some message.status then some entry.1 else none

/-! ## Transaction filters -/

/-- `FilterTransactionsInner`; the lists searched by `binary_search` are sorted. -/
structure FilterTransactionsInner where
  vote : Option Bool
  failed : Option Bool
  signature : Option Signature
  accountInclude : List Pubkey
  accountExclude : List Pubkey
  accountRequired : List Pubkey
  includeSorted : Slice.Sorted accountInclude
  excludeSorted : Slice.Sorted accountExclude

/-- `FilterTransactions`. -/
structure FilterTransactions where
  filters : AList fun _ : String => FilterTransactionsInner

/-- `filter.signature.map(parse).transpose()`. -/
def parseSignature : Option (Option Signature) → Except MessageFilterError (Option Signature)
  | none => pure none
  | some (some signature) => pure (some signature)
  | some none => throw .invalidSignature

/-- One pass of the loop of `FilterTransactions::new`. -/
def FilterTransactions.push (limit : ConfigGrpcFiltersTransactions) (this : FilterTransactions)
    (entry : String × SubscribeRequestFilterTransactions) : Except MessageFilterError FilterTransactions := do
  let (name, filter) := entry
  liftFilter (checkAny (filter.vote.isNone && filter.failed.isNone && filter.accountInclude.isEmpty &&
    filter.accountExclude.isEmpty && filter.accountRequired.isEmpty) limit.any)
  liftFilter (checkPubkeyMax filter.accountInclude.length limit.accountIncludeMax)
  liftFilter (checkPubkeyMax filter.accountExclude.length limit.accountExcludeMax)
  liftFilter (checkPubkeyMax filter.accountRequired.length limit.accountRequiredMax)
  let signature ← parseSignature filter.signature
  let accountInclude ← liftFilter (Filter.decodePubkeysIntoVec filter.accountInclude limit.accountIncludeReject)
  let accountExclude ← liftFilter (Filter.decodePubkeysIntoVec filter.accountExclude [])
  let accountRequired ← liftFilter (Filter.decodePubkeysIntoVec filter.accountRequired [])
  pure ⟨this.filters.insert name ⟨filter.vote, filter.failed, signature, accountInclude.1, accountExclude.1,
    accountRequired.1, accountInclude.2, accountExclude.2⟩⟩

/-- `FilterTransactions::new`. -/
def FilterTransactions.new (configs : List (String × SubscribeRequestFilterTransactions))
    (limit : ConfigGrpcFiltersTransactions) : Except MessageFilterError FilterTransactions := do
  liftFilter (checkMax configs.length limit.max)
  configs.foldlM (FilterTransactions.push limit) ⟨∅⟩

/-- The `account_required` test of `get_filters`: the key list is at least as long as the
required one, and, sorted, holds each required key. -/
def isSubset (accountRequired accountKeys : List Pubkey) : Bool :=
  if accountRequired.length ≤ accountKeys.length then
    let other := Slice.sort accountKeys
    accountRequired.all fun pubkey => (Slice.binarySearch other pubkey).isOk
  else false

/-- Whether a transaction filter passes a transaction: the body of the `filter_map` of
`FilterTransactions::get_filters`. -/
def FilterTransactionsInner.passes (inner : FilterTransactionsInner) (message : MessageTransactionInfo) : Bool :=
  if inner.vote.any (· != message.isVote) then false
  else if inner.failed.any (· != message.failed) then false
  else if inner.signature.any (· != message.signature) then false
  else if !inner.accountInclude.isEmpty &&
      message.accountKeys.all (fun pubkey => !(Slice.binarySearch inner.accountInclude pubkey).isOk) then false
  else if !inner.accountExclude.isEmpty &&
      message.accountKeys.any (fun pubkey => (Slice.binarySearch inner.accountExclude pubkey).isOk) then false
  else if !inner.accountRequired.isEmpty && !isSubset inner.accountRequired message.accountKeys then false
  else true

/-- `FilterTransactions::get_filters`. -/
def FilterTransactions.getFilters (this : FilterTransactions) (message : MessageTransactionInfo) : List String :=
  this.filters.entries.filterMap fun entry => if entry.2.passes message then some entry.1 else none

/-! ## Entry and block meta filters -/

/-- `FilterEntry`: the names of the request's entry filters, which pass every entry. -/
structure FilterEntry where
  filters : List String

/-- `FilterEntry::new`; the limit is `ConfigGrpcFiltersEntry::max`. -/
def FilterEntry.new {Config : Type} (configs : List (String × Config)) (max : Nat) :
    Except MessageFilterError FilterEntry := do
  liftFilter (checkMax configs.length max)
  pure ⟨configs.map (·.1)⟩

/-- `FilterBlocksMeta`: the names of the request's block meta filters, which pass every
block meta. -/
structure FilterBlocksMeta where
  filters : List String

/-- `FilterBlocksMeta::new`; the limit is `ConfigGrpcFiltersBlocksMeta::max`. -/
def FilterBlocksMeta.new {Config : Type} (configs : List (String × Config)) (max : Nat) :
    Except MessageFilterError FilterBlocksMeta := do
  liftFilter (checkMax configs.length max)
  pure ⟨configs.map (·.1)⟩

/-! ## Block filters -/

/-- `FilterBlocksInner`; the list searched by `binary_search` is sorted. -/
structure FilterBlocksInner where
  accountInclude : List Pubkey
  includeTransactions : Option Bool
  includeAccounts : Option Bool
  includeEntries : Option Bool
  includeSorted : Slice.Sorted accountInclude

/-- `FilterBlocks`. -/
structure FilterBlocks where
  filters : AList fun _ : String => FilterBlocksInner

/-- One pass of the loop of `FilterBlocks::new`. -/
def FilterBlocks.push (limit : ConfigGrpcFiltersBlocks) (this : FilterBlocks)
    (entry : String × SubscribeRequestFilterBlocks) : Except MessageFilterError FilterBlocks := do
  let (name, filter) := entry
  liftFilter (checkAny filter.accountInclude.isEmpty limit.accountIncludeAny)
  liftFilter (checkPubkeyMax filter.accountInclude.length limit.accountIncludeMax)
  ensure (filter.includeTransactions == some false || limit.includeTransactions) .includeTransactionsNotAllowed
  ensure (filter.includeAccounts != some true || limit.includeAccounts) .includeAccountsNotAllowed
  -- the source checks `include_entries` against `limit.include_accounts`
  ensure (filter.includeEntries != some true || limit.includeAccounts) .includeEntriesNotAllowed
  let accountInclude ← liftFilter (Filter.decodePubkeysIntoVec filter.accountInclude limit.accountIncludeReject)
  pure ⟨this.filters.insert name
    ⟨accountInclude.1, filter.includeTransactions, filter.includeAccounts, filter.includeEntries, accountInclude.2⟩⟩

/-- `FilterBlocks::new`. -/
def FilterBlocks.new (configs : List (String × SubscribeRequestFilterBlocks)) (limit : ConfigGrpcFiltersBlocks) :
    Except MessageFilterError FilterBlocks := do
  liftFilter (checkMax configs.length limit.max)
  configs.foldlM (FilterBlocks.push limit) ⟨∅⟩

/-- The block a block filter sends: the transactions with an included key (unless it asks
for none), the included accounts (when it asks for them), the entries (when it asks). -/
def FilterBlocksInner.cut {Entry : Type} (inner : FilterBlocksInner) (message : MessageBlock Entry) :
    MessageBlock Entry where
  transactions :=
    if inner.includeTransactions != some false then
      message.transactions.filter fun transaction =>
        inner.accountInclude.isEmpty ||
          !transaction.accountKeys.all fun pubkey => !(Slice.binarySearch inner.accountInclude pubkey).isOk
    else []
  accounts :=
    if inner.includeAccounts == some true then
      message.accounts.filter fun account =>
        inner.accountInclude.isEmpty || (Slice.binarySearch inner.accountInclude account.pubkey).isOk
    else []
  entries := if inner.includeEntries == some true then message.entries else []

/-- `FilterBlocks::get_filters`: every block filter, with its own cut of the block. -/
def FilterBlocks.getFilters {Entry : Type} (this : FilterBlocks) (message : MessageBlock Entry) :
    List (List String × MessageBlock Entry) :=
  this.filters.entries.map fun entry => ([entry.1], entry.2.cut message)

/-! ## Building the filters -/

@[simp] theorem liftFilter_eq_ok {α : Type} {check : Except FilterError α} {a : α} :
    liftFilter check = .ok a ↔ check = .ok a := by
  cases check <;> simp [liftFilter, Except.mapError]

@[simp] theorem checkPubkeyReject_eq_ok {pubkey : Pubkey} {set : List Pubkey} {u : Unit} :
    checkPubkeyReject pubkey set = .ok u ↔ pubkey ∉ set := by
  unfold checkPubkeyReject
  split <;> simp_all

/-- The pubkeys decode to themselves, when none of them is rejected. -/
theorem Filter.decodePubkeys_eq_ok {pubkeys reject vec : List Pubkey} :
    Filter.decodePubkeys pubkeys reject = .ok vec ↔ vec = pubkeys ∧ ∀ pubkey ∈ pubkeys, pubkey ∉ reject := by
  induction pubkeys generalizing vec with
  | nil =>
    simp only [Filter.decodePubkeys, List.mapM_nil, pure_eq_ok, List.not_mem_nil, IsEmpty.forall_iff,
      implies_true, and_true]
    exact eq_comm
  | cons pubkey pubkeys ih =>
    simp only [Filter.decodePubkeys, List.mapM_cons, bind_eq_ok, pure_eq_ok, checkPubkeyReject_eq_ok,
      List.mem_cons, forall_eq_or_imp] at ih ⊢
    constructor
    · rintro ⟨checked, ⟨⟨⟩, notRejected, rfl⟩, rest, decoded, rfl⟩
      obtain ⟨rfl, others⟩ := ih.mp decoded
      exact ⟨rfl, notRejected, others⟩
    · rintro ⟨rfl, notRejected, others⟩
      exact ⟨pubkey, ⟨(), notRejected, rfl⟩, pubkeys, ih.mpr ⟨rfl, others⟩, rfl⟩

theorem Filter.decodePubkeysIntoVec_eq_ok {pubkeys reject : List Pubkey} {vec : {vec : List Pubkey // Slice.Sorted vec}} :
    Filter.decodePubkeysIntoVec pubkeys reject = .ok vec ↔
      vec.1 = Slice.sort pubkeys ∧ ∀ pubkey ∈ pubkeys, pubkey ∉ reject := by
  simp only [Filter.decodePubkeysIntoVec, bind_eq_ok, pure_eq_ok, Filter.decodePubkeys_eq_ok]
  constructor
  · rintro ⟨_, ⟨rfl, notRejected⟩, rfl⟩
    exact ⟨rfl, notRejected⟩
  · rintro ⟨sorted, notRejected⟩
    exact ⟨pubkeys, ⟨rfl, notRejected⟩, Subtype.ext sorted.symm⟩

theorem parseSignature_eq_ok {signature : Option (Option Signature)} {parsed : Option Signature} :
    parseSignature signature = .ok parsed ↔ signature = parsed.map some := by
  rcases signature with _ | _ | signature <;> rcases parsed with _ | parsed <;>
    simp [parseSignature]

/-- A map built by inserting, under each name of a request map, something made from the
entry (`R` says what): a name the request does not have keeps what it had, and every name it
has ends up with what its own entry made, the names being distinct. -/
theorem lookup_foldlM_of_inserts {σ Request Inner ε : Type} (filters : σ → AList fun _ : String => Inner)
    (R : Request → Inner → Prop) (push : σ → String × Request → Except ε σ)
    (inserts : ∀ acc entry acc', push acc entry = .ok acc' →
      ∃ inner, R entry.2 inner ∧ filters acc' = (filters acc).insert entry.1 inner)
    {configs : List (String × Request)} (distinct : (configs.map Prod.fst).Nodup) {acc this : σ}
    (built : configs.foldlM push acc = .ok this) :
    (∀ name, name ∉ configs.map Prod.fst → (filters this).lookup name = (filters acc).lookup name) ∧
      ∀ name request, (name, request) ∈ configs → ∃ inner, (filters this).lookup name = some inner ∧ R request inner := by
  induction configs generalizing acc with
  | nil =>
    cases built
    exact ⟨fun _ _ => rfl, fun _ _ member => absurd member List.not_mem_nil⟩
  | cons entry configs ih =>
    obtain ⟨name₀, request₀⟩ := entry
    rw [List.map_cons, List.nodup_cons] at distinct
    rw [List.foldlM_cons, bind_eq_ok] at built
    obtain ⟨acc₁, pushed, rest⟩ := built
    obtain ⟨inner₀, made, inserted⟩ := inserts acc (name₀, request₀) acc₁ pushed
    obtain ⟨kept, each⟩ := ih distinct.2 rest
    refine ⟨fun name absent => ?_, fun name request member => ?_⟩
    · -- a name neither at the head nor later is untouched by either
      rw [List.map_cons, List.mem_cons, not_or] at absent
      rw [kept name absent.2, inserted, AList.lookup_insert_ne absent.1]
    · rcases List.mem_cons.mp member with head | later
      · -- the head's name is not inserted again later
        obtain ⟨rfl, rfl⟩ := Prod.mk.inj head
        refine ⟨inner₀, ?_, made⟩
        rw [kept name distinct.1, inserted, AList.lookup_insert]
      · exact each name request later

/-! ## What a transaction filter passes -/

/-- What `FilterTransactions::new` makes of a request filter: the flags as they are, the
signature parsed, the key lists sorted. -/
structure FilterTransactionsInner.Compiles (inner : FilterTransactionsInner)
    (filter : SubscribeRequestFilterTransactions) : Prop where
  vote : inner.vote = filter.vote
  failed : inner.failed = filter.failed
  signature : filter.signature = inner.signature.map some
  accountInclude : inner.accountInclude = Slice.sort filter.accountInclude
  accountExclude : inner.accountExclude = Slice.sort filter.accountExclude
  accountRequired : inner.accountRequired = Slice.sort filter.accountRequired

/-- The transactions a request filter asks for, in the request's terms. -/
structure SubscribeRequestFilterTransactions.Selects (filter : SubscribeRequestFilterTransactions)
    (message : MessageTransactionInfo) : Prop where
  vote : ∀ isVote ∈ filter.vote, isVote = message.isVote
  failed : ∀ isFailed ∈ filter.failed, isFailed = message.failed
  signature : ∀ signature ∈ filter.signature, signature = some message.signature
  accountInclude : filter.accountInclude = [] ∨ ∃ pubkey ∈ message.accountKeys, pubkey ∈ filter.accountInclude
  accountExclude : ∀ pubkey ∈ message.accountKeys, pubkey ∉ filter.accountExclude
  /-- a required list longer than the key list fails, whatever keys it repeats -/
  accountRequired : filter.accountRequired = [] ∨ filter.accountRequired.length ≤ message.accountKeys.length ∧
    ∀ pubkey ∈ filter.accountRequired, pubkey ∈ message.accountKeys

/-- One pass of `FilterTransactions::new` inserts, under the filter's name, its compilation. -/
theorem FilterTransactions.push_eq_ok {limit : ConfigGrpcFiltersTransactions} {this this' : FilterTransactions}
    {name : String} {filter : SubscribeRequestFilterTransactions}
    (pushed : FilterTransactions.push limit this (name, filter) = .ok this') :
    ∃ inner : FilterTransactionsInner, inner.Compiles filter ∧ this' = ⟨this.filters.insert name inner⟩ := by
  simp only [FilterTransactions.push, bind_eq_ok, liftFilter_eq_ok, pure_eq_ok] at pushed
  obtain ⟨-, -, -, -, -, -, -, -, signature, parsed, includeVec, included, excludeVec, excluded, requiredVec,
    requiredOk, rfl⟩ := pushed
  refine ⟨_, ⟨rfl, rfl, parseSignature_eq_ok.mp parsed, (Filter.decodePubkeysIntoVec_eq_ok.mp included).1,
    (Filter.decodePubkeysIntoVec_eq_ok.mp excluded).1, (Filter.decodePubkeysIntoVec_eq_ok.mp requiredOk).1⟩, rfl⟩

/-- A flag test of `get_filters` fails exactly when the flag is set to something else. -/
theorem any_bne_eq_false {α : Type} [BEq α] [LawfulBEq α] {option : Option α} {a : α} :
    option.any (· != a) = false ↔ ∀ b ∈ option, b = a := by
  cases option <;> simp

/-- The `account_include` test: some key of the transaction is in the sorted list. -/
theorem includeTest_eq_false {accountInclude accountKeys : List Pubkey} (sorted : Slice.Sorted accountInclude) :
    (!accountInclude.isEmpty && accountKeys.all fun pubkey => !(Slice.binarySearch accountInclude pubkey).isOk) = false ↔
      accountInclude = [] ∨ ∃ pubkey ∈ accountKeys, pubkey ∈ accountInclude := by
  simp [Slice.isOk_binarySearch_iff sorted, or_iff_not_imp_left]

/-- The `account_exclude` test: no key of the transaction is in the sorted list. -/
theorem excludeTest_eq_false {accountExclude accountKeys : List Pubkey} (sorted : Slice.Sorted accountExclude) :
    (!accountExclude.isEmpty && accountKeys.any fun pubkey => (Slice.binarySearch accountExclude pubkey).isOk) = false ↔
      ∀ pubkey ∈ accountKeys, pubkey ∉ accountExclude := by
  cases accountExclude with
  | nil => simp
  | cons first rest => simp [Slice.isOk_binarySearch_iff sorted]

theorem isSubset_iff {accountRequired accountKeys : List Pubkey} :
    isSubset accountRequired accountKeys = true ↔
      accountRequired.length ≤ accountKeys.length ∧ ∀ pubkey ∈ accountRequired, pubkey ∈ accountKeys := by
  unfold isSubset
  split
  · next fits =>
    simp only [List.all_eq_true, Slice.isOk_binarySearch_iff (Slice.sorted_sort accountKeys), Slice.mem_sort]
    exact ⟨fun all => ⟨fits, all⟩, fun both => both.2⟩
  · next long => simp [long]

/-- The `account_required` test, with its length test. -/
theorem requiredTest_eq_false {accountRequired accountKeys : List Pubkey} :
    (!accountRequired.isEmpty && !isSubset accountRequired accountKeys) = false ↔
      accountRequired = [] ∨ accountRequired.length ≤ accountKeys.length ∧
        ∀ pubkey ∈ accountRequired, pubkey ∈ accountKeys := by
  rw [← isSubset_iff]
  simp [or_iff_not_imp_left]

/-- A chain of tests, each ending the chain with `false`, passes when no test fires. -/
theorem ite_false_eq_true {test rest : Bool} : (if test = true then false else rest) = true ↔ test = false ∧ rest = true := by
  cases test <;> simp

/-- A transaction filter passes a transaction when none of its six tests fails. -/
theorem FilterTransactionsInner.passes_eq_true {inner : FilterTransactionsInner} {message : MessageTransactionInfo} :
    inner.passes message = true ↔
      inner.vote.any (· != message.isVote) = false ∧ inner.failed.any (· != message.failed) = false ∧
      inner.signature.any (· != message.signature) = false ∧
      (!inner.accountInclude.isEmpty &&
        message.accountKeys.all fun pubkey => !(Slice.binarySearch inner.accountInclude pubkey).isOk) = false ∧
      (!inner.accountExclude.isEmpty &&
        message.accountKeys.any fun pubkey => (Slice.binarySearch inner.accountExclude pubkey).isOk) = false ∧
      (!inner.accountRequired.isEmpty && !isSubset inner.accountRequired message.accountKeys) = false := by
  unfold FilterTransactionsInner.passes
  simp only [ite_false_eq_true, and_true]

/-- A compiled filter passes exactly the transactions its request filter asks for: the
binary searches over the sorted lists answer membership in the request's lists. -/
theorem FilterTransactionsInner.passes_iff {inner : FilterTransactionsInner} {filter : SubscribeRequestFilterTransactions}
    (compiled : inner.Compiles filter) {message : MessageTransactionInfo} :
    inner.passes message = true ↔ filter.Selects message := by
  rw [passes_eq_true, any_bne_eq_false, any_bne_eq_false, any_bne_eq_false,
    includeTest_eq_false inner.includeSorted, excludeTest_eq_false inner.excludeSorted, requiredTest_eq_false,
    compiled.vote, compiled.failed, compiled.accountInclude, compiled.accountExclude, compiled.accountRequired]
  simp only [Slice.mem_sort, Slice.sort_eq_nil_iff, Slice.length_sort]
  -- the request's signature is the parsed one, as an `Option` of what it parsed to
  have signature : (∀ b ∈ inner.signature, b = message.signature) ↔
      ∀ parsed ∈ filter.signature, parsed = some message.signature := by
    rw [compiled.signature]
    cases inner.signature <;> simp
  rw [signature]
  constructor
  · rintro ⟨vote, failed, signature, accountInclude, accountExclude, accountRequired⟩
    exact ⟨vote, failed, signature, accountInclude, accountExclude, accountRequired⟩
  · intro selects
    exact ⟨selects.vote, selects.failed, selects.signature, selects.accountInclude,
      selects.accountExclude, selects.accountRequired⟩

theorem FilterTransactions.mem_getFilters {this : FilterTransactions} {message : MessageTransactionInfo}
    {name : String} :
    name ∈ this.getFilters message ↔ ∃ inner, this.filters.lookup name = some inner ∧ inner.passes message = true := by
  simp only [FilterTransactions.getFilters, List.mem_filterMap, Option.ite_none_right_eq_some, Option.some.injEq]
  constructor
  · rintro ⟨⟨name', inner⟩, entry, passes, rfl⟩
    exact ⟨inner, AList.mem_lookup_iff.mpr entry, passes⟩
  · rintro ⟨inner, found, passes⟩
    exact ⟨⟨name, inner⟩, AList.mem_lookup_iff.mp found, passes, rfl⟩

/-- For a request whose filter names are distinct (it is a map), the filters `new` accepts
send a transaction under exactly the names of the request filters that ask for it. -/
theorem transaction_filter_selects_iff (configs : List (String × SubscribeRequestFilterTransactions))
    (limit : ConfigGrpcFiltersTransactions) (this : FilterTransactions) (distinct : (configs.map Prod.fst).Nodup)
    (built : FilterTransactions.new configs limit = .ok this) (message : MessageTransactionInfo) (name : String) :
    name ∈ this.getFilters message ↔ ∃ filter, (name, filter) ∈ configs ∧ filter.Selects message := by
  simp only [FilterTransactions.new, bind_eq_ok, liftFilter_eq_ok] at built
  obtain ⟨-, -, built⟩ := built
  obtain ⟨kept, each⟩ := lookup_foldlM_of_inserts FilterTransactions.filters (fun filter inner => inner.Compiles filter)
    (FilterTransactions.push limit) (fun acc entry acc' pushed => by
      obtain ⟨inner, compiled, rfl⟩ := FilterTransactions.push_eq_ok pushed
      exact ⟨inner, compiled, rfl⟩) distinct built
  rw [FilterTransactions.mem_getFilters]
  constructor
  · rintro ⟨inner, found, passes⟩
    -- the name was inserted, as nothing was there before
    by_cases requested : name ∈ configs.map Prod.fst
    · obtain ⟨⟨name', filter⟩, member, rfl⟩ := List.mem_map.mp requested
      obtain ⟨inner', found', compiled⟩ := each name' filter member
      rw [found, Option.some.injEq] at found'
      subst found'
      exact ⟨filter, member, (FilterTransactionsInner.passes_iff compiled).mp passes⟩
    · rw [kept name requested] at found
      cases found
  · rintro ⟨filter, member, selects⟩
    obtain ⟨inner, found, compiled⟩ := each name filter member
    exact ⟨inner, found, (FilterTransactionsInner.passes_iff compiled).mpr selects⟩

/-- Two named filters, of the transactions that are not votes and of the failed ones: a
transaction is sent under each name whose filter selects it. -/
theorem transaction_filter_selects_iff_of_two_filters :
    let configs : List (String × SubscribeRequestFilterTransactions) :=
      [("nonVotes", ⟨some false, none, none, [], [], []⟩), ("failed", ⟨none, some true, none, [], [], []⟩)]
    ∃ this, FilterTransactions.new configs ⟨2, false, 0, [], 0, 0⟩ = .ok this ∧ ∀ message name,
      name ∈ this.getFilters message ↔ ∃ filter, (name, filter) ∈ configs ∧ filter.Selects message := by
  intro configs
  obtain ⟨this, built⟩ : ∃ this, FilterTransactions.new configs ⟨2, false, 0, [], 0, 0⟩ = .ok this := ⟨_, rfl⟩
  exact ⟨this, built, transaction_filter_selects_iff configs _ this (by decide) built⟩

/-! ## What a block filter sends -/

/-- What `FilterBlocks::new` makes of a request filter: the include list sorted, the flags
as they are. -/
def FilterBlocksInner.ofRequest (filter : SubscribeRequestFilterBlocks) : FilterBlocksInner :=
  ⟨Slice.sort filter.accountInclude, filter.includeTransactions, filter.includeAccounts, filter.includeEntries,
    Slice.sorted_sort filter.accountInclude⟩

/-- The block a request filter asks for, in the request's terms: the transactions that
mention an included account, unless it asks for no transactions; the accounts it includes,
when it asks for accounts; the entries, when it asks for them. -/
def SubscribeRequestFilterBlocks.selected {Entry : Type} (filter : SubscribeRequestFilterBlocks)
    (message : MessageBlock Entry) : MessageBlock Entry where
  transactions :=
    if filter.includeTransactions = some false then []
    else message.transactions.filter fun transaction =>
      decide (filter.accountInclude = [] ∨ ∃ pubkey ∈ transaction.accountKeys, pubkey ∈ filter.accountInclude)
  accounts :=
    if filter.includeAccounts = some true then
      message.accounts.filter fun account => decide (filter.accountInclude = [] ∨ account.pubkey ∈ filter.accountInclude)
    else []
  entries := if filter.includeEntries = some true then message.entries else []

/-- One pass of `FilterBlocks::new` inserts, under the filter's name, its compilation. -/
theorem FilterBlocks.push_eq_ok {limit : ConfigGrpcFiltersBlocks} {this this' : FilterBlocks}
    {name : String} {filter : SubscribeRequestFilterBlocks}
    (pushed : FilterBlocks.push limit this (name, filter) = .ok this') :
    this' = ⟨this.filters.insert name (FilterBlocksInner.ofRequest filter)⟩ := by
  simp only [FilterBlocks.push, bind_eq_ok, liftFilter_eq_ok, pure_eq_ok] at pushed
  obtain ⟨-, -, -, -, -, -, -, -, -, -, includeVec, included, rfl⟩ := pushed
  obtain ⟨sorted, -⟩ := Filter.decodePubkeysIntoVec_eq_ok.mp included
  obtain ⟨vec, vecSorted⟩ := includeVec
  dsimp only at sorted
  subst sorted
  rfl

/-- The compiled filter cuts a block as its request filter asks: the binary search over the
sorted include list answers membership in the request's list. -/
theorem FilterBlocksInner.cut_ofRequest {Entry : Type} (filter : SubscribeRequestFilterBlocks)
    (message : MessageBlock Entry) : (FilterBlocksInner.ofRequest filter).cut message = filter.selected message := by
  have searched : ∀ pubkey, (Slice.binarySearch (Slice.sort filter.accountInclude) pubkey).isOk = true ↔
      pubkey ∈ filter.accountInclude := fun pubkey => by
    rw [Slice.isOk_binarySearch_iff (Slice.sorted_sort _), Slice.mem_sort]
  unfold FilterBlocksInner.cut SubscribeRequestFilterBlocks.selected FilterBlocksInner.ofRequest
  dsimp only
  congr 1
  · -- the transactions: `!= some false` is the negation of `= some false`
    by_cases none : filter.includeTransactions = some false
    · simp [none]
    · simp only [none, if_false, bne_iff_ne, ne_eq, not_false_eq_true, if_true]
      apply List.filter_congr
      intro transaction _
      rw [Bool.eq_iff_iff]
      simp [searched]
  · by_cases asked : filter.includeAccounts = some true
    · simp only [asked, beq_self_eq_true, if_true]
      apply List.filter_congr
      intro account _
      rw [Bool.eq_iff_iff]
      simp [searched]
    · simp [asked]
  · by_cases asked : filter.includeEntries = some true <;> simp [asked]

/-- For a request whose filter names are distinct (it is a map), the filters `new` accepts
send a block once under each of the request's block filters, cut as that filter asks, in
the order of the map. -/
theorem block_filter_updates_perm (configs : List (String × SubscribeRequestFilterBlocks))
    (limit : ConfigGrpcFiltersBlocks) (this : FilterBlocks) (distinct : (configs.map Prod.fst).Nodup)
    (built : FilterBlocks.new configs limit = .ok this) {Entry : Type} (message : MessageBlock Entry) :
    (this.getFilters message).Perm (configs.map fun entry => ([entry.1], entry.2.selected message)) := by
  simp only [FilterBlocks.new, bind_eq_ok, liftFilter_eq_ok] at built
  obtain ⟨-, -, built⟩ := built
  obtain ⟨kept, each⟩ := lookup_foldlM_of_inserts FilterBlocks.filters
    (fun filter inner => inner = FilterBlocksInner.ofRequest filter) (FilterBlocks.push limit)
    (fun acc entry acc' pushed => ⟨_, rfl, by rw [FilterBlocks.push_eq_ok pushed]⟩) distinct built
  -- the map holds, under each requested name, the compilation of its filter, and nothing else
  have entries : this.filters.entries.Perm (configs.map fun entry =>
      (⟨entry.1, FilterBlocksInner.ofRequest entry.2⟩ : Sigma fun _ : String => FilterBlocksInner)) := by
    have names : (configs.map fun entry =>
        (⟨entry.1, FilterBlocksInner.ofRequest entry.2⟩ : Sigma fun _ : String => FilterBlocksInner)).Nodup :=
      List.Nodup.of_map Sigma.fst (by rw [List.map_map]; exact distinct)
    rw [List.perm_ext_iff_of_nodup this.filters.nodupKeys.nodup names]
    rintro ⟨name, inner⟩
    rw [← AList.mem_lookup_iff, Option.mem_def, List.mem_map]
    constructor
    · intro found
      by_cases requested : name ∈ configs.map Prod.fst
      · obtain ⟨⟨name', filter⟩, member, rfl⟩ := List.mem_map.mp requested
        obtain ⟨inner', found', rfl⟩ := each name' filter member
        rw [found, Option.some.injEq] at found'
        exact ⟨(name', filter), member, by rw [found']⟩
      · rw [kept name requested] at found
        cases found
    · rintro ⟨⟨name', filter⟩, member, same⟩
      simp only [Sigma.mk.injEq, heq_eq_eq] at same
      obtain ⟨rfl, rfl⟩ := same
      obtain ⟨inner', found', rfl⟩ := each name' filter member
      exact found'
  have cut := entries.map fun entry => ([entry.1], entry.2.cut message)
  simpa only [FilterBlocks.getFilters, List.map_map, Function.comp_def, FilterBlocksInner.cut_ofRequest] using cut

theorem block_filter_updates_perm_of_one_filter :
    ∃ this, FilterBlocks.new [("blocks", ⟨[], none, none, none⟩)] ⟨1, 0, true, [], true, true, true⟩ = .ok this ∧
      ∀ message : MessageBlock Unit, (this.getFilters message).Perm [(["blocks"], ⟨message.transactions, [], []⟩)] := by
  obtain ⟨this, built⟩ : ∃ this,
      FilterBlocks.new [("blocks", ⟨[], none, none, none⟩)] ⟨1, 0, true, [], true, true, true⟩ = .ok this :=
    ⟨_, rfl⟩
  refine ⟨this, built, fun message => ?_⟩
  have updates := block_filter_updates_perm _ _ this (by decide) built message
  simpa [SubscribeRequestFilterBlocks.selected] using updates

end EphemeralValidator.Geyser
