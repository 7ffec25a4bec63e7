import EphemeralValidator.Bank.BlockhashQueue

/-! # A run of the validator and its replay from the ledger

`init_slot_ticker` advances the bank's slot and then writes the block of the slot just
left, `write_block(prev_slot, now, bank.last_blockhash())`: block `n` holds the blockhash
that `advance_slot` registered when slot `n + 1` began.  Transactions are written under the
slot they ran in.  After a restart, `process_ledger` walks the blocks from slot 0 on, stops
at the first slot without one, and for each block calls `replay_slot`, which registers the
block's blockhash, before it executes the slot's successful transactions again.

`Written` is what every run keeps of the ledger: the blocks of all the slots before the
current one, each with the next slot's blockhash, and none from the current one on.  Two
consequences contradict what a replay should give back.  The transactions of the slot the
run stopped in have no block, so `process_ledger` never executes them again
(`last_slot_transactions_never_replayed`).  And the replay of slot `n` registers the hash of
slot `n + 1` before the slot's transactions run, so each blockhash is one registration older
than when the transaction ran: one that was exactly `max_age` old is rejected and
`process_ledger` fails (`replay_rejects_transaction_at_age_limit`).

Of the bank, only what `advance_slot` and `replay_slot` set besides the status cache is
kept; the ticker's other work (flushing accounts, accepting scheduled commits) does not
touch it.  A tick reads the clock once, for the bank's clock and for the block.
-/

namespace EphemeralValidator

open EphemeralValidator.Bytes EphemeralValidator.Solana

/-- What a run reads besides its events: the genesis hash, the bank's `max_age`, and the hash
`advance_slot` derives from the current blockhash and the next slot.  `Bank::new` computes
`max_age` as `DEFAULT_MS_PER_SLOT * MAX_RECENT_BLOCKHASHES / millis_per_slot` and gives it
both to the blockhash queue and to the age check of every transaction. -/
structure ValidatorConfig where
  genesisHash : Hash
  maxAge : Nat
  nextBlockhash : Hash → Nat → Hash

/-- The blockhashes of a run: the genesis hash, then each one from the one before. -/
def chainHash (config : ValidatorConfig) : Nat → Hash
  | 0 => config.genesisHash
  | slot + 1 => config.nextBlockhash (chainHash config slot) (slot + 1)

/-- The parts of `Bank` that `advance_slot` and `replay_slot` set besides the status cache:
the slot, the blockhash queue, the `Clock` sysvar's `unix_timestamp` and the `SlotHashes`
sysvar. -/
structure SlotBank where
  slot : Nat
  blockhashQueue : BlockhashQueue
  unixTimestamp : Nat
  slotHashes : Nat → Option Hash

namespace SlotBank

/-- A bank from genesis, at slot 0 with the genesis hash. -/
def new (config : ValidatorConfig) (now : Nat) : SlotBank :=
  ⟨0, (BlockhashQueue.new config.maxAge).genesisHash config.genesisHash now, now, fun _ => none⟩

/-- `last_blockhash`; every bank's queue has at least its genesis hash. -/
def lastBlockhash (b : SlotBank) : Hash :=
  b.blockhashQueue.lastHash.getD (FixedBytes.zero 32)

def advanceSlot (config : ValidatorConfig) (now : Nat) (b : SlotBank) : SlotBank :=
  let prevSlot := b.slot
  let nextSlot := prevSlot + 1
  let currentHash := b.lastBlockhash
  let blockhash := config.nextBlockhash currentHash nextSlot
  { slot := nextSlot
    unixTimestamp := now
    blockhashQueue := b.blockhashQueue.registerHashWithTimestamp blockhash now
    slotHashes := Function.update b.slotHashes prevSlot (some currentHash) }

def replaySlot (b : SlotBank) (nextSlot : Nat) (currentHash blockhash : Hash) (timestamp : Nat) : SlotBank :=
  { slot := nextSlot
    unixTimestamp := timestamp
    blockhashQueue := b.blockhashQueue.registerHashWithTimestamp blockhash timestamp
    slotHashes :=
      if 0 < nextSlot then Function.update b.slotHashes (nextSlot - 1) (some currentHash) else b.slotHashes }

end SlotBank

/-- A transaction as the ledger has it: its signature, the blockhash its message names, the
slot it was written under and whether its status is `Ok`. -/
structure LedgerTransaction where
  signature : Signature
  recentBlockhash : Hash
  slot : Nat
  succeeded : Bool
  deriving DecidableEq

/-- The `Blocktime` and `Blockhash` columns, and the transactions in the order they were
written. -/
structure Ledger where
  blocktime : Nat → Option Nat
  blockhash : Nat → Option Hash
  transactions : List LedgerTransaction

structure ConfirmedBlock where
  previousBlockhash : Hash
  blockhash : Hash
  blockTime : Nat
  transactions : List LedgerTransaction

namespace Ledger

def empty : Ledger := ⟨fun _ => none, fun _ => none, []⟩

def writeBlock (l : Ledger) (slot timestamp : Nat) (blockhash : Hash) : Ledger :=
  { l with
    blocktime := Function.update l.blocktime slot (some timestamp)
    blockhash := Function.update l.blockhash slot (some blockhash) }

def writeTransaction (l : Ledger) (tx : LedgerTransaction) : Ledger :=
  { l with transactions := l.transactions ++ [tx] }

/-- `get_block`: `None` without a blocktime or a blockhash; the previous blockhash is that of
`slot.saturating_sub(1)`, `Hash::default()` if missing, and the transactions come from the
highest transaction index down. -/
def getBlock (l : Ledger) (slot : Nat) : Option ConfirmedBlock :=
  match l.blockhash slot, l.blocktime slot with
  | some blockhash, some blockTime =>
    some ⟨(l.blockhash (slot - 1)).getD (FixedBytes.zero 32), blockhash, blockTime,
      (l.transactions.filter fun tx => tx.slot = slot).reverse⟩
  | _, _ => none

end Ledger

structure Validator where
  bank : SlotBank
  ledger : Ledger

inductive ValidatorEvent where
  /-- a tick of `init_slot_ticker`, reading the clock as `now` -/
  | tick (now : Nat)
  /-- a transaction naming `recentBlockhash`, whose execution succeeds or fails -/
  | executeTransaction (signature : Signature) (recentBlockhash : Hash) (succeeded : Bool)

namespace Validator

def new (config : ValidatorConfig) (now : Nat) : Validator := ⟨SlotBank.new config now, Ledger.empty⟩

def step (config : ValidatorConfig) (v : Validator) : ValidatorEvent → Validator
  | .tick now =>
    let prevSlot := v.bank.slot
    let bank := v.bank.advanceSlot config now
    { bank, ledger := v.ledger.writeBlock prevSlot now bank.lastBlockhash }
  | .executeTransaction signature recentBlockhash succeeded =>
    -- `check_age`: with a blockhash too old or unknown the transaction is `NotExecuted` and
    -- the listener writes nothing
    if v.bank.blockhashQueue.isHashValidForAge recentBlockhash config.maxAge then
      { v with ledger := v.ledger.writeTransaction ⟨signature, recentBlockhash, v.bank.slot, succeeded⟩ }
    else v

def run (config : ValidatorConfig) (v : Validator) (events : List ValidatorEvent) : Validator :=
  events.foldl (step config) v

end Validator

/-! ## `process_ledger` -/

inductive LedgerError where
  /-- `Transaction ... could not be executed`: the replay's `NotExecuted` -/
  | transactionNotExecuted (signature : Signature)

/-- The transactions of one block, each executed by its own batch; the first one that is not
executed ends the replay. -/
def replayTransactions (config : ValidatorConfig) (b : SlotBank) :
    List LedgerTransaction → Except LedgerError (List (Signature × Nat))
  | [] => .ok []
  | tx :: rest =>
    if b.blockhashQueue.isHashValidForAge tx.recentBlockhash config.maxAge then
      (replayTransactions config b rest).map fun replayed => (tx.signature, b.slot) :: replayed
    else .error (.transactionNotExecuted tx.signature)

/-- `iter_blocks` with the handler of `process_ledger`, looking at no more than `fuel` slots;
it returns the bank and the transactions executed, with the slot of each. -/
def iterBlocks (config : ValidatorConfig) (ledger : Ledger) :
    Nat → Nat → SlotBank → List (Signature × Nat) → Except LedgerError (SlotBank × List (Signature × Nat))
  | 0, _, b, replayed => .ok (b, replayed)
  | fuel + 1, slot, b, replayed =>
    match ledger.getBlock slot with
    | none => .ok (b, replayed)
    | some block =>
      let b := b.replaySlot slot block.previousBlockhash block.blockhash block.blockTime
      -- the successful transactions, back in the order they ran
      match replayTransactions config b (block.transactions.filter (·.succeeded)).reverse with
      | .error error => .error error
      | .ok txs => iterBlocks config ledger fuel (slot + 1) b (replayed ++ txs)

/-- `process_ledger` on a bank just made from genesis. -/
def processLedger (config : ValidatorConfig) (ledger : Ledger) (now fuel : Nat) :
    Except LedgerError (SlotBank × List (Signature × Nat)) :=
  iterBlocks config ledger fuel 0 (SlotBank.new config now) []

/-! ## What every run writes -/

namespace SlotBank

@[simp] theorem slot_advanceSlot (config : ValidatorConfig) (now : Nat) (b : SlotBank) :
    (b.advanceSlot config now).slot = b.slot + 1 := rfl

theorem lastBlockhash_advanceSlot (config : ValidatorConfig) (now : Nat) (b : SlotBank) :
    (b.advanceSlot config now).lastBlockhash = config.nextBlockhash b.lastBlockhash (b.slot + 1) := rfl

@[simp] theorem slot_replaySlot (b : SlotBank) (nextSlot : Nat) (currentHash blockhash : Hash) (timestamp : Nat) :
    (b.replaySlot nextSlot currentHash blockhash timestamp).slot = nextSlot := rfl

end SlotBank

/-- A column written at slot `n` holds, for every slot up to `n`, the new value at `n` and
what it held before below it. -/
theorem forall_lt_succ_update {β : Type} {p : Nat → β → Prop} {column : Nat → β} {n : Nat} {value : β}
    (new : p n value) (old : ∀ slot < n, p slot (column slot)) :
    ∀ slot < n + 1, p slot (Function.update column n value slot) := by
  intro slot before
  by_cases left : slot = n
  · subst left
    rw [Function.update_self]
    exact new
  · rw [Function.update_of_ne left]
    exact old slot (by omega)

/-- What every run from genesis keeps of the ledger: the blocks of the slots before the
bank's, each holding the blockhash of the slot after it, no block from the bank's slot on,
and no transaction past the bank's slot. -/
structure Written (config : ValidatorConfig) (v : Validator) : Prop where
  lastBlockhash_eq : v.bank.lastBlockhash = chainHash config v.bank.slot
  blockhash_eq : ∀ slot < v.bank.slot, v.ledger.blockhash slot = some (chainHash config (slot + 1))
  blocktime_isSome : ∀ slot < v.bank.slot, (v.ledger.blocktime slot).isSome
  blockhash_none : ∀ slot, v.bank.slot ≤ slot → v.ledger.blockhash slot = none
  slot_le : ∀ tx ∈ v.ledger.transactions, tx.slot ≤ v.bank.slot

namespace Written

variable {config : ValidatorConfig}

theorem new (now : Nat) : Written config (Validator.new config now) where
  lastBlockhash_eq := rfl
  blockhash_eq _ before := absurd before (Nat.not_lt_zero _)
  blocktime_isSome _ before := absurd before (Nat.not_lt_zero _)
  blockhash_none _ _ := rfl
  slot_le _ member := absurd member List.not_mem_nil

/-- A tick writes the block of the slot it leaves, with the hash it registered. -/
theorem tick {v : Validator} (written : Written config v) (now : Nat) :
    Written config (v.step config (.tick now)) where
  lastBlockhash_eq := by
    simp only [Validator.step, SlotBank.lastBlockhash_advanceSlot, written.lastBlockhash_eq]
    rfl
  blockhash_eq := by
    simp only [Validator.step, SlotBank.slot_advanceSlot, Ledger.writeBlock]
    apply forall_lt_succ_update (p := fun slot hash => hash = some (chainHash config (slot + 1)))
    · simp only [SlotBank.lastBlockhash_advanceSlot, written.lastBlockhash_eq]
      rfl
    · exact written.blockhash_eq
  blocktime_isSome := by
    simp only [Validator.step, SlotBank.slot_advanceSlot, Ledger.writeBlock]
    exact forall_lt_succ_update (p := fun _ (time : Option Nat) => time.isSome) rfl written.blocktime_isSome
  blockhash_none slot later := by
    simp only [Validator.step, SlotBank.slot_advanceSlot] at later ⊢
    have other : slot ≠ v.bank.slot := by omega
    simp only [Ledger.writeBlock, Function.update_of_ne other]
    exact written.blockhash_none slot (by omega)
  slot_le tx member := Nat.le_succ_of_le (written.slot_le tx member)

/-- A transaction is written under the bank's slot, if at all. -/
theorem executeTransaction {v : Validator} (written : Written config v) (signature : Signature)
    (recentBlockhash : Hash) (succeeded : Bool) :
    Written config (v.step config (.executeTransaction signature recentBlockhash succeeded)) := by
  by_cases valid : v.bank.blockhashQueue.isHashValidForAge recentBlockhash config.maxAge
  · simp only [Validator.step, valid, if_true]
    refine ⟨written.lastBlockhash_eq, written.blockhash_eq, written.blocktime_isSome, written.blockhash_none, ?_⟩
    intro tx member
    rcases List.mem_append.mp member with old | new
    · exact written.slot_le tx old
    · rw [List.mem_singleton.mp new]
  · simp only [Validator.step, valid]
    exact written

theorem step {v : Validator} (written : Written config v) (event : ValidatorEvent) :
    Written config (v.step config event) := by
  cases event with
  | tick now => exact written.tick now
  | executeTransaction signature recentBlockhash succeeded =>
    exact written.executeTransaction signature recentBlockhash succeeded

theorem run {v : Validator} (written : Written config v) (events : List ValidatorEvent) :
    Written config (v.run config events) := by
  induction events generalizing v with
  | nil => exact written
  | cons event rest ih => exact ih (written.step event)

/-- Every slot before the bank's has its block, with the next slot's blockhash. -/
theorem getBlock_eq {v : Validator} (written : Written config v) {slot : Nat} (before : slot < v.bank.slot) :
    ∃ previousBlockhash blockTime, v.ledger.getBlock slot =
      some ⟨previousBlockhash, chainHash config (slot + 1), blockTime,
        (v.ledger.transactions.filter fun tx => tx.slot = slot).reverse⟩ := by
  obtain ⟨blockTime, timed⟩ := Option.isSome_iff_exists.mp (written.blocktime_isSome slot before)
  exact ⟨(v.ledger.blockhash (slot - 1)).getD (FixedBytes.zero 32), blockTime,
    by simp [Ledger.getBlock, written.blockhash_eq slot before, timed]⟩

theorem getBlock_eq_none {v : Validator} (written : Written config v) {slot : Nat} (later : v.bank.slot ≤ slot) :
    v.ledger.getBlock slot = none := by
  simp [Ledger.getBlock, written.blockhash_none slot later]

end Written

/-! ## What the replay executes -/

theorem replayTransactions_slot {config : ValidatorConfig} {b : SlotBank} {txs : List LedgerTransaction}
    {replayed : List (Signature × Nat)} (ran : replayTransactions config b txs = .ok replayed) :
    ∀ entry ∈ replayed, entry.2 = b.slot := by
  induction txs generalizing replayed with
  | nil =>
    cases ran
    intro _ member
    cases member
  | cons tx rest ih =>
    unfold replayTransactions at ran
    split at ran
    · cases rested : replayTransactions config b rest with
      | error error =>
        rw [rested] at ran
        cases ran
      | ok others =>
        rw [rested] at ran
        cases ran
        intro entry member
        rcases List.mem_cons.mp member with rfl | later
        · rfl
        · exact ih rested entry later
    · cases ran

/-- A transaction whose blockhash the bank does not take ends the block's replay. -/
theorem replayTransactions_eq_error {config : ValidatorConfig} {b : SlotBank} {txs : List LedgerTransaction}
    {tx : LedgerTransaction} (member : tx ∈ txs)
    (rejected : b.blockhashQueue.isHashValidForAge tx.recentBlockhash config.maxAge = false) :
    ∃ error, replayTransactions config b txs = .error error := by
  induction txs with
  | nil => cases member
  | cons first rest ih =>
    unfold replayTransactions
    split
    · next valid =>
      rcases List.mem_cons.mp member with rfl | later
      · rw [rejected] at valid
        cases valid
      · obtain ⟨error, failed⟩ := ih later
        exact ⟨error, by rw [failed]; rfl⟩
    · exact ⟨_, rfl⟩

/-- The loop executes only transactions of slots that have a block. -/
theorem iterBlocks_replayed {config : ValidatorConfig} {ledger : Ledger} {fuel slot : Nat} {b b' : SlotBank}
    {replayed replayed' : List (Signature × Nat)}
    (ran : iterBlocks config ledger fuel slot b replayed = .ok (b', replayed')) :
    ∀ entry ∈ replayed', entry ∈ replayed ∨ (ledger.getBlock entry.2).isSome := by
  induction fuel generalizing slot b replayed with
  | zero =>
    cases ran
    exact fun entry member => .inl member
  | succ fuel ih =>
    unfold iterBlocks at ran
    cases found : ledger.getBlock slot with
    | none =>
      simp only [found, Except.ok.injEq, Prod.mk.injEq] at ran
      obtain ⟨-, rfl⟩ := ran
      exact fun entry member => .inl member
    | some block =>
      simp only [found] at ran
      split at ran
      · cases ran
      · next txs executed =>
        intro entry member
        rcases ih ran entry member with earlier | blocked
        · rcases List.mem_append.mp earlier with old | new
          · exact .inl old
          · right
            rw [replayTransactions_slot executed entry new, SlotBank.slot_replaySlot, found]
            rfl
        · exact .inr blocked

/-! ## The last slot of a run -/

/-- A run stops in the middle of its last slot: that slot has no block yet, so whatever was
written under it is never executed by `process_ledger`, however many slots it looks at. -/
theorem last_slot_transactions_never_replayed (config : ValidatorConfig) (now : Nat)
    (events : List ValidatorEvent) (v : Validator) (ran : (Validator.new config now).run config events = v) :
    v.ledger.getBlock v.bank.slot = none ∧
      ∀ now' fuel b replayed, processLedger config v.ledger now' fuel = .ok (b, replayed) →
        ∀ tx ∈ v.ledger.transactions, tx.slot = v.bank.slot → (tx.signature, tx.slot) ∉ replayed := by
  have written : Written config v := ran ▸ (Written.new now).run events
  have missing : v.ledger.getBlock v.bank.slot = none := written.getBlock_eq_none le_rfl
  refine ⟨missing, ?_⟩
  intro now' fuel b replayed processed tx _ current member
  rcases iterBlocks_replayed processed _ member with none | blocked
  · cases none
  · rw [current, missing] at blocked
    cases blocked

/-- One successful transaction at slot 0 and no tick: it is in the ledger, and never replayed. -/
theorem last_slot_transactions_never_replayed_at_genesis :
    let config : ValidatorConfig := ⟨FixedBytes.zero 32, 150, fun _ slot => FixedBytes.replicate 32 slot.toUInt8⟩
    let v := (Validator.new config 0).run config [.executeTransaction (FixedBytes.zero 64) (FixedBytes.zero 32) true]
    ⟨FixedBytes.zero 64, FixedBytes.zero 32, 0, true⟩ ∈ v.ledger.transactions ∧ v.bank.slot = 0 ∧
      (v.ledger.getBlock v.bank.slot = none ∧
        ∀ now' fuel b replayed, processLedger config v.ledger now' fuel = .ok (b, replayed) →
          ∀ tx ∈ v.ledger.transactions, tx.slot = v.bank.slot → (tx.signature, tx.slot) ∉ replayed) :=
  ⟨by decide, rfl, last_slot_transactions_never_replayed _ 0 _ _ rfl⟩

/-! ## The replayed blockhash queue -/

/-- With the chain's hashes distinct up to `m`, none before `n + 1 ≤ m` equals `chain (n + 1)`. -/
theorem fresh_of_injOn {chain : Nat → Hash} {n m : Nat} (distinct : Set.InjOn chain (Set.Iic m))
    (bound : n + 1 ≤ m) : ∀ j ≤ n, chain j ≠ chain (n + 1) := by
  intro j earlier same
  have equal : j = n + 1 := distinct (Set.mem_Iic.mpr (by omega)) (Set.mem_Iic.mpr bound) same
  omega

/-- Replaying the block of `slot`, which holds `chainHash config (slot + 1)`, registers the
next hash of the chain. -/
theorem replaySlot_chainQueue {config : ValidatorConfig} {b : SlotBank} {slot : Nat}
    (chained : ChainQueue b.blockhashQueue (chainHash config) slot)
    (fresh : ∀ j ≤ slot, chainHash config j ≠ chainHash config (slot + 1)) (previousBlockhash : Hash)
    (blockTime : Nat) :
    ChainQueue (b.replaySlot slot previousBlockhash (chainHash config (slot + 1)) blockTime).blockhashQueue
      (chainHash config) (slot + 1) :=
  chained.registerHashWithTimestamp fresh blockTime

/-- If a successful transaction of a written slot `s` names a hash that a queue of the chain up
to `s + 1` rejects, the loop fails once it reaches `s`: every block before it is there and keeps
the queue a queue of the chain, one registration ahead of the slot. -/
theorem iterBlocks_eq_error {config : ValidatorConfig} {v : Validator} (written : Written config v)
    {s : Nat} (before : s < v.bank.slot) (distinct : Set.InjOn (chainHash config) (Set.Iic (s + 1)))
    {tx : LedgerTransaction} (member : tx ∈ v.ledger.transactions) (atSlot : tx.slot = s)
    (succeeded : tx.succeeded = true)
    (rejected : ∀ q, ChainQueue q (chainHash config) (s + 1) →
      q.isHashValidForAge tx.recentBlockhash config.maxAge = false) :
    ∀ fuel slot b replayed, slot ≤ s → s - slot < fuel → ChainQueue b.blockhashQueue (chainHash config) slot →
      ∃ error, iterBlocks config v.ledger fuel slot b replayed = .error error := by
  intro fuel
  induction fuel with
  | zero =>
    intro _ _ _ _ late
    omega
  | succ fuel ih =>
    intro slot b replayed reached remaining chained
    obtain ⟨previousBlockhash, blockTime, found⟩ := written.getBlock_eq (lt_of_le_of_lt reached before)
    have next := replaySlot_chainQueue chained (fresh_of_injOn distinct (by omega)) previousBlockhash blockTime
    unfold iterBlocks
    rw [found]
    dsimp only
    split
    · next error _ => exact ⟨error, rfl⟩
    · next txs executed =>
      rcases Nat.lt_or_eq_of_le reached with earlier | rfl
      · exact ih (slot + 1) _ _ earlier (by omega) next
      · -- at slot `s` the transaction is among those replayed, and its blockhash is refused
        have listed : tx ∈ ((v.ledger.transactions.filter fun tx => tx.slot = slot).reverse.filter
            (·.succeeded)).reverse := by
          simp [member, atSlot, succeeded]
        obtain ⟨error, failed⟩ := replayTransactions_eq_error listed (rejected _ next)
        rw [failed] at executed
        cases executed

/-- After a run, a successful transaction written at slot `s` whose blockhash was exactly
`max_age` registrations old when it ran: block `s` holds the hash of slot `s + 1`,
which the replay registers before the transaction runs again, so it is one registration too
old and `process_ledger` fails, with any number of slots to look at that reaches `s`. -/
theorem replay_rejects_transaction_at_age_limit (config : ValidatorConfig) (now : Nat)
    (events : List ValidatorEvent) (v : Validator) (ran : (Validator.new config now).run config events = v)
    (distinct : Set.InjOn (chainHash config) (Set.Iic v.bank.slot)) (tx : LedgerTransaction)
    (recorded : tx ∈ v.ledger.transactions) (succeeded : tx.succeeded = true) (blocked : tx.slot < v.bank.slot)
    (aged : config.maxAge ≤ tx.slot)
    (atLimit : tx.recentBlockhash = chainHash config (tx.slot - config.maxAge)) :
    v.ledger.blockhash tx.slot = some (chainHash config (tx.slot + 1)) ∧
      ∀ now' fuel, tx.slot < fuel → ∃ error, processLedger config v.ledger now' fuel = .error error := by
  have written : Written config v := ran ▸ (Written.new now).run events
  have upTo : Set.InjOn (chainHash config) (Set.Iic (tx.slot + 1)) :=
    distinct.mono (Set.Iic_subset_Iic.mpr blocked)
  refine ⟨written.blockhash_eq tx.slot blocked, ?_⟩
  intro now' fuel enough
  have rejected : ∀ q, ChainQueue q (chainHash config) (tx.slot + 1) →
      q.isHashValidForAge tx.recentBlockhash config.maxAge = false := by
    intro q chained
    rw [atLimit]
    exact chained.isHashValidForAge_chain_eq_false upTo (by omega) (by omega)
  exact iterBlocks_eq_error written blocked upTo recorded rfl succeeded rejected fuel 0 _ [] (Nat.zero_le _)
    (by omega) (@ChainQueue.genesisHash (chainHash config) config.maxAge now')

/-- With one-minute slots `max_age` is `400 * 300 / 60000 = 2`.  Two ticks, then at slot 2 a
transaction naming the genesis hash, two registrations old, then a tick: the original run
takes it, and the replay refuses it. -/
theorem replay_rejects_transaction_at_age_limit_at_slot_two :
    let config : ValidatorConfig := ⟨FixedBytes.zero 32, 400 * 300 / 60000, fun _ slot => FixedBytes.replicate 32 slot.toUInt8⟩
    let v := (Validator.new config 0).run config
      [.tick 1, .tick 2, .executeTransaction (FixedBytes.zero 64) (FixedBytes.zero 32) true, .tick 3]
    let tx : LedgerTransaction := ⟨FixedBytes.zero 64, FixedBytes.zero 32, 2, true⟩
    tx ∈ v.ledger.transactions ∧ tx.slot < v.bank.slot ∧
      (v.ledger.blockhash tx.slot = some (chainHash config (tx.slot + 1)) ∧
        ∀ now' fuel, tx.slot < fuel → ∃ error, processLedger config v.ledger now' fuel = .error error) := by
  intro config v tx
  have distinct : Set.InjOn (chainHash config) (Set.Iic v.bank.slot) := by
    intro i first j second same
    have first : i ≤ 3 := first
    have second : j ≤ 3 := second
    interval_cases i <;> interval_cases j <;> first | rfl | exact absurd same (by decide)
  exact ⟨by decide, by decide,
    replay_rejects_transaction_at_age_limit config 0 _ v rfl distinct tx (by decide) rfl (by decide)
      (by decide) rfl⟩

end EphemeralValidator
