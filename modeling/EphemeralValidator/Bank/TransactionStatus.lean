import EphemeralValidator.Bank.StatusCache

/-! # Transaction statuses on their way to the ledger

`execute_sanitized_transaction` runs a batch on the bank, whose
`update_transaction_statuses` records every executed transaction in the status cache at
the bank's slot, and `send_transaction_status_batch` puts a `TransactionStatusBatch` on a
channel.  The batch holds the shared `Arc<Bank>`, not a slot.  The transaction-status
listener thread takes batches off the channel and calls `write_transaction` with
`bank.slot()` as it is when it takes the batch; meanwhile the slot ticker calls
`Bank::advance_slot` on its own schedule.

The three actors are the events of one system, interleaved in any order.  A run writes
every executed transaction once, in execution order, and at a slot no earlier than the one
it was executed in (`run_keeps_delivered`), but the slot is the one at which the listener got to
the batch: one slot advance between the execution and the listener's turn puts the
transaction into the ledger under a later slot than the status cache's
(`listener_writes_at_dequeue_slot`).

`executions` is a history of the run, not a field of the source: what
`update_transaction_statuses` recorded, as signature, slot and status, in execution order.
-/

namespace EphemeralValidator

open EphemeralValidator.Bytes EphemeralValidator.Solana

/-- `TransactionStatusBatch`: each transaction's signature with its execution details,
`none` for one that was not executed. -/
structure TransactionStatusBatch (T : Type) where
  transactions : List (Signature × Option T)

/-- The executed transactions of a batch, with their statuses. -/
def executedOf {T : Type} (transactions : List (Signature × Option T)) : List (Signature × T) :=
  transactions.filterMap fun tx => tx.2.map fun status => (tx.1, status)

/-- The bank, the channel to the listener, and the ledger's transaction statuses as
signature, slot and status. -/
structure StatusPipeline (T : Type) where
  bank : Bank T
  channel : List (TransactionStatusBatch T)
  ledger : List (Signature × Nat × T)
  executions : List (Signature × Nat × T)

inductive PipelineEvent (T : Type) where
  /-- `execute_sanitized_transaction` on a batch, with each transaction's details if it ran -/
  | executeSanitizedTransaction (results : List (Signature × Option T))
  /-- a tick of `init_slot_ticker` -/
  | advanceSlot
  /-- the listener thread's `recv` -/
  | receiveBatch

namespace StatusPipeline

variable {T : Type}

def new (maxAge : Nat) : StatusPipeline T := ⟨Bank.new maxAge, [], [], []⟩

/-- One event; `none` where it cannot happen: `advance_slot` panics or the channel is empty. -/
def step (enableRpcTransactionHistory : Bool) (p : StatusPipeline T) :
    PipelineEvent T → Option (StatusPipeline T)
  | .executeSanitizedTransaction results =>
    some { p with
      bank := p.bank.updateTransactionStatuses (executedOf results)
      channel := p.channel ++ [⟨results⟩]
      executions := p.executions ++ (executedOf results).map fun tx => (tx.1, p.bank.slot, tx.2) }
  | .advanceSlot => p.bank.advanceSlot.map fun bank => { p with bank }
  | .receiveBatch =>
    match p.channel with
    | [] => none
    | batch :: rest =>
      -- `bank.slot()` read when the batch is taken, not when it was executed
      let slot := p.bank.slot
      some { p with
        channel := rest
        ledger :=
          if enableRpcTransactionHistory then
            p.ledger ++ (executedOf batch.transactions).map fun tx => (tx.1, slot, tx.2)
          else p.ledger }

def run (enableRpcTransactionHistory : Bool) (p : StatusPipeline T) (events : List (PipelineEvent T)) :
    Option (StatusPipeline T) :=
  events.foldlM (step enableRpcTransactionHistory) p

end StatusPipeline

/-! ## Where a status lands in the cache -/

namespace StatusCache

variable {T : Type}

private theorem mem_modifyLast {α : Type} {f : α → α} {l : List α} {x : α} (member : x ∈ l) :
    x ∈ l.modifyLast f ∨ f x ∈ l.modifyLast f := by
  rcases l.eq_nil_or_concat' with rfl | ⟨pre, last, rfl⟩
  · cases member
  · rw [List.modifyLast_concat]
    rcases List.mem_append.mp member with early | isLast
    · exact .inl (List.mem_append_left _ early)
    · rw [List.mem_singleton.mp isLast]
      exact .inr (List.mem_append_right _ (List.mem_singleton_self _))

/-- An insert keeps every recorded signature in an entry of the same slot. -/
theorem recorded_insertTransactionStatus {c : StatusCache T} {slot : Nat} {map : Signature → Option T}
    {signature : Signature} (member : (slot, map) ∈ c.transactionStatusCache) (found : (map signature).isSome)
    (at_ : Nat) (other : Signature) (status : T) :
    ∃ map', (slot, map') ∈ (c.insertTransactionStatus at_ other status).transactionStatusCache ∧
      (map' signature).isSome := by
  have opened : (slot, map) ∈ (if c.transactionStatusCache.length ≤ at_ then
      c.transactionStatusCache ++ [(at_, fun _ => none)] else c.transactionStatusCache) := by
    split
    · exact List.mem_append_left _ member
    · exact member
  rcases mem_modifyLast (f := fun entry => (entry.1, Function.update entry.2 other (some status))) opened
    with kept | updated
  · exact ⟨map, kept, found⟩
  · refine ⟨Function.update map other (some status), updated, ?_⟩
    by_cases same : signature = other
    · simp [same]
    · simpa [Function.update_of_ne same] using found

theorem recorded_foldl_of_recorded {c : StatusCache T} {slot at_ : Nat} {map : Signature → Option T}
    {signature : Signature} (member : (slot, map) ∈ c.transactionStatusCache) (found : (map signature).isSome)
    (executed : List (Signature × T)) :
    ∃ map', (slot, map') ∈
        (executed.foldl (fun c tx => c.insertTransactionStatus at_ tx.1 tx.2) c).transactionStatusCache ∧
      (map' signature).isSome := by
  induction executed generalizing c map with
  | nil => exact ⟨map, member, found⟩
  | cons tx rest ih =>
    obtain ⟨map', member', found'⟩ := recorded_insertTransactionStatus member found at_ tx.1 tx.2
    exact ih member' found'

/-- Inserting a batch at the bank's slot into an ordered cache records each of its
signatures in an entry of that slot. -/
theorem recorded_foldl {c : StatusCache T} {slot : Nat} (ord : Ordered c.slots slot)
    {executed : List (Signature × T)} {signature : Signature} {status : T}
    (member : (signature, status) ∈ executed) :
    ∃ map, (slot, map) ∈
        (executed.foldl (fun c tx => c.insertTransactionStatus slot tx.1 tx.2) c).transactionStatusCache ∧
      (map signature).isSome := by
  induction executed generalizing c with
  | nil => cases member
  | cons tx rest ih =>
    rw [List.foldl_cons]
    cases member with
    | head =>
      obtain ⟨map, last, found⟩ := ord.insertTransactionStatus_getLast? signature status
      exact recorded_foldl_of_recorded (List.mem_of_getLast? last) (by simp [found]) rest
    | tail _ later => exact ih (ord.insertTransactionStatus tx.1 tx.2) later

theorem maxCacheEntries_foldl (c : StatusCache T) (slot : Nat) (executed : List (Signature × T)) :
    (executed.foldl (fun c tx => c.insertTransactionStatus slot tx.1 tx.2) c).maxCacheEntries =
      c.maxCacheEntries := by
  induction executed generalizing c with
  | nil => rfl
  | cons tx rest ih =>
    rw [List.foldl_cons, ih]
    rfl

end StatusCache

namespace Bank

variable {T : Type}

/-- On every run, `update_transaction_statuses` records each executed signature in an entry
of the bank's slot. -/
theorem Reachable.recorded {b : Bank T} (reachable : Reachable b) {executed : List (Signature × T)}
    {signature : Signature} {status : T} (member : (signature, status) ∈ executed) :
    ∃ map, (b.slot, map) ∈ (b.updateTransactionStatuses executed).statusCache.transactionStatusCache ∧
      (map signature).isSome :=
  StatusCache.recorded_foldl reachable.ordered member

@[simp] theorem maxCacheEntries_updateTransactionStatuses (b : Bank T) (executed : List (Signature × T)) :
    (b.updateTransactionStatuses executed).statusCache.maxCacheEntries = b.statusCache.maxCacheEntries :=
  StatusCache.maxCacheEntries_foldl _ _ _

/-- With `max_cache_entries` of two or more, `advance_slot` does not panic. -/
theorem advanceSlot_eq_some {b : Bank T} (two_le : 2 ≤ b.statusCache.maxCacheEntries) :
    ∃ c, b.advanceSlot = some { b with slot := b.slot + 1, statusCache := c } ∧
      c.maxCacheEntries = b.statusCache.maxCacheEntries := by
  have nonzero : b.statusCache.maxCacheEntries / 2 ≠ 0 := by omega
  cases purged : b.statusCache.purgeRoots b.slot with
  | none =>
    unfold StatusCache.purgeRoots at purged
    simp only [nonzero, if_false] at purged
    split at purged
    · split at purged <;> cases purged
    · cases purged
  | some c =>
    refine ⟨c, ?_, (StatusCache.purgeRoots_eq_some purged).1⟩
    simp [advanceSlot, StatusCache.addRoot, purged]

end Bank

/-! ## Runs of the pipeline -/

theorem mem_executedOf {T : Type} {transactions : List (Signature × Option T)} {signature : Signature}
    {status : T} (member : (signature, some status) ∈ transactions) :
    (signature, status) ∈ executedOf transactions :=
  List.mem_filterMap.mpr ⟨_, member, rfl⟩

namespace StatusPipeline

variable {T : Type} {enable : Bool}

@[simp] theorem run_nil (p : StatusPipeline T) : p.run enable [] = some p := rfl

theorem run_cons (p : StatusPipeline T) (event : PipelineEvent T) (events : List (PipelineEvent T)) :
    p.run enable (event :: events) = (p.step enable event).bind fun p' => p'.run enable events := rfl

theorem run_append (p : StatusPipeline T) (events more : List (PipelineEvent T)) :
    p.run enable (events ++ more) = (p.run enable events).bind fun p' => p'.run enable more := by
  simp only [run, List.foldlM_append]
  rfl

theorem step_advanceSlot_eq_some {p : StatusPipeline T} (two_le : 2 ≤ p.bank.statusCache.maxCacheEntries) :
    ∃ bank, p.step enable .advanceSlot = some { p with bank } ∧ bank.slot = p.bank.slot + 1 ∧
      bank.statusCache.maxCacheEntries = p.bank.statusCache.maxCacheEntries := by
  obtain ⟨c, advanced, kept⟩ := Bank.advanceSlot_eq_some two_le
  exact ⟨{ p.bank with slot := p.bank.slot + 1, statusCache := c }, by simp [step, advanced], rfl, kept⟩

/-- Slot advances move the slot and nothing else the listener reads. -/
theorem run_replicate_advanceSlot (p : StatusPipeline T) (two_le : 2 ≤ p.bank.statusCache.maxCacheEntries)
    (advances : Nat) :
    ∃ p', p.run enable (List.replicate advances .advanceSlot) = some p' ∧
      p'.bank.slot = p.bank.slot + advances ∧ p'.channel = p.channel ∧ p'.ledger = p.ledger := by
  induction advances generalizing p with
  | zero => exact ⟨p, rfl, rfl, rfl, rfl⟩
  | succ advances ih =>
    obtain ⟨bank, advanced, slotAdvanced, kept⟩ := @step_advanceSlot_eq_some _ enable _ two_le
    obtain ⟨p', ran, slotRan, channelRan, ledgerRan⟩ := ih { p with bank } (by simpa [kept] using two_le)
    refine ⟨p', ?_, ?_, channelRan, ledgerRan⟩
    · rw [List.replicate_succ, run_cons, advanced, Option.bind_some, ran]
    · rw [slotRan, slotAdvanced, Nat.add_right_comm, Nat.add_assoc]

end StatusPipeline

/-! ## The slot the listener writes -/

/-- From a bank of any run with an empty channel: a batch executed at the bank's slot, then
`advances` slot advances, then the listener's turn.  Each executed transaction is recorded
by the status cache at the slot it ran in, but written to the ledger at the slot the
listener read, `advances` slots later. -/
theorem listener_writes_at_dequeue_slot {T : Type} (p : StatusPipeline T)
    (results : List (Signature × Option T)) (advances : Nat) (reachable : Bank.Reachable p.bank)
    (idle : p.channel = []) (two_le : 2 ≤ p.bank.statusCache.maxCacheEntries) :
    ∃ p', p.run true ([PipelineEvent.executeSanitizedTransaction results] ++
        List.replicate advances PipelineEvent.advanceSlot ++ [PipelineEvent.receiveBatch]) = some p' ∧
      p'.bank.slot = p.bank.slot + advances ∧
      p'.ledger = p.ledger ++ (executedOf results).map (fun tx => (tx.1, p.bank.slot + advances, tx.2)) ∧
      ∀ signature status, (signature, some status) ∈ results →
        ∃ map, (p.bank.slot, map) ∈
            (p.bank.updateTransactionStatuses (executedOf results)).statusCache.transactionStatusCache ∧
          (map signature).isSome := by
  -- the execution leaves the slot and the cache's `max_cache_entries` as they were
  have executed : p.step true (.executeSanitizedTransaction results) =
      some { p with
        bank := p.bank.updateTransactionStatuses (executedOf results)
        channel := [⟨results⟩]
        executions := p.executions ++ (executedOf results).map fun tx => (tx.1, p.bank.slot, tx.2) } := by
    simp [StatusPipeline.step, idle]
  obtain ⟨ticked, ticking, slotTicked, channelTicked, ledgerTicked⟩ :=
    @StatusPipeline.run_replicate_advanceSlot _ true
      { p with
        bank := p.bank.updateTransactionStatuses (executedOf results)
        channel := [⟨results⟩]
        executions := p.executions ++ (executedOf results).map fun tx => (tx.1, p.bank.slot, tx.2) }
      (by simpa using two_le) advances
  refine ⟨{ ticked with channel := [], ledger := ticked.ledger ++
      (executedOf results).map fun tx => (tx.1, ticked.bank.slot, tx.2) }, ?_, slotTicked, ?_, ?_⟩
  · rw [StatusPipeline.run_append, StatusPipeline.run_append, StatusPipeline.run_cons, executed,
      Option.bind_some, StatusPipeline.run_nil, Option.bind_some, ticking, Option.bind_some]
    simp [StatusPipeline.run, StatusPipeline.step, channelTicked]
  · rw [ledgerTicked, slotTicked]
    rfl
  · intro signature status member
    exact reachable.recorded (mem_executedOf member)

/-- A transaction executed at slot 0 of a new bank and taken by the listener after one
slot advance is written at slot 1. -/
theorem listener_writes_at_dequeue_slot_after_one_tick :
    ∃ p', (StatusPipeline.new 2 : StatusPipeline Unit).run true
        ([PipelineEvent.executeSanitizedTransaction [(FixedBytes.zero 64, some ())]] ++
          List.replicate 1 PipelineEvent.advanceSlot ++ [PipelineEvent.receiveBatch]) = some p' ∧
      p'.bank.slot = (StatusPipeline.new 2 : StatusPipeline Unit).bank.slot + 1 ∧
      p'.ledger = (StatusPipeline.new 2 : StatusPipeline Unit).ledger ++
        (executedOf [(FixedBytes.zero 64, some ())]).map
          (fun tx => (tx.1, (StatusPipeline.new 2 : StatusPipeline Unit).bank.slot + 1, tx.2)) ∧
      ∀ signature status, (signature, some status) ∈ [(FixedBytes.zero 64, some ())] →
        ∃ map, ((StatusPipeline.new 2 : StatusPipeline Unit).bank.slot, map) ∈
            ((StatusPipeline.new 2 : StatusPipeline Unit).bank.updateTransactionStatuses
              (executedOf [(FixedBytes.zero 64, some ())])).statusCache.transactionStatusCache ∧
          (map signature).isSome :=
  listener_writes_at_dequeue_slot _ _ 1 (.new 2) rfl (by decide)

/-! ## What every run delivers -/

namespace Bank

theorem slot_of_advanceSlot {T : Type} {b b' : Bank T} (advanced : b.advanceSlot = some b') :
    b'.slot = b.slot + 1 := by
  obtain ⟨c, -, rfl⟩ := Option.map_eq_some_iff.mp advanced
  rfl

end Bank

namespace StatusPipeline

variable {T : Type}

/-- The executed transactions of the batches still on the channel, in order. -/
def pendingOf (channel : List (TransactionStatusBatch T)) : List (Signature × T) :=
  channel.flatMap fun batch => executedOf batch.transactions

/-- A ledger entry for an execution: the same signature and status, at a slot no earlier
than the one the transaction ran in. -/
def WrittenLater (execution entry : Signature × Nat × T) : Prop :=
  entry.1 = execution.1 ∧ entry.2.2 = execution.2.2 ∧ execution.2.1 ≤ entry.2.1

/-- What every run with `enable_rpc_transaction_history` keeps: the executions split into
those written, matched one for one and in order by the ledger, and those whose batches are
still on the channel; none ran after the bank's slot. -/
structure Delivered (p : StatusPipeline T) (written pending : List (Signature × Nat × T)) : Prop where
  executions_eq : p.executions = written ++ pending
  ledger : List.Forall₂ WrittenLater written p.ledger
  channel : pending.map (fun execution => (execution.1, execution.2.2)) = pendingOf p.channel
  ran_before : ∀ execution ∈ p.executions, execution.2.1 ≤ p.bank.slot

theorem Delivered.new (maxAge : Nat) : Delivered (StatusPipeline.new maxAge : StatusPipeline T) [] [] :=
  ⟨rfl, .nil, rfl, nofun⟩

/-- Executions taken off the channel at `slot`, when none ran after it, are written later. -/
theorem forall₂_writtenLater {taken : List (Signature × Nat × T)} {batch : List (Signature × T)}
    {slot : Nat} (same : taken.map (fun execution => (execution.1, execution.2.2)) = batch)
    (bounded : ∀ execution ∈ taken, execution.2.1 ≤ slot) :
    List.Forall₂ WrittenLater taken (batch.map fun tx => (tx.1, slot, tx.2)) := by
  induction taken generalizing batch with
  | nil =>
    subst same
    exact .nil
  | cons execution rest ih =>
    subst same
    apply List.Forall₂.cons ⟨rfl, rfl, bounded execution List.mem_cons_self⟩
    exact ih rfl fun later member => bounded later (List.mem_cons_of_mem _ member)

theorem Delivered.executeSanitizedTransaction {p : StatusPipeline T} {written pending}
    (delivered : Delivered p written pending) (results : List (Signature × Option T)) :
    Delivered
      { p with
        bank := p.bank.updateTransactionStatuses (executedOf results)
        channel := p.channel ++ [⟨results⟩]
        executions := p.executions ++ (executedOf results).map fun tx => (tx.1, p.bank.slot, tx.2) }
      written (pending ++ (executedOf results).map fun tx => (tx.1, p.bank.slot, tx.2)) where
  executions_eq := by rw [delivered.executions_eq, List.append_assoc]
  ledger := delivered.ledger
  channel := by
    simp only [List.map_append, delivered.channel, pendingOf, List.flatMap_append]
    simp [Function.comp_def]
  ran_before execution member := by
    rcases List.mem_append.mp member with old | new
    · exact delivered.ran_before execution old
    · obtain ⟨tx, -, rfl⟩ := List.mem_map.mp new
      exact Nat.le_refl _

theorem Delivered.advanceSlot {p : StatusPipeline T} {written pending} {bank : Bank T}
    (delivered : Delivered p written pending) (advanced : p.bank.advanceSlot = some bank) :
    Delivered { p with bank } written pending where
  executions_eq := delivered.executions_eq
  ledger := delivered.ledger
  channel := delivered.channel
  ran_before execution member := by
    have earlier := delivered.ran_before execution member
    rw [Bank.slot_of_advanceSlot advanced]
    exact Nat.le_succ_of_le earlier

/-- The listener takes the first batch: its executions move from the channel to the ledger. -/
theorem Delivered.receiveBatch {p : StatusPipeline T} {written pending}
    {batch : TransactionStatusBatch T} {rest : List (TransactionStatusBatch T)}
    (delivered : Delivered p written pending) (queued : p.channel = batch :: rest) :
    ∃ taken, Delivered
      { p with
        channel := rest
        ledger := p.ledger ++ (executedOf batch.transactions).map fun tx => (tx.1, p.bank.slot, tx.2) }
      (written ++ taken) (pending.drop taken.length) := by
  have split := delivered.channel
  rw [queued, pendingOf, List.flatMap_cons, List.map_eq_append_iff] at split
  obtain ⟨taken, left, rfl, same, remaining⟩ := split
  have bounded : ∀ execution ∈ taken, execution.2.1 ≤ p.bank.slot := fun execution member =>
    delivered.ran_before execution (by rw [delivered.executions_eq]; simp [member])
  refine ⟨taken, ⟨?_, ?_, ?_, delivered.ran_before⟩⟩
  · rw [delivered.executions_eq, List.drop_left, List.append_assoc]
  · exact List.rel_append delivered.ledger (forall₂_writtenLater same bounded)
  · rw [List.drop_left]
    exact remaining

/-- One event of any kind keeps the split. -/
theorem Delivered.step {p p' : StatusPipeline T} {written pending} (delivered : Delivered p written pending)
    {event : PipelineEvent T} (stepped : p.step true event = some p') :
    ∃ written' pending', Delivered p' written' pending' := by
  cases event with
  | executeSanitizedTransaction results =>
    cases stepped
    exact ⟨_, _, delivered.executeSanitizedTransaction results⟩
  | advanceSlot =>
    obtain ⟨bank, advanced, rfl⟩ := Option.map_eq_some_iff.mp stepped
    exact ⟨_, _, delivered.advanceSlot advanced⟩
  | receiveBatch =>
    cases queued : p.channel with
    | nil => simp [StatusPipeline.step, queued] at stepped
    | cons batch rest =>
      simp only [StatusPipeline.step, queued, if_true, Option.some.injEq] at stepped
      subst stepped
      obtain ⟨taken, received⟩ := delivered.receiveBatch queued
      exact ⟨_, _, received⟩

/-- Over any interleaving of executions, slot advances and the listener's turns, with
`enable_rpc_transaction_history`, every executed transaction is written once, in execution
order, at a slot no earlier than the one it ran in, or is still on the channel. -/
theorem run_keeps_delivered {p p' : StatusPipeline T} {written pending} (delivered : Delivered p written pending)
    {events : List (PipelineEvent T)} (ran : p.run true events = some p') :
    ∃ written' pending', Delivered p' written' pending' := by
  induction events generalizing p written pending with
  | nil =>
    cases ran
    exact ⟨written, pending, delivered⟩
  | cons event rest ih =>
    rw [run_cons] at ran
    obtain ⟨middle, stepped, ran⟩ := Option.bind_eq_some_iff.mp ran
    obtain ⟨written', pending', delivered'⟩ := delivered.step stepped
    exact ih delivered' ran

/-- A batch executed at slot 0, a slot advance, a second batch with a transaction that did
not run, and one turn of the listener: the first batch is written at slot 1, the second is
still on the channel. -/
theorem run_keeps_delivered_after_two_batches :
    let events : List (PipelineEvent Unit) :=
      [.executeSanitizedTransaction [(FixedBytes.zero 64, some ())], .advanceSlot,
        .executeSanitizedTransaction [(FixedBytes.replicate 64 1, some ()), (FixedBytes.replicate 64 2, none)],
        .receiveBatch]
    ∃ p', (StatusPipeline.new 2 : StatusPipeline Unit).run true events = some p' ∧
      p'.ledger = [(FixedBytes.zero 64, 1, ())] ∧ p'.channel.length = 1 ∧ ∃ written pending, Delivered p' written pending := by
  intro events
  exact ⟨_, rfl, rfl, rfl, @run_keeps_delivered Unit _ _ _ _ (Delivered.new 2) events rfl⟩

end StatusPipeline

end EphemeralValidator
