import EphemeralValidator.Geyser.Service
import EphemeralValidator.Lib.OrderedMap
import EphemeralValidator.Lib.Transducer

/-! # The geyser loop

The plugin (`GrpcGeyserPlugin`, plugin.rs) turns the validator's notifications into
messages and sends them down one channel to `GrpcService::geyser_loop` (grpc.rs), which the
RPC service runs.  The loop keeps, per slot, what it needs to rebuild the slot's block
(`SlotMessages`, grpc_messages.rs): the messages of the slot, its transactions, entries and
block meta, and the latest write of each account.  Once the meta and as many transactions as
it counts are in, `try_seal` builds the block and the loop sends it after the message that
completed it.  Every message goes out to the clients at `Processed`, in batches of at most
`PROCESSED_MESSAGES_MAX`, or sooner when the timer fires; a slot that is confirmed or
finalized sends its slot's messages at that commitment.  Slots far behind the newest
processed one are dropped, and one that was finalized without a block is a failed
reconstruction, which `ConfigBlockFailAction::Panic` turns into a panic.

The loop is a step on `GeyserLoopState` (its local variables) for each event it waits for:
a message, or the timer.  `Lib.Transducer.run` runs it over every order of events, so the
results below hold for every interleaving of messages and timer firings.

What is proved here:
* the processed channel loses nothing and makes nothing up: its batches, then what is still
  pending, are the received messages in order with the blocks the loop built among them, and
  no batch exceeds `PROCESSED_MESSAGES_MAX` (`geyserLoop_processed_stream`);
* in every state the loop reaches, the indices it writes through (`messages[entry.1]`) and
  the positions it slices from (`messages[confirmed_at..]`) are within the slot's messages
  (`geyserLoop_indices_in_bounds`);
* on what the validator's plugin sends the loop builds no block and never panics, whichever
  `ConfigBlockFailAction` is set (`geyserLoop_validator_never_panics`).
-/

namespace EphemeralValidator.Geyser

open EphemeralValidator.Solana EphemeralValidator.Lib

/-- `ConfigBlockFailAction`. -/
inductive ConfigBlockFailAction where
  | log
  | panic
  deriving DecidableEq

namespace Grpc

/-! ## Messages -/

/-- `MessageAccount`: the account, the slot of the write and whether it is a startup one.
The write's `write_version` is a field of `MessageAccountInfo` in the source; the model's
info holds what the filters read, so the version stands here beside it. -/
structure MessageAccount where
  account : MessageAccountInfo
  writeVersion : UInt64
  slot : Slot
  isStartup : Bool

/-- `MessageTransaction`. -/
structure MessageTransaction where
  transaction : MessageTransactionInfo
  slot : Slot

/-- `MessageEntry`, with the field the loop reads; the others only travel to the clients. -/
structure MessageEntry where
  slot : Slot

/-- `MessageBlockMeta`, with the fields the loop reads. -/
structure MessageBlockMeta where
  slot : Slot
  executedTransactionCount : UInt64
  entriesCount : UInt64

/-- `Message`.  A `MessageBlock` is built `From` a block meta and the slot's transactions,
accounts and entries, and copies its slot and counts from the meta, so the model keeps that
meta beside the parts the filters read. -/
inductive Message where
  | slot (message : MessageSlot)
  | account (message : MessageAccount)
  | transaction (message : MessageTransaction)
  | entry (message : MessageEntry)
  | block (blockMeta : MessageBlockMeta) (message : MessageBlock MessageEntry)
  | blockMeta (message : MessageBlockMeta)

/-- `Message::get_slot`. -/
def Message.getSlot : Message → Slot
  | .slot message => message.slot
  | .account message => message.slot
  | .transaction message => message.slot
  | .entry message => message.slot
  | .block info _ => info.slot
  | .blockMeta message => message.slot

/-- `Message::kind`. -/
def Message.kind : Message → String
  | .slot _ => "Slot"
  | .account _ => "Account"
  | .transaction _ => "Transaction"
  | .entry _ => "Entry"
  | .block _ _ => "Block"
  | .blockMeta _ => "BlockMeta"

def Message.isSlot : Message → Bool
  | .slot _ => true
  | _ => false

def Message.isEntry : Message → Bool
  | .entry _ => true
  | _ => false

def Message.isBlock : Message → Bool
  | .block _ _ => true
  | _ => false

/-- A message after which no slot has a block meta or is finalized: anything but a block meta
or a slot reported finalized. -/
def Message.leavesUnbuilt : Message → Bool
  | .slot message => message.status != .finalized
  | .blockMeta _ => false
  | _ => true

/-- The account of an account message (`if let Message::Account(account)`). -/
def Message.accountInfo? : Message → Option MessageAccountInfo
  | .account message => some message.account
  | _ => none

/-- The message as the filters read it. -/
def Message.toFull : Message → Full.Message MessageEntry MessageBlockMeta
  | .slot message => .slot message
  | .account message => .account message.account
  | .transaction message => .transaction message.transaction
  | .entry message => .entry message
  | .block _ message => .block message
  | .blockMeta message => .blockMeta message

/-! ## Rebuilding a slot's block -/

/-- `SlotMessages`: the slot's messages in arrival order (`None` where a later write of the
same account replaced one), its block meta, transactions and entries, the latest write of
each account with its position, whether the block is built, and where the messages stood when
the slot was confirmed and finalized. -/
structure SlotMessages where
  messages : List (Option Message)
  blockMeta : Option MessageBlockMeta
  transactions : List MessageTransactionInfo
  accountsDedup : AList fun _ : Pubkey => UInt64 × Nat
  entries : List MessageEntry
  sealed : Bool
  entriesCount : Nat
  confirmedAt : Option Nat
  finalizedAt : Option Nat

/-- `SlotMessages::default`. -/
def SlotMessages.default : SlotMessages := ⟨[], none, [], ∅, [], false, 0, none, none⟩

/-- The block `try_seal` builds: the slot's transactions, the accounts of its kept messages in
order, and its entries unless the meta counts none. -/
def SlotMessages.sealedBlock (this : SlotMessages) (info : MessageBlockMeta) : Message :=
  .block info ⟨this.transactions, this.messages.filterMap (·.bind Message.accountInfo?),
    if info.entriesCount.toNat = 0 then [] else this.entries⟩

/-- `SlotMessages::try_seal`: once the block meta is in, with as many transactions as it
counts and as many entries, build the block, add it to the slot's messages and seal the slot. -/
def SlotMessages.trySeal (this : SlotMessages) : SlotMessages × Option Message :=
  if this.sealed then (this, none) else
  match this.blockMeta with
  | none => (this, none)
  | some info =>
    -- a block may count no entries and still have some (solana-labs/solana#33823)
    if this.transactions.length = info.executedTransactionCount.toNat ∧
        (info.entriesCount.toNat = 0 ∨ this.entries.length = info.entriesCount.toNat) then
      ({ this with
          messages := this.messages ++ [some (this.sealedBlock info)]
          transactions := []
          entries := []
          sealed := true
          entriesCount := info.entriesCount.toNat }, some (this.sealedBlock info))
    else (this, none)

/-- What the loop does on a failed check (`match block_fail_action`): `Log` writes the text
to the log and goes on, `Panic` stops the loop with it. -/
def blockFailIf (action : ConfigBlockFailAction) (failed : Bool) (text : String) : Except String Unit :=
  if failed then
    match action with
    | .log => pure ()
    | .panic => throw text
  else pure ()

/-- A message that is not a slot update joins its slot's messages; one that comes after the
slot's block was built is out of order, except an entry when the block counted none. -/
def SlotMessages.record (action : ConfigBlockFailAction) (this : SlotMessages) (message : Message) :
    Except String SlotMessages :=
  if message.isSlot then pure this else do
    let this := { this with messages := this.messages ++ [some message] }
    blockFailIf action (this.sealed && !(message.isEntry && this.entriesCount == 0))
      ("unexpected message #" ++ toString message.getSlot ++ " -- " ++ message.kind ++ " (invalid order)")
    pure this

/-- Dedup accounts by max `write_version`: a later write of an account with a greater version
blanks the earlier one's message and takes its place in `accounts_dedup`.  The message just
recorded is the last one. -/
def SlotMessages.dedupAccount (this : SlotMessages) (message : MessageAccount) : SlotMessages :=
  let writeVersion := message.writeVersion
  let msgIndex := this.messages.length - 1
  match this.accountsDedup.lookup message.account.pubkey with
  | some entry =>
    if entry.1 < writeVersion then
      { this with
          messages := this.messages.set entry.2 none
          accountsDedup := this.accountsDedup.insert message.account.pubkey (writeVersion, msgIndex) }
    else this
  | none => { this with accountsDedup := this.accountsDedup.insert message.account.pubkey (writeVersion, msgIndex) }

/-- What the message adds to its slot's block, and the block if that completes it. -/
def SlotMessages.update (action : ConfigBlockFailAction) (this : SlotMessages) (message : Message) :
    Except String (SlotMessages × Option Message) :=
  match message with
  | .blockMeta info => do
    blockFailIf action this.blockMeta.isSome
      ("unexpected message #" ++ toString message.getSlot ++ " -- BlockMeta (duplicate)")
    pure { this with blockMeta := some info }.trySeal
  | .transaction transaction => pure { this with transactions := this.transactions ++ [transaction.transaction] }.trySeal
  | .account account => pure (this.dedupAccount account, none)
  | .entry entry => pure { this with entries := this.entries ++ [entry] }.trySeal
  | .slot _ | .block _ _ => pure (this, none)

/-- Why a slot dropped unbuilt is a failed reconstruction. -/
def SlotMessages.reconstructFailures (this : SlotMessages) : List String :=
  match this.blockMeta with
  | some blockMeta =>
    (if blockMeta.executedTransactionCount.toNat ≠ this.transactions.length then ["InvalidTxnCount"] else []) ++
      (if blockMeta.entriesCount.toNat ≠ this.entries.length then ["InvalidEntriesCount"] else [])
  | none => ["NoBlockMeta"]

/-- The slot's messages from `position` on, without the blanked ones
(`messages[position..].iter().filter_map(..)`), if the slot got there. -/
def SlotMessages.since (this : SlotMessages) (position : Option Nat) : List Message :=
  (position.map fun position => (this.messages.drop position).reduceOption).getD []

/-- `confirmed_at`/`finalized_at`: a slot not yet built records where its messages stood when
it reached the commitment. -/
def SlotMessages.markCommitment (status : CommitmentLevel) (this : SlotMessages) : SlotMessages :=
  if this.sealed then this else
  match status with
  | .processed => this
  | .confirmed => { this with confirmedAt := some this.messages.length }
  | .finalized => { this with finalizedAt := some this.messages.length }

/-! ## The loop -/

/-- `PROCESSED_MESSAGES_MAX`. -/
def processedMessagesMax : Nat := 31

/-- The local state of `geyser_loop`: the slots being rebuilt (a `BTreeMap`, least slot
first), the processed messages not sent yet, and the first processed slot seen. -/
structure GeyserLoopState where
  messages : OrderedMap Slot SlotMessages compare
  processedMessages : List Message
  processedFirstSlot : Option Slot

def GeyserLoopState.initial : GeyserLoopState := ⟨OrderedMap.empty, [], none⟩

/-- A slot dropped as outdated is checked only when it comes after the first processed slot:
finalized but never built, it is a failed reconstruction. -/
def checkDropped (action : ConfigBlockFailAction) (processedFirstSlot : Option Slot) (slot : Slot)
    (slotMessages : SlotMessages) : Except String Unit :=
  match processedFirstSlot with
  | none => pure ()
  | some processedFirst =>
    if slot ≤ processedFirst then pure ()
    else blockFailIf action (!slotMessages.sealed && slotMessages.finalizedAt.isSome)
      ("failed reconstruct #" ++ toString slot ++ " " ++ String.intercalate "," slotMessages.reconstructFailures)

/-- "Remove outdated block reconstruction info": the first processed slot is remembered; each
later one drops, least first, the slots more than 80 below it. -/
def GeyserLoopState.removeOutdated (action : ConfigBlockFailAction) (s : GeyserLoopState) (message : Message) :
    Except String GeyserLoopState :=
  match message with
  | .slot msg =>
    if s.processedFirstSlot.isNone ∧ msg.status = .processed then pure { s with processedFirstSlot := some msg.slot }
    else if msg.status = .processed ∧ 80 ≤ msg.slot then do
      -- `keys().next()` is the least slot: the walk visits the slots below the bound in order
      (s.messages.below (msg.slot - 80)).forM fun entry => checkDropped action s.processedFirstSlot entry.1 entry.2
      pure { s with messages := s.messages.dropBelow (msg.slot - 80) }
    else pure s
  | _ => pure s

/-- The messages kept for `slot`, in order (`messages.iter().flatten()`). -/
def slotMessagesOf (messages : OrderedMap Slot SlotMessages compare) (slot : Slot) : List Message :=
  ((messages.get? slot).map fun slotMessages => slotMessages.messages.reduceOption).getD []

/-- A slot update goes out at every commitment, after the pending processed messages, and,
at the commitment it reports, after the slot's messages. -/
def GeyserLoopState.sendSlot (s : GeyserLoopState) (message : Message) (slot : MessageSlot) :
    GeyserLoopState × List (CommitmentLevel × List Message) :=
  let messages := match slot.status with
    | .processed => s.messages
    | status => s.messages.modify slot.slot (SlotMessages.markCommitment status)
  let confirmed := if slot.status = .confirmed then slotMessagesOf messages slot.slot else []
  let finalized := if slot.status = .finalized then slotMessagesOf messages slot.slot else []
  ({ s with messages, processedMessages := [] },
    [(.processed, s.processedMessages ++ [message]), (.confirmed, confirmed ++ [message]),
      (.finalized, finalized ++ [message])])

/-- The pending processed messages go out once there are `PROCESSED_MESSAGES_MAX` of them,
or when something goes out with them at another commitment; otherwise they stay pending. -/
def flushProcessed (processed : List Message) (withOthers : Bool) :
    List Message × List (CommitmentLevel × List Message) :=
  if processedMessagesMax ≤ processed.length || withOthers then ([], [(.processed, processed)])
  else (processed, [])

/-- Any other message joins the pending processed ones; a block also sends its slot's
messages from where they stood when the slot was confirmed and finalized. -/
def GeyserLoopState.sendOther (s : GeyserLoopState) (message : Message) :
    GeyserLoopState × List (CommitmentLevel × List Message) :=
  let slotMessages := if message.isBlock then s.messages.get? message.getSlot else none
  let confirmed := (slotMessages.map fun slotMessages => slotMessages.since slotMessages.confirmedAt).getD []
  let finalized := (slotMessages.map fun slotMessages => slotMessages.since slotMessages.finalizedAt).getD []
  let processed := flushProcessed (s.processedMessages ++ [message]) (!confirmed.isEmpty || !finalized.isEmpty)
  ({ s with processedMessages := processed.1 },
    processed.2 ++ (if confirmed.isEmpty then [] else [(.confirmed, confirmed)]) ++
      (if finalized.isEmpty then [] else [(.finalized, finalized)]))

/-- The body of `for message in messages_vec`. -/
def GeyserLoopState.send (s : GeyserLoopState) (message : Message) :
    GeyserLoopState × List (CommitmentLevel × List Message) :=
  match message with
  | .slot slot => s.sendSlot message slot
  | _ => s.sendOther message

/-- `for message in messages_vec`: the message, then the block it completed. -/
def GeyserLoopState.sendAll (s : GeyserLoopState) : List Message →
    GeyserLoopState × List (CommitmentLevel × List Message)
  | [] => (s, [])
  | message :: rest =>
    let first := s.send message
    let next := first.1.sendAll rest
    (next.1, first.2 ++ next.2)

/-- The loop's branch for a received message. -/
def GeyserLoopState.receive (action : ConfigBlockFailAction) (s : GeyserLoopState) (message : Message) :
    Except String (GeyserLoopState × List (CommitmentLevel × List Message)) := do
  let s ← s.removeOutdated action message
  -- `messages.entry(message.get_slot()).or_default()`
  let slotMessages ← (s.messages.getD message.getSlot SlotMessages.default).record action message
  let updated ← slotMessages.update action message
  let s := { s with messages := s.messages.insert message.getSlot updated.1 }
  pure (s.sendAll (message :: updated.2.toList))

/-- The loop's branch for the timer: whatever processed messages are pending go out. -/
def GeyserLoopState.processedSleep (s : GeyserLoopState) :
    GeyserLoopState × List (CommitmentLevel × List Message) :=
  if s.processedMessages.isEmpty then (s, [])
  else ({ s with processedMessages := [] }, [(.processed, s.processedMessages)])

/-- What the loop waits for (the branches of its `select!`). -/
inductive GeyserLoopEvent where
  | message (message : Message)
  | processedSleep

def GeyserLoopState.step (action : ConfigBlockFailAction) (s : GeyserLoopState) :
    GeyserLoopEvent → Except String (GeyserLoopState × List (CommitmentLevel × List Message))
  | .message message => s.receive action message
  | .processedSleep => pure s.processedSleep

/-- `GrpcService::geyser_loop` over a sequence of events: the state it reaches and every
`(commitment, messages)` it broadcast, or the text it panicked with. -/
def geyserLoop (action : ConfigBlockFailAction) (events : List GeyserLoopEvent) :
    Except String (GeyserLoopState × List (CommitmentLevel × List Message)) :=
  Transducer.run (GeyserLoopState.step action) GeyserLoopState.initial events

/-! ## The plugin's side

`GrpcGeyserPlugin` sends to the loop from three of its callbacks only, and the bank notifies
every new slot through `SlotStatusNotifierImpl`, which reports it `Processed`. -/

/-- `SlotStatus` of the plugin interface. -/
inductive SlotStatus where
  | processed
  | confirmed
  | rooted
  deriving DecidableEq

/-- `From<(u64, Option<u64>, SlotStatus)> for MessageSlot`. -/
def messageSlotOf (slot : Slot) (parent : Option Slot) (status : SlotStatus) : MessageSlot :=
  ⟨slot, parent, match status with
    | .processed => .processed
    | .confirmed => .confirmed
    | .rooted => .finalized⟩

/-- A call of the validator into the plugin (`GeyserPlugin`), with what the plugin reads of it. -/
inductive GeyserPluginCall where
  | updateAccount (account : MessageAccountInfo) (writeVersion : UInt64) (slot : Slot) (isStartup : Bool)
  | updateSlotStatus (slot : Slot) (parent : Option Slot) (status : SlotStatus)
  | notifyTransaction (transaction : MessageTransactionInfo) (slot : Slot)
  | notifyEntry (entry : MessageEntry)
  | notifyBlockMetadata (blockMeta : MessageBlockMeta)

/-- What the plugin sends the RPC service's loop (`send_message` on `rpc_channel`): startup
writes, entries and block metadata are not sent. -/
def GeyserPluginCall.sent : GeyserPluginCall → List Message
  | .updateAccount account writeVersion slot isStartup =>
    if isStartup then [] else [.account ⟨account, writeVersion, slot, isStartup⟩]
  | .updateSlotStatus slot parent status => [.slot (messageSlotOf slot parent status)]
  | .notifyTransaction transaction slot => [.transaction ⟨transaction, slot⟩]
  | .notifyEntry _ => []
  | .notifyBlockMetadata _ => []

/-- `SlotStatusNotifierImpl::notify_slot_status`: the bank's new slot, always `Processed`. -/
def notifySlotStatus (slot : Slot) (parent : Option Slot) : GeyserPluginCall :=
  .updateSlotStatus slot parent .processed

/-- A call that reports a slot rooted. -/
def GeyserPluginCall.rootsSlot : GeyserPluginCall → Bool
  | .updateSlotStatus _ _ .rooted => true
  | _ => false

/-- What reaches the loop while the validator runs: what a call into the plugin sends, or the
timer.  A list of these is every interleaving of the plugin's messages with the timer. -/
inductive PluginEvent where
  | call (call : GeyserPluginCall)
  | processedSleep

/-- The messages the plugin sends at an event. -/
def PluginEvent.sent : PluginEvent → List Message
  | .call pluginCall => pluginCall.sent
  | .processedSleep => []

/-- An event that reports a slot rooted. -/
def PluginEvent.rootsSlot : PluginEvent → Bool
  | .call pluginCall => pluginCall.rootsSlot
  | .processedSleep => false

def PluginEvent.toLoop : PluginEvent → List GeyserLoopEvent
  | .call pluginCall => pluginCall.sent.map .message
  | .processedSleep => [.processedSleep]

/-- The messages the loop receives at an event. -/
def GeyserLoopEvent.received : GeyserLoopEvent → List Message
  | .message incoming => [incoming]
  | .processedSleep => []

/-- The messages of a batch, if it goes out at `Processed`. -/
def atProcessed (batch : CommitmentLevel × List Message) : List Message :=
  if batch.1 = .processed then batch.2 else []

/-! ## What one message does to its slot -/

@[simp] theorem blockFailIf_false (action : ConfigBlockFailAction) (text : String) :
    blockFailIf action false text = pure () := rfl

namespace SlotMessages

/-- Everything `try_seal` can do: leave the slot as it is, or build its block. -/
theorem trySeal_cases (this : SlotMessages) :
    this.trySeal = (this, none) ∨
      ∃ info, this.sealed = false ∧ this.blockMeta = some info ∧
        this.transactions.length = info.executedTransactionCount.toNat ∧
        (info.entriesCount.toNat = 0 ∨ this.entries.length = info.entriesCount.toNat) ∧
        this.trySeal = ({ this with
          messages := this.messages ++ [some (this.sealedBlock info)]
          transactions := []
          entries := []
          sealed := true
          entriesCount := info.entriesCount.toNat }, some (this.sealedBlock info)) := by
  unfold trySeal
  cases sealed : this.sealed with
  | true => exact .inl rfl
  | false =>
    cases hasMeta : this.blockMeta with
    | none => exact .inl rfl
    | some info =>
      by_cases counted : this.transactions.length = info.executedTransactionCount.toNat ∧
          (info.entriesCount.toNat = 0 ∨ this.entries.length = info.entriesCount.toNat)
      · exact .inr ⟨info, rfl, rfl, counted.1, counted.2, by simp [counted]⟩
      · exact .inl (by simp [counted])

theorem trySeal_of_blockMeta_none {this : SlotMessages} (noMeta : this.blockMeta = none) :
    this.trySeal = (this, none) := by
  rcases trySeal_cases this with unchanged | ⟨info, -, hasMeta, -⟩
  · exact unchanged
  · rw [noMeta] at hasMeta
    cases hasMeta

theorem isBlock_of_trySeal {this : SlotMessages} {block : Message} (built : this.trySeal.2 = some block) :
    block.isBlock = true := by
  rcases trySeal_cases this with unchanged | ⟨info, -, -, -, -, sealed⟩
  · rw [unchanged] at built
    cases built
  · rw [sealed] at built
    cases built
    rfl

theorem record_eq_ok {action : ConfigBlockFailAction} {this this' : SlotMessages} {message : Message}
    (recorded : this.record action message = .ok this') :
    this' = if message.isSlot then this else { this with messages := this.messages ++ [some message] } := by
  unfold record at recorded
  split at recorded
  case isTrue isSlot =>
    rw [pure_eq_ok] at recorded
    simp [isSlot, recorded]
  case isFalse notSlot =>
    simp only [bind_eq_ok, pure_eq_ok] at recorded
    obtain ⟨-, -, recorded⟩ := recorded
    simp [notSlot, recorded]

/-- Everything the second half of a message's work on its slot can do. -/
theorem update_cases {action : ConfigBlockFailAction} {this : SlotMessages} {message : Message}
    {result : SlotMessages × Option Message} (updated : this.update action message = .ok result) :
    (∃ info, message = .blockMeta info ∧ result = { this with blockMeta := some info }.trySeal) ∨
    (∃ transaction, message = .transaction transaction ∧
      result = { this with transactions := this.transactions ++ [transaction.transaction] }.trySeal) ∨
    (∃ account, message = .account account ∧ result = (this.dedupAccount account, none)) ∨
    (∃ entry, message = .entry entry ∧ result = { this with entries := this.entries ++ [entry] }.trySeal) ∨
    ((message.isSlot ∨ message.isBlock) ∧ result = (this, none)) := by
  cases message with
  | blockMeta info =>
    simp only [update, bind_eq_ok, pure_eq_ok] at updated
    obtain ⟨-, -, updated⟩ := updated
    exact .inl ⟨info, rfl, updated.symm⟩
  | transaction transaction =>
    rw [update, pure_eq_ok] at updated
    exact .inr (.inl ⟨transaction, rfl, updated.symm⟩)
  | account account =>
    rw [update, pure_eq_ok] at updated
    exact .inr (.inr (.inl ⟨account, rfl, updated.symm⟩))
  | entry entry =>
    rw [update, pure_eq_ok] at updated
    exact .inr (.inr (.inr (.inl ⟨entry, rfl, updated.symm⟩)))
  | slot message =>
    rw [update, pure_eq_ok] at updated
    exact .inr (.inr (.inr (.inr ⟨.inl rfl, updated.symm⟩)))
  | block info message =>
    rw [update, pure_eq_ok] at updated
    exact .inr (.inr (.inr (.inr ⟨.inr rfl, updated.symm⟩)))

/-- The block a message completes is a block. -/
theorem isBlock_of_update {action : ConfigBlockFailAction} {this : SlotMessages} {message block : Message}
    {this' : SlotMessages} (updated : this.update action message = .ok (this', some block)) :
    block.isBlock = true := by
  rcases update_cases updated with ⟨info, -, built⟩ | ⟨transaction, -, built⟩ | ⟨account, -, built⟩ |
      ⟨entry, -, built⟩ | ⟨-, built⟩
  all_goals first
    | exact isBlock_of_trySeal (congrArg Prod.snd built).symm
    | cases built

end SlotMessages

/-! ## What one event does to the loop -/

namespace GeyserLoopState

/-- Dropping outdated slots keeps the pending messages and only removes slots. -/
theorem removeOutdated_eq_ok {action : ConfigBlockFailAction} {s s' : GeyserLoopState} {message : Message}
    (removed : s.removeOutdated action message = .ok s') :
    s'.processedMessages = s.processedMessages ∧ ∀ entry ∈ s'.messages.entries, entry ∈ s.messages.entries := by
  unfold removeOutdated at removed
  split at removed
  · split at removed
    · rw [pure_eq_ok] at removed
      subst removed
      exact ⟨rfl, fun _ member => member⟩
    · split at removed
      · simp only [bind_eq_ok, pure_eq_ok] at removed
        obtain ⟨-, -, rfl⟩ := removed
        exact ⟨rfl, fun _ member => OrderedMap.mem_dropBelow member⟩
      · rw [pure_eq_ok] at removed
        subst removed
        exact ⟨rfl, fun _ member => member⟩
  · rw [pure_eq_ok] at removed
    subst removed
    exact ⟨rfl, fun _ member => member⟩

/-- The one spec of a received message: drop outdated slots, record the message in its slot,
update the slot, and send the message and the block it completed. -/
theorem receive_eq_ok {action : ConfigBlockFailAction} {s : GeyserLoopState} {message : Message}
    {result : GeyserLoopState × List (CommitmentLevel × List Message)}
    (received : s.receive action message = .ok result) :
    ∃ s₁ slotMessages updated, s.removeOutdated action message = .ok s₁ ∧
      (s₁.messages.getD message.getSlot SlotMessages.default).record action message = .ok slotMessages ∧
      slotMessages.update action message = .ok updated ∧
      result = sendAll { s₁ with messages := s₁.messages.insert message.getSlot updated.1 }
        (message :: updated.2.toList) := by
  simp only [receive, bind_eq_ok, pure_eq_ok] at received
  obtain ⟨s₁, removed, slotMessages, recorded, updated, changed, rfl⟩ := received
  exact ⟨s₁, slotMessages, updated, removed, recorded, changed, rfl⟩

/-- What goes out at another commitment adds nothing at `Processed`. -/
theorem atProcessed_elsewhere {level : CommitmentLevel} (other : level ≠ .processed) (empty : Prop) [Decidable empty]
    (batch : List Message) : (if empty then [] else [(level, batch)]).flatMap atProcessed = [] := by
  split
  · rfl
  · simp [atProcessed, other]

theorem flushProcessed_processed (processed : List Message) (withOthers : Bool) :
    (flushProcessed processed withOthers).2.flatMap atProcessed ++ (flushProcessed processed withOthers).1 =
      processed := by
  unfold flushProcessed
  split <;> simp [atProcessed]

theorem flushProcessed_pending_lt (processed : List Message) (withOthers : Bool) :
    (flushProcessed processed withOthers).1.length < processedMessagesMax := by
  unfold flushProcessed
  split
  case isTrue => simp [processedMessagesMax]
  case isFalse kept =>
    simp only [Bool.or_eq_true, decide_eq_true_eq, not_or] at kept
    exact Nat.lt_of_not_le kept.1

theorem flushProcessed_batch {processed : List Message} {withOthers : Bool} {batch : CommitmentLevel × List Message}
    (sent : batch ∈ (flushProcessed processed withOthers).2) : batch = (.processed, processed) := by
  unfold flushProcessed at sent
  split at sent
  · exact List.mem_singleton.mp sent
  · cases sent

theorem sendOther_processed (s : GeyserLoopState) (message : Message) :
    (s.sendOther message).2.flatMap atProcessed ++ (s.sendOther message).1.processedMessages =
      s.processedMessages ++ [message] := by
  simp only [sendOther, List.flatMap_append, atProcessed_elsewhere (by decide : CommitmentLevel.confirmed ≠ .processed),
    atProcessed_elsewhere (by decide : CommitmentLevel.finalized ≠ .processed), List.append_nil]
  exact flushProcessed_processed _ _

/-- Sending one message moves it, after the pending ones, to what goes out at `Processed` or
to what stays pending. -/
theorem send_processed (s : GeyserLoopState) (message : Message) :
    (s.send message).2.flatMap atProcessed ++ (s.send message).1.processedMessages =
      s.processedMessages ++ [message] := by
  cases message with
  | slot slot => simp [send, sendSlot, atProcessed]
  | _ => exact sendOther_processed s _

theorem sendAll_processed (s : GeyserLoopState) (messages : List Message) :
    (s.sendAll messages).2.flatMap atProcessed ++ (s.sendAll messages).1.processedMessages =
      s.processedMessages ++ messages := by
  induction messages generalizing s with
  | nil => simp [sendAll]
  | cons message rest ih =>
    simp only [sendAll, List.flatMap_append, List.append_assoc]
    rw [ih, ← List.append_assoc, send_processed, List.append_assoc, List.singleton_append]

theorem send_pending_lt (s : GeyserLoopState) (message : Message) :
    (s.send message).1.processedMessages.length < processedMessagesMax := by
  cases message with
  | slot slot => simp [send, sendSlot, processedMessagesMax]
  | _ => exact flushProcessed_pending_lt _ _

/-- From fewer than `PROCESSED_MESSAGES_MAX` pending, a message sends no processed batch
longer than that. -/
theorem send_batch_le {s : GeyserLoopState} (pending : s.processedMessages.length < processedMessagesMax)
    (message : Message) :
    ∀ batch ∈ (s.send message).2, batch.1 = .processed → batch.2.length ≤ processedMessagesMax := by
  intro batch sent processed
  cases message with
  | slot slot =>
    simp only [send, sendSlot, List.mem_cons, List.not_mem_nil, or_false] at sent
    rcases sent with rfl | rfl | rfl
    · simpa using pending
    · cases processed
    · cases processed
  | _ =>
    simp only [send, sendOther, List.mem_append, List.mem_ite_nil_left, List.mem_singleton] at sent
    rcases sent with (flushed | ⟨-, rfl⟩) | ⟨-, rfl⟩
    · rw [flushProcessed_batch flushed]
      simpa using pending
    · cases processed
    · cases processed

theorem sendAll_pending_lt {s : GeyserLoopState} (pending : s.processedMessages.length < processedMessagesMax)
    (messages : List Message) : (s.sendAll messages).1.processedMessages.length < processedMessagesMax := by
  induction messages generalizing s with
  | nil => exact pending
  | cons message rest ih => exact ih (send_pending_lt s message)

theorem sendAll_batch_le {s : GeyserLoopState} (pending : s.processedMessages.length < processedMessagesMax)
    (messages : List Message) :
    ∀ batch ∈ (s.sendAll messages).2, batch.1 = .processed → batch.2.length ≤ processedMessagesMax := by
  induction messages generalizing s with
  | nil => nofun
  | cons message rest ih =>
    intro batch sent
    rcases List.mem_append.mp sent with first | later
    · exact send_batch_le pending message batch first
    · exact ih (send_pending_lt s message) batch later

theorem processedSleep_processed (s : GeyserLoopState) :
    s.processedSleep.2.flatMap atProcessed ++ s.processedSleep.1.processedMessages = s.processedMessages := by
  unfold processedSleep
  split
  case isTrue empty => simp [List.isEmpty_iff.mp empty]
  case isFalse => simp [atProcessed]

@[simp] theorem processedSleep_pending (s : GeyserLoopState) : s.processedSleep.1.processedMessages = [] := by
  unfold processedSleep
  split
  case isTrue empty => exact List.isEmpty_iff.mp empty
  case isFalse => rfl

theorem processedSleep_batch {s : GeyserLoopState} {batch : CommitmentLevel × List Message}
    (sent : batch ∈ s.processedSleep.2) : batch = (.processed, s.processedMessages) := by
  unfold processedSleep at sent
  split at sent
  · cases sent
  · exact List.mem_singleton.mp sent

/-- A received message goes out at `Processed`, after the pending ones and before the block it
completed, or stays pending with it. -/
theorem receive_processed {action : ConfigBlockFailAction} {s s' : GeyserLoopState} {message : Message}
    {sent : List (CommitmentLevel × List Message)} (received : s.receive action message = .ok (s', sent)) :
    ∃ built : Option Message, (∀ block ∈ built, block.isBlock = true) ∧
      sent.flatMap atProcessed ++ s'.processedMessages = s.processedMessages ++ message :: built.toList := by
  obtain ⟨s₁, slotMessages, ⟨slotMessages', built⟩, removed, -, updated, result⟩ := receive_eq_ok received
  refine ⟨built, fun block isBuilt => ?_, ?_⟩
  · rw [Option.mem_def] at isBuilt
    subst isBuilt
    exact SlotMessages.isBlock_of_update updated
  · rw [Prod.mk.injEq] at result
    rw [result.1, result.2, sendAll_processed, (removeOutdated_eq_ok removed).1]

theorem receive_pending_lt {action : ConfigBlockFailAction} {s s' : GeyserLoopState} {message : Message}
    {sent : List (CommitmentLevel × List Message)} (received : s.receive action message = .ok (s', sent))
    (pending : s.processedMessages.length < processedMessagesMax) :
    s'.processedMessages.length < processedMessagesMax ∧
      ∀ batch ∈ sent, batch.1 = .processed → batch.2.length ≤ processedMessagesMax := by
  obtain ⟨s₁, -, updated, removed, -, -, result⟩ := receive_eq_ok received
  rw [Prod.mk.injEq] at result
  have pending₁ : s₁.processedMessages.length < processedMessagesMax := by
    rwa [(removeOutdated_eq_ok removed).1]
  rw [result.1, result.2]
  -- recording the message in its slot leaves the pending messages as they were
  refine ⟨sendAll_pending_lt ?_ _, sendAll_batch_le ?_ _⟩ <;> exact pending₁

end GeyserLoopState

/-! ## The processed channel over whole runs -/

/-- The invariant of the processed channel: fewer than `PROCESSED_MESSAGES_MAX` pending. -/
def GeyserLoopState.PendingBelowMax (s : GeyserLoopState) : Prop :=
  s.processedMessages.length < processedMessagesMax

theorem GeyserLoopState.step_pendingBelowMax {action : ConfigBlockFailAction} {s s' : GeyserLoopState}
    {event : GeyserLoopEvent} {sent : List (CommitmentLevel × List Message)}
    (pending : s.PendingBelowMax) (stepped : s.step action event = .ok (s', sent)) :
    s'.PendingBelowMax ∧ ∀ batch ∈ sent, batch.1 = .processed → batch.2.length ≤ processedMessagesMax := by
  cases event with
  | message message => exact receive_pending_lt stepped pending
  | processedSleep =>
    rw [step, pure_eq_ok, Prod.mk.injEq] at stepped
    obtain ⟨rfl, rfl⟩ := stepped
    refine ⟨by simp [PendingBelowMax, processedMessagesMax], fun batch sent _ => ?_⟩
    rw [processedSleep_batch sent]
    exact Nat.le_of_lt pending

/-- One step moves what it receives to the processed channel, with the blocks it built. -/
theorem GeyserLoopState.step_processed {action : ConfigBlockFailAction} {s s' : GeyserLoopState}
    {event : GeyserLoopEvent} {sent : List (CommitmentLevel × List Message)}
    (stepped : s.step action event = .ok (s', sent)) :
    (s.processedMessages ++ event.received).filter (fun message => !message.isBlock) =
      (sent.flatMap atProcessed ++ s'.processedMessages).filter (fun message => !message.isBlock) := by
  cases event with
  | message message =>
    obtain ⟨built, blocks, moved⟩ := receive_processed stepped
    rw [moved]
    -- the block built, if any, is what the filter takes out
    cases built with
    | none => rfl
    | some block =>
      have isBlock : block.isBlock = true := blocks block rfl
      simp [GeyserLoopEvent.received, List.filter_cons, isBlock]
  | processedSleep =>
    rw [step, pure_eq_ok, Prod.mk.injEq] at stepped
    obtain ⟨rfl, rfl⟩ := stepped
    rw [processedSleep_processed]
    simp [GeyserLoopEvent.received]

/-- The processed channel of the geyser loop loses nothing and makes nothing up, in every run:
the batches it sent at `Processed`, followed by what is still pending, are the messages it
received, in order, with only the blocks it built added among them; no processed batch holds
more than `PROCESSED_MESSAGES_MAX` messages, and fewer than that are ever pending. -/
theorem geyserLoop_processed_stream (action : ConfigBlockFailAction) (events : List GeyserLoopEvent)
    {s : GeyserLoopState} {out : List (CommitmentLevel × List Message)}
    (ran : geyserLoop action events = .ok (s, out)) :
    (∀ batch ∈ out, batch.1 = .processed → batch.2.length ≤ processedMessagesMax) ∧
      s.processedMessages.length < processedMessagesMax ∧
      (out.flatMap atProcessed ++ s.processedMessages).filter (fun message => !message.isBlock) =
        (events.flatMap GeyserLoopEvent.received).filter (fun message => !message.isBlock) := by
  have keeps : ∀ s event s' sent, event ∈ events → GeyserLoopState.PendingBelowMax s →
      s.step action event = .ok (s', sent) → GeyserLoopState.PendingBelowMax s' :=
    fun _ _ _ _ _ pending stepped => (GeyserLoopState.step_pendingBelowMax pending stepped).1
  have initial : GeyserLoopState.initial.PendingBelowMax := by
    simp [GeyserLoopState.PendingBelowMax, GeyserLoopState.initial, processedMessagesMax]
  refine ⟨Transducer.run_sent _ _ keeps (fun _ _ _ _ _ pending stepped =>
      (GeyserLoopState.step_pendingBelowMax pending stepped).2) initial ran,
    Transducer.run_inv _ keeps initial ran, ?_⟩
  -- the filtered pending messages are conserved, each step moving them to what it sends
  have conserved := Transducer.run_conserves (fun _ => True)
    (fun s : GeyserLoopState => s.processedMessages.filter fun message => !message.isBlock)
    (fun event => event.received.filter fun message => !message.isBlock)
    (fun batch => (atProcessed batch).filter fun message => !message.isBlock)
    (fun _ _ _ _ _ _ _ => trivial)
    (fun _ _ _ _ _ _ stepped => by
      rw [← List.filter_flatMap, ← List.filter_append, ← List.filter_append]
      exact GeyserLoopState.step_processed stepped)
    trivial ran
  rw [List.filter_append, List.filter_flatMap, List.filter_flatMap, ← conserved]
  simp [GeyserLoopState.initial]

theorem geyserLoop_processed_stream_of_built_block :
    ∃ s out, geyserLoop .panic [.message (.blockMeta ⟨7, 1, 0⟩),
        .message (.transaction ⟨⟨Bytes.FixedBytes.replicate 64 1, false, false, []⟩, 7⟩), .processedSleep] =
        .ok (s, out) ∧
      (∀ batch ∈ out, batch.1 = .processed → batch.2.length ≤ processedMessagesMax) ∧
      s.processedMessages.length < processedMessagesMax ∧
      (out.flatMap atProcessed ++ s.processedMessages).filter (fun message => !message.isBlock) =
        ([GeyserLoopEvent.message (.blockMeta ⟨7, 1, 0⟩),
          .message (.transaction ⟨⟨Bytes.FixedBytes.replicate 64 1, false, false, []⟩, 7⟩),
          .processedSleep].flatMap GeyserLoopEvent.received).filter (fun message => !message.isBlock) := by
  obtain ⟨⟨s, out⟩, ran⟩ : ∃ result, geyserLoop .panic [.message (.blockMeta ⟨7, 1, 0⟩),
      .message (.transaction ⟨⟨Bytes.FixedBytes.replicate 64 1, false, false, []⟩, 7⟩), .processedSleep] =
      .ok result := ⟨_, rfl⟩
  exact ⟨s, out, ran, geyserLoop_processed_stream .panic _ ran⟩

/-! ## Invariants of every slot being rebuilt -/

namespace GeyserLoopState

/-- `P` holds of every slot the loop is rebuilding. -/
def AllSlots (P : SlotMessages → Prop) (s : GeyserLoopState) : Prop :=
  ∀ entry ∈ s.messages.entries, P entry.2

variable {P : SlotMessages → Prop}

theorem allSlots_initial : initial.AllSlots P := fun _ member => absurd member List.not_mem_nil

theorem AllSlots.getD {s : GeyserLoopState} (holds : s.AllSlots P) (default : P SlotMessages.default) (slot : Slot) :
    P (s.messages.getD slot SlotMessages.default) := by
  unfold OrderedMap.getD
  cases found : s.messages.get? slot with
  | none => exact default
  | some slotMessages =>
    obtain ⟨_, member⟩ := OrderedMap.mem_of_get?_eq_some found
    exact holds _ member

/-- Sending a message keeps `P` of every slot, where `P` survives the commitment it marks. -/
theorem AllSlots.send {s : GeyserLoopState} (holds : s.AllSlots P) {message : Message}
    (marked : ∀ slot, message = .slot slot → ∀ slotMessages, P slotMessages →
      P (slotMessages.markCommitment slot.status)) :
    (s.send message).1.AllSlots P := by
  cases message with
  | slot slot =>
    simp only [GeyserLoopState.send, sendSlot]
    split
    · exact holds
    · intro entry member
      rcases OrderedMap.mem_modify member with kept | ⟨slotMessages, found, rfl⟩
      · exact holds entry kept
      · obtain ⟨_, member⟩ := OrderedMap.mem_of_get?_eq_some found
        exact marked slot rfl slotMessages (holds _ member)
  | _ => exact holds

theorem AllSlots.sendAll {s : GeyserLoopState} (holds : s.AllSlots P) {messages : List Message}
    (marked : ∀ slot, Message.slot slot ∈ messages → ∀ slotMessages, P slotMessages →
      P (slotMessages.markCommitment slot.status)) :
    (s.sendAll messages).1.AllSlots P := by
  induction messages generalizing s with
  | nil => exact holds
  | cons message rest ih =>
    have first : (s.send message).1.AllSlots P := holds.send fun slot same => by
      subst same
      exact marked slot List.mem_cons_self
    exact ih first fun slot member => marked slot (List.mem_cons_of_mem _ member)

theorem AllSlots.processedSleep {s : GeyserLoopState} (holds : s.AllSlots P) : s.processedSleep.1.AllSlots P := by
  unfold GeyserLoopState.processedSleep
  split
  · exact holds
  · exact holds

/-- An invariant of every slot that a fresh slot has, that a message's work on its slot keeps,
and that the commitment the message marks keeps, holds after the message. -/
theorem AllSlots.receive {action : ConfigBlockFailAction} {s s' : GeyserLoopState} {message : Message}
    {sent : List (CommitmentLevel × List Message)} (holds : s.AllSlots P) (default : P SlotMessages.default)
    (updated : ∀ slotMessages slotMessages' result, P slotMessages →
      slotMessages.record action message = .ok slotMessages' →
      slotMessages'.update action message = .ok result → P result.1)
    (marked : ∀ slot, message = .slot slot → ∀ slotMessages, P slotMessages →
      P (slotMessages.markCommitment slot.status))
    (received : s.receive action message = .ok (s', sent)) : s'.AllSlots P := by
  obtain ⟨s₁, slotMessages, ⟨slotMessages', built⟩, removed, recorded, update, result⟩ := receive_eq_ok received
  rw [Prod.mk.injEq] at result
  rw [result.1]
  have removedHolds : s₁.AllSlots P := fun entry member => holds entry ((removeOutdated_eq_ok removed).2 entry member)
  have inserted : ({ s₁ with messages := s₁.messages.insert message.getSlot slotMessages' } : GeyserLoopState).AllSlots P := by
    intro entry member
    rcases OrderedMap.mem_insert member with rfl | kept
    · exact updated _ _ _ (removedHolds.getD default _) recorded update
    · exact removedHolds entry kept
  refine inserted.sendAll fun slot member => ?_
  rcases List.mem_cons.mp member with same | isBuilt
  · exact marked slot same.symm
  · -- the block a message completes is no slot update
    have isBuilt : built = some (.slot slot) := by simpa using isBuilt
    subst isBuilt
    exact absurd (SlotMessages.isBlock_of_update update) (by simp [Message.isBlock])

theorem AllSlots.step {action : ConfigBlockFailAction} {s s' : GeyserLoopState} {event : GeyserLoopEvent}
    {sent : List (CommitmentLevel × List Message)} (holds : s.AllSlots P) (default : P SlotMessages.default)
    (updated : ∀ message ∈ event.received, ∀ slotMessages slotMessages' result, P slotMessages →
      slotMessages.record action message = .ok slotMessages' →
      slotMessages'.update action message = .ok result → P result.1)
    (marked : ∀ slot, Message.slot slot ∈ event.received → ∀ slotMessages, P slotMessages →
      P (slotMessages.markCommitment slot.status))
    (stepped : s.step action event = .ok (s', sent)) : s'.AllSlots P := by
  cases event with
  | message message =>
    exact holds.receive default (updated message List.mem_cons_self)
      (fun slot same => marked slot (same ▸ List.mem_cons_self)) stepped
  | processedSleep =>
    rw [GeyserLoopState.step, pure_eq_ok, Prod.mk.injEq] at stepped
    rw [← stepped.1]
    exact holds.processedSleep

end GeyserLoopState

/-! ## Positions within bounds -/

/-- The positions a slot keeps lie within its messages: the dedup's message indices, which
`messages[entry.1] = None` writes through, and the confirmation and finalization marks, from
which `messages[confirmed_at..]` is sliced. -/
structure SlotMessages.InBounds (this : SlotMessages) : Prop where
  dedup : ∀ pubkey entry, this.accountsDedup.lookup pubkey = some entry → entry.2 < this.messages.length
  confirmed : ∀ position ∈ this.confirmedAt, position ≤ this.messages.length
  finalized : ∀ position ∈ this.finalizedAt, position ≤ this.messages.length

namespace SlotMessages.InBounds

theorem default : SlotMessages.default.InBounds where
  dedup _ _ found := by simp [SlotMessages.default, AList.lookup_empty] at found
  confirmed _ marked := by cases marked
  finalized _ marked := by cases marked

/-- More messages, with the same positions, keep the positions in bounds. -/
theorem grow {this that : SlotMessages} (bounded : this.InBounds) (dedup : that.accountsDedup = this.accountsDedup)
    (confirmed : that.confirmedAt = this.confirmedAt) (finalized : that.finalizedAt = this.finalizedAt)
    (longer : this.messages.length ≤ that.messages.length) : that.InBounds where
  dedup pubkey entry found := Nat.lt_of_lt_of_le (bounded.dedup pubkey entry (dedup ▸ found)) longer
  confirmed position marked := Nat.le_trans (bounded.confirmed position (confirmed ▸ marked)) longer
  finalized position marked := Nat.le_trans (bounded.finalized position (finalized ▸ marked)) longer

theorem trySeal {this : SlotMessages} (bounded : this.InBounds) : this.trySeal.1.InBounds := by
  rcases trySeal_cases this with unchanged | ⟨info, -, -, -, -, sealed⟩
  · rw [unchanged]
    exact bounded
  · rw [sealed]
    exact bounded.grow rfl rfl rfl (by simp)

/-- The dedup's new entry points at the message just recorded, the last one. -/
theorem dedupAccount {this : SlotMessages} (bounded : this.InBounds) (nonempty : 0 < this.messages.length)
    (account : MessageAccount) : (this.dedupAccount account).InBounds := by
  have last : ∀ pubkey entry, (this.accountsDedup.insert account.account.pubkey
      (account.writeVersion, this.messages.length - 1)).lookup pubkey = some entry →
      entry.2 < this.messages.length := by
    intro pubkey entry found
    by_cases same : pubkey = account.account.pubkey
    · subst same
      rw [AList.lookup_insert, Option.some.injEq] at found
      rw [← found]
      exact Nat.sub_lt nonempty Nat.one_pos
    · rw [AList.lookup_insert_ne same] at found
      exact bounded.dedup pubkey entry found
  unfold SlotMessages.dedupAccount
  dsimp only
  split
  · split
    · -- blanking a message keeps the number of messages
      refine ⟨fun pubkey entry found => ?_, fun position marked => ?_, fun position marked => ?_⟩ <;>
        simp only [List.length_set]
      · exact last pubkey entry found
      · exact bounded.confirmed position marked
      · exact bounded.finalized position marked
    · exact bounded
  · exact ⟨last, bounded.confirmed, bounded.finalized⟩

theorem markCommitment {this : SlotMessages} (bounded : this.InBounds) (status : CommitmentLevel) :
    (this.markCommitment status).InBounds := by
  unfold SlotMessages.markCommitment
  split
  · exact bounded
  · split
    · exact bounded
    · exact ⟨bounded.dedup, fun position marked => le_of_eq (Option.mem_some_iff.mp marked).symm, bounded.finalized⟩
    · exact ⟨bounded.dedup, bounded.confirmed, fun position marked => le_of_eq (Option.mem_some_iff.mp marked).symm⟩

theorem record {action : ConfigBlockFailAction} {this this' : SlotMessages} {message : Message}
    (bounded : this.InBounds) (recorded : this.record action message = .ok this') : this'.InBounds := by
  rw [record_eq_ok recorded]
  split
  · exact bounded
  · exact bounded.grow rfl rfl rfl (by simp)

theorem update {action : ConfigBlockFailAction} {this this' : SlotMessages} {message : Message}
    {result : SlotMessages × Option Message} (bounded : this.InBounds)
    (recorded : this.record action message = .ok this') (updated : this'.update action message = .ok result) :
    result.1.InBounds := by
  have recordedBounded := bounded.record recorded
  rcases update_cases updated with ⟨info, rfl, rfl⟩ | ⟨transaction, rfl, rfl⟩ | ⟨account, rfl, rfl⟩ |
      ⟨entry, rfl, rfl⟩ | ⟨-, rfl⟩
  · exact trySeal (recordedBounded.grow rfl rfl rfl le_rfl)
  · exact trySeal (recordedBounded.grow rfl rfl rfl le_rfl)
  · -- an account message was just recorded
    have nonempty : 0 < this'.messages.length := by
      rw [record_eq_ok recorded]
      simp [Message.isSlot]
    exact recordedBounded.dedupAccount nonempty account
  · exact trySeal (recordedBounded.grow rfl rfl rfl le_rfl)
  · exact recordedBounded

end SlotMessages.InBounds

/-- In every state the geyser loop reaches, whatever it received and whenever its timer fired,
every position a slot keeps is within that slot's messages: the index each account's latest
write was recorded at, which `messages[entry.1] = None` writes through when a later write comes,
and where the messages stood at confirmation and finalization, from which a built block's
`messages[confirmed_at..]` and `messages[finalized_at..]` are sliced.  So neither the write
nor the slices ever go out of bounds. -/
theorem geyserLoop_indices_in_bounds (action : ConfigBlockFailAction) (events : List GeyserLoopEvent)
    {s : GeyserLoopState} {out : List (CommitmentLevel × List Message)}
    (ran : geyserLoop action events = .ok (s, out)) : s.AllSlots SlotMessages.InBounds :=
  Transducer.run_inv _ (fun _ _ _ _ _ holds stepped =>
      holds.step .default (fun _ _ _ _ _ bounded recorded updated => bounded.update recorded updated)
        (fun _ _ _ bounded => bounded.markCommitment _) stepped)
    GeyserLoopState.allSlots_initial ran

theorem geyserLoop_indices_in_bounds_of_rewritten_account :
    ∃ s out, geyserLoop .log [.message (.account ⟨⟨Bytes.FixedBytes.replicate 32 1, Bytes.FixedBytes.replicate 32 2, []⟩, 1, 3, false⟩),
        .message (.account ⟨⟨Bytes.FixedBytes.replicate 32 1, Bytes.FixedBytes.replicate 32 2, [0]⟩, 2, 3, false⟩)] =
        .ok (s, out) ∧ s.AllSlots SlotMessages.InBounds := by
  obtain ⟨⟨s, out⟩, ran⟩ : ∃ result, geyserLoop .log
      [.message (.account ⟨⟨Bytes.FixedBytes.replicate 32 1, Bytes.FixedBytes.replicate 32 2, []⟩, 1, 3, false⟩),
        .message (.account ⟨⟨Bytes.FixedBytes.replicate 32 1, Bytes.FixedBytes.replicate 32 2, [0]⟩, 2, 3, false⟩)] =
      .ok result := ⟨_, rfl⟩
  exact ⟨s, out, ran, geyserLoop_indices_in_bounds .log _ ran⟩

/-! ## On what the validator sends -/

/-- A slot without block meta, not built, and not seen finalized. -/
structure SlotMessages.Unbuilt (this : SlotMessages) : Prop where
  noBlockMeta : this.blockMeta = none
  notSealed : this.sealed = false
  notFinalized : this.finalizedAt = none

namespace SlotMessages

theorem record_isOk (action : ConfigBlockFailAction) {this : SlotMessages} (unsealed : this.sealed = false)
    (message : Message) : ∃ this', this.record action message = .ok this' := by
  unfold record
  split
  · exact ⟨this, rfl⟩
  · exact ⟨{ this with messages := this.messages ++ [some message] }, by simp [unsealed]⟩

/-- Only a second block meta can fail a slot's update. -/
theorem update_isOk (action : ConfigBlockFailAction) {this : SlotMessages} (noMeta : this.blockMeta = none)
    (message : Message) : ∃ result, this.update action message = .ok result := by
  cases message with
  | blockMeta info => exact ⟨{ this with blockMeta := some info }.trySeal, by simp [update, noMeta]⟩
  | _ => exact ⟨_, rfl⟩

theorem dedupAccount_keeps (this : SlotMessages) (account : MessageAccount) :
    (this.dedupAccount account).blockMeta = this.blockMeta ∧ (this.dedupAccount account).sealed = this.sealed ∧
      (this.dedupAccount account).finalizedAt = this.finalizedAt := by
  unfold dedupAccount
  dsimp only
  split
  · split
    · exact ⟨rfl, rfl, rfl⟩
    · exact ⟨rfl, rfl, rfl⟩
  · exact ⟨rfl, rfl, rfl⟩

namespace Unbuilt

theorem default : SlotMessages.default.Unbuilt := ⟨rfl, rfl, rfl⟩

/-- A message that leaves slots unbuilt keeps its slot unbuilt and completes no block. -/
theorem update {action : ConfigBlockFailAction} {this this' : SlotMessages} {message : Message}
    {result : SlotMessages × Option Message} (unbuilt : this.Unbuilt) (leaves : message.leavesUnbuilt = true)
    (recorded : this.record action message = .ok this') (updated : this'.update action message = .ok result) :
    result.1.Unbuilt ∧ result.2 = none := by
  have recordedUnbuilt : this'.Unbuilt := by
    rw [record_eq_ok recorded]
    split
    · exact unbuilt
    · exact ⟨unbuilt.noBlockMeta, unbuilt.notSealed, unbuilt.notFinalized⟩
  obtain ⟨noMeta, unsealed, unfinalized⟩ := recordedUnbuilt
  rcases update_cases updated with ⟨info, rfl, -⟩ | ⟨transaction, rfl, rfl⟩ | ⟨account, rfl, rfl⟩ |
      ⟨entry, rfl, rfl⟩ | ⟨-, rfl⟩
  · cases leaves
  · -- without block meta there is nothing to seal
    rw [trySeal_of_blockMeta_none]
    · exact ⟨⟨noMeta, unsealed, unfinalized⟩, rfl⟩
    · exact noMeta
  · obtain ⟨keptMeta, keptSealed, keptFinalized⟩ := dedupAccount_keeps this' account
    exact ⟨⟨keptMeta.trans noMeta, keptSealed.trans unsealed, keptFinalized.trans unfinalized⟩, rfl⟩
  · rw [trySeal_of_blockMeta_none]
    · exact ⟨⟨noMeta, unsealed, unfinalized⟩, rfl⟩
    · exact noMeta
  · exact ⟨⟨noMeta, unsealed, unfinalized⟩, rfl⟩

theorem markCommitment {this : SlotMessages} (unbuilt : this.Unbuilt) {status : CommitmentLevel}
    (notFinal : status ≠ .finalized) : (this.markCommitment status).Unbuilt := by
  unfold SlotMessages.markCommitment
  rw [if_neg (by simp [unbuilt.notSealed])]
  cases status with
  | processed => exact unbuilt
  | confirmed => exact ⟨unbuilt.noBlockMeta, unbuilt.notSealed, unbuilt.notFinalized⟩
  | finalized => exact absurd rfl notFinal

end Unbuilt

end SlotMessages

namespace GeyserLoopState

/-- Dropping outdated slots fails only on a slot finalized and not built. -/
theorem removeOutdated_isOk (action : ConfigBlockFailAction) {s : GeyserLoopState}
    (unbuilt : s.AllSlots SlotMessages.Unbuilt) (message : Message) : ∃ s', s.removeOutdated action message = .ok s' := by
  unfold removeOutdated
  split
  case h_1 msg =>
    split
    · exact ⟨_, rfl⟩
    · split
      · -- no slot dropped was finalized, so no check fails
        have checked : (s.messages.below (msg.slot - 80)).forM
            (fun entry => checkDropped action s.processedFirstSlot entry.1 entry.2) = .ok () := by
          rw [forM_eq_ok]
          intro entry member
          have unfinalized := (unbuilt entry (OrderedMap.mem_below.mp member).1).notFinalized
          unfold checkDropped
          split
          · rfl
          · split
            · rfl
            · simp [unfinalized]
        exact ⟨_, by rw [checked]; rfl⟩
      · exact ⟨_, rfl⟩
  case h_2 => exact ⟨_, rfl⟩

theorem receive_isOk (action : ConfigBlockFailAction) {s : GeyserLoopState} (unbuilt : s.AllSlots SlotMessages.Unbuilt)
    (message : Message) : ∃ result, s.receive action message = .ok result := by
  obtain ⟨s₁, removed⟩ := removeOutdated_isOk action unbuilt message
  have removedUnbuilt : s₁.AllSlots SlotMessages.Unbuilt :=
    fun entry member => unbuilt entry ((removeOutdated_eq_ok removed).2 entry member)
  have fresh := removedUnbuilt.getD SlotMessages.Unbuilt.default message.getSlot
  obtain ⟨slotMessages, recorded⟩ := SlotMessages.record_isOk action fresh.notSealed message
  have recordedMeta : slotMessages.blockMeta = none := by
    rw [SlotMessages.record_eq_ok recorded]
    split <;> exact fresh.noBlockMeta
  obtain ⟨updated, update⟩ := SlotMessages.update_isOk action recordedMeta message
  exact ⟨sendAll { s₁ with messages := s₁.messages.insert message.getSlot updated.1 } (message :: updated.2.toList),
    by simp only [receive, removed, recorded, update, ok_bind]; rfl⟩

/-- From unbuilt slots, a message that leaves them unbuilt goes out at `Processed` on its own. -/
theorem receive_processed_of_unbuilt {action : ConfigBlockFailAction} {s s' : GeyserLoopState} {message : Message}
    {sent : List (CommitmentLevel × List Message)} (unbuilt : s.AllSlots SlotMessages.Unbuilt)
    (leaves : message.leavesUnbuilt = true) (received : s.receive action message = .ok (s', sent)) :
    sent.flatMap atProcessed ++ s'.processedMessages = s.processedMessages ++ [message] := by
  obtain ⟨s₁, slotMessages, ⟨slotMessages', built⟩, removed, recorded, update, result⟩ := receive_eq_ok received
  have removedUnbuilt : s₁.AllSlots SlotMessages.Unbuilt :=
    fun entry member => unbuilt entry ((removeOutdated_eq_ok removed).2 entry member)
  have noBlock : built = none :=
    (SlotMessages.Unbuilt.update (removedUnbuilt.getD .default _) leaves recorded update).2
  rw [Prod.mk.injEq] at result
  rw [result.1, result.2, sendAll_processed, (removeOutdated_eq_ok removed).1, noBlock]
  rfl

end GeyserLoopState

/-- What the plugin sends leaves every slot unbuilt, unless a call reports a slot rooted. -/
theorem GeyserPluginCall.leavesUnbuilt_of_sent {pluginCall : GeyserPluginCall} (notRooted : pluginCall.rootsSlot = false) :
    ∀ message ∈ pluginCall.sent, message.leavesUnbuilt = true := by
  intro message sent
  cases pluginCall with
  | updateAccount account writeVersion slot isStartup =>
    rw [GeyserPluginCall.sent] at sent
    split at sent
    · cases sent
    · rw [List.mem_singleton.mp sent]
      rfl
  | updateSlotStatus slot parent status =>
    rw [GeyserPluginCall.sent, List.mem_singleton] at sent
    subst sent
    cases status with
    | processed => rfl
    | confirmed => rfl
    | rooted => cases notRooted
  | notifyTransaction transaction slot =>
    rw [GeyserPluginCall.sent, List.mem_singleton] at sent
    subst sent
    rfl
  | notifyEntry entry => cases sent
  | notifyBlockMetadata info => cases sent

theorem PluginEvent.received_toLoop (event : PluginEvent) :
    event.toLoop.flatMap GeyserLoopEvent.received = event.sent := by
  cases event with
  | call pluginCall => simp [PluginEvent.toLoop, PluginEvent.sent, GeyserLoopEvent.received, List.flatMap_map]
  | processedSleep => rfl

/-- On everything the validator's plugin sends, interleaved with the timer in any way, and
whichever `ConfigBlockFailAction` is set, the geyser loop never panics and builds no block:
what it sends at `Processed`, followed by what is still pending, is exactly what the plugin
sent, in order.  The bank reports its slots through `notifySlotStatus`, as processed, so no
call it makes reports a slot rooted. -/
theorem geyserLoop_validator_never_panics (action : ConfigBlockFailAction) (events : List PluginEvent)
    (noRoot : ∀ event ∈ events, event.rootsSlot = false) :
    ∃ s out, geyserLoop action (events.flatMap PluginEvent.toLoop) = .ok (s, out) ∧
      out.flatMap atProcessed ++ s.processedMessages = events.flatMap PluginEvent.sent := by
  -- every message that reaches the loop leaves every slot unbuilt
  have leaves : ∀ event ∈ events.flatMap PluginEvent.toLoop, ∀ message ∈ event.received,
      message.leavesUnbuilt = true := by
    intro loopEvent member message received
    obtain ⟨event, eventMember, fromEvent⟩ := List.mem_flatMap.mp member
    cases event with
    | call pluginCall =>
      obtain ⟨sentMessage, sentMember, rfl⟩ := List.mem_map.mp fromEvent
      rw [GeyserLoopEvent.received, List.mem_singleton] at received
      subst received
      exact GeyserPluginCall.leavesUnbuilt_of_sent (noRoot _ eventMember) _ sentMember
    | processedSleep =>
      rw [PluginEvent.toLoop, List.mem_singleton] at fromEvent
      subst fromEvent
      cases received
  have keeps : ∀ (s : GeyserLoopState) event (s' : GeyserLoopState) sent, event ∈ events.flatMap PluginEvent.toLoop →
      s.AllSlots SlotMessages.Unbuilt → s.step action event = .ok (s', sent) → s'.AllSlots SlotMessages.Unbuilt :=
    fun _ event _ _ member unbuilt stepped => unbuilt.step .default
      (fun message received _ _ _ fresh recorded updated =>
        (fresh.update (leaves event member message received) recorded updated).1)
      (fun slot received _ fresh => fresh.markCommitment (by
        simpa [Message.leavesUnbuilt] using leaves event member _ received))
      stepped
  obtain ⟨⟨s, out⟩, ran⟩ := Transducer.run_isOk _ keeps (fun s event _ unbuilt => by
      cases event with
      | message message => exact GeyserLoopState.receive_isOk action unbuilt message
      | processedSleep => exact ⟨_, rfl⟩) GeyserLoopState.allSlots_initial
  refine ⟨s, out, ran, ?_⟩
  have conserved := Transducer.run_conserves _ GeyserLoopState.processedMessages GeyserLoopEvent.received
    atProcessed keeps (fun s event s' sent member unbuilt stepped => by
      cases event with
      | message message =>
        exact (GeyserLoopState.receive_processed_of_unbuilt unbuilt
          (leaves _ member message List.mem_cons_self) stepped).symm
      | processedSleep =>
        rw [GeyserLoopState.step, pure_eq_ok, Prod.mk.injEq] at stepped
        obtain ⟨rfl, rfl⟩ := stepped
        simpa [GeyserLoopEvent.received] using (GeyserLoopState.processedSleep_processed s).symm)
    GeyserLoopState.allSlots_initial ran
  rw [← conserved, List.flatMap_assoc]
  simp [GeyserLoopState.initial, PluginEvent.received_toLoop]

theorem geyserLoop_validator_never_panics_of_one_slot :
    ∃ s out, geyserLoop .panic ([PluginEvent.call (notifySlotStatus 5 (some 4)),
        .call (.notifyTransaction ⟨Bytes.FixedBytes.replicate 64 1, false, false, []⟩ 5), .processedSleep].flatMap
          PluginEvent.toLoop) = .ok (s, out) ∧
      out.flatMap atProcessed ++ s.processedMessages =
        [PluginEvent.call (notifySlotStatus 5 (some 4)),
          .call (.notifyTransaction ⟨Bytes.FixedBytes.replicate 64 1, false, false, []⟩ 5), .processedSleep].flatMap
          PluginEvent.sent :=
  geyserLoop_validator_never_panics .panic _ (by decide)

end Grpc

end EphemeralValidator.Geyser
