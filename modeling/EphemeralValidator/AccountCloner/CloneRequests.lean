import Mathlib.Data.List.Perm.Basic
import EphemeralValidator.Solana.Account

/-! # Deduplicated clone requests

`RemoteAccountClonerClient::clone_account` and the worker's `process_clone_request` share
`clone_listeners`, a map from pubkey to the oneshot senders waiting for a clone of it.  A
call that finds no entry creates one with its sender and, after releasing the lock, sends
the pubkey on the request channel; a call that finds an entry only adds its sender.  The
worker takes up to 100 requests with `recv_many`, runs them with `join_all`, and each
request, once its `do_clone_or_use_cache` has returned, removes the entry and sends the
result to every sender in it.

The state below is that of the whole system: the map, the channel, the batch the worker
is running, the results the receivers got, and where each `clone_account` call is.  An
action is one atomic step of a call or of the worker; a run is any list of them.  Every
sender is identified by the index of the call that created it, and the result of a clone
is whatever the action says, so a run covers every outcome of `do_clone_or_use_cache`.

Along every run each pubkey with an entry has exactly one request on its way (sent, queued
or running), each registered sender waits in the entry of its pubkey until that request
delivers, and then has exactly one result (`clone_listeners_track_requests`).
-/

namespace EphemeralValidator.AccountCloner

open EphemeralValidator.Solana

/-- Where a `clone_account` call is: not made yet, between registering its sender and
sending the request (the call that created the entry), or waiting on its receiver. -/
inductive CallPhase where
  | start
  | sending
  | waiting
  deriving DecidableEq

structure CloneCall where
  pubkey : Pubkey
  phase : CallPhase
  deriving DecidableEq

/-- The `entry(pubkey)` match of `clone_account`: whether to request a clone, and the map
with the sender added. -/
def registerListener (listeners : Pubkey → Option (List Nat)) (pubkey : Pubkey) (sender : Nat) :
    Bool × (Pubkey → Option (List Nat)) :=
  match listeners pubkey with
  | none => (true, Function.update listeners pubkey (some [sender]))
  | some senders => (false, Function.update listeners pubkey (some (senders ++ [sender])))

/-- The `entry(pubkey)` match of `process_clone_request`: the senders and the map without
them, or `none` for a vacant entry ("Clone listeners were discarded improperly"). -/
def takeListeners (listeners : Pubkey → Option (List Nat)) (pubkey : Pubkey) :
    Option (List Nat) × (Pubkey → Option (List Nat)) :=
  match listeners pubkey with
  | none => (none, listeners)
  | some senders => (some senders, Function.update listeners pubkey none)

/-- The clients and the worker: `clone_listeners`, the request channel, the batch of
`join_all`, the `(sender, result)` pairs the receivers got, and the calls. -/
structure Cloner (R : Type) where
  cloneListeners : Pubkey → Option (List Nat)
  cloneRequests : List Pubkey
  batch : List Pubkey
  received : List (Nat × R)
  calls : List CloneCall

/-- One atomic step of a call or of the worker. -/
inductive Action (R : Type) where
  | cloneAccount (caller : Nat)
  | sendCloneRequest (caller : Nat)
  | recvMany
  | processCloneRequest (index : Nat) (result : R)

namespace Cloner

variable {R : Type}

/-- A fresh worker, and a `clone_account` call not yet made for each pubkey. -/
def new (pubkeys : List Pubkey) : Cloner R :=
  ⟨fun _ => none, [], [], [], pubkeys.map fun pubkey => ⟨pubkey, .start⟩⟩

/-- `clone_account` up to the release of the write lock. -/
def cloneAccount (s : Cloner R) (caller : Nat) : Option (Cloner R) :=
  match s.calls[caller]? with
  | some call =>
    if call.phase = .start then
      let registered := registerListener s.cloneListeners call.pubkey caller
      some { s with
        cloneListeners := registered.2
        calls := s.calls.set caller { call with phase := if registered.1 then .sending else .waiting } }
    else none
  | none => none

/-- `clone_request_sender.send(pubkey)`, which succeeds while the worker runs. -/
def sendCloneRequest (s : Cloner R) (caller : Nat) : Option (Cloner R) :=
  match s.calls[caller]? with
  | some call =>
    if call.phase = .sending then
      some { s with
        cloneRequests := s.cloneRequests ++ [call.pubkey]
        calls := s.calls.set caller { call with phase := .waiting } }
    else none
  | none => none

/-- `recv_many(&mut requests, 100)`, once `join_all` has finished the previous batch. -/
def recvMany (s : Cloner R) : Option (Cloner R) :=
  if s.batch = [] ∧ s.cloneRequests ≠ [] then
    some { s with batch := s.cloneRequests.take 100, cloneRequests := s.cloneRequests.drop 100 }
  else none

/-- `process_clone_request` from the end of its `await`, the clone having given `result`. -/
def processCloneRequest (s : Cloner R) (index : Nat) (result : R) : Option (Cloner R) :=
  match s.batch[index]? with
  | some pubkey =>
    let taken := takeListeners s.cloneListeners pubkey
    some { s with
      cloneListeners := taken.2
      batch := s.batch.eraseIdx index
      received := s.received ++ (taken.1.getD []).map fun sender => (sender, result) }
  | none => none

/-- One action; `none` where it cannot happen. -/
def step (s : Cloner R) : Action R → Option (Cloner R)
  | .cloneAccount caller => s.cloneAccount caller
  | .sendCloneRequest caller => s.sendCloneRequest caller
  | .recvMany => s.recvMany
  | .processCloneRequest index result => s.processCloneRequest index result

def run (s : Cloner R) (actions : List (Action R)) : Option (Cloner R) :=
  actions.foldlM step s

/-- The requests for a pubkey on their way: about to be sent, queued, or running. -/
def pendingRequests (s : Cloner R) (pubkey : Pubkey) : Nat :=
  s.calls.countP (fun call => call.phase = .sending ∧ call.pubkey = pubkey) +
    s.cloneRequests.count pubkey + s.batch.count pubkey

/-- The sender of call `caller` waits in the entry of `pubkey`. -/
def Listed (s : Cloner R) (pubkey : Pubkey) (caller : Nat) : Prop :=
  caller ∈ (s.cloneListeners pubkey).getD []

/-- The results the receiver of call `caller` got. -/
def receivedCount (s : Cloner R) (caller : Nat) : Nat :=
  s.received.countP fun delivery => delivery.1 = caller

/-! ## What each action does -/

/-- A call that registers adds its sender to the entry of its pubkey, and goes on to send
the request exactly when there was no entry. -/
theorem cloneAccount_eq_some {s s' : Cloner R} {caller : Nat} (h : s.cloneAccount caller = some s') :
    ∃ call, s.calls[caller]? = some call ∧ call.phase = .start ∧
      s' = { s with
        cloneListeners := Function.update s.cloneListeners call.pubkey
          (some ((s.cloneListeners call.pubkey).getD [] ++ [caller]))
        calls := s.calls.set caller
          { call with phase := if (s.cloneListeners call.pubkey).isSome then .waiting else .sending } } := by
  unfold cloneAccount at h
  cases found : s.calls[caller]? with
  | none => simp [found] at h
  | some call =>
    simp only [found] at h
    by_cases start : call.phase = .start
    · refine ⟨call, rfl, start, ?_⟩
      simp only [start, if_true, Option.some.injEq] at h
      subst h
      cases entry : s.cloneListeners call.pubkey with
      | none => simp [registerListener, entry]
      | some senders => simp [registerListener, entry]
    · simp [start] at h

theorem sendCloneRequest_eq_some {s s' : Cloner R} {caller : Nat} (h : s.sendCloneRequest caller = some s') :
    ∃ call, s.calls[caller]? = some call ∧ call.phase = .sending ∧
      s' = { s with
        cloneRequests := s.cloneRequests ++ [call.pubkey]
        calls := s.calls.set caller { call with phase := .waiting } } := by
  unfold sendCloneRequest at h
  cases found : s.calls[caller]? with
  | none => simp [found] at h
  | some call =>
    simp only [found] at h
    by_cases sending : call.phase = .sending
    · simp only [sending, if_true, Option.some.injEq] at h
      exact ⟨call, rfl, sending, h.symm⟩
    · simp [sending] at h

theorem recvMany_eq_some {s s' : Cloner R} (h : s.recvMany = some s') :
    s.batch = [] ∧ s.cloneRequests ≠ [] ∧
      s' = { s with batch := s.cloneRequests.take 100, cloneRequests := s.cloneRequests.drop 100 } := by
  unfold recvMany at h
  split at h
  · next ready => exact ⟨ready.1, ready.2, (Option.some.inj h).symm⟩
  · cases h

theorem processCloneRequest_eq_some {s s' : Cloner R} {index : Nat} {result : R}
    (h : s.processCloneRequest index result = some s') :
    ∃ pubkey, s.batch[index]? = some pubkey ∧
      ((s.cloneListeners pubkey = none ∧ s' = { s with batch := s.batch.eraseIdx index }) ∨
        ∃ senders, s.cloneListeners pubkey = some senders ∧
          s' = { s with
            cloneListeners := Function.update s.cloneListeners pubkey none
            batch := s.batch.eraseIdx index
            received := s.received ++ senders.map fun sender => (sender, result) }) := by
  unfold processCloneRequest at h
  cases found : s.batch[index]? with
  | none => simp [found] at h
  | some pubkey =>
    simp only [found, Option.some.injEq] at h
    subst h
    refine ⟨pubkey, rfl, ?_⟩
    cases entry : s.cloneListeners pubkey with
    | none => exact .inl ⟨rfl, by simp [takeListeners, entry]⟩
    | some senders => exact .inr ⟨senders, rfl, by simp [takeListeners, entry]⟩

/-! ## The invariant -/

/-- What every run keeps: each pubkey with an entry has exactly one request on its way and
one without has none; each registered sender waits once in the entry of its call's pubkey
or has had exactly one result. -/
structure Tracked (s : Cloner R) : Prop where
  pending : ∀ pubkey, s.pendingRequests pubkey = if (s.cloneListeners pubkey).isSome then 1 else 0
  nodup : ∀ pubkey, ((s.cloneListeners pubkey).getD []).Nodup
  listed : ∀ pubkey caller, s.Listed pubkey caller →
    ∃ call, s.calls[caller]? = some call ∧ call.pubkey = pubkey ∧ call.phase ≠ .start
  unregistered : ∀ caller call, s.calls[caller]? = some call → call.phase = .start →
    s.receivedCount caller = 0
  served : ∀ caller call, s.calls[caller]? = some call → call.phase ≠ .start →
    (s.Listed call.pubkey caller ∧ s.receivedCount caller = 0) ∨
      (¬ s.Listed call.pubkey caller ∧ s.receivedCount caller = 1)

private theorem getElem?_set_of_getElem? {calls : List CloneCall} {caller : Nat} {call : CloneCall}
    (found : calls[caller]? = some call) (call' : CloneCall) (k : Nat) :
    (calls.set caller call')[k]? = if caller = k then some call' else calls[k]? := by
  simp [List.getElem?_set, (List.getElem?_eq_some_iff.mp found).1]

/-- Replacing the call at `caller` moves a count over the calls by what it changes there. -/
private theorem countP_set_of_getElem? {calls : List CloneCall} {caller : Nat} {call : CloneCall}
    (found : calls[caller]? = some call) (call' : CloneCall) (P : CloneCall → Bool) :
    (calls.set caller call').countP P + (if P call then 1 else 0) =
      calls.countP P + (if P call' then 1 else 0) := by
  obtain ⟨bound, rfl⟩ := List.getElem?_eq_some_iff.mp found
  rw [List.countP_set bound]
  have atLeast : (if P calls[caller] then 1 else 0) ≤ calls.countP P := by
    split
    · next holds => exact List.countP_pos_iff.mpr ⟨_, List.getElem_mem bound, holds⟩
    · exact Nat.zero_le _
  omega

theorem Tracked.new (pubkeys : List Pubkey) : (Cloner.new pubkeys : Cloner R).Tracked where
  pending pubkey := by simp [Cloner.new, pendingRequests]
  nodup _ := List.nodup_nil
  listed _ _ listed := nomatch listed
  unregistered _ _ _ _ := rfl
  served caller call found registered := by
    simp only [Cloner.new, List.getElem?_map, Option.map_eq_some_iff] at found
    obtain ⟨_, _, rfl⟩ := found
    exact (registered rfl).elim

/-- A registering call adds a pending request for its pubkey exactly when it found no entry. -/
private theorem pendingRequests_cloneAccount {s : Cloner R} {caller : Nat} {call : CloneCall}
    (found : s.calls[caller]? = some call) (start : call.phase = .start) (pubkey : Pubkey) :
    pendingRequests { s with
        cloneListeners := Function.update s.cloneListeners call.pubkey
          (some ((s.cloneListeners call.pubkey).getD [] ++ [caller]))
        calls := s.calls.set caller
          { call with phase := if (s.cloneListeners call.pubkey).isSome then .waiting else .sending } }
        pubkey =
      s.pendingRequests pubkey +
        if pubkey = call.pubkey ∧ s.cloneListeners call.pubkey = none then 1 else 0 := by
  have moved := countP_set_of_getElem? found
    { call with phase := if (s.cloneListeners call.pubkey).isSome then .waiting else .sending }
    (fun c => decide (c.phase = .sending ∧ c.pubkey = pubkey))
  unfold pendingRequests
  dsimp only
  cases entry : s.cloneListeners call.pubkey with
  | none =>
    by_cases same : pubkey = call.pubkey
    · subst same
      simp [start, entry] at moved ⊢
      omega
    · simp [start, entry, same, Ne.symm same] at moved ⊢
      omega
  | some senders =>
    simp [start, entry] at moved ⊢
    omega

theorem Tracked.cloneAccount {s s' : Cloner R} {caller : Nat} (t : s.Tracked)
    (h : s.cloneAccount caller = some s') : s'.Tracked := by
  obtain ⟨call, found, start, rfl⟩ := cloneAccount_eq_some h
  -- the caller's sender is in no entry yet
  have fresh : ∀ pubkey, ¬ s.Listed pubkey caller := by
    intro pubkey listed
    obtain ⟨c, f, -, registered⟩ := t.listed pubkey caller listed
    rw [found, Option.some.injEq] at f
    exact registered (f ▸ start)
  -- every other sender is where it was
  have others : ∀ pubkey sender, sender ≠ caller →
      (sender ∈ (Function.update s.cloneListeners call.pubkey
        (some ((s.cloneListeners call.pubkey).getD [] ++ [caller])) pubkey).getD [] ↔
        s.Listed pubkey sender) := by
    intro pubkey sender other
    by_cases same : pubkey = call.pubkey
    · subst same
      simp [Listed, other]
    · simp [Listed, Function.update_of_ne same]
  have callerListed : caller ∈ (Function.update s.cloneListeners call.pubkey
      (some ((s.cloneListeners call.pubkey).getD [] ++ [caller])) call.pubkey).getD [] := by
    simp
  constructor
  · intro pubkey
    rw [pendingRequests_cloneAccount found start, t.pending pubkey]
    by_cases same : pubkey = call.pubkey
    · subst same
      cases s.cloneListeners call.pubkey <;> simp
    · simp [same]
  · intro pubkey
    by_cases same : pubkey = call.pubkey
    · subst same
      simp only [Function.update_self, Option.getD_some]
      exact List.nodup_append.mpr ⟨t.nodup _, List.nodup_singleton _,
        fun a mem b last => by
          rw [List.mem_singleton.mp last]
          rintro rfl
          exact fresh _ mem⟩
    · simpa [Function.update_of_ne same] using t.nodup pubkey
  · intro pubkey sender listed
    by_cases isCaller : sender = caller
    · subst isCaller
      have onlyEntry : pubkey = call.pubkey := by
        by_contra other
        simp only [Listed, Function.update_of_ne other] at listed
        exact fresh _ listed
      subst onlyEntry
      refine ⟨{ call with phase := if (s.cloneListeners call.pubkey).isSome then .waiting else .sending },
        by simp [getElem?_set_of_getElem? found], rfl, ?_⟩
      split <;> nofun
    · obtain ⟨c, f, keyed, registered⟩ := t.listed pubkey sender ((others pubkey sender isCaller).mp listed)
      exact ⟨c, by simp [getElem?_set_of_getElem? found, Ne.symm isCaller, f], keyed, registered⟩
  · intro sender c f unstarted
    rw [getElem?_set_of_getElem? found] at f
    by_cases isCaller : caller = sender
    · simp only [isCaller, if_true, Option.some.injEq] at f
      subst f
      split at unstarted <;> cases unstarted
    · simp only [isCaller, if_false] at f
      exact t.unregistered sender c f unstarted
  · intro sender c f registered
    rw [getElem?_set_of_getElem? found] at f
    by_cases isCaller : caller = sender
    · simp only [isCaller, if_true, Option.some.injEq] at f
      subst f isCaller
      exact .inl ⟨callerListed, t.unregistered caller call found start⟩
    · simp only [isCaller, if_false] at f
      have transfer := others c.pubkey sender (Ne.symm isCaller)
      rcases t.served sender c f registered with ⟨listed, none⟩ | ⟨unlisted, one⟩
      · exact .inl ⟨transfer.mpr listed, none⟩
      · exact .inr ⟨fun listed => unlisted (transfer.mp listed), one⟩

theorem Tracked.sendCloneRequest {s s' : Cloner R} {caller : Nat} (t : s.Tracked)
    (h : s.sendCloneRequest caller = some s') : s'.Tracked := by
  obtain ⟨call, found, sending, rfl⟩ := sendCloneRequest_eq_some h
  have registered : call.phase ≠ .start := by rw [sending]; nofun
  -- the request moves from the call to the channel
  have same : ∀ pubkey, pendingRequests { s with
      cloneRequests := s.cloneRequests ++ [call.pubkey]
      calls := s.calls.set caller { call with phase := .waiting } } pubkey = s.pendingRequests pubkey := by
    intro pubkey
    have moved := countP_set_of_getElem? found { call with phase := .waiting }
      (fun c => decide (c.phase = .sending ∧ c.pubkey = pubkey))
    unfold pendingRequests
    dsimp only
    by_cases mine : call.pubkey = pubkey
    · simp [sending, mine] at moved ⊢
      omega
    · simp [sending, mine] at moved ⊢
      omega
  refine ⟨fun pubkey => (same pubkey).trans (t.pending pubkey), t.nodup, ?_, ?_, ?_⟩
  · intro pubkey sender listed
    obtain ⟨c, f, keyed, started⟩ := t.listed pubkey sender listed
    by_cases isCaller : caller = sender
    · subst isCaller
      rw [found, Option.some.injEq] at f
      subst f
      exact ⟨{ call with phase := .waiting }, by simp [getElem?_set_of_getElem? found], keyed, nofun⟩
    · exact ⟨c, by simp [getElem?_set_of_getElem? found, isCaller, f], keyed, started⟩
  · intro sender c f unstarted
    rw [getElem?_set_of_getElem? found] at f
    split at f
    · cases f
      cases unstarted
    · exact t.unregistered sender c f unstarted
  · intro sender c f started
    rw [getElem?_set_of_getElem? found] at f
    split at f
    · next isCaller =>
      cases f
      subst isCaller
      exact t.served caller call found registered
    · exact t.served sender c f started

theorem Tracked.recvMany {s s' : Cloner R} (t : s.Tracked) (h : s.recvMany = some s') : s'.Tracked := by
  obtain ⟨idle, -, rfl⟩ := recvMany_eq_some h
  refine ⟨fun pubkey => ?_, t.nodup, t.listed, t.unregistered, t.served⟩
  rw [← t.pending pubkey]
  unfold pendingRequests
  dsimp only
  rw [idle, List.count_nil]
  -- the requests taken keep their count, between the channel and the batch
  have split : (s.cloneRequests.take 100 ++ s.cloneRequests.drop 100).count pubkey =
      (s.cloneRequests.take 100).count pubkey + (s.cloneRequests.drop 100).count pubkey :=
    List.count_append
  rw [List.take_append_drop] at split
  omega

private theorem count_eraseIdx_of_getElem? {batch : List Pubkey} {index : Nat} {pubkey : Pubkey}
    (found : batch[index]? = some pubkey) (other : Pubkey) :
    (batch.eraseIdx index).count other + (if pubkey = other then 1 else 0) = batch.count other := by
  obtain ⟨bound, rfl⟩ := List.getElem?_eq_some_iff.mp found
  rw [← (List.getElem_cons_eraseIdx_perm bound).count_eq, List.count_cons]
  simp

private theorem countP_deliver (received : List (Nat × R)) (senders : List Nat) (result : R)
    (caller : Nat) :
    (received ++ senders.map fun sender => (sender, result)).countP (fun delivery => delivery.1 = caller) =
      received.countP (fun delivery => delivery.1 = caller) + senders.count caller := by
  rw [List.countP_append, List.countP_map, List.count_eq_countP]
  congr 2

/-- A request the worker runs has its entry in the map. -/
theorem Tracked.listeners_of_mem_batch {s : Cloner R} (t : s.Tracked) {pubkey : Pubkey}
    (running : pubkey ∈ s.batch) : ∃ senders, s.cloneListeners pubkey = some senders := by
  have pending := t.pending pubkey
  have counted : 0 < s.batch.count pubkey := List.count_pos_iff.mpr running
  cases entry : s.cloneListeners pubkey with
  | none =>
    simp only [entry, Option.isSome_none, Bool.false_eq_true, if_false, pendingRequests] at pending
    omega
  | some senders => exact ⟨senders, rfl⟩

theorem Tracked.processCloneRequest {s s' : Cloner R} {index : Nat} {result : R} (t : s.Tracked)
    (h : s.processCloneRequest index result = some s') : s'.Tracked := by
  obtain ⟨pubkey, found, ⟨vacant, rfl⟩ | ⟨senders, entry, rfl⟩⟩ := processCloneRequest_eq_some h
  · obtain ⟨senders, entry⟩ := t.listeners_of_mem_batch (List.mem_of_getElem? found)
    rw [entry] at vacant
    cases vacant
  -- the entry goes, and with it the one request on its way
  have listedIff : ∀ other sender, sender ∈ (Function.update s.cloneListeners pubkey none other).getD [] ↔
      other ≠ pubkey ∧ s.Listed other sender := by
    intro other sender
    by_cases same : other = pubkey
    · subst same
      simp
    · simp [same, Listed]
  have delivered : ∀ sender, (s.received ++ senders.map fun sender => (sender, result)).countP
      (fun delivery => delivery.1 = sender) = s.receivedCount sender + if sender ∈ senders then 1 else 0 := by
    intro sender
    have nodup := t.nodup pubkey
    rw [entry, Option.getD_some] at nodup
    rw [countP_deliver, receivedCount]
    split
    · next mem => rw [List.count_eq_one_of_mem nodup mem]
    · next notMem => rw [List.count_eq_zero_of_not_mem notMem]
  have listedSender : ∀ sender, sender ∈ senders → s.Listed pubkey sender := by
    intro sender mem
    simp [Listed, entry, mem]
  refine ⟨fun other => ?_, fun other => ?_, fun other sender listed => ?_, fun sender c f unstarted => ?_,
    fun sender c f started => ?_⟩
  · have removed := count_eraseIdx_of_getElem? found other
    have old := t.pending other
    unfold pendingRequests at old ⊢
    dsimp only
    by_cases same : other = pubkey
    · subst same
      simp only [entry, Option.isSome_some, if_true] at old removed
      simp only [Function.update_self, Option.isSome_none, Bool.false_eq_true, if_false]
      omega
    · simp only [Function.update_of_ne same, Ne.symm same, if_false] at removed ⊢
      omega
  · by_cases same : other = pubkey
    · subst same
      simp
    · simpa [Function.update_of_ne same] using t.nodup other
  · exact t.listed other sender ((listedIff other sender).mp listed).2
  · have notMem : sender ∉ senders := fun mem => by
      obtain ⟨c', f', -, started⟩ := t.listed pubkey sender (listedSender sender mem)
      rw [f, Option.some.injEq] at f'
      exact started (f' ▸ unstarted)
    show (s.received ++ senders.map fun sender => (sender, result)).countP _ = 0
    rw [delivered, if_neg notMem, t.unregistered sender c f unstarted]
  · show (_ ∧ (s.received ++ senders.map fun sender => (sender, result)).countP _ = 0) ∨
      (_ ∧ (s.received ++ senders.map fun sender => (sender, result)).countP _ = 1)
    unfold Listed
    rw [delivered, listedIff]
    by_cases mine : c.pubkey = pubkey
    · -- a sender of this pubkey got its result now, or had it already
      rcases t.served sender c f started with ⟨listed, none⟩ | ⟨unlisted, one⟩
      · have mem : sender ∈ senders := by simpa [Listed, mine, entry] using listed
        exact .inr ⟨fun waiting => waiting.1 mine, by rw [if_pos mem, none]⟩
      · have notMem : sender ∉ senders := fun mem => unlisted (mine ▸ listedSender sender mem)
        exact .inr ⟨fun waiting => waiting.1 mine, by rw [if_neg notMem, one]⟩
    · -- a sender of another pubkey is not in this entry
      have notMem : sender ∉ senders := fun mem => by
        obtain ⟨c', f', keyed, -⟩ := t.listed pubkey sender (listedSender sender mem)
        rw [f, Option.some.injEq] at f'
        exact mine (f' ▸ keyed)
      rw [if_neg notMem, Nat.add_zero]
      rcases t.served sender c f started with ⟨listed, none⟩ | ⟨unlisted, one⟩
      · exact .inl ⟨⟨mine, listed⟩, none⟩
      · exact .inr ⟨fun waiting => unlisted waiting.2, one⟩

theorem Tracked.step {s s' : Cloner R} {action : Action R} (t : s.Tracked)
    (h : s.step action = some s') : s'.Tracked := by
  cases action with
  | cloneAccount caller => exact t.cloneAccount h
  | sendCloneRequest caller => exact t.sendCloneRequest h
  | recvMany => exact t.recvMany h
  | processCloneRequest index result => exact t.processCloneRequest h

theorem run_cons (s : Cloner R) (action : Action R) (actions : List (Action R)) :
    s.run (action :: actions) = (s.step action).bind fun s => s.run actions := rfl

theorem Tracked.run {s s' : Cloner R} {actions : List (Action R)} (t : s.Tracked)
    (h : s.run actions = some s') : s'.Tracked := by
  induction actions generalizing s with
  | nil =>
    cases h
    exact t
  | cons action actions ih =>
    rw [run_cons] at h
    obtain ⟨s₁, stepped, rest⟩ := Option.bind_eq_some_iff.mp h
    exact ih (t.step stepped) rest

/-- A call that has registered stays registered, for the same pubkey. -/
theorem step_registered {s s' : Cloner R} {action : Action R} (h : s.step action = some s')
    {caller : Nat} {call : CloneCall} (found : s.calls[caller]? = some call) (started : call.phase ≠ .start) :
    ∃ call', s'.calls[caller]? = some call' ∧ call'.pubkey = call.pubkey ∧ call'.phase ≠ .start := by
  cases action with
  | cloneAccount other =>
    obtain ⟨c, f, unstarted, rfl⟩ := cloneAccount_eq_some h
    have differs : other ≠ caller := by
      rintro rfl
      rw [found, Option.some.injEq] at f
      exact started (f ▸ unstarted)
    exact ⟨call, by simp [getElem?_set_of_getElem? f, differs, found], rfl, started⟩
  | sendCloneRequest other =>
    obtain ⟨c, f, -, rfl⟩ := sendCloneRequest_eq_some h
    by_cases same : other = caller
    · subst same
      rw [found, Option.some.injEq] at f
      subst f
      exact ⟨{ call with phase := .waiting }, by simp [getElem?_set_of_getElem? found], rfl, nofun⟩
    · exact ⟨call, by simp [getElem?_set_of_getElem? f, same, found], rfl, started⟩
  | recvMany =>
    obtain ⟨-, -, rfl⟩ := recvMany_eq_some h
    exact ⟨call, found, rfl, started⟩
  | processCloneRequest index result =>
    obtain ⟨pubkey, -, ⟨-, rfl⟩ | ⟨senders, -, rfl⟩⟩ := processCloneRequest_eq_some h
    · exact ⟨call, found, rfl, started⟩
    · exact ⟨call, found, rfl, started⟩

theorem run_registered {s s' : Cloner R} {actions : List (Action R)} (h : s.run actions = some s')
    {caller : Nat} {call : CloneCall} (found : s.calls[caller]? = some call) (started : call.phase ≠ .start) :
    ∃ call', s'.calls[caller]? = some call' ∧ call'.pubkey = call.pubkey ∧ call'.phase ≠ .start := by
  induction actions generalizing s call with
  | nil =>
    cases h
    exact ⟨call, found, rfl, started⟩
  | cons action actions ih =>
    rw [run_cons] at h
    obtain ⟨s₁, stepped, rest⟩ := Option.bind_eq_some_iff.mp h
    obtain ⟨call₁, found₁, keyed₁, started₁⟩ := step_registered stepped found started
    obtain ⟨call', found', keyed', started'⟩ := ih rest found₁ started₁
    exact ⟨call', found', keyed'.trans keyed₁, started'⟩

/-! ## Progress -/

/-- The work left: calls still to send their request, queued requests (each still to be
taken and run), and running ones. -/
def workLeft (s : Cloner R) : Nat :=
  3 * s.calls.countP (fun call => call.phase = .sending) + 2 * s.cloneRequests.length + s.batch.length

/-- Sending every request and running every request, each clone returning `result`, leaves
nothing on its way, and what the receivers got meanwhile is `result`. -/
theorem exists_run_idle (result : R) (s : Cloner R) :
    ∃ actions s', s.run actions = some s' ∧ (∀ call ∈ s'.calls, call.phase ≠ .sending) ∧
      s'.cloneRequests = [] ∧ s'.batch = [] ∧
      ∃ delivered, s'.received = s.received ++ delivered ∧ ∀ delivery ∈ delivered, delivery.2 = result := by
  induction hwork : s.workLeft using Nat.strong_induction_on generalizing s with
  | _ work ih =>
    -- first the calls that still have to send, then the batch, then the channel
    by_cases anySending : ∃ (caller : Nat) (call : CloneCall), s.calls[caller]? = some call ∧
        call.phase = .sending
    · obtain ⟨caller, call, found, sending⟩ := anySending
      have stepped : s.step (.sendCloneRequest caller) = some { s with
          cloneRequests := s.cloneRequests ++ [call.pubkey]
          calls := s.calls.set caller { call with phase := .waiting } } := by
        simp [step, sendCloneRequest, found, sending]
      have moved := countP_set_of_getElem? found { call with phase := .waiting }
        (fun c => decide (c.phase = .sending))
      simp only [sending, decide_true, if_true, reduceCtorEq, decide_false,
        Bool.false_eq_true, if_false, Nat.add_zero] at moved
      have less : workLeft { s with
          cloneRequests := s.cloneRequests ++ [call.pubkey]
          calls := s.calls.set caller { call with phase := .waiting } } < work := by
        simp only [← hwork, workLeft, List.length_append, List.length_singleton]
        omega
      obtain ⟨actions, s', ran, idle⟩ := ih _ less _ rfl
      exact ⟨_ :: actions, s', by rw [run_cons, stepped, Option.bind_some, ran], idle⟩
    have noneSending : ∀ call ∈ s.calls, call.phase ≠ .sending := by
      intro call mem sending
      obtain ⟨caller, bound, rfl⟩ := List.getElem_of_mem mem
      exact anySending ⟨caller, _, List.getElem?_eq_getElem bound, sending⟩
    cases batchEq : s.batch with
    | cons pubkey rest =>
      have stepped : s.step (.processCloneRequest 0 result) = some { s with
          cloneListeners := (takeListeners s.cloneListeners pubkey).2
          batch := rest
          received := s.received ++
            ((takeListeners s.cloneListeners pubkey).1.getD []).map fun sender => (sender, result) } := by
        simp [step, processCloneRequest, batchEq]
      have less : workLeft { s with
          cloneListeners := (takeListeners s.cloneListeners pubkey).2
          batch := rest
          received := s.received ++
            ((takeListeners s.cloneListeners pubkey).1.getD []).map fun sender => (sender, result) } < work := by
        simp only [← hwork, workLeft, batchEq, List.length_cons]
        omega
      obtain ⟨actions, s', ran, quiet, drained, idle, delivered, received, fromResult⟩ := ih _ less _ rfl
      -- this request delivers `result` to the senders of its pubkey, before the rest
      refine ⟨_ :: actions, s', by rw [run_cons, stepped, Option.bind_some, ran], quiet, drained, idle,
        ((takeListeners s.cloneListeners pubkey).1.getD []).map (fun sender => (sender, result)) ++ delivered,
        by rw [received, List.append_assoc], fun delivery mem => ?_⟩
      rcases List.mem_append.mp mem with now | later
      · obtain ⟨sender, -, rfl⟩ := List.mem_map.mp now
        rfl
      · exact fromResult delivery later
    | nil =>
      cases requestsEq : s.cloneRequests with
      | nil => exact ⟨[], s, rfl, noneSending, requestsEq, batchEq, [], (List.append_nil _).symm, by simp⟩
      | cons first rest =>
        have stepped : s.step .recvMany = some { s with
            batch := s.cloneRequests.take 100, cloneRequests := s.cloneRequests.drop 100 } := by
          simp [step, recvMany, batchEq, requestsEq]
        have taken : 0 < (s.cloneRequests.take 100).length := by simp [requestsEq]
        have kept : (s.cloneRequests.take 100).length + (s.cloneRequests.drop 100).length =
            s.cloneRequests.length := by
          rw [← List.length_append, List.take_append_drop]
        have less : workLeft { s with
            batch := s.cloneRequests.take 100, cloneRequests := s.cloneRequests.drop 100 } < work := by
          simp only [← hwork, workLeft, batchEq, List.length_nil]
          omega
        obtain ⟨actions, s', ran, idle⟩ := ih _ less _ rfl
        exact ⟨_ :: actions, s', by rw [run_cons, stepped, Option.bind_some, ran], idle⟩

/-- Between calls, the requests on their way are those queued and those running. -/
theorem pendingRequests_of_quiet {s : Cloner R} (quiet : ∀ call ∈ s.calls, call.phase ≠ .sending)
    (pubkey : Pubkey) : s.pendingRequests pubkey = s.cloneRequests.count pubkey + s.batch.count pubkey := by
  have none : s.calls.countP (fun call => call.phase = .sending ∧ call.pubkey = pubkey) = 0 := by
    rw [List.countP_eq_zero]
    intro call mem
    simp [quiet call mem]
  unfold pendingRequests
  omega

/-- With nothing on its way, no entry is left. -/
theorem Tracked.cloneListeners_of_idle {s : Cloner R} (t : s.Tracked)
    (quiet : ∀ call ∈ s.calls, call.phase ≠ .sending) (drained : s.cloneRequests = [])
    (idle : s.batch = []) (pubkey : Pubkey) : s.cloneListeners pubkey = none := by
  have pending := t.pending pubkey
  rw [pendingRequests_of_quiet quiet, drained, idle] at pending
  cases entry : s.cloneListeners pubkey with
  | none => rfl
  | some senders => simp [entry] at pending

end Cloner

open Cloner

/-- Along every interleaving of `clone_account` calls with the worker: a pubkey has an entry
exactly when one request for it is on its way (about to be sent by the call that created
the entry, queued, or running), never two are queued or running, and between calls the
entry is there exactly when one is queued or running; every registered sender waits in the
entry of its pubkey or has had exactly one result; a request that finishes sends its result
to exactly the senders of its pubkey still waiting; and whatever the clones return, running
the requests on their way gives every registered sender one result, the one its clone
returned. -/
theorem clone_listeners_track_requests {R : Type} (pubkeys : List Pubkey) (actions : List (Action R))
    (s : Cloner R) (ran : (Cloner.new pubkeys).run actions = some s) :
    (∀ pubkey, s.pendingRequests pubkey = if (s.cloneListeners pubkey).isSome then 1 else 0) ∧
      (∀ pubkey, s.cloneRequests.count pubkey + s.batch.count pubkey ≤ 1) ∧
      ((∀ call ∈ s.calls, call.phase ≠ .sending) → ∀ pubkey,
        ((s.cloneListeners pubkey).isSome ↔ s.cloneRequests.count pubkey + s.batch.count pubkey = 1)) ∧
      (∀ caller call, s.calls[caller]? = some call → call.phase ≠ .start →
        (s.Listed call.pubkey caller ∧ s.receivedCount caller = 0) ∨
          (¬ s.Listed call.pubkey caller ∧ s.receivedCount caller = 1)) ∧
      (∀ index pubkey (result : R), s.batch[index]? = some pubkey → ∃ senders s',
        s.cloneListeners pubkey = some senders ∧ s.step (.processCloneRequest index result) = some s' ∧
        s'.received = s.received ++ senders.map (fun sender => (sender, result)) ∧
        ∀ caller, caller ∈ senders ↔ ∃ call, s.calls[caller]? = some call ∧ call.pubkey = pubkey ∧
          call.phase ≠ .start ∧ s.receivedCount caller = 0) ∧
      ∀ result : R, ∃ more s', s.run more = some s' ∧
        (∀ caller call, s.calls[caller]? = some call → call.phase ≠ .start → s'.receivedCount caller = 1) ∧
        ∃ delivered, s'.received = s.received ++ delivered ∧ ∀ delivery ∈ delivered, delivery.2 = result := by
  have t := (Tracked.new pubkeys).run ran
  refine ⟨t.pending, fun pubkey => ?_, fun quiet pubkey => ?_, t.served,
    fun index pubkey result found => ?_, fun result => ?_⟩
  · have pending := t.pending pubkey
    unfold pendingRequests at pending
    split at pending <;> omega
  · rw [← pendingRequests_of_quiet quiet, t.pending pubkey]
    cases s.cloneListeners pubkey <;> simp
  · obtain ⟨senders, entry⟩ := t.listeners_of_mem_batch (List.mem_of_getElem? found)
    refine ⟨senders, { s with
        cloneListeners := Function.update s.cloneListeners pubkey none
        batch := s.batch.eraseIdx index
        received := s.received ++ senders.map fun sender => (sender, result) },
      entry, by simp [step, processCloneRequest, found, takeListeners, entry], rfl, fun caller => ?_⟩
    have listedIff : s.Listed pubkey caller ↔ caller ∈ senders := by simp [Listed, entry]
    constructor
    · intro mem
      obtain ⟨call, f, keyed, started⟩ := t.listed pubkey caller (listedIff.mpr mem)
      refine ⟨call, f, keyed, started, ?_⟩
      rcases t.served caller call f started with ⟨-, none⟩ | ⟨unlisted, -⟩
      · exact none
      · exact (unlisted (keyed ▸ listedIff.mpr mem)).elim
    · rintro ⟨call, f, rfl, started, none⟩
      rcases t.served caller call f started with ⟨listed, -⟩ | ⟨-, one⟩
      · exact listedIff.mp listed
      · omega
  · obtain ⟨more, s', ranMore, quiet, drained, idle, delivered⟩ := exists_run_idle result s
    have t' := t.run ranMore
    refine ⟨more, s', ranMore, fun caller call found started => ?_, delivered⟩
    obtain ⟨call', found', -, started'⟩ := run_registered ranMore found started
    rcases t'.served caller call' found' started' with ⟨listed, -⟩ | ⟨-, one⟩
    · simp [Listed, t'.cloneListeners_of_idle quiet drained idle] at listed
    · exact one

/-- Three calls, the first two for one pubkey and the third for another. -/
def threeCalls : List Pubkey :=
  [Bytes.FixedBytes.replicate 32 1, Bytes.FixedBytes.replicate 32 1, Bytes.FixedBytes.replicate 32 2]

/-- The first call creates the entry and is overtaken by the second, which only adds its
sender; the first sends the request; the third call registers and sends for the other
pubkey; the worker takes both requests and finishes the first. -/
def interleavedCalls : List (Action Unit) :=
  [.cloneAccount 0, .cloneAccount 1, .sendCloneRequest 0, .cloneAccount 2, .sendCloneRequest 2, .recvMany,
    .processCloneRequest 0 ()]

/-- The run above, which leaves the second pubkey's request running, and both senders of the
first pubkey with its result. -/
theorem clone_listeners_track_requests_of_interleaving :
    ∃ s, (Cloner.new threeCalls).run interleavedCalls = some s ∧
      s.batch = [Bytes.FixedBytes.replicate 32 2] ∧ s.received = [(0, ()), (1, ())] ∧
      ((∀ pubkey, s.pendingRequests pubkey = if (s.cloneListeners pubkey).isSome then 1 else 0) ∧
        (∀ pubkey, s.cloneRequests.count pubkey + s.batch.count pubkey ≤ 1) ∧
        ((∀ call ∈ s.calls, call.phase ≠ .sending) → ∀ pubkey,
          ((s.cloneListeners pubkey).isSome ↔ s.cloneRequests.count pubkey + s.batch.count pubkey = 1)) ∧
        (∀ caller call, s.calls[caller]? = some call → call.phase ≠ .start →
          (s.Listed call.pubkey caller ∧ s.receivedCount caller = 0) ∨
            (¬ s.Listed call.pubkey caller ∧ s.receivedCount caller = 1)) ∧
        (∀ index pubkey (result : Unit), s.batch[index]? = some pubkey → ∃ senders s',
          s.cloneListeners pubkey = some senders ∧ s.step (.processCloneRequest index result) = some s' ∧
          s'.received = s.received ++ senders.map (fun sender => (sender, result)) ∧
          ∀ caller, caller ∈ senders ↔ ∃ call, s.calls[caller]? = some call ∧ call.pubkey = pubkey ∧
            call.phase ≠ .start ∧ s.receivedCount caller = 0) ∧
        ∀ result : Unit, ∃ more s', s.run more = some s' ∧
          (∀ caller call, s.calls[caller]? = some call → call.phase ≠ .start → s'.receivedCount caller = 1) ∧
          ∃ delivered, s'.received = s.received ++ delivered ∧ ∀ delivery ∈ delivered, delivery.2 = result) := by
  obtain ⟨s, ran, running, received⟩ : ∃ s, (Cloner.new threeCalls).run interleavedCalls = some s ∧
      s.batch = [Bytes.FixedBytes.replicate 32 2] ∧ s.received = [(0, ()), (1, ())] := ⟨_, rfl, rfl, rfl⟩
  exact ⟨s, ran, running, received, clone_listeners_track_requests threeCalls interleavedCalls s ran⟩

end EphemeralValidator.AccountCloner
