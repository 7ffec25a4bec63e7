import Mathlib.Data.List.Basic

/-! # Subscribing to the geyser feed of one key

`GeyserRpcService::accounts_subscribe` reads the key's entry of the plugin's cache and only
then, in `subscribe_impl`, calls `broadcast_tx.subscribe()` for the receiver the spawned
`client_loop` listens on.  `client_loop` sends the cached message first and then every message
the receiver gets.  On the other side `GrpcGeyserPlugin::update_account` inserts the update
into the cache and then sends it down `rpc_channel`; `geyser_loop` receives it into
`processed_messages` and later broadcasts that batch to the receivers that exist at the time.
`transaction_subscribe` and `notify_transaction` are the same code over signatures, so the
model is over any message type `V`.

The model follows one key: its cache entry, the updates on their way to the broadcast
(inserted but not sent, in the channel, in the batch), and one subscriber.  Every atomic step
of the tasks is an event, and an interleaving is a list of events.  The updates produced and
the messages of the subscriber's stream are ghost fields.  The cache entry is taken not to
expire, the subscription not to be cancelled, and the updates of the key to be produced one at
a time.

Outside the window between the cache read and the `subscribe`, no update is lost: once the
pipeline drains, the stream ends with the most recent update (`Delivers.run`,
`Delivers.stream_latest`).  An update produced after the cache read and broadcast before the
`subscribe` reaches neither the cached message nor the receiver, and the stream ends with an
older update (`subscription_loses_update_in_window`).
-/

namespace EphemeralValidator.Geyser

variable {V : Type}

/-- The subscriber's task. -/
inductive Subscriber (V : Type) where
  | idle
  /-- the cache was read: the message `client_loop` sends first -/
  | reading (initial : Option V)
  /-- the receiver exists: the messages of the stream, in order -/
  | subscribed (stream : List V)

/-- What the subscriber has from the feed so far, once it has read the cache. -/
def Subscriber.seen : Subscriber V → Option (List V)
  | .idle => none
  | .reading initial => some initial.toList
  | .subscribed stream => some stream

/-- The messages of one key. -/
structure KeyFeed (V : Type) where
  cache : Option V
  /-- inserted into the cache by `update_account`, not yet sent -/
  inFlight : Option V
  /-- `rpc_channel`, not yet received by `geyser_loop` -/
  channel : List V
  /-- `processed_messages`, not yet broadcast -/
  processed : List V
  subscriber : Subscriber V
  /-- every update produced for the key, in order -/
  produced : List V

inductive FeedEvent (V : Type) where
  /-- `update_account`: `accounts_cache.insert` -/
  | insert (value : V)
  /-- `update_account`: `send_message` -/
  | send
  /-- `geyser_loop`: `messages_rx.recv()`, pushed to `processed_messages` -/
  | receive
  /-- `geyser_loop`: `broadcast_tx.send` of `processed_messages` -/
  | broadcast
  /-- `accounts_subscribe`: `cache.get(pubkey)` -/
  | readCache
  /-- `subscribe_impl`: `broadcast_tx.subscribe()` -/
  | subscribe

namespace KeyFeed

def initial : KeyFeed V := ⟨none, none, [], [], .idle, []⟩

/-- One step; `none` where the task that takes it is not at that point. -/
def step (s : KeyFeed V) : FeedEvent V → Option (KeyFeed V)
  | .insert value =>
    match s.inFlight with
    | none => some { s with cache := some value, inFlight := some value, produced := s.produced ++ [value] }
    | some _ => none
  | .send =>
    match s.inFlight with
    | some value => some { s with inFlight := none, channel := s.channel ++ [value] }
    | none => none
  | .receive =>
    match s.channel with
    | value :: rest => some { s with channel := rest, processed := s.processed ++ [value] }
    | [] => none
  | .broadcast =>
    some { s with
      processed := []
      -- only a receiver that exists gets the batch
      subscriber :=
        match s.subscriber with
        | .subscribed stream => .subscribed (stream ++ s.processed)
        | other => other }
  | .readCache =>
    match s.subscriber with
    | .idle => some { s with subscriber := .reading s.cache }
    | _ => none
  | .subscribe =>
    match s.subscriber with
    | .reading initial => some { s with subscriber := .subscribed initial.toList }
    | _ => none

def run (s : KeyFeed V) (events : List (FeedEvent V)) : Option (KeyFeed V) :=
  events.foldlM step s

/-- The updates on their way to the broadcast, oldest first. -/
def pipeline (s : KeyFeed V) : List V :=
  s.processed ++ s.channel ++ s.inFlight.toList

/-- A broadcast while the subscriber has read the cache and has no receiver yet. -/
def inWindow (s : KeyFeed V) : FeedEvent V → Bool
  | .broadcast =>
    match s.subscriber with
    | .reading _ => true
    | _ => false
  | _ => false

/-- No step of the run is a broadcast in the window. -/
def avoidsWindow : KeyFeed V → List (FeedEvent V) → Bool
  | _, [] => true
  | s, event :: events =>
    !s.inWindow event &&
      match s.step event with
      | some s' => avoidsWindow s' events
      | none => true

theorem run_cons (s : KeyFeed V) (event : FeedEvent V) (events : List (FeedEvent V)) :
    s.run (event :: events) = (s.step event).bind fun s' => s'.run events := rfl

/-! ## The stream ends with the latest update -/

/-- The cache entry is the latest update produced: it is inserted before it is sent. -/
theorem cache_step {s s' : KeyFeed V} {event : FeedEvent V} (latest : s.cache = s.produced.getLast?)
    (stepped : s.step event = some s') : s'.cache = s'.produced.getLast? := by
  cases event with
  | insert value =>
    simp only [KeyFeed.step] at stepped
    split at stepped
    · cases stepped
      simp
    · cases stepped
  | broadcast =>
    cases stepped
    exact latest
  | send | receive | readCache | subscribe =>
    simp only [KeyFeed.step] at stepped
    split at stepped <;> cases stepped
    exact latest

theorem cache_run {events : List (FeedEvent V)} {s s' : KeyFeed V} (latest : s.cache = s.produced.getLast?)
    (ran : s.run events = some s') : s'.cache = s'.produced.getLast? := by
  induction events generalizing s with
  | nil =>
    cases ran
    exact latest
  | cons event events ih =>
    rw [run_cons] at ran
    obtain ⟨s₁, stepped, rest⟩ := Option.bind_eq_some_iff.mp ran
    exact ih (cache_step latest stepped) rest

/-- What every step but a broadcast in the window keeps: the pipeline ends with the cache
entry when it is not empty, and what the subscriber has seen followed by the pipeline ends
with the cache entry. -/
structure Delivers (s : KeyFeed V) : Prop where
  pending : s.pipeline.getLast?.or s.cache = s.cache
  ends : ∀ seen, s.subscriber.seen = some seen → (seen ++ s.pipeline).getLast? = s.cache

theorem Delivers.initial : Delivers (initial : KeyFeed V) :=
  ⟨rfl, fun _ seen => nomatch seen⟩

/-- A list that ends with `o` when it is not empty still does after dropping a prefix. -/
theorem getLast?_or_of_append {front back : List V} {o : Option V}
    (ends : (front ++ back).getLast?.or o = o) : back.getLast?.or o = o := by
  rw [List.getLast?_append] at ends
  cases last : back.getLast? with
  | none => rfl
  | some value =>
    rw [last] at ends
    exact ends

@[simp] theorem getLast?_toList (o : Option V) : o.toList.getLast? = o := by
  cases o <;> rfl

theorem getLast?_toList_append (o : Option V) (l : List V) :
    (o.toList ++ l).getLast? = l.getLast?.or o := by
  rw [List.getLast?_append, getLast?_toList]

/-- A step that keeps the cache entry, the pipeline and what the subscriber has seen keeps
`Delivers`. -/
theorem Delivers.of_same {s s' : KeyFeed V} (delivers : Delivers s) (cache : s'.cache = s.cache)
    (pipeline : s'.pipeline = s.pipeline) (seen : s'.subscriber.seen = s.subscriber.seen) : Delivers s' := by
  constructor
  · rw [cache, pipeline]
    exact delivers.pending
  · intro seen' seenEq
    rw [cache, pipeline]
    exact delivers.ends seen' (seen ▸ seenEq)

theorem Delivers.step {s s' : KeyFeed V} {event : FeedEvent V} (delivers : Delivers s)
    (outside : s.inWindow event = false) (stepped : s.step event = some s') : Delivers s' := by
  cases event with
  | insert value =>
    simp only [KeyFeed.step] at stepped
    split at stepped
    · next idle =>
      cases stepped
      -- the new update is both the cache entry and the end of the pipeline
      have ends : ∀ front : List V, (front ++ [value]).getLast? = some value := fun front => by simp
      refine ⟨?_, fun seen seenEq => ?_⟩
      · simp [pipeline]
      · simp [pipeline, ends]
    · cases stepped
  | send =>
    simp only [KeyFeed.step] at stepped
    split at stepped
    · next _ value sending =>
      cases stepped
      exact delivers.of_same rfl (by simp [pipeline, sending]) rfl
    · cases stepped
  | receive =>
    simp only [KeyFeed.step] at stepped
    split at stepped
    · next value rest received =>
      cases stepped
      exact delivers.of_same rfl (by simp [pipeline, received]) rfl
    · cases stepped
  | broadcast =>
    cases stepped
    refine ⟨?_, fun seen seenEq => ?_⟩
    · apply @getLast?_or_of_append V s.processed
      simpa [pipeline] using delivers.pending
    · -- the batch moves from the pipeline to the stream of a receiver that exists
      cases subscribed : s.subscriber with
      | idle => simp [subscribed, Subscriber.seen] at seenEq
      | reading initial => simp [inWindow, subscribed] at outside
      | subscribed stream =>
        simp only [subscribed, Subscriber.seen, Option.some.injEq] at seenEq
        subst seenEq
        have ends := delivers.ends stream (by simp [subscribed, Subscriber.seen])
        simpa [pipeline] using ends
  | readCache =>
    simp only [KeyFeed.step] at stepped
    split at stepped
    · cases stepped
      refine ⟨delivers.pending, fun seen seenEq => ?_⟩
      simp only [Subscriber.seen, Option.some.injEq] at seenEq
      subst seenEq
      rw [getLast?_toList_append]
      exact delivers.pending
    · cases stepped
  | subscribe =>
    simp only [KeyFeed.step] at stepped
    split at stepped
    · next initial reading =>
      cases stepped
      exact delivers.of_same rfl rfl (by simp [reading, Subscriber.seen])
    · cases stepped

/-- Every run with no broadcast in the window keeps `Delivers`. -/
theorem Delivers.run {s s' : KeyFeed V} {events : List (FeedEvent V)} (delivers : Delivers s)
    (avoids : s.avoidsWindow events = true) (ran : s.run events = some s') : Delivers s' := by
  induction events generalizing s with
  | nil =>
    cases ran
    exact delivers
  | cons event events ih =>
    rw [run_cons] at ran
    obtain ⟨s₁, stepped, rest⟩ := Option.bind_eq_some_iff.mp ran
    simp only [avoidsWindow, stepped, Bool.and_eq_true, Bool.not_eq_true'] at avoids
    exact ih (delivers.step avoids.1 stepped) avoids.2 rest

/-- Once the pipeline is drained, the stream ends with the cache entry. -/
theorem Delivers.stream_cache {s : KeyFeed V} (delivers : Delivers s) {stream : List V}
    (subscribed : s.subscriber = .subscribed stream) (drained : s.pipeline = []) :
    stream.getLast? = s.cache := by
  have ends := delivers.ends stream (by simp [subscribed, Subscriber.seen])
  rw [drained, List.append_nil] at ends
  exact ends

/-- Every interleaving from the start with no broadcast between the cache read and the
`subscribe` delivers the most recent update last, once the pipeline drains. -/
theorem stream_ends_with_latest_of_avoidsWindow {events : List (FeedEvent V)} {s : KeyFeed V}
    (avoids : initial.avoidsWindow events = true) (ran : initial.run events = some s) {stream : List V}
    (subscribed : s.subscriber = .subscribed stream) (drained : s.pipeline = []) :
    stream.getLast? = s.produced.getLast? := by
  rw [(Delivers.initial.run avoids ran).stream_cache subscribed drained, cache_run rfl ran]

/-- The subscriber reads the cache while the first update is received, and subscribes while
the second is produced: it gets the first twice, from the cache and from the broadcast, and
the second last. -/
theorem stream_ends_with_latest_of_avoidsWindow_after_two_updates :
    let events : List (FeedEvent Nat) :=
      [.insert 1, .send, .readCache, .receive, .insert 2, .subscribe, .broadcast, .send, .receive, .broadcast]
    ∃ s, initial.run events = some s ∧ initial.avoidsWindow events = true ∧ s.subscriber = .subscribed [1, 1, 2] ∧
      s.pipeline = [] ∧ [1, 1, 2].getLast? = s.produced.getLast? := by
  intro events
  exact ⟨_, rfl, rfl, rfl, rfl, @stream_ends_with_latest_of_avoidsWindow Nat events _ rfl rfl _ rfl rfl⟩

/-! ## An update lost in the window -/

/-- From any reachable state with no subscriber and a drained pipeline: the subscriber reads
the cache, an update is produced, received and broadcast, and only then is the receiver
created.  The pipeline is drained again, but the stream holds only the update before, so
unless that was the same value the most recent update never reaches the subscriber. -/
theorem subscription_loses_update_in_window {before : List (FeedEvent V)} {s : KeyFeed V}
    (ran : initial.run before = some s) (idle : s.subscriber = .idle) (drained : s.pipeline = [])
    (value : V) (newer : s.produced.getLast? ≠ some value) :
    ∃ s', s.run [.readCache, .insert value, .send, .receive, .broadcast, .subscribe] = some s' ∧
      s'.pipeline = [] ∧ s'.produced.getLast? = some value ∧
      s'.subscriber = .subscribed s.produced.getLast?.toList ∧
      s.produced.getLast?.toList.getLast? ≠ s'.produced.getLast? := by
  have latest := cache_run rfl ran
  obtain ⟨cache, inFlight, channel, processed, subscriber, produced⟩ := s
  simp only [pipeline, List.append_eq_nil_iff, Option.toList_eq_nil_iff] at drained
  obtain ⟨⟨rfl, rfl⟩, rfl⟩ := drained
  dsimp only at idle latest newer ⊢
  subst idle latest
  refine ⟨⟨some value, none, [], [], .subscribed produced.getLast?.toList, produced ++ [value]⟩,
    rfl, rfl, by simp, rfl, ?_⟩
  simpa using newer

/-- Nothing produced yet: the subscriber reads an empty cache, the first update is broadcast
before its receiver exists, and its stream stays empty. -/
theorem subscription_loses_update_in_window_at_start :
    ∃ s', (initial : KeyFeed Nat).run [.readCache, .insert 1, .send, .receive, .broadcast, .subscribe] = some s' ∧
      s'.pipeline = [] ∧ s'.produced.getLast? = some 1 ∧
      s'.subscriber = .subscribed (initial : KeyFeed Nat).produced.getLast?.toList ∧
      (initial : KeyFeed Nat).produced.getLast?.toList.getLast? ≠ s'.produced.getLast? :=
  @subscription_loses_update_in_window Nat [] initial rfl rfl rfl 1 (by decide)

end KeyFeed

end EphemeralValidator.Geyser
