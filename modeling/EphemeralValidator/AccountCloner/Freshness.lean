import Mathlib.Order.MinMax
import EphemeralValidator.Solana.Account

/-! # Freshness of cloned accounts

With `allow_cloning_refresh` the cloner reuses a recorded `Cloned` output as long as its
snapshot is at least as recent as the last update the account subscriptions reported, and
it accepts a fetched snapshot once its slot reaches the account's first subscribed slot.
The shard records that slot as the clock slot it last saw when it asked for the
subscription (0 before any clock notification), not the slot from which the websocket
reports writes.

The world below is the chain (its slot and the slots at which each account was written),
the shard (its clock slot, the subscriptions with the slot from which each reports, and
the two slot maps) and the cloner's recorded outputs.  A write is reported at once when the
account's subscription already reports that slot, which is the most the websocket can do.

Once a subscription reports from a slot at or before the snapshot, every later write
makes the cloner fetch again (`Reported.serve_fresh`).  A snapshot taken before that slot is
still accepted, and a write between the snapshot and the subscription's first reported
slot is never seen: the cloner keeps serving the old snapshot
(`cloned_account_served_stale`).
-/

namespace EphemeralValidator.AccountCloner

open EphemeralValidator.Bytes EphemeralValidator.Solana

/-- `u64::MAX`, the slot `unwrap_or` gives a pubkey with no first subscribed slot. -/
def u64Max : Nat := 2 ^ 64 - 1

/-- `try_to_override_first_subscribed_slot`: the map keeps the oldest subscribed slot. -/
def tryToOverrideFirstSubscribedSlot (slots : Pubkey → Option Nat) (pubkey : Pubkey)
    (subscribedSlot : Nat) : Pubkey → Option Nat :=
  if subscribedSlot < (slots pubkey).getD u64Max then
    match slots pubkey with
    | none => Function.update slots pubkey (some subscribedSlot)
    | some slot => Function.update slots pubkey (some (min slot subscribedSlot))
  else slots

/-- `try_to_override_last_known_update_slot`: the map keeps the newest update slot. -/
def tryToOverrideLastKnownUpdateSlot (slots : Pubkey → Option Nat) (pubkey : Pubkey)
    (currentUpdateSlot : Nat) : Pubkey → Option Nat :=
  if (slots pubkey).getD 0 < currentUpdateSlot then
    match slots pubkey with
    | none => Function.update slots pubkey (some currentUpdateSlot)
    | some slot => Function.update slots pubkey (some (max slot currentUpdateSlot))
  else slots

/-- `AccountClonerOutput` with the slot `do_clone_or_use_cache` compares. -/
inductive AccountClonerOutput where
  | cloned (atSlot : Nat)
  | unclonable (atSlot : Nat)
  deriving DecidableEq

/-- The cache branch of `do_clone_or_use_cache`: the recorded output when it is at least as
recent as the last known update, `none` when the account is cloned again. -/
def cachedCloneOutput (lastKnownUpdateSlot : Option Nat) (lastCloneOutput : Option AccountClonerOutput) :
    Option AccountClonerOutput :=
  let lastKnownUpdateSlot := lastKnownUpdateSlot.getD 0
  match lastCloneOutput with
  | some (.cloned atSlot) => if lastKnownUpdateSlot ≤ atSlot then lastCloneOutput else none
  | some (.unclonable untilSlot) => if lastKnownUpdateSlot ≤ untilSlot then lastCloneOutput else none
  | none => none

/-- The check of the fetch loop of `do_clone`: a snapshot is satisfactory from the first
subscribed slot on. -/
def satisfactorySnapshot (firstSubscribedSlot : Option Nat) (atSlot : Nat) : Bool :=
  firstSubscribedSlot.getD u64Max ≤ atSlot

/-- The chain, the shard and the cloner. -/
structure CloneWorld where
  chainSlot : Nat
  writes : Pubkey → List Nat
  clockSlot : Nat
  reportsFrom : Pubkey → Option Nat
  firstSubscribedSlots : Pubkey → Option Nat
  lastKnownUpdateSlots : Pubkey → Option Nat
  lastCloneOutput : Pubkey → Option AccountClonerOutput

inductive CloneEvent where
  /-- The chain moves to the next slot. -/
  | tick
  /-- A transaction writes the account at the current slot. -/
  | write (pubkey : Pubkey)
  /-- The shard's clock subscription reports the current slot. -/
  | clock
  /-- The shard subscribes to the account; the websocket reports its writes from `reportsFrom`. -/
  | monitor (pubkey : Pubkey) (reportsFrom : Nat)
  /-- `do_clone` fetches a snapshot of the account at `atSlot`. -/
  | fetch (pubkey : Pubkey) (atSlot : Nat)

namespace CloneWorld

def initial : CloneWorld :=
  ⟨0, fun _ => [], 0, fun _ => none, fun _ => none, fun _ => none, fun _ => none⟩

/-- Whether the account's subscription reports a write at `slot`. -/
def reports (w : CloneWorld) (pubkey : Pubkey) (slot : Nat) : Bool :=
  match w.reportsFrom pubkey with
  | some reportsFrom => reportsFrom ≤ slot
  | none => false

/-- One event; `none` where it cannot happen: a snapshot past the chain's slot, or a
subscription that would report a slot the chain has already reached or one before the
clock slot it is recorded with. -/
def step (w : CloneWorld) : CloneEvent → Option CloneWorld
  | .tick => some { w with chainSlot := w.chainSlot + 1 }
  | .write pubkey =>
    some { w with
      writes := Function.update w.writes pubkey (w.writes pubkey ++ [w.chainSlot])
      lastKnownUpdateSlots :=
        if w.reports pubkey w.chainSlot then
          tryToOverrideLastKnownUpdateSlot w.lastKnownUpdateSlots pubkey w.chainSlot
        else w.lastKnownUpdateSlots }
  | .clock => some { w with clockSlot := w.chainSlot }
  | .monitor pubkey reportsFrom =>
    match w.reportsFrom pubkey with
    -- `account_unsubscribes.contains_key(&pubkey)`: already monitored
    | some _ => some w
    | none =>
      if w.chainSlot < reportsFrom ∧ w.clockSlot ≤ reportsFrom then
        some { w with
          reportsFrom := Function.update w.reportsFrom pubkey (some reportsFrom)
          firstSubscribedSlots := tryToOverrideFirstSubscribedSlot w.firstSubscribedSlots pubkey w.clockSlot }
      else none
  | .fetch pubkey atSlot =>
    if atSlot ≤ w.chainSlot then
      if satisfactorySnapshot (w.firstSubscribedSlots pubkey) atSlot then
        some { w with lastCloneOutput := Function.update w.lastCloneOutput pubkey (some (.cloned atSlot)) }
      else some w
    else none

def run (w : CloneWorld) (events : List CloneEvent) : Option CloneWorld :=
  events.foldlM step w

/-- What `do_clone_or_use_cache` serves from the cache for the account, if anything. -/
def serve (w : CloneWorld) (pubkey : Pubkey) : Option AccountClonerOutput :=
  cachedCloneOutput (w.lastKnownUpdateSlots pubkey) (w.lastCloneOutput pubkey)

end CloneWorld

/-! ## The slot maps -/

theorem getD_tryToOverrideLastKnownUpdateSlot (slots : Pubkey → Option Nat) (pubkey other : Pubkey)
    (currentUpdateSlot : Nat) :
    (tryToOverrideLastKnownUpdateSlot slots pubkey currentUpdateSlot other).getD 0 =
      if other = pubkey then max ((slots pubkey).getD 0) currentUpdateSlot else (slots other).getD 0 := by
  unfold tryToOverrideLastKnownUpdateSlot
  by_cases same : other = pubkey
  · subst same
    split
    · next newer => cases slots other <;> simp_all
    · next older => simp only [if_true]; omega
  · simp only [same, if_false]
    split
    · cases slots pubkey <;> simp [Function.update_of_ne same]
    · rfl

theorem cachedCloneOutput_eq_cloned {lastKnownUpdateSlot : Option Nat}
    {lastCloneOutput : Option AccountClonerOutput} {atSlot : Nat} :
    cachedCloneOutput lastKnownUpdateSlot lastCloneOutput = some (.cloned atSlot) ↔
      lastCloneOutput = some (.cloned atSlot) ∧ lastKnownUpdateSlot.getD 0 ≤ atSlot := by
  cases lastCloneOutput with
  | none => simp [cachedCloneOutput]
  | some output =>
    cases output with
    | cloned recorded =>
      by_cases recent : lastKnownUpdateSlot.getD 0 ≤ recorded
      · simp only [cachedCloneOutput, recent, if_true, Option.some.injEq, AccountClonerOutput.cloned.injEq]
        constructor
        · rintro rfl
          exact ⟨rfl, recent⟩
        · exact And.left
      · simp only [cachedCloneOutput, recent, if_false, Option.some.injEq, AccountClonerOutput.cloned.injEq]
        constructor
        · nofun
        · rintro ⟨rfl, recent'⟩
          exact absurd recent' recent
    | unclonable untilSlot =>
      simp only [cachedCloneOutput]
      split <;> simp

namespace CloneWorld

/-! ## Every reported write is known -/

/-- What every run keeps: no write is past the chain's slot, and every write an account's
subscription reports is at most the account's last known update slot. -/
structure Reported (w : CloneWorld) : Prop where
  written : ∀ pubkey, ∀ slot ∈ w.writes pubkey, slot ≤ w.chainSlot
  known : ∀ pubkey reportsFrom, w.reportsFrom pubkey = some reportsFrom →
    ∀ slot ∈ w.writes pubkey, reportsFrom ≤ slot → slot ≤ (w.lastKnownUpdateSlots pubkey).getD 0

theorem Reported.initial : Reported initial :=
  ⟨fun _ _ written => (nomatch written), fun _ _ _ _ written => (nomatch written)⟩

/-- A write of `pubkey` adds the current chain slot to its writes and to no other account's. -/
theorem mem_update_writes {writes : Pubkey → List Nat} {pubkey other : Pubkey} {chainSlot slot : Nat}
    (mem : slot ∈ Function.update writes pubkey (writes pubkey ++ [chainSlot]) other) :
    slot ∈ writes other ∨ other = pubkey ∧ slot = chainSlot := by
  by_cases same : other = pubkey
  · subst same
    simpa only [Function.update_self, List.mem_append, List.mem_singleton, true_and] using mem
  · rw [Function.update_of_ne same] at mem
    exact .inl mem

theorem Reported.step {w w' : CloneWorld} {event : CloneEvent} (reported : w.Reported)
    (stepped : w.step event = some w') : w'.Reported := by
  cases event with
  | tick =>
    cases stepped
    exact ⟨fun pubkey slot mem => Nat.le_succ_of_le (reported.written pubkey slot mem), reported.known⟩
  | write pubkey =>
    cases stepped
    refine ⟨fun other slot mem => ?_, fun other reportsFrom subscribed slot mem after => ?_⟩
    · dsimp only at mem ⊢
      rcases mem_update_writes mem with old | ⟨-, rfl⟩
      · exact reported.written other slot old
      · exact Nat.le_refl _
    · dsimp only at mem subscribed ⊢
      by_cases same : other = pubkey
      · subst same
        -- the new write is reported when the subscription reports its slot
        by_cases reporting : w.reports other w.chainSlot
        · simp only [reporting, if_true, getD_tryToOverrideLastKnownUpdateSlot]
          rcases mem_update_writes mem with old | ⟨-, rfl⟩
          · have := reported.known other reportsFrom subscribed slot old after
            omega
          · simp
        · simp only [reporting, Bool.false_eq_true, if_false]
          rcases mem_update_writes mem with old | ⟨-, rfl⟩
          · exact reported.known other reportsFrom subscribed slot old after
          · simp [reports, subscribed, after] at reporting
      · rw [Function.update_of_ne same] at mem
        have := reported.known other reportsFrom subscribed slot mem after
        split
        · rw [getD_tryToOverrideLastKnownUpdateSlot, if_neg same]
          exact this
        · exact this
  | clock =>
    cases stepped
    exact ⟨reported.written, reported.known⟩
  | monitor pubkey reportsFrom =>
    dsimp only [CloneWorld.step] at stepped
    split at stepped
    · cases stepped
      exact reported
    · next fresh =>
      split at stepped
      · next later =>
        cases stepped
        refine ⟨reported.written, fun other from' subscribed slot mem after => ?_⟩
        dsimp only at subscribed mem ⊢
        by_cases same : other = pubkey
        · -- no write has reached the slot the new subscription reports from
          subst same
          simp only [Function.update_self, Option.some.injEq] at subscribed
          have := reported.written other slot mem
          omega
        · rw [Function.update_of_ne same] at subscribed
          exact reported.known other from' subscribed slot mem after
      · cases stepped
  | fetch pubkey atSlot =>
    dsimp only [CloneWorld.step] at stepped
    split at stepped
    · split at stepped
      · cases stepped
        exact ⟨reported.written, reported.known⟩
      · cases stepped
        exact reported
    · cases stepped

@[simp] theorem run_nil (w : CloneWorld) : w.run [] = some w := rfl

theorem run_cons (w : CloneWorld) (event : CloneEvent) (events : List CloneEvent) :
    w.run (event :: events) = (w.step event).bind fun w => w.run events := rfl

theorem run_append (w : CloneWorld) (events events' : List CloneEvent) :
    w.run (events ++ events') = (w.run events).bind fun w => w.run events' := by
  simp only [run, List.foldlM_append]
  rfl

theorem Reported.run {w w' : CloneWorld} {events : List CloneEvent} (reported : w.Reported)
    (ran : w.run events = some w') : w'.Reported := by
  induction events generalizing w with
  | nil =>
    cases ran
    exact reported
  | cons event events ih =>
    rw [run_cons] at ran
    obtain ⟨w₁, stepped, rest⟩ := Option.bind_eq_some_iff.mp ran
    exact ih (reported.step stepped) rest

/-- A snapshot the cloner serves from the cache is fresh when the account's subscription
reports from its slot or earlier. -/
theorem Reported.serve_fresh {w : CloneWorld} (reported : w.Reported) {pubkey : Pubkey}
    {reportsFrom atSlot : Nat} (subscribed : w.reportsFrom pubkey = some reportsFrom)
    (early : reportsFrom ≤ atSlot) (served : w.serve pubkey = some (.cloned atSlot)) :
    ∀ slot ∈ w.writes pubkey, slot ≤ atSlot := by
  intro slot mem
  -- serving from the cache means no known update is newer than the snapshot
  have recent := (cachedCloneOutput_eq_cloned.mp served).2
  by_cases later : atSlot < slot
  · have := reported.known pubkey reportsFrom subscribed slot mem (by omega)
    omega
  · omega

/-- On every run, a snapshot served from the cache is fresh once the account's subscription
reports from its slot or earlier. -/
theorem serve_fresh_of_run {events : List CloneEvent} {w : CloneWorld} (ran : initial.run events = some w)
    {pubkey : Pubkey} {reportsFrom atSlot : Nat} (subscribed : w.reportsFrom pubkey = some reportsFrom)
    (early : reportsFrom ≤ atSlot) (served : w.serve pubkey = some (.cloned atSlot)) :
    ∀ slot ∈ w.writes pubkey, slot ≤ atSlot :=
  (Reported.initial.run ran).serve_fresh subscribed early served

/-- A subscription that reports from slot 1, a write at slot 1 and a snapshot at slot 3: the
snapshot served is not older than the write. -/
theorem serve_fresh_of_run_after_reported_write :
    let events : List CloneEvent := [.clock, .monitor (FixedBytes.replicate 32 5) 1, .tick,
      .write (FixedBytes.replicate 32 5), .tick, .tick, .fetch (FixedBytes.replicate 32 5) 3]
    ∃ w, initial.run events = some w ∧
      w.reportsFrom (FixedBytes.replicate 32 5) = some 1 ∧ w.serve (FixedBytes.replicate 32 5) = some (.cloned 3) ∧
      w.writes (FixedBytes.replicate 32 5) = [1] ∧ ∀ slot ∈ w.writes (FixedBytes.replicate 32 5), slot ≤ 3 := by
  intro events
  exact ⟨_, rfl, rfl, rfl, rfl, @serve_fresh_of_run events _ rfl _ _ _ rfl (by decide) rfl⟩

/-! ## A write the subscription never reports -/

theorem run_replicate_tick (w : CloneWorld) (k : Nat) :
    w.run (List.replicate k .tick) = some { w with chainSlot := w.chainSlot + k } := by
  induction k with
  | zero => rfl
  | succ k ih =>
    rw [List.replicate_succ', run_append, ih, Option.bind_some]
    rfl

/-- For every clock slot `c`, snapshot slot `t ≥ c`, write slot `w > t` and first reported
slot after `w`: the shard records `c` as the first subscribed slot, `do_clone` accepts the
snapshot at `t`, the write at `w` is never reported, and `do_clone_or_use_cache` keeps
serving the snapshot at `t`. -/
theorem cloned_account_served_stale (pubkey : Pubkey) (clockSlot atSlot writeSlot reportsFrom : Nat)
    (clocked : clockSlot ≤ atSlot) (written : atSlot < writeSlot) (late : writeSlot < reportsFrom)
    (bounded : reportsFrom ≤ u64Max) :
    ∃ w, initial.run (List.replicate clockSlot CloneEvent.tick ++
        [CloneEvent.clock, CloneEvent.monitor pubkey reportsFrom] ++
        List.replicate (atSlot - clockSlot) CloneEvent.tick ++ [CloneEvent.fetch pubkey atSlot] ++
        List.replicate (writeSlot - atSlot) CloneEvent.tick ++ [CloneEvent.write pubkey]) = some w ∧
      w.firstSubscribedSlots pubkey = some clockSlot ∧ w.reportsFrom pubkey = some reportsFrom ∧
      w.serve pubkey = some (.cloned atSlot) ∧ writeSlot ∈ w.writes pubkey ∧ atSlot < writeSlot := by
  have toSnapshot : clockSlot + (atSlot - clockSlot) = atSlot := by omega
  have toWrite : atSlot + (writeSlot - atSlot) = writeSlot := by omega
  have subscribedLater : clockSlot < reportsFrom := by omega
  have subscribedAfterClock : clockSlot ≤ reportsFrom := by omega
  have recorded : clockSlot < u64Max := by omega
  have unreported : ¬ reportsFrom ≤ writeSlot := by omega
  -- the shard records the clock slot as the first subscribed one, before the chain reaches
  -- the first slot the subscription reports
  have subscribe : initial.run (List.replicate clockSlot CloneEvent.tick ++ [CloneEvent.clock, .monitor pubkey reportsFrom]) =
      some { initial with chainSlot := clockSlot, clockSlot := clockSlot
                          reportsFrom := Function.update (fun _ => none) pubkey (some reportsFrom)
                          firstSubscribedSlots := Function.update (fun _ => none) pubkey (some clockSlot) } := by
    rw [run_append, run_replicate_tick, Option.bind_some]
    simp [run_cons, step, initial, tryToOverrideFirstSubscribedSlot, subscribedLater, subscribedAfterClock, recorded]
  -- the snapshot at `atSlot` is satisfactory: it is not before the first subscribed slot
  have fetch : ∀ w : CloneWorld, w.chainSlot = clockSlot → w.firstSubscribedSlots pubkey = some clockSlot →
      w.run (List.replicate (atSlot - clockSlot) CloneEvent.tick ++ [CloneEvent.fetch pubkey atSlot]) =
        some { w with chainSlot := atSlot
                      lastCloneOutput := Function.update w.lastCloneOutput pubkey (some (.cloned atSlot)) } := by
    intro w chain first
    rw [run_append, run_replicate_tick, Option.bind_some]
    simp [run_cons, step, chain, first, toSnapshot, satisfactorySnapshot, clocked]
  -- the write comes before the first slot the subscription reports
  have write : ∀ w : CloneWorld, w.chainSlot = atSlot → w.reportsFrom pubkey = some reportsFrom →
      w.run (List.replicate (writeSlot - atSlot) CloneEvent.tick ++ [CloneEvent.write pubkey]) =
        some { w with chainSlot := writeSlot
                      writes := Function.update w.writes pubkey (w.writes pubkey ++ [writeSlot]) } := by
    intro w chain reported
    rw [run_append, run_replicate_tick, Option.bind_some]
    simp [run_cons, step, reports, chain, reported, toWrite, unreported]
  rw [List.append_assoc _ (List.replicate (atSlot - clockSlot) _), List.append_assoc _ (List.replicate (writeSlot - atSlot) _),
    run_append, run_append, subscribe, Option.bind_some, fetch _ rfl (by simp), Option.bind_some,
    write _ rfl (by simp)]
  refine ⟨_, rfl, by simp, by simp, ?_, by simp [initial], written⟩
  simp [serve, cachedCloneOutput, initial]

/-- Before any clock notification: subscribed at clock slot 0, snapshot at slot 0, a write at
slot 1, and a subscription that reports from slot 2. -/
theorem cloned_account_served_stale_before_clock :
    ∃ w, initial.run (List.replicate 0 CloneEvent.tick ++
        [CloneEvent.clock, CloneEvent.monitor (FixedBytes.replicate 32 0) 2] ++
        List.replicate (0 - 0) CloneEvent.tick ++ [CloneEvent.fetch (FixedBytes.replicate 32 0) 0] ++
        List.replicate (1 - 0) CloneEvent.tick ++ [CloneEvent.write (FixedBytes.replicate 32 0)]) = some w ∧
      w.firstSubscribedSlots (FixedBytes.replicate 32 0) = some 0 ∧
      w.reportsFrom (FixedBytes.replicate 32 0) = some 2 ∧
      w.serve (FixedBytes.replicate 32 0) = some (.cloned 0) ∧ 1 ∈ w.writes (FixedBytes.replicate 32 0) ∧ 0 < 1 :=
  cloned_account_served_stale (FixedBytes.replicate 32 0) 0 0 1 2 (Nat.le_refl 0) Nat.zero_lt_one
    (by decide) (by decide)

end CloneWorld

end EphemeralValidator.AccountCloner
