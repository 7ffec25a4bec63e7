import Mathlib.Data.List.ModifyLast
import EphemeralValidator.Solana.Transaction

/-! # The bank's transaction status cache

`StatusCache::transaction_status_cache` keeps, per slot, the statuses of the transactions
executed in it, and `Bank::check_status_cache` rejects a transaction as `AlreadyProcessed`
when its signature is in one of the last `max_age` entries.  `insert_transaction_status`
opens a new entry when the vector is no longer than the slot number and otherwise adds to
the last one; `add_root`, which the bank calls on every slot advance, drops the entries
more than `max_cache_entries` slots old every `max_cache_entries / 2` slots.

Slots are counted in `Nat`: the bank's slot is a `u64` that grows by one per tick.  Of the
cache's fields only the per-slot vector is kept; `cache_by_blockhash`, `roots` and
`slot_deltas` are written by `insert` and `add_root` but read by no query of the bank.

Over every run the entries stay in slot order, none is past the bank's slot, and each
insert lands in an entry of the current slot (`Reachable.ordered`,
`Ordered.insertTransactionStatus_getLast?`).  With one entry per slot the lookback would
find every signature younger than `max_age` slots
(`getRecentTransactionStatus_isSome_of_increasing`), but the length test counts entries,
not slots: once a slot has gone by without a transaction every insert opens an entry of
its own, and the lookback of `max_age` entries can miss a signature of the current slot
(`status_cache_misses_recent_signature`).
-/

namespace EphemeralValidator

open EphemeralValidator.Bytes EphemeralValidator.Solana

/-- `StatusCache<T>`: the per-slot statuses and `max_cache_entries`. -/
structure StatusCache (T : Type) where
  transactionStatusCache : List (Nat × (Signature → Option T))
  maxCacheEntries : Nat

namespace StatusCache

variable {T : Type}

def new (maxAge : Nat) : StatusCache T := ⟨[], maxAge⟩

/-- `handle_iter`: the status in the first entry that holds the signature. -/
def handleIter (signature : Signature) : List (Nat × (Signature → Option T)) → Option (Nat × T)
  | [] => none
  | (slot, map) :: rest =>
    match map signature with
    | some needle => some (slot, needle)
    | none => handleIter signature rest

def getRecentTransactionStatus (c : StatusCache T) (signature : Signature)
    (lookbackSlots : Option Nat) : Option (Nat × T) :=
  let iter := c.transactionStatusCache.reverse
  match lookbackSlots with
  | some lookbackSlots => handleIter signature (iter.take lookbackSlots)
  | none => handleIter signature iter

/-- `insert_transaction_status`.  The vector is never empty at `last_mut().unwrap()`, and
the `debug_assert_eq!` on the entry's slot is compiled out of a release build. -/
def insertTransactionStatus (c : StatusCache T) (slot : Nat) (signature : Signature)
    (status : T) : StatusCache T :=
  let cache :=
    if c.transactionStatusCache.length ≤ slot then
      c.transactionStatusCache ++ [(slot, fun _ => none)]
    else c.transactionStatusCache
  { c with
    transactionStatusCache :=
      cache.modifyLast fun entry => (entry.1, Function.update entry.2 signature (some status)) }

/-- `purge_roots`; `none` where `slot % (max_cache_entries / 2)` divides by zero. -/
def purgeRoots (c : StatusCache T) (slot : Nat) : Option (StatusCache T) :=
  if c.maxCacheEntries / 2 = 0 then none
  else if slot % (c.maxCacheEntries / 2) = 0 then
    if slot ≤ c.maxCacheEntries then some c
    else
      let min := slot - c.maxCacheEntries
      some { c with transactionStatusCache := c.transactionStatusCache.filter fun entry => min < entry.1 }
  else some c

def addRoot (c : StatusCache T) (fork : Nat) : Option (StatusCache T) :=
  c.purgeRoots fork

/-- The slots of the entries, in vector order. -/
def slots (c : StatusCache T) : List Nat :=
  c.transactionStatusCache.map Prod.fst

theorem handleIter_eq_none_iff {signature : Signature} {entries : List (Nat × (Signature → Option T))} :
    handleIter signature entries = none ↔ ∀ entry ∈ entries, entry.2 signature = none := by
  induction entries with
  | nil => simp [handleIter]
  | cons entry rest ih =>
    obtain ⟨slot, map⟩ := entry
    cases found : map signature with
    | some needle => simp [handleIter, found]
    | none => simp [handleIter, found, ih]

private theorem map_modifyLast {α β : Type} (f : α → α) (g : α → β) (keeps : ∀ a, g (f a) = g a)
    (l : List α) : (l.modifyLast f).map g = l.map g := by
  rcases l.eq_nil_or_concat' with rfl | ⟨pre, a, rfl⟩
  · rfl
  · simp [List.modifyLast_concat, keeps]

/-- An insert adds an entry of its slot or keeps the slots as they are. -/
@[simp] theorem slots_insertTransactionStatus (c : StatusCache T) (slot : Nat) (signature : Signature)
    (status : T) :
    (c.insertTransactionStatus slot signature status).slots =
      if c.transactionStatusCache.length ≤ slot then c.slots ++ [slot] else c.slots := by
  unfold insertTransactionStatus slots
  dsimp only
  rw [map_modifyLast _ Prod.fst (by intro; rfl)]
  split <;> simp

theorem insertTransactionStatus_of_length_le {c : StatusCache T} {slot : Nat}
    (fresh : c.transactionStatusCache.length ≤ slot) (signature : Signature) (status : T) :
    (c.insertTransactionStatus slot signature status).transactionStatusCache =
      c.transactionStatusCache ++ [(slot, Function.update (fun _ => none) signature (some status))] := by
  simp only [insertTransactionStatus, if_pos fresh, List.modifyLast_concat]

theorem insertTransactionStatus_of_lt_length {c : StatusCache T} {slot : Nat} {pre entry}
    (entries : c.transactionStatusCache = pre ++ [entry])
    (within : slot < c.transactionStatusCache.length) (signature : Signature) (status : T) :
    (c.insertTransactionStatus slot signature status).transactionStatusCache =
      pre ++ [(entry.1, Function.update entry.2 signature (some status))] := by
  have crowded : ¬ (pre ++ [entry]).length ≤ slot := by
    rw [← entries]
    omega
  simp only [insertTransactionStatus, entries, if_neg crowded, List.modifyLast_concat]

/-- A purge that does not panic keeps the slots or drops those up to some `min`. -/
theorem purgeRoots_eq_some {c c' : StatusCache T} {slot : Nat} (h : c.purgeRoots slot = some c') :
    c'.maxCacheEntries = c.maxCacheEntries ∧
      (c'.slots = c.slots ∨ ∃ min, c'.slots = c.slots.filter fun s => min < s) := by
  unfold purgeRoots at h
  split at h
  · cases h
  · split at h
    · split at h
      · cases h
        exact ⟨rfl, .inl rfl⟩
      · cases h
        refine ⟨rfl, .inr ⟨slot - c.maxCacheEntries, ?_⟩⟩
        simp only [slots, List.filter_map]
        rfl
    · cases h
      exact ⟨rfl, .inl rfl⟩

/-- Up to `max_cache_entries`, a purge keeps everything. -/
theorem purgeRoots_of_le {c : StatusCache T} {slot : Nat} (two_le : 2 ≤ c.maxCacheEntries)
    (young : slot ≤ c.maxCacheEntries) : c.purgeRoots slot = some c := by
  have nonzero : c.maxCacheEntries / 2 ≠ 0 := by omega
  unfold purgeRoots
  simp [nonzero, young]

/-! ## The order of the entries -/

/-- What every run keeps of the slots of the entries: they are in order, none is past the
bank's slot, and there are no more entries than some entry's slot plus one. -/
structure Ordered (slots : List Nat) (slot : Nat) : Prop where
  sorted : slots.Pairwise (· ≤ ·)
  le_slot : ∀ s ∈ slots, s ≤ slot
  short : slots = [] ∨ ∃ s ∈ slots, slots.length ≤ s + 1

namespace Ordered

variable {slots : List Nat} {slot : Nat}

theorem mono (ord : Ordered slots slot) {slot' : Nat} (later : slot ≤ slot') : Ordered slots slot' :=
  ⟨ord.sorted, fun s mem => (ord.le_slot s mem).trans later, ord.short⟩

theorem push (ord : Ordered slots slot) (fresh : slots.length ≤ slot) : Ordered (slots ++ [slot]) slot where
  sorted := List.pairwise_append.mpr
    ⟨ord.sorted, List.pairwise_singleton _ _, fun s mem _ last => by
      rw [List.mem_singleton.mp last]
      exact ord.le_slot s mem⟩
  le_slot s mem := by
    rcases List.mem_append.mp mem with mem | last
    · exact ord.le_slot s mem
    · exact (List.mem_singleton.mp last).le
  short := .inr ⟨slot, by simp, by simpa using fresh⟩

/-- Dropping the old entries keeps the order; a kept entry is younger than any dropped one. -/
theorem filter (ord : Ordered slots slot) (min : Nat) :
    Ordered (slots.filter fun s => min < s) slot where
  sorted := ord.sorted.filter _
  le_slot s mem := ord.le_slot s (List.mem_of_mem_filter mem)
  short := by
    by_cases empty : slots.filter (fun s => min < s) = []
    · exact .inl empty
    obtain ⟨kept, keptMem⟩ := List.exists_mem_of_ne_nil _ empty
    have shorter := List.length_filter_le (fun s => min < s) slots
    rcases ord.short with rfl | ⟨s, mem, long⟩
    · exact .inl rfl
    by_cases young : min < s
    · exact .inr ⟨s, List.mem_filter.mpr ⟨mem, by simpa using young⟩, by omega⟩
    · have : min < kept := by simpa using (List.mem_filter.mp keptMem).2
      exact .inr ⟨kept, keptMem, by omega⟩

/-- Once there are more entries than the slot number, the last entry is of that slot. -/
theorem getLast?_eq (ord : Ordered slots slot) (crowded : slot < slots.length) :
    slots.getLast? = some slot := by
  rcases slots.eq_nil_or_concat' with rfl | ⟨pre, last, rfl⟩
  · cases crowded
  have lastLe : last ≤ slot := ord.le_slot last (by simp)
  -- the long entry reaches the slot, and the last entry is at least as late
  have reached : slot ≤ last := by
    rcases ord.short with empty | ⟨s, mem, long⟩
    · simp at empty
    have before : s ≤ last := by
      rcases List.mem_append.mp mem with inPre | isLast
      · exact (List.pairwise_append.mp ord.sorted).2.2 s inPre last (List.mem_singleton_self last)
      · exact (List.mem_singleton.mp isLast).le
    omega
  simp [Nat.le_antisymm lastLe reached]

end Ordered

theorem Ordered.insertTransactionStatus {c : StatusCache T} {slot : Nat} (ord : Ordered c.slots slot)
    (signature : Signature) (status : T) :
    Ordered (c.insertTransactionStatus slot signature status).slots slot := by
  rw [slots_insertTransactionStatus]
  split
  · next fresh => exact ord.push (by simpa [slots] using fresh)
  · exact ord

/-- An insert at the bank's slot lands in an entry of that slot, the last one: the
`debug_assert_eq!` of `insert_transaction_status` holds on every run. -/
theorem Ordered.insertTransactionStatus_getLast? {c : StatusCache T} {slot : Nat}
    (ord : Ordered c.slots slot) (signature : Signature) (status : T) :
    ∃ map, (c.insertTransactionStatus slot signature status).transactionStatusCache.getLast? =
      some (slot, map) ∧ map signature = some status := by
  by_cases fresh : c.transactionStatusCache.length ≤ slot
  · rw [insertTransactionStatus_of_length_le fresh]
    exact ⟨Function.update (fun _ => none) signature (some status), by simp, by simp⟩
  · have crowded : slot < c.slots.length := by simpa [slots] using fresh
    obtain ⟨pre, entry, entries⟩ := c.transactionStatusCache.eq_nil_or_concat'.resolve_left
      (by rintro empty; simp [empty] at fresh)
    have lastSlot : entry.1 = slot := by
      have := ord.getLast?_eq crowded
      simpa [slots, entries] using this
    rw [insertTransactionStatus_of_lt_length entries (by omega), lastSlot]
    exact ⟨Function.update entry.2 signature (some status), by simp, by simp⟩

/-- A root at or before the bank's slot keeps the entries ordered up to any later slot. -/
theorem Ordered.addRoot {c c' : StatusCache T} {slot fork slot' : Nat} (ord : Ordered c.slots slot)
    (rooted : c.addRoot fork = some c') (later : slot ≤ slot') : Ordered c'.slots slot' := by
  rcases (purgeRoots_eq_some rooted).2 with same | ⟨min, purged⟩
  · rw [same]
    exact ord.mono later
  · rw [purged]
    exact (ord.filter min).mono later

end StatusCache

/-! ## The lookback -/

namespace StatusCache

variable {T : Type}

/-- In a list of strictly decreasing slots none of which is past `bound`, the entry at
position `i` is at least `i` slots before `bound`. -/
private theorem add_index_le {entries : List (Nat × (Signature → Option T))} {bound : Nat}
    (decreasing : entries.Pairwise fun a b => b.1 < a.1) (bounded : ∀ e ∈ entries, e.1 ≤ bound)
    (i : Nat) (within : i < entries.length) : entries[i].1 + i ≤ bound := by
  induction entries generalizing bound i with
  | nil => cases within
  | cons first rest ih =>
    cases i with
    | zero => exact bounded first (by simp)
    | succ j =>
      obtain ⟨later, decreasing⟩ := List.pairwise_cons.mp decreasing
      have jWithin : j < rest.length := by simpa using within
      -- the rest is bounded by the slot before the first entry's
      have inRest := @ih (first.1 - 1) decreasing
        (fun e mem => by have := later e mem; omega) j jWithin
      have firstLe := bounded first (by simp)
      have restLt := later rest[j] (List.getElem_mem _)
      simp only [List.getElem_cons_succ]
      omega

/-- With one entry per slot, the lookback of `lookback` entries finds every signature
recorded fewer than `lookback` slots before the current one. -/
theorem getRecentTransactionStatus_isSome_of_increasing {c : StatusCache T} {current lookback : Nat}
    {signature : Signature}
    (increasing : c.transactionStatusCache.Pairwise fun a b => a.1 < b.1)
    (notLater : ∀ e ∈ c.transactionStatusCache, e.1 ≤ current)
    (recorded : ∃ slot map, (slot, map) ∈ c.transactionStatusCache ∧ (map signature).isSome ∧
      current - slot < lookback) :
    (c.getRecentTransactionStatus signature (some lookback)).isSome := by
  obtain ⟨slot, map, mem, found, recent⟩ := recorded
  obtain ⟨i, within, atI⟩ := List.getElem_of_mem (List.mem_reverse.mpr mem)
  have position := add_index_le (List.pairwise_reverse.mpr increasing)
    (fun e mem => notLater e (List.mem_reverse.mp mem)) i within
  rw [atI] at position
  have inWindow : (slot, map) ∈ c.transactionStatusCache.reverse.take lookback := by
    rw [← atI]
    have inTake : i < (c.transactionStatusCache.reverse.take lookback).length := by
      rw [List.length_take]
      omega
    exact List.mem_iff_getElem.mpr ⟨i, inTake, List.getElem_take⟩
  simp only [getRecentTransactionStatus, Option.isSome_iff_ne_none, Ne, handleIter_eq_none_iff]
  intro missing
  have absent : map signature = none := missing _ inWindow
  rw [absent] at found
  cases found

/-- Entries of slots 1, 2 and 3, and a signature recorded at slot 1: from slot 3 the
lookback of three entries finds it. -/
theorem getRecentTransactionStatus_isSome_of_three_slots :
    let c : StatusCache Unit :=
      ⟨[(1, Function.update (fun _ => none) (FixedBytes.zero 64) (some ())), (2, fun _ => none), (3, fun _ => none)], 3⟩
    (c.getRecentTransactionStatus (FixedBytes.zero 64) (some 3)).isSome := by
  intro c
  exact @getRecentTransactionStatus_isSome_of_increasing Unit c 3 3 (FixedBytes.zero 64) (by decide) (by decide)
    ⟨1, _, List.mem_cons_self, by simp, by decide⟩

end StatusCache

/-! ## The bank -/

/-- The parts of `Bank` the status cache is driven by: its slot, `max_age` (the lookback of
`check_status_cache`) and the cache. -/
structure Bank (T : Type) where
  slot : Nat
  maxAge : Nat
  statusCache : StatusCache T

namespace Bank

variable {T : Type}

/-- `Bank::new` at slot 0, with the cache's `max_cache_entries` set to `max_age`. -/
def new (maxAge : Nat) : Bank T := ⟨0, maxAge, StatusCache.new maxAge⟩

/-- `advance_slot`: the next slot, and the previous one becomes a root. -/
def advanceSlot (b : Bank T) : Option (Bank T) :=
  let prevSlot := b.slot
  (b.statusCache.addRoot prevSlot).map fun statusCache =>
    { b with slot := prevSlot + 1, statusCache := statusCache }

def replaySlot (b : Bank T) (nextSlot : Nat) : Option (Bank T) :=
  if 0 < nextSlot then
    (b.statusCache.addRoot (nextSlot - 1)).map fun statusCache =>
      { b with slot := nextSlot, statusCache := statusCache }
  else some { b with slot := nextSlot }

/-- `update_transaction_statuses` for the executed transactions (those with details), as
signature and status, each recorded at the bank's slot. -/
def updateTransactionStatuses (b : Bank T) (executed : List (Signature × T)) : Bank T :=
  { b with
    statusCache := executed.foldl (fun c tx => c.insertTransactionStatus b.slot tx.1 tx.2) b.statusCache }

def isTransactionAlreadyProcessed (b : Bank T) (signature : Signature) : Bool :=
  (b.statusCache.getRecentTransactionStatus signature (some b.maxAge)).isSome

/-- `check_status_cache` on the signatures and age results of a batch. -/
def checkStatusCache (b : Bank T) (txs : List (Signature × Except TransactionError Unit)) :
    List (Except TransactionError Unit) :=
  txs.map fun tx =>
    if tx.2.isOk && b.isTransactionAlreadyProcessed tx.1 then .error .alreadyProcessed else tx.2

/-- What the bank does to the status cache. -/
inductive Op (T : Type) where
  | advanceSlot
  | replaySlot (nextSlot : Nat)
  | updateTransactionStatuses (executed : List (Signature × T))

def step (b : Bank T) : Op T → Option (Bank T)
  | .advanceSlot => b.advanceSlot
  | .replaySlot nextSlot => b.replaySlot nextSlot
  | .updateTransactionStatuses executed => some (b.updateTransactionStatuses executed)

def run (b : Bank T) (ops : List (Op T)) : Option (Bank T) :=
  ops.foldlM step b

/-- The slot never goes back: `process_ledger` replays the slots 0, 1, 2, … in order. -/
def Forward (b : Bank T) : Op T → Prop
  | .replaySlot nextSlot => b.slot ≤ nextSlot
  | _ => True

/-- The banks a run reaches from `Bank::new`. -/
inductive Reachable : Bank T → Prop
  | new (maxAge : Nat) : Reachable (Bank.new maxAge)
  | step {b b' : Bank T} {op : Op T} : Reachable b → b.step op = some b' → Forward b op → Reachable b'

theorem ordered_updateTransactionStatuses {b : Bank T} (ord : StatusCache.Ordered b.statusCache.slots b.slot)
    (executed : List (Signature × T)) :
    StatusCache.Ordered (b.updateTransactionStatuses executed).statusCache.slots b.slot := by
  unfold updateTransactionStatuses
  dsimp only
  -- each insert is at the bank's slot, which the fold does not move
  induction executed generalizing b with
  | nil => exact ord
  | cons tx rest ih =>
    exact ih (b := { b with statusCache := b.statusCache.insertTransactionStatus b.slot tx.1 tx.2 })
      (ord.insertTransactionStatus tx.1 tx.2)

/-- One step of a run keeps the entries ordered. -/
theorem ordered_step {b b' : Bank T} {op : Op T} (ord : StatusCache.Ordered b.statusCache.slots b.slot)
    (forward : Forward b op) (stepped : b.step op = some b') :
    StatusCache.Ordered b'.statusCache.slots b'.slot := by
  cases op with
  | advanceSlot =>
    obtain ⟨c', rooted, rfl⟩ := Option.map_eq_some_iff.mp stepped
    exact ord.addRoot rooted (Nat.le_succ _)
  | replaySlot nextSlot =>
    change b.slot ≤ nextSlot at forward
    change b.replaySlot nextSlot = some b' at stepped
    unfold replaySlot at stepped
    split at stepped
    · obtain ⟨c', rooted, rfl⟩ := Option.map_eq_some_iff.mp stepped
      exact ord.addRoot rooted forward
    · cases stepped
      exact ord.mono forward
  | updateTransactionStatuses executed =>
    cases stepped
    exact ordered_updateTransactionStatuses ord executed

/-- On every run the entries of the cache are in slot order and none is past the bank's
slot, so every insert at the bank's slot lands in an entry of that slot. -/
theorem Reachable.ordered {b : Bank T} (reachable : Reachable b) :
    StatusCache.Ordered b.statusCache.slots b.slot := by
  induction reachable with
  | new maxAge => exact ⟨List.Pairwise.nil, nofun, .inl rfl⟩
  | step _ stepped forward ord => exact ordered_step ord forward stepped

/-! ## A resubmission the lookback misses -/

theorem run_append (b : Bank T) (ops ops' : List (Op T)) :
    b.run (ops ++ ops') = (b.run ops).bind fun b => b.run ops' := by
  simp only [run, List.foldlM_append]
  rfl

theorem run_singleton (b : Bank T) (op : Op T) : b.run [op] = b.step op := by
  simp [run]

/-- Up to `max_age`, a slot advance purges nothing. -/
theorem advanceSlot_of_young {b : Bank T} (two_le : 2 ≤ b.statusCache.maxCacheEntries)
    (young : b.slot ≤ b.statusCache.maxCacheEntries) :
    b.advanceSlot = some { b with slot := b.slot + 1 } := by
  simp [advanceSlot, StatusCache.addRoot, StatusCache.purgeRoots_of_le two_le young]

/-- The first `max_age` slot advances of a new bank leave its cache empty. -/
theorem run_replicate_advanceSlot {maxAge k : Nat} (two_le : 2 ≤ maxAge) (young : k ≤ maxAge) :
    (Bank.new maxAge : Bank T).run (List.replicate k .advanceSlot) = some ⟨k, maxAge, .new maxAge⟩ ∧
      Reachable (⟨k, maxAge, .new maxAge⟩ : Bank T) := by
  induction k with
  | zero => exact ⟨rfl, .new maxAge⟩
  | succ k ih =>
    obtain ⟨ran, reachable⟩ := ih (by omega)
    have advanced : (⟨k, maxAge, .new maxAge⟩ : Bank T).step .advanceSlot =
        some ⟨k + 1, maxAge, .new maxAge⟩ :=
      advanceSlot_of_young two_le (by simp [StatusCache.new]; omega)
    refine ⟨?_, .step reachable advanced trivial⟩
    rw [List.replicate_succ', run_append, ran, Option.bind_some, run_singleton]
    exact advanced

/-- While there are no more entries than the slot number, every insert opens an entry of
its own. -/
theorem foldl_insertTransactionStatus_of_fresh {c : StatusCache T} {slot : Nat}
    {executed : List (Signature × T)} (fresh : c.transactionStatusCache.length + executed.length ≤ slot + 1) :
    (executed.foldl (fun c tx => c.insertTransactionStatus slot tx.1 tx.2) c).transactionStatusCache =
      c.transactionStatusCache ++
        executed.map fun tx => (slot, Function.update (fun _ => none) tx.1 (some tx.2)) := by
  induction executed generalizing c with
  | nil => simp
  | cons tx rest ih =>
    have opens : c.transactionStatusCache.length ≤ slot := by
      simp only [List.length_cons] at fresh
      omega
    rw [List.foldl_cons, ih, StatusCache.insertTransactionStatus_of_length_le opens]
    · simp
    · rw [StatusCache.insertTransactionStatus_of_length_le opens]
      simp only [List.length_cons] at fresh
      simp only [List.length_append, List.length_singleton]
      omega

/-- For every `max_age` of at least 2: a new bank that advances `max_age` slots and then
executes `max_age + 1` transactions opens an entry for each of them in the same slot, and
the lookback of `max_age` entries no longer sees the first one, so `check_status_cache`
lets it through again although it was recorded in the current slot. -/
theorem status_cache_misses_recent_signature (maxAge : Nat) (signature : Signature) (status : T)
    (others : List (Signature × T)) (two_le : 2 ≤ maxAge) (enough : others.length = maxAge)
    (distinct : signature ∉ others.map Prod.fst) :
    ∃ b, (Bank.new maxAge).run (List.replicate maxAge .advanceSlot ++
        [.updateTransactionStatuses ((signature, status) :: others)]) = some b ∧
      Reachable b ∧ b.slot = maxAge ∧
      b.statusCache.slots = List.replicate (maxAge + 1) maxAge ∧
      (∃ map, (b.slot, map) ∈ b.statusCache.transactionStatusCache ∧ map signature = some status) ∧
      b.statusCache.getRecentTransactionStatus signature (some b.maxAge) = none ∧
      b.checkStatusCache [(signature, .ok ())] = [.ok ()] := by
  obtain ⟨advanced, reachable⟩ := run_replicate_advanceSlot (T := T) two_le (Nat.le_refl maxAge)
  let fresh : Signature × T → Nat × (Signature → Option T) := fun tx =>
    (maxAge, Function.update (fun _ => none) tx.1 (some tx.2))
  -- one entry per transaction, all of the slot `max_age`
  have entries : ((⟨maxAge, maxAge, .new maxAge⟩ : Bank T).updateTransactionStatuses
      ((signature, status) :: others)).statusCache.transactionStatusCache =
      fresh (signature, status) :: others.map fresh :=
    foldl_insertTransactionStatus_of_fresh (by simp [StatusCache.new, enough])
  have missed : ((⟨maxAge, maxAge, .new maxAge⟩ : Bank T).updateTransactionStatuses
      ((signature, status) :: others)).statusCache.getRecentTransactionStatus signature (some maxAge) = none := by
    simp only [StatusCache.getRecentTransactionStatus, entries, List.reverse_cons]
    rw [List.take_left' (by simp [enough]), StatusCache.handleIter_eq_none_iff]
    intro entry mem
    obtain ⟨tx, txMem, rfl⟩ := List.mem_map.mp (List.mem_reverse.mp mem)
    have differs : signature ≠ tx.1 := fun same => distinct (List.mem_map.mpr ⟨tx, txMem, same.symm⟩)
    show Function.update (fun _ => none) tx.1 (some tx.2) signature = none
    exact Function.update_of_ne differs _ _
  have stepped : (⟨maxAge, maxAge, .new maxAge⟩ : Bank T).step
      (.updateTransactionStatuses ((signature, status) :: others)) =
      some ((⟨maxAge, maxAge, .new maxAge⟩ : Bank T).updateTransactionStatuses ((signature, status) :: others)) :=
    rfl
  refine ⟨_, ?_, .step reachable stepped trivial, rfl, ?_,
    ⟨Function.update (fun _ => none) signature (some status), ?_, Function.update_self _ _ _⟩, missed, ?_⟩
  · rw [run_append, advanced, Option.bind_some, run_singleton]
    exact stepped
  · have slotOnly : (Prod.fst ∘ fresh) = fun _ => maxAge := rfl
    simp only [StatusCache.slots, entries, List.map_cons, List.map_map, slotOnly, List.map_const', enough]
    rfl
  · rw [entries]
    exact List.mem_cons_self
  · simp only [checkStatusCache, isTransactionAlreadyProcessed, List.map_cons, List.map_nil]
    simp [Except.isOk, Except.toBool]
    exact missed

/-- With `max_age = 2`: three transactions in slot 2, and the first is let through again. -/
theorem status_cache_misses_recent_signature_at_two :
    ∃ b, (Bank.new 2 : Bank Unit).run (List.replicate 2 .advanceSlot ++
        [.updateTransactionStatuses [(FixedBytes.replicate 64 0, ()), (FixedBytes.replicate 64 1, ()),
          (FixedBytes.replicate 64 2, ())]]) = some b ∧
      Reachable b ∧ b.slot = 2 ∧ b.statusCache.slots = [2, 2, 2] ∧
      (∃ map, (b.slot, map) ∈ b.statusCache.transactionStatusCache ∧
        map (FixedBytes.replicate 64 0) = some ()) ∧
      b.statusCache.getRecentTransactionStatus (FixedBytes.replicate 64 0) (some b.maxAge) = none ∧
      b.checkStatusCache [(FixedBytes.replicate 64 0, .ok ())] = [.ok ()] :=
  status_cache_misses_recent_signature 2 _ ()
    [(FixedBytes.replicate 64 1, ()), (FixedBytes.replicate 64 2, ())] (by decide) rfl (by decide)

end Bank

end EphemeralValidator
