import Mathlib.Algebra.Order.BigOperators.Group.List
import Mathlib.Algebra.Order.Group.Nat
import Mathlib.Tactic.Ring
import Mathlib.Data.List.Induction
import EphemeralValidator.Lib.Interleaving

/-! # `ExpiringHashMap`

The geyser plugin caches the last update of every account in an `ExpiringHashMap`: a
`HashMap` from key to the value and a count, and a buffer of the keys with the
timestamps they were inserted at, oldest first.  `insert` stores the value, pushes the
key, counts the prefix of the buffer that has expired, drains it, and decrements the
counts of the drained keys, removing a key whose count reaches zero.  Each of those
steps takes one of the two locks and releases it, so calls on different threads
interleave between them.

Run one at a time, the calls keep every count equal to the key's entries in the buffer,
never panic, and only drop expired entries.  Interleaved, the counts still balance (the
entries a call holds between its steps included), and no count underflows; but two calls
can count the same expired prefix, and the second drain then removes fresh entries, or
panics on a range past the end of the buffer.

One at a time and with the timestamps in order, the calls leave exactly what they should:
`get_cloned` gives the value of a key's last insert while that insert is live at the latest
call, and nothing otherwise (`insertAll_getCloned`), as long as no timestamp plus the time to
live passes `u64::MAX`.

Timestamps and the time to live are `u64`s, held as `Nat`s; the expiry check adds them as
`u64`s do in a release build, modulo `2 ^ 64`.  When the sum wraps, a live entry looks expired,
and a key is drained by the very insert that stored it (`insert_forgets_key_when_expiry_wraps`).
-/

namespace EphemeralValidator.Utils

open EphemeralValidator.Lib

/-- `CountedEntry`: the value and the number of the buffer's entries for its key. -/
structure CountedEntry (V : Type) where
  value : V
  count : Nat

/-- `TimestampedKey`. -/
structure TimestampedKey (K : Type) where
  key : K
  ts : Nat

/-- `ExpiringHashMap`: the map, the buffer, oldest entry first, and the time to live. -/
structure ExpiringHashMap (K V : Type) where
  map : K → Option (CountedEntry V)
  vec : List (TimestampedKey K)
  ttl : Nat

namespace ExpiringHashMap

variable {K V : Type} [DecidableEq K]

def new (ttl : Nat) : ExpiringHashMap K V := ⟨fun _ => none, [], ttl⟩

/-- `get_cloned`, and `SharedMap::get` on the same map. -/
def getCloned (m : ExpiringHashMap K V) (key : K) : Option V :=
  (m.map key).map (·.value)

def mapInsertOrIncreaseCount (map : K → Option (CountedEntry V)) (key : K) (value : V) :
    K → Option (CountedEntry V) :=
  match map key with
  | some entry => Function.update map key (some { entry with count := entry.count + 1, value := value })
  | none => Function.update map key (some ⟨value, 1⟩)

/-- The `while let` loop of `insert`: the length of the expired prefix of the buffer. -/
def nKeysToDrain (ttl ts : Nat) : List (TimestampedKey K) → Nat
  | [] => 0
  -- `ts_entry.ts + self.ttl` is a `u64` sum
  | entry :: rest => if (entry.ts + ttl) % 2 ^ 64 > ts then 0 else nKeysToDrain ttl ts rest + 1

/-- `vec.drain(0..n)`, which panics when `n` is past the end. -/
def drain (vec : List (TimestampedKey K)) (n : Nat) : Option (List K × List (TimestampedKey K)) :=
  if n ≤ vec.length then some ((vec.take n).map (·.key), vec.drop n) else none

/-- The body of the loop of `map_decrease_count_and_maybe_remove`, for one key; `none`
where `entry.count -= 1` underflows. -/
def decreaseCountAndMaybeRemove (map : K → Option (CountedEntry V)) (key : K) :
    Option (K → Option (CountedEntry V)) :=
  match map key with
  | some entry =>
    if entry.count = 0 then none
    else if entry.count - 1 = 0 then some (Function.update map key none)
    else some (Function.update map key (some { entry with count := entry.count - 1 }))
  | none => some map

/-- `map_decrease_count_and_maybe_remove`. -/
def mapDecreaseCountAndMaybeRemove (map : K → Option (CountedEntry V)) :
    List K → Option (K → Option (CountedEntry V))
  | [] => some map
  | key :: keys => (decreaseCountAndMaybeRemove map key).bind fun map => mapDecreaseCountAndMaybeRemove map keys

/-- `insert`, run without another call in between; `none` is a panic. -/
def insert (m : ExpiringHashMap K V) (key : K) (value : V) (ts : Nat) : Option (ExpiringHashMap K V) :=
  let map := mapInsertOrIncreaseCount m.map key value
  let vec := m.vec ++ [⟨key, ts⟩]
  let n := nKeysToDrain m.ttl ts vec
  if 0 < n then
    match drain vec n with
    | none => none
    | some (keys, vec) => (mapDecreaseCountAndMaybeRemove map keys).map fun map => ⟨map, vec, m.ttl⟩
  else some ⟨map, vec, m.ttl⟩

/-! ## `insert` on a thread

Each phase is one critical section of `insert`: the map's write lock, the buffer's write
lock for the push, its read lock for the count, its write lock for the drain, and the
map's write lock for the decrements. -/

inductive InsertPhase (K : Type) where
  | mapInsert
  | vecPush
  | count
  | drain (n : Nat)
  | decrease (keys : List K)
  | done
  deriving DecidableEq

/-- A call of `insert` and the critical section it is at. -/
structure InsertCall (K V : Type) where
  key : K
  value : V
  ts : Nat
  phase : InsertPhase K

/-- The next critical section of a call. -/
def insertStep (m : ExpiringHashMap K V) (call : InsertCall K V) :
    Option (ExpiringHashMap K V × InsertCall K V) :=
  match call.phase with
  | .mapInsert =>
    some ({ m with map := mapInsertOrIncreaseCount m.map call.key call.value }, { call with phase := .vecPush })
  | .vecPush => some ({ m with vec := m.vec ++ [⟨call.key, call.ts⟩] }, { call with phase := .count })
  | .count =>
    let n := nKeysToDrain m.ttl call.ts m.vec
    some (m, { call with phase := if 0 < n then .drain n else .done })
  | .drain n =>
    (drain m.vec n).map fun drained => ({ m with vec := drained.2 }, { call with phase := .decrease drained.1 })
  | .decrease keys =>
    (mapDecreaseCountAndMaybeRemove m.map keys).map fun map => ({ m with map := map }, { call with phase := .done })
  | .done => some (m, call)

/-! ## Counts -/

/-- The count the map holds for a key, zero when it holds none. -/
def countOf : Option (CountedEntry V) → Nat
  | some entry => entry.count
  | none => 0

/-- No entry of the map has the count zero. -/
def Positive (map : K → Option (CountedEntry V)) : Prop :=
  ∀ k entry, map k = some entry → 0 < entry.count

/-- How many of the buffer's entries are for `k`. -/
def keyCount (vec : List (TimestampedKey K)) (k : K) : Nat :=
  (vec.map (·.key)).count k

/-- The buffer entries a call holds between two critical sections: its own key between
the map insert and the push, and the drained keys before their decrements. -/
def InsertCall.held (call : InsertCall K V) (k : K) : Nat :=
  match call.phase with
  | .vecPush => if call.key = k then 1 else 0
  | .decrease keys => keys.count k
  | _ => 0

/-- Every key's count is its entries in the buffer and in the calls' hands. -/
structure Balanced (m : ExpiringHashMap K V) (calls : List (InsertCall K V)) : Prop where
  count : ∀ k, countOf (m.map k) = keyCount m.vec k + (calls.map (·.held k)).sum
  positive : Positive m.map

theorem keyCount_append (vec vec' : List (TimestampedKey K)) (k : K) :
    keyCount (vec ++ vec') k = keyCount vec k + keyCount vec' k := by
  simp [keyCount, List.count_append]

theorem keyCount_singleton (entry : TimestampedKey K) (k : K) :
    keyCount [entry] k = if entry.key = k then 1 else 0 := by
  by_cases same : entry.key = k <;> simp [keyCount, same]

/-- Inserting sets the value and counts one more entry. -/
theorem mapInsertOrIncreaseCount_eq (map : K → Option (CountedEntry V)) (key : K) (value : V) :
    mapInsertOrIncreaseCount map key value =
      Function.update map key (some ⟨value, countOf (map key) + 1⟩) := by
  unfold mapInsertOrIncreaseCount
  cases map key <;> rfl

theorem countOf_mapInsertOrIncreaseCount (map : K → Option (CountedEntry V)) (key : K) (value : V)
    (k : K) :
    countOf (mapInsertOrIncreaseCount map key value k) = countOf (map k) + if key = k then 1 else 0 := by
  rw [mapInsertOrIncreaseCount_eq]
  by_cases same : key = k
  · subst same
    simp [countOf]
  · rw [Function.update_of_ne (Ne.symm same), if_neg same, Nat.add_zero]

/-- Replacing one key's entry by one with a positive count, or by none, keeps the map positive. -/
theorem Positive.update {map : K → Option (CountedEntry V)} (positive : Positive map) {key : K}
    {new : Option (CountedEntry V)} (positiveNew : ∀ entry, new = some entry → 0 < entry.count) :
    Positive (Function.update map key new) := by
  intro k entry found
  by_cases same : k = key
  · subst same
    rw [Function.update_self] at found
    exact positiveNew entry found
  · rw [Function.update_of_ne same] at found
    exact positive k entry found

theorem Positive.mapInsertOrIncreaseCount {map : K → Option (CountedEntry V)} (positive : Positive map)
    (key : K) (value : V) : Positive (mapInsertOrIncreaseCount map key value) := by
  rw [mapInsertOrIncreaseCount_eq]
  refine positive.update fun entry added => ?_
  rw [Option.some.injEq] at added
  rw [← added]
  exact Nat.succ_pos _

/-- A decrement of a key the map holds with a nonzero count: the key goes when its count
reaches zero, and its count drops by one otherwise. -/
theorem decreaseCountAndMaybeRemove_of_some {map : K → Option (CountedEntry V)} {key : K}
    {entry : CountedEntry V} (held : map key = some entry) (nonzero : entry.count ≠ 0) :
    decreaseCountAndMaybeRemove map key = some (Function.update map key
      (if entry.count - 1 = 0 then none else some { entry with count := entry.count - 1 })) := by
  unfold decreaseCountAndMaybeRemove
  rw [held]
  dsimp only
  rw [if_neg nonzero]
  split_ifs <;> rfl

/-- What one decrement can do: leave a map that lacks the key as it is, or lower the key's
nonzero count as `decreaseCountAndMaybeRemove_of_some` says. -/
theorem decreaseCountAndMaybeRemove_cases {map map' : K → Option (CountedEntry V)} {key : K}
    (decreased : decreaseCountAndMaybeRemove map key = some map') :
    map' = map ∨ ∃ entry, map key = some entry ∧ entry.count ≠ 0 ∧ map' = Function.update map key
      (if entry.count - 1 = 0 then none else some { entry with count := entry.count - 1 }) := by
  cases held : map key with
  | none =>
    unfold decreaseCountAndMaybeRemove at decreased
    rw [held, Option.some.injEq] at decreased
    exact .inl decreased.symm
  | some entry =>
    by_cases zero : entry.count = 0
    · -- the count zero is the panic of the source
      unfold decreaseCountAndMaybeRemove at decreased
      simp [held, zero] at decreased
    · rw [decreaseCountAndMaybeRemove_of_some held zero, Option.some.injEq] at decreased
      exact .inr ⟨entry, rfl, zero, decreased.symm⟩

/-- Replacing a key's entry by one that counts one less changes only that key's count. -/
theorem countOf_update_of_succ {map : K → Option (CountedEntry V)} {key : K} {new : Option (CountedEntry V)}
    (dropped : countOf new + 1 = countOf (map key)) (k : K) :
    countOf (Function.update map key new k) + (if key = k then 1 else 0) = countOf (map k) := by
  by_cases same : key = k
  · subst same
    rw [Function.update_self, if_pos rfl, dropped]
  · rw [if_neg same, Function.update_of_ne (Ne.symm same), Nat.add_zero]

/-- One decrement, of a key the map holds: its count drops by one, and the key goes
when it reaches zero. -/
theorem decreaseCountAndMaybeRemove_eq_some {map : K → Option (CountedEntry V)} {key : K}
    (positive : Positive map) (present : 0 < countOf (map key)) :
    ∃ map', decreaseCountAndMaybeRemove map key = some map' ∧ Positive map' ∧
      ∀ k, countOf (map' k) + (if key = k then 1 else 0) = countOf (map k) := by
  cases held : map key with
  | none => simp [held, countOf] at present
  | some entry =>
    have nonzero : entry.count ≠ 0 := (positive key entry held).ne'
    refine ⟨_, decreaseCountAndMaybeRemove_of_some held nonzero, positive.update fun entry' kept => ?_,
      countOf_update_of_succ ?_⟩
    · -- a removal keeps no entry, so the one kept has the lowered count, which is not zero
      split_ifs at kept with last
      cases kept
      exact Nat.pos_of_ne_zero last
    · -- the count drops by one whether the key goes or stays
      rw [held]
      split_ifs with last <;> simp only [countOf] <;> omega

/-- Decrementing keys the map holds often enough never underflows, and takes each
key's count down by its occurrences. -/
theorem mapDecreaseCountAndMaybeRemove_eq_some {map : K → Option (CountedEntry V)} {keys : List K}
    (positive : Positive map) (enough : ∀ k, keys.count k ≤ countOf (map k)) :
    ∃ map', mapDecreaseCountAndMaybeRemove map keys = some map' ∧ Positive map' ∧
      ∀ k, countOf (map' k) + keys.count k = countOf (map k) := by
  induction keys generalizing map with
  | nil => exact ⟨map, rfl, positive, fun k => rfl⟩
  | cons key keys ih =>
    have present : 0 < countOf (map key) := by
      have := enough key
      simp only [List.count_cons_self] at this
      omega
    obtain ⟨map₁, decreased, positive₁, counts₁⟩ := decreaseCountAndMaybeRemove_eq_some positive present
    have enough₁ : ∀ k, keys.count k ≤ countOf (map₁ k) := by
      intro k
      have before := enough k
      have after := counts₁ k
      rw [List.count_cons] at before
      by_cases same : key = k <;> simp [same] at before after <;> omega
    obtain ⟨map', rest, positive', counts'⟩ := ih positive₁ enough₁
    refine ⟨map', by rw [mapDecreaseCountAndMaybeRemove, decreased, Option.bind_some, rest], positive',
      fun k => ?_⟩
    have after := counts₁ k
    have rest := counts' k
    rw [List.count_cons]
    by_cases same : key = k <;> simp [same] at after ⊢ <;> omega

/-! ## The expired prefix -/

section Prefix

omit [DecidableEq K]

theorem nKeysToDrain_le_length (ttl ts : Nat) (vec : List (TimestampedKey K)) :
    nKeysToDrain ttl ts vec ≤ vec.length := by
  induction vec with
  | nil => exact Nat.le_refl 0
  | cons entry rest ih =>
    unfold nKeysToDrain
    split_ifs
    · exact Nat.zero_le _
    · rw [List.length_cons]
      exact Nat.succ_le_succ ih

/-- Every entry of the counted prefix has expired. -/
theorem expired_of_mem_take {ttl ts : Nat} {vec : List (TimestampedKey K)} {entry : TimestampedKey K}
    (mem : entry ∈ vec.take (nKeysToDrain ttl ts vec)) : (entry.ts + ttl) % 2 ^ 64 ≤ ts := by
  induction vec with
  | nil => simp at mem
  | cons first rest ih =>
    unfold nKeysToDrain at mem
    split_ifs at mem with fresh
    · simp at mem
    · rw [List.take_succ_cons] at mem
      rcases List.mem_cons.mp mem with rfl | later
      · omega
      · exact ih later

end Prefix

theorem keyCount_take_drop (vec : List (TimestampedKey K)) (n : Nat) (k : K) :
    keyCount vec k = ((vec.take n).map (·.key)).count k + keyCount (vec.drop n) k := by
  have whole := keyCount_append (vec.take n) (vec.drop n) k
  rw [List.take_append_drop] at whole
  exact whole

/-! ## One critical section -/

/-- One critical section moves buffer entries between the counts, the buffer and the
call's hands, and loses none. -/
theorem insertStep_moves {m m' : ExpiringHashMap K V} {call call' : InsertCall K V}
    (positive : Positive m.map) (enough : ∀ k, call.held k ≤ countOf (m.map k))
    (h : insertStep m call = some (m', call')) :
    Positive m'.map ∧ ∀ k, countOf (m'.map k) + keyCount m.vec k + call.held k =
      countOf (m.map k) + keyCount m'.vec k + call'.held k := by
  obtain ⟨key, value, ts, phase⟩ := call
  cases phase with
  | mapInsert =>
    simp only [insertStep, Option.some.injEq, Prod.mk.injEq] at h
    obtain ⟨rfl, rfl⟩ := h
    refine ⟨positive.mapInsertOrIncreaseCount key value, fun k => ?_⟩
    simp only [countOf_mapInsertOrIncreaseCount, InsertCall.held]
    ring
  | vecPush =>
    simp only [insertStep, Option.some.injEq, Prod.mk.injEq] at h
    obtain ⟨rfl, rfl⟩ := h
    refine ⟨positive, fun k => ?_⟩
    simp only [keyCount_append, keyCount_singleton, InsertCall.held]
    ring
  | count =>
    simp only [insertStep, Option.some.injEq, Prod.mk.injEq] at h
    obtain ⟨rfl, rfl⟩ := h
    -- counting moves nothing, whether or not there is a prefix to drain
    refine ⟨positive, fun k => ?_⟩
    split <;> simp [InsertCall.held]
  | drain n =>
    simp only [insertStep, drain] at h
    split_ifs at h with within
    · simp only [Option.map_some, Option.some.injEq, Prod.mk.injEq] at h
      obtain ⟨rfl, rfl⟩ := h
      refine ⟨positive, fun k => ?_⟩
      simp only [InsertCall.held]
      rw [keyCount_take_drop m.vec n k]
      ring
    · cases h
  | decrease keys =>
    obtain ⟨map', decreased, positive', counts⟩ :=
      mapDecreaseCountAndMaybeRemove_eq_some positive fun k => enough k
    simp only [insertStep, decreased, Option.map_some, Option.some.injEq, Prod.mk.injEq] at h
    obtain ⟨rfl, rfl⟩ := h
    refine ⟨positive', fun k => ?_⟩
    simp only [InsertCall.held]
    rw [← counts k]
    ring
  | done =>
    simp only [insertStep, Option.some.injEq, Prod.mk.injEq] at h
    obtain ⟨rfl, rfl⟩ := h
    exact ⟨positive, fun k => by ring⟩

/-- A critical section panics only on a drain past the end of the buffer: the decrements
of a call never underflow. -/
theorem insertStep_eq_none {m : ExpiringHashMap K V} {call : InsertCall K V}
    (positive : Positive m.map) (enough : ∀ k, call.held k ≤ countOf (m.map k))
    (h : insertStep m call = none) : ∃ n, call.phase = .drain n ∧ m.vec.length < n := by
  obtain ⟨key, value, ts, phase⟩ := call
  cases phase with
  | drain n =>
    refine ⟨n, rfl, ?_⟩
    simp only [insertStep, drain] at h
    split_ifs at h with within
    · cases h
    · omega
  | decrease keys =>
    obtain ⟨map', decreased, -⟩ := mapDecreaseCountAndMaybeRemove_eq_some positive fun k => enough k
    simp [insertStep, decreased] at h
  | mapInsert | vecPush | count | done => simp [insertStep] at h

/-! ## Every interleaving -/

theorem Balanced.enough {m : ExpiringHashMap K V} {calls : List (InsertCall K V)}
    (balanced : Balanced m calls) {i : Nat} {call : InsertCall K V} (found : calls[i]? = some call) (k : K) :
    call.held k ≤ countOf (m.map k) := by
  have within : call.held k ≤ (calls.map (·.held k)).sum :=
    List.le_sum_of_mem (List.mem_map_of_mem (List.mem_of_getElem? found))
  rw [balanced.count k]
  omega

theorem Balanced.new (ttl : Nat) {calls : List (InsertCall K V)}
    (fresh : ∀ call ∈ calls, call.phase = .mapInsert) : Balanced (ExpiringHashMap.new ttl) calls := by
  refine ⟨fun k => ?_, fun k entry absurd => nomatch absurd⟩
  have idle : (calls.map (·.held k)).sum = 0 := by
    apply List.sum_eq_zero
    intro held listed
    obtain ⟨call, mem, rfl⟩ := List.mem_map.mp listed
    simp [InsertCall.held, fresh call mem]
  rw [idle]
  rfl

section Pool

variable {p p' : Pool (ExpiringHashMap K V) (InsertCall K V)}

theorem Balanced.stepAt (balanced : Balanced p.shared p.threads) {i : Nat}
    (h : p.stepAt insertStep i = some p') : Balanced p'.shared p'.threads := by
  rcases Pool.stepAt_eq_some h with rfl | ⟨call, m', call', found, stepped, rfl⟩
  · exact balanced
  obtain ⟨positive', moved⟩ := insertStep_moves balanced.positive (balanced.enough found) stepped
  obtain ⟨bound, rfl⟩ := List.getElem?_eq_some_iff.mp found
  refine ⟨fun k => ?_, positive'⟩
  -- the step changes the calls' hands by what it changes in its own
  have others := sum_map_set (·.held k) bound call'
  have before := balanced.count k
  have step := moved k
  dsimp only at others ⊢
  omega

theorem Balanced.stepAt_eq_none (balanced : Balanced p.shared p.threads) {i : Nat}
    (h : p.stepAt insertStep i = none) :
    ∃ call n, p.threads[i]? = some call ∧ call.phase = .drain n ∧ p.shared.vec.length < n := by
  obtain ⟨call, found, panicked⟩ := Pool.stepAt_eq_none h
  obtain ⟨n, phase, past⟩ := insertStep_eq_none balanced.positive (balanced.enough found) panicked
  exact ⟨call, n, found, phase, past⟩

/-- Over every interleaving of calls of `insert`, each count is its key's entries in the
buffer and in the calls' hands, and the only panic is a drain past the end of the buffer:
no count underflows. -/
theorem insert_interleavings_balanced {m : ExpiringHashMap K V} {calls : List (InsertCall K V)}
    (balanced : Balanced m calls) {schedule : List Nat}
    (h : (⟨m, calls⟩ : Pool _ _).run insertStep schedule = some p') :
    Balanced p'.shared p'.threads ∧ ∀ i, p'.stepAt insertStep i = none →
      ∃ call n, p'.threads[i]? = some call ∧ call.phase = .drain n ∧ p'.shared.vec.length < n := by
  have reached : Balanced p'.shared p'.threads :=
    Pool.run_inv (fun p => Balanced p.shared p.threads) (fun _ _ _ balanced stepped => balanced.stepAt stepped)
      balanced h
  exact ⟨reached, fun i panicked => reached.stepAt_eq_none panicked⟩

end Pool

/-- Two calls at slot 0 and one at slot 5, with a time to live of one slot, interleaved
critical section by critical section until the call at slot 5 is about to drain the two
entries of slot 0. -/
theorem insert_interleavings_balanced_of_three_calls :
    ∃ p', (⟨ExpiringHashMap.new 1, [⟨0, (), 0, .mapInsert⟩, ⟨1, (), 0, .mapInsert⟩, ⟨2, (), 5, .mapInsert⟩]⟩ :
        Pool (ExpiringHashMap Nat Unit) (InsertCall Nat Unit)).run insertStep [0, 1, 0, 1, 2, 0, 1, 2, 2] = some p' ∧
      Balanced p'.shared p'.threads ∧ ∀ i, p'.stepAt insertStep i = none →
        ∃ call n, p'.threads[i]? = some call ∧ call.phase = .drain n ∧ p'.shared.vec.length < n := by
  obtain ⟨p', ran⟩ : ∃ p', (⟨ExpiringHashMap.new 1, [⟨0, (), 0, .mapInsert⟩, ⟨1, (), 0, .mapInsert⟩,
      ⟨2, (), 5, .mapInsert⟩]⟩ : Pool (ExpiringHashMap Nat Unit) (InsertCall Nat Unit)).run insertStep
        [0, 1, 0, 1, 2, 0, 1, 2, 2] = some p' := ⟨_, rfl⟩
  exact ⟨p', ran, insert_interleavings_balanced (Balanced.new 1 (by decide)) ran⟩

/-! ## One call at a time -/

/-- An insert that no other call interleaves never panics, keeps every count equal to
its key's entries in the buffer, and drains an expired prefix of the buffer. -/
theorem insert_eq_some {m : ExpiringHashMap K V} (balanced : Balanced m []) (key : K) (value : V)
    (ts : Nat) :
    ∃ m', m.insert key value ts = some m' ∧ Balanced m' [] ∧ m'.ttl = m.ttl ∧
      ∃ n, m'.vec = (m.vec ++ [(⟨key, ts⟩ : TimestampedKey K)]).drop n ∧
        ∀ entry ∈ (m.vec ++ [(⟨key, ts⟩ : TimestampedKey K)]).take n, (entry.ts + m.ttl) % 2 ^ 64 ≤ ts := by
  unfold insert
  dsimp only
  set vec := m.vec ++ [(⟨key, ts⟩ : TimestampedKey K)]
  have within := nKeysToDrain_le_length m.ttl ts vec
  have expiredPrefix : ∀ entry ∈ vec.take (nKeysToDrain m.ttl ts vec), (entry.ts + m.ttl) % 2 ^ 64 ≤ ts :=
    fun entry mem => expired_of_mem_take mem
  generalize nKeysToDrain m.ttl ts vec = n at within expiredPrefix ⊢
  -- after the insert and the push, every count is its key's entries in the buffer
  have pushed : ∀ k, countOf (mapInsertOrIncreaseCount m.map key value k) = keyCount vec k := by
    intro k
    have before := balanced.count k
    rw [List.map_nil, List.sum_nil, Nat.add_zero] at before
    rw [countOf_mapInsertOrIncreaseCount, keyCount_append, keyCount_singleton, before]
  have positive := balanced.positive.mapInsertOrIncreaseCount key value
  by_cases expired : 0 < n
  · rw [if_pos expired, drain, if_pos within]
    dsimp only
    -- the drained keys are among the buffer's entries, which the counts cover
    have enough : ∀ k, ((vec.take n).map (·.key)).count k ≤
        countOf (mapInsertOrIncreaseCount m.map key value k) :=
      fun k => by rw [pushed k, keyCount_take_drop vec n k]; omega
    obtain ⟨map', decreased, positive', counts⟩ := mapDecreaseCountAndMaybeRemove_eq_some positive enough
    rw [decreased, Option.map_some]
    refine ⟨_, rfl, ⟨fun k => ?_, positive'⟩, rfl, n, rfl, expiredPrefix⟩
    have drained := counts k
    rw [pushed k, keyCount_take_drop vec n k] at drained
    rw [List.map_nil, List.sum_nil, Nat.add_zero]
    dsimp only
    omega
  · rw [if_neg expired]
    refine ⟨_, rfl, ⟨fun k => ?_, positive⟩, rfl, 0, rfl, fun entry mem => by simp at mem⟩
    rw [List.map_nil, List.sum_nil, Nat.add_zero]
    exact pushed k

/-- Calls of `insert` one after another. -/
def insertAll (m : ExpiringHashMap K V) : List (K × V × Nat) → Option (ExpiringHashMap K V)
  | [] => some m
  | (key, value, ts) :: rest => (m.insert key value ts).bind fun m => insertAll m rest

/-! ## Inserts one at a time, in time order

With the timestamps of the calls non-decreasing, the buffer stays sorted, so the expired
entries are exactly a prefix of it, and what `insert` drains is every expired entry.  What
the map holds after a run is then a function of the calls alone (`Tracks`): the buffer is
the calls' entries that are still live, and each key held has the value of its last insert.
-/

/-- The value and timestamp of the last insert of `key`. -/
def lastInsert (ops : List (K × V × Nat)) (key : K) : Option (V × Nat) :=
  (ops.reverse.find? fun op => op.1 = key).map (·.2)

omit [DecidableEq K] in
/-- The buffer entries the calls push. -/
def pushed (ops : List (K × V × Nat)) : List (TimestampedKey K) :=
  ops.map fun op => ⟨op.1, op.2.2⟩

theorem lastInsert_append_self (ops : List (K × V × Nat)) (key : K) (value : V) (ts : Nat) :
    lastInsert (ops ++ [(key, value, ts)]) key = some (value, ts) := by
  simp [lastInsert]

theorem lastInsert_append_of_ne (ops : List (K × V × Nat)) {key k : K} (value : V) (ts : Nat)
    (other : key ≠ k) : lastInsert (ops ++ [(key, value, ts)]) k = lastInsert ops k := by
  simp [lastInsert, other]

/-- The last insert of a key is one of the calls, and none of its calls is later. -/
theorem lastInsert_eq_some {ops : List (K × V × Nat)} {key : K} {value : V} {t : Nat}
    (ordered : ops.Pairwise fun a b => a.2.2 ≤ b.2.2) (last : lastInsert ops key = some (value, t)) :
    (key, value, t) ∈ ops ∧ ∀ op ∈ ops, op.1 = key → op.2.2 ≤ t := by
  induction ops using List.reverseRecOn with
  | nil => cases last
  | append_singleton ops op ih =>
    obtain ⟨key', value', ts'⟩ := op
    have ordered' : ops.Pairwise fun a b => a.2.2 ≤ b.2.2 := (List.pairwise_append.mp ordered).1
    have below : ∀ op ∈ ops, op.2.2 ≤ ts' :=
      fun op member => (List.pairwise_append.mp ordered).2.2 op member _ List.mem_cons_self
    by_cases same : key' = key
    · subst same
      rw [lastInsert_append_self, Option.some.injEq, Prod.mk.injEq] at last
      obtain ⟨rfl, rfl⟩ := last
      refine ⟨List.mem_append_right _ List.mem_cons_self, fun op member _ => ?_⟩
      rcases List.mem_append.mp member with earlier | newest
      · exact below op earlier
      · rw [List.mem_singleton.mp newest]
    · rw [lastInsert_append_of_ne _ _ _ same] at last
      obtain ⟨member, latest⟩ := ih ordered' last
      refine ⟨List.mem_append_left _ member, fun op listed sameKey => ?_⟩
      rcases List.mem_append.mp listed with earlier | newest
      · exact latest op earlier sameKey
      · rw [List.mem_singleton.mp newest] at sameKey
        exact absurd sameKey same

omit [DecidableEq K] in
/-- On a buffer sorted by time whose sums do not wrap, the drain leaves exactly the live
entries. -/
theorem drop_nKeysToDrain {ttl ts : Nat} {vec : List (TimestampedKey K)}
    (sorted : vec.Pairwise fun a b => a.ts ≤ b.ts) (noWrap : ∀ entry ∈ vec, entry.ts + ttl < 2 ^ 64) :
    vec.drop (nKeysToDrain ttl ts vec) = vec.filter fun entry => ts < entry.ts + ttl := by
  induction vec with
  | nil => rfl
  | cons entry rest ih =>
    have sorted' := (List.pairwise_cons.mp sorted).2
    have ih' := ih sorted' fun other member => noWrap other (List.mem_cons_of_mem _ member)
    unfold nKeysToDrain
    rw [Nat.mod_eq_of_lt (noWrap entry List.mem_cons_self)]
    by_cases live : ts < entry.ts + ttl
    · -- the oldest entry is live, and so is every later one
      rw [if_pos live, List.drop_zero, List.filter_cons_of_pos (by simpa using live)]
      congr 1
      symm
      apply List.filter_eq_self.mpr
      intro other member
      have := (List.pairwise_cons.mp sorted).1 other member
      exact decide_eq_true (by omega)
    · rw [if_neg live, List.drop_succ_cons, ih', List.filter_cons_of_neg (by simpa using live)]

/-- An insert that returns: its buffer is what the drain of the expired prefix left, and its
map is the map after the insert, decremented for some drained keys. -/
theorem insert_eq_some_parts {m m' : ExpiringHashMap K V} {key : K} {value : V} {ts : Nat}
    (inserted : m.insert key value ts = some m') :
    m'.ttl = m.ttl ∧
      m'.vec = (m.vec ++ [(⟨key, ts⟩ : TimestampedKey K)]).drop
        (nKeysToDrain m.ttl ts (m.vec ++ [(⟨key, ts⟩ : TimestampedKey K)])) ∧
      ∃ keys, mapDecreaseCountAndMaybeRemove (mapInsertOrIncreaseCount m.map key value) keys = some m'.map := by
  unfold insert at inserted
  dsimp only at inserted
  split at inserted
  · next expired =>
    unfold drain at inserted
    split at inserted
    · cases inserted
    · next drained =>
      split at drained
      · obtain ⟨map', decreased, rfl⟩ := Option.map_eq_some_iff.mp inserted
        cases drained
        exact ⟨rfl, rfl, _, decreased⟩
      · cases drained
  · next fresh =>
    cases inserted
    refine ⟨rfl, ?_, [], rfl⟩
    rw [Nat.eq_zero_of_not_pos fresh, List.drop_zero]

/-- Every entry a map holds after decrements was held before, with its value. -/
def ValuesKept (map map' : K → Option (CountedEntry V)) : Prop :=
  ∀ k entry', map' k = some entry' → ∃ entry, map k = some entry ∧ entry.value = entry'.value

theorem ValuesKept.decreaseCountAndMaybeRemove {map map' : K → Option (CountedEntry V)} {key : K}
    (decreased : decreaseCountAndMaybeRemove map key = some map') : ValuesKept map map' := by
  intro k entry' found
  rcases decreaseCountAndMaybeRemove_cases decreased with rfl | ⟨entry, held, -, rfl⟩
  · exact ⟨entry', found, rfl⟩
  · by_cases same : k = key
    · subst same
      -- the key itself is removed, or kept with a smaller count and the same value
      rw [Function.update_self] at found
      split_ifs at found
      cases found
      exact ⟨entry, held, rfl⟩
    · rw [Function.update_of_ne same] at found
      exact ⟨entry', found, rfl⟩

theorem ValuesKept.mapDecreaseCountAndMaybeRemove {map map' : K → Option (CountedEntry V)} {keys : List K}
    (decreased : mapDecreaseCountAndMaybeRemove map keys = some map') : ValuesKept map map' := by
  induction keys generalizing map with
  | nil =>
    cases decreased
    exact fun k entry' found => ⟨entry', found, rfl⟩
  | cons key keys ih =>
    obtain ⟨map₁, first, rest⟩ := Option.bind_eq_some_iff.mp decreased
    intro k entry' found
    obtain ⟨entry₁, held₁, same₁⟩ := ih rest k entry' found
    obtain ⟨entry, held, same⟩ := ValuesKept.decreaseCountAndMaybeRemove first k entry₁ held₁
    exact ⟨entry, held, same.trans same₁⟩

/-- What one-at-a-time calls leave: the counts balance, the buffer is the calls' entries that
are live at `now`, and each key held has the value of its last insert. -/
structure Tracks (m : ExpiringHashMap K V) (ops : List (K × V × Nat)) (now : Nat) : Prop where
  balanced : Balanced m []
  vec_eq : m.vec = (pushed ops).filter fun entry => now < entry.ts + m.ttl
  value_eq : ∀ k entry, m.map k = some entry → ∃ t, lastInsert ops k = some (entry.value, t)

theorem Tracks.new (ttl now : Nat) : Tracks (ExpiringHashMap.new ttl : ExpiringHashMap K V) [] now where
  balanced := ⟨fun _ => rfl, fun _ _ held => by cases held⟩
  vec_eq := rfl
  value_eq _ _ held := by cases held

/-- The step: a call no earlier than `now`, with the calls so far in time order and no sum
of a timestamp and the time to live past `u64::MAX`. -/
theorem Tracks.insert {m m' : ExpiringHashMap K V} {ops : List (K × V × Nat)} {now : Nat}
    (tracks : Tracks m ops now) {key : K} {value : V} {ts : Nat} (later : now ≤ ts)
    (ordered : (ops ++ [(key, value, ts)]).Pairwise fun a b => a.2.2 ≤ b.2.2)
    (noWrap : ∀ op ∈ ops ++ [(key, value, ts)], op.2.2 + m.ttl < 2 ^ 64)
    (inserted : m.insert key value ts = some m') : Tracks m' (ops ++ [(key, value, ts)]) ts := by
  obtain ⟨ttl, drained, keys, decreased⟩ := insert_eq_some_parts inserted
  obtain ⟨m'', again, balanced, -⟩ := insert_eq_some tracks.balanced key value ts
  rw [inserted, Option.some.injEq] at again
  subst again
  -- the calls' entries are sorted by time, and so is the live part of them
  have sortedAll : (pushed (ops ++ [(key, value, ts)])).Pairwise fun a b => a.ts ≤ b.ts := by
    rw [pushed, List.pairwise_map]
    exact ordered
  have pushedAppend : pushed (ops ++ [(key, value, ts)]) = pushed ops ++ [(⟨key, ts⟩ : TimestampedKey K)] := by
    rw [pushed, List.map_append]
    rfl
  have buffer : m.vec ++ [(⟨key, ts⟩ : TimestampedKey K)] =
      ((pushed ops).filter fun entry => now < entry.ts + m.ttl) ++ [(⟨key, ts⟩ : TimestampedKey K)] := by
    rw [tracks.vec_eq]
  have inCalls : ∀ entry ∈ m.vec ++ [(⟨key, ts⟩ : TimestampedKey K)], entry ∈ pushed (ops ++ [(key, value, ts)]) := by
    rw [buffer, pushedAppend]
    exact (List.filter_sublist.append (List.Sublist.refl _)).subset
  refine ⟨balanced, ?_, ?_⟩
  · have sorted : (m.vec ++ [(⟨key, ts⟩ : TimestampedKey K)]).Pairwise fun a b => a.ts ≤ b.ts := by
      rw [pushedAppend] at sortedAll
      rw [buffer]
      exact List.Pairwise.sublist (List.filter_sublist.append (List.Sublist.refl _)) sortedAll
    have fits : ∀ entry ∈ m.vec ++ [(⟨key, ts⟩ : TimestampedKey K)], entry.ts + m.ttl < 2 ^ 64 := by
      intro entry member
      obtain ⟨op, listed, rfl⟩ := List.mem_map.mp (inCalls entry member)
      exact noWrap op listed
    rw [drained, drop_nKeysToDrain sorted fits, buffer, List.filter_append, List.filter_filter, pushedAppend,
      List.filter_append, ttl]
    congr 2
    funext entry
    -- live at `ts` implies live at the earlier `now`
    by_cases live : ts < entry.ts + m.ttl
    · simp [live, show now < entry.ts + m.ttl by omega]
    · simp [live]
  · intro k entry' found
    obtain ⟨entry, held, same⟩ := ValuesKept.mapDecreaseCountAndMaybeRemove decreased k entry' found
    rw [mapInsertOrIncreaseCount_eq] at held
    by_cases fresh : k = key
    · subst fresh
      simp only [Function.update_self, Option.some.injEq] at held
      rw [← same, ← held, lastInsert_append_self]
      exact ⟨ts, rfl⟩
    · rw [Function.update_of_ne fresh] at held
      obtain ⟨t, last⟩ := tracks.value_eq k entry held
      rw [lastInsert_append_of_ne _ _ _ (Ne.symm fresh), ← same]
      exact ⟨t, last⟩

omit [DecidableEq K] in
/-- The timestamp of the latest of the calls, `now` before any. -/
def latestTs (now : Nat) (ops : List (K × V × Nat)) : Nat :=
  ops.foldl (fun _ op => op.2.2) now

/-- The run: calls one at a time, in time order, keep `Tracks` up to the latest call's
timestamp, and never panic. -/
theorem Tracks.insertAll {m : ExpiringHashMap K V} {done : List (K × V × Nat)} {now : Nat}
    (tracks : Tracks m done now) (rest : List (K × V × Nat))
    (ordered : (done ++ rest).Pairwise fun a b => a.2.2 ≤ b.2.2) (later : ∀ op ∈ rest, now ≤ op.2.2)
    (noWrap : ∀ op ∈ done ++ rest, op.2.2 + m.ttl < 2 ^ 64) :
    ∃ m', m.insertAll rest = some m' ∧ m'.ttl = m.ttl ∧ Tracks m' (done ++ rest) (latestTs now rest) := by
  induction rest generalizing m done now with
  | nil => exact ⟨m, rfl, rfl, by simpa [latestTs] using tracks⟩
  | cons op rest ih =>
    obtain ⟨key, value, ts⟩ := op
    obtain ⟨m₁, inserted, -, ttl₁, -⟩ := insert_eq_some tracks.balanced key value ts
    have regrouped : done ++ (key, value, ts) :: rest = (done ++ [(key, value, ts)]) ++ rest := by simp
    rw [regrouped] at ordered noWrap
    have tracks₁ := tracks.insert (later _ List.mem_cons_self) (List.pairwise_append.mp ordered).1
      (fun op member => noWrap op (List.mem_append_left _ member)) inserted
    -- every later call comes after this one
    have after : ∀ op ∈ rest, ts ≤ op.2.2 := fun op member =>
      (List.pairwise_append.mp ordered).2.2 _ (List.mem_append_right _ List.mem_cons_self) op member
    obtain ⟨m', ran, ttl', tracks'⟩ := ih tracks₁ ordered after (by rw [ttl₁]; exact noWrap)
    refine ⟨m', by rw [ExpiringHashMap.insertAll, inserted, Option.bind_some, ran], ttl'.trans ttl₁, ?_⟩
    rw [regrouped]
    exact tracks'

/-- What `get_cloned` returns after one-at-a-time calls: the value of the key's last insert
while that insert is live, nothing otherwise. -/
theorem Tracks.getCloned {m : ExpiringHashMap K V} {ops : List (K × V × Nat)} {now : Nat}
    (tracks : Tracks m ops now) (ordered : ops.Pairwise fun a b => a.2.2 ≤ b.2.2) (k : K) :
    m.getCloned k = ((lastInsert ops k).filter fun last => now < last.2 + m.ttl).map Prod.fst := by
  have counted := tracks.balanced.count k
  rw [List.map_nil, List.sum_nil, Nat.add_zero] at counted
  unfold ExpiringHashMap.getCloned
  cases held : m.map k with
  | some entry =>
    obtain ⟨t, last⟩ := tracks.value_eq k entry held
    -- the key has a live entry in the buffer, from a call no later than its last insert
    have present : 0 < keyCount m.vec k := by
      rw [held] at counted
      have := tracks.balanced.positive k entry held
      simp only [countOf] at counted
      omega
    obtain ⟨pushedEntry, member, sameKey⟩ := List.mem_map.mp (List.count_pos_iff.mp present)
    rw [tracks.vec_eq] at member
    obtain ⟨inCalls, live⟩ := List.mem_filter.mp member
    obtain ⟨op, listed, rfl⟩ := List.mem_map.mp inCalls
    have notAfter := (lastInsert_eq_some ordered last).2 op listed sameKey
    have fresh : now < t + m.ttl := by
      simp only [decide_eq_true_eq] at live
      omega
    simp [last, Option.filter, fresh]
  | none =>
    cases last : lastInsert ops k with
    | none => rfl
    | some insertOf =>
      obtain ⟨value, t⟩ := insertOf
      -- a live last insert would still be in the buffer, and counted
      have stale : ¬ now < t + m.ttl := by
        intro live
        have listed := (lastInsert_eq_some ordered last).1
        have inBuffer : (⟨k, t⟩ : TimestampedKey K) ∈ m.vec := by
          rw [tracks.vec_eq]
          exact List.mem_filter.mpr ⟨List.mem_map.mpr ⟨_, listed, rfl⟩, decide_eq_true live⟩
        have present : 0 < keyCount m.vec k := List.count_pos_iff.mpr (List.mem_map_of_mem inBuffer)
        rw [held] at counted
        simp only [countOf] at counted
        omega
      simp [Option.filter, stale]

/-- From a new map, one call at a time in time order and with no timestamp plus the time to
live past `u64::MAX`: the calls never panic, and after them `get_cloned` gives the value of a
key's last insert exactly while that insert is live at the latest call's timestamp; the keys
the map holds are those. -/
theorem insertAll_getCloned (ttl : Nat) (ops : List (K × V × Nat))
    (ordered : ops.Pairwise fun a b => a.2.2 ≤ b.2.2) (noWrap : ∀ op ∈ ops, op.2.2 + ttl < 2 ^ 64) :
    ∃ m, (ExpiringHashMap.new ttl : ExpiringHashMap K V).insertAll ops = some m ∧
      ∀ k, m.getCloned k = ((lastInsert ops k).filter fun last => latestTs 0 ops < last.2 + ttl).map Prod.fst := by
  obtain ⟨m, ran, ttlKept, tracks⟩ := (Tracks.new ttl 0).insertAll ops ordered (fun _ _ => Nat.zero_le _) noWrap
  refine ⟨m, ran, fun k => ?_⟩
  rw [List.nil_append] at tracks
  rw [tracks.getCloned ordered k, ttlKept]
  rfl

/-- Keys 1 and 2 inserted at slots 2 and 3, then key 1 again at slot 7, with a time to live
of 4 slots: key 1 has the value of its second insert, and key 2 has expired. -/
theorem insertAll_getCloned_of_three_inserts :
    ∃ m, (ExpiringHashMap.new 4 : ExpiringHashMap Nat Nat).insertAll [(1, 10, 2), (2, 20, 3), (1, 11, 7)] = some m ∧
      m.getCloned 1 = some 11 ∧ m.getCloned 2 = none := by
  obtain ⟨m, ran, spec⟩ := insertAll_getCloned 4 [(1, 10, 2), (2, 20, 3), (1, 11, 7)] (by decide) (by decide)
  exact ⟨m, ran, by rw [spec]; decide, by rw [spec]; decide⟩

/-- The expiry check adds the timestamp and the time to live as `u64`s: when the sum passes
`u64::MAX` it wraps below the timestamp, and the key just inserted, live by `t + ttl > ts`,
is drained and removed by the insert itself. -/
theorem insert_forgets_key_when_expiry_wraps (key : K) (value : V) (ttl ts : Nat) (ttlFits : ttl < 2 ^ 64)
    (tsFits : ts < 2 ^ 64) (wraps : 2 ^ 64 ≤ ts + ttl) :
    ∃ m, (ExpiringHashMap.new ttl : ExpiringHashMap K V).insert key value ts = some m ∧ ts < ts + ttl ∧
      m.getCloned key = none := by
  have modulus : (2 : Nat) ^ 64 = 18446744073709551616 := by norm_num
  rw [modulus] at ttlFits tsFits wraps
  have expired : ¬ ts < (ts + ttl) % 18446744073709551616 := by
    rw [Nat.mod_eq_sub_mod wraps]
    rw [Nat.mod_eq_of_lt (show ts + ttl - 18446744073709551616 < 18446744073709551616 by omega)]
    omega
  -- the insert counts the key once, and its own drain takes the count back to zero
  refine ⟨⟨Function.update (mapInsertOrIncreaseCount (fun _ => none) key value) key none, [], ttl⟩, ?_, by omega,
    by simp [getCloned]⟩
  simp [ExpiringHashMap.insert, ExpiringHashMap.new, nKeysToDrain, expired, drain, mapDecreaseCountAndMaybeRemove,
    decreaseCountAndMaybeRemove, mapInsertOrIncreaseCount]


/-- `u64::MAX` as the time to live, and a key inserted at slot 1. -/
theorem insert_forgets_key_when_expiry_wraps_at_max_ttl :
    ∃ m, (ExpiringHashMap.new (2 ^ 64 - 1) : ExpiringHashMap Nat Unit).insert 0 () 1 = some m ∧
      1 < 1 + (2 ^ 64 - 1) ∧ m.getCloned 0 = none :=
  insert_forgets_key_when_expiry_wraps 0 () (2 ^ 64 - 1) 1 (by norm_num) (by norm_num) (by norm_num)
end ExpiringHashMap

open ExpiringHashMap

/-- Three keys inserted at slot 0 one after the other, then two more at slot 5 by calls on
two other threads, with a time to live of one slot. -/
def racingCalls : List (InsertCall Nat Unit) :=
  [⟨0, (), 0, .mapInsert⟩, ⟨1, (), 0, .mapInsert⟩, ⟨2, (), 0, .mapInsert⟩, ⟨3, (), 5, .mapInsert⟩,
    ⟨4, (), 5, .mapInsert⟩]

/-- The two calls at slot 5 both count the three expired entries before either drains:
the second drain asks for three entries of a buffer that has two left and panics.  With
one entry at slot 0 instead, the second drain takes the fresh entry of key 3, whose count
drops to zero: key 3 is gone from the map when every call has returned, though no call
had a timestamp of `5 + ttl` or more. -/
theorem concurrent_inserts_drain_twice :
    (⟨ExpiringHashMap.new 1, racingCalls⟩ : Pool _ _).run insertStep
        [0, 0, 0, 1, 1, 1, 2, 2, 2, 3, 3, 3, 4, 4, 4, 3, 4] = none ∧
      ∃ p, (⟨ExpiringHashMap.new 1, [⟨0, (), 0, .mapInsert⟩, ⟨3, (), 5, .mapInsert⟩, ⟨4, (), 5, .mapInsert⟩]⟩ :
          Pool (ExpiringHashMap Nat Unit) _).run insertStep [0, 0, 0, 1, 1, 1, 2, 2, 2, 1, 1, 2, 2] = some p ∧
        (∀ call ∈ p.threads, call.phase = .done ∧ call.ts < 5 + p.shared.ttl) ∧
        p.shared.getCloned 3 = none :=
  ⟨rfl, _, rfl, by decide, rfl⟩

end EphemeralValidator.Utils
