import EphemeralValidator.Solana.Account

/-! # The blockhash queue

`BlockhashQueue` (solana accounts-db) gives every registered blockhash the index of its
registration; a hash is valid for age `a` when at most `a` registrations came after it, and
once the map holds `max_age` hashes a registration first drops those more than `max_age`
registrations old.  The `HashMap` is an association list whose keys stay distinct
(`BlockhashQueue.nodup`); the fee calculator of each entry is left out, since every hash is
registered with the bank's one `lamports_per_signature`.

`ChainQueue q chain n` says what a queue holds after the hashes `chain 0` (the genesis
hash) to `chain n` were registered in order: the last index is `n`, and each `chain j`
recent enough is there with index `j`.  Registering `chain (n + 1)` keeps it
(`ChainQueue.registerHashWithTimestamp`), and a hash more than `age` registrations old is
then invalid for `age` (`ChainQueue.isHashValidForAge_chain_eq_false`).
-/

namespace EphemeralValidator

open EphemeralValidator.Bytes EphemeralValidator.Solana

structure HashAge where
  hashIndex : Nat
  timestamp : Nat

/-- `HashMap::insert` on the association list of the ages. -/
def insertAge (ages : List (Hash × HashAge)) (hash : Hash) (age : HashAge) : List (Hash × HashAge) :=
  (ages.filter fun entry => entry.1 ≠ hash) ++ [(hash, age)]

theorem nodup_insertAge {ages : List (Hash × HashAge)} (nodup : (ages.map Prod.fst).Nodup) (hash : Hash)
    (age : HashAge) : ((insertAge ages hash age).map Prod.fst).Nodup := by
  rw [insertAge, List.map_append, List.nodup_append]
  refine ⟨(nodup.sublist (List.filter_sublist.map _)), List.nodup_singleton _, ?_⟩
  intro key kept other last
  simp only [List.map_cons, List.map_nil, List.mem_singleton] at last
  obtain ⟨entry, member, rfl⟩ := List.mem_map.mp kept
  rw [last]
  exact of_decide_eq_true (List.mem_filter.mp member).2

structure BlockhashQueue where
  lastHashIndex : Nat
  lastHash : Option Hash
  ages : List (Hash × HashAge)
  maxAge : Nat
  nodup : (ages.map Prod.fst).Nodup

namespace BlockhashQueue

def new (maxAge : Nat) : BlockhashQueue := ⟨0, none, [], maxAge, List.nodup_nil⟩

def getAge (q : BlockhashQueue) (hash : Hash) : Option HashAge :=
  (q.ages.find? fun entry => entry.1 = hash).map Prod.snd

def genesisHash (q : BlockhashQueue) (hash : Hash) (timestamp : Nat) : BlockhashQueue :=
  { q with
    ages := insertAge q.ages hash ⟨0, timestamp⟩
    lastHash := some hash
    nodup := nodup_insertAge q.nodup hash _ }

def isHashIndexValid (lastHashIndex maxAge hashIndex : Nat) : Bool :=
  lastHashIndex - hashIndex ≤ maxAge

def isHashValidForAge (q : BlockhashQueue) (hash : Hash) (maxAge : Nat) : Bool :=
  match q.getAge hash with
  | some age => isHashIndexValid q.lastHashIndex maxAge age.hashIndex
  | none => false

def getHashAge (q : BlockhashQueue) (hash : Hash) : Option Nat :=
  (q.getAge hash).map fun age => q.lastHashIndex - age.hashIndex

def registerHashWithTimestamp (q : BlockhashQueue) (hash : Hash) (timestamp : Nat) : BlockhashQueue :=
  let lastHashIndex := q.lastHashIndex + 1
  let ages :=
    if q.maxAge ≤ q.ages.length then
      q.ages.filter fun entry => isHashIndexValid lastHashIndex q.maxAge entry.2.hashIndex
    else q.ages
  have nodup : (ages.map Prod.fst).Nodup := by
    dsimp only [ages]
    split
    · exact q.nodup.sublist (List.filter_sublist.map _)
    · exact q.nodup
  { q with
    lastHashIndex
    ages := insertAge ages hash ⟨lastHashIndex, timestamp⟩
    lastHash := some hash
    nodup := nodup_insertAge nodup hash _ }

end BlockhashQueue

/-! ## Lookups -/

namespace BlockhashQueue

theorem mem_of_getAge {q : BlockhashQueue} {hash : Hash} {age : HashAge} (found : q.getAge hash = some age) :
    (hash, age) ∈ q.ages := by
  obtain ⟨entry, first, rfl⟩ := Option.map_eq_some_iff.mp found
  have sameKey : entry.1 = hash := by simpa using List.find?_some first
  rw [← sameKey]
  exact List.mem_of_find?_eq_some first

/-- With distinct keys, an entry of the list is what the lookup finds. -/
theorem getAge_of_mem {q : BlockhashQueue} {hash : Hash} {age : HashAge} (member : (hash, age) ∈ q.ages) :
    q.getAge hash = some age := by
  cases first : q.ages.find? fun entry => entry.1 = hash with
  | none =>
    have absent := List.find?_eq_none.mp first (hash, age) member
    simp at absent
  | some entry =>
    have sameKey : entry.1 = hash := by simpa using List.find?_some first
    have same : entry = (hash, age) :=
      List.inj_on_of_nodup_map q.nodup (List.mem_of_find?_eq_some first) member sameKey
    simp [getAge, first, same]

@[simp] theorem maxAge_registerHashWithTimestamp (q : BlockhashQueue) (hash : Hash) (timestamp : Nat) :
    (q.registerHashWithTimestamp hash timestamp).maxAge = q.maxAge := rfl

theorem isHashValidForAge_eq_true {q : BlockhashQueue} {hash : Hash} {maxAge : Nat} :
    q.isHashValidForAge hash maxAge = true ↔
      ∃ age, (hash, age) ∈ q.ages ∧ q.lastHashIndex - age.hashIndex ≤ maxAge := by
  unfold isHashValidForAge
  constructor
  · intro valid
    cases found : q.getAge hash with
    | none => simp [found] at valid
    | some age =>
      simp only [found, isHashIndexValid, decide_eq_true_eq] at valid
      exact ⟨age, mem_of_getAge found, valid⟩
  · rintro ⟨age, member, young⟩
    simp [getAge_of_mem member, isHashIndexValid, young]

end BlockhashQueue

/-! ## Queues of a hash chain -/

/-- What a queue holds after the hashes `chain 0` (registered by `genesis_hash`) to
`chain n` were registered in order: every entry is one of them with its index, and every
one not older than `max_age` is there. -/
structure ChainQueue (q : BlockhashQueue) (chain : Nat → Hash) (n : Nat) : Prop where
  lastHashIndex_eq : q.lastHashIndex = n
  lastHash_eq : q.lastHash = some (chain n)
  sound : ∀ entry ∈ q.ages, ∃ j ≤ n, entry.1 = chain j ∧ entry.2.hashIndex = j
  complete : ∀ j ≤ n, n - j ≤ q.maxAge → ∃ age, (chain j, age) ∈ q.ages ∧ age.hashIndex = j

namespace ChainQueue

variable {chain : Nat → Hash}

theorem genesisHash (maxAge timestamp : Nat) :
    ChainQueue ((BlockhashQueue.new maxAge).genesisHash (chain 0) timestamp) chain 0 where
  lastHashIndex_eq := rfl
  lastHash_eq := rfl
  sound entry member := by
    simp only [BlockhashQueue.genesisHash, BlockhashQueue.new, insertAge, List.filter_nil, List.nil_append,
      List.mem_singleton] at member
    exact ⟨0, le_refl 0, by rw [member], by rw [member]⟩
  complete j bound _ := by
    obtain rfl : j = 0 := Nat.le_zero.mp bound
    exact ⟨⟨0, timestamp⟩, by simp [BlockhashQueue.genesisHash, insertAge], rfl⟩

/-- Registering the next hash of the chain, one that none of the earlier ones equals. -/
theorem registerHashWithTimestamp {q : BlockhashQueue} {n : Nat} (chained : ChainQueue q chain n)
    (fresh : ∀ j ≤ n, chain j ≠ chain (n + 1)) (timestamp : Nat) :
    ChainQueue (q.registerHashWithTimestamp (chain (n + 1)) timestamp) chain (n + 1) where
  lastHashIndex_eq := by simp [BlockhashQueue.registerHashWithTimestamp, chained.lastHashIndex_eq]
  lastHash_eq := rfl
  sound entry member := by
    simp only [BlockhashQueue.registerHashWithTimestamp, insertAge, List.mem_append, List.mem_filter,
      List.mem_singleton] at member
    rcases member with ⟨kept, -⟩ | rfl
    · -- a kept entry was in the queue before, purged or not
      have old : entry ∈ q.ages := by
        split at kept
        · exact (List.mem_filter.mp kept).1
        · exact kept
      obtain ⟨j, bound, key, index⟩ := chained.sound entry old
      exact ⟨j, Nat.le_succ_of_le bound, key, index⟩
    · exact ⟨n + 1, le_refl _, rfl, by simp [chained.lastHashIndex_eq]⟩
  complete j bound young := by
    rw [BlockhashQueue.maxAge_registerHashWithTimestamp] at young
    simp only [BlockhashQueue.registerHashWithTimestamp, insertAge, List.mem_append, List.mem_filter,
      List.mem_singleton]
    rcases Nat.lt_or_eq_of_le bound with earlier | rfl
    · -- an earlier hash survives the purge, being young enough, and the insert of another key
      obtain ⟨age, member, index⟩ := chained.complete j (Nat.le_of_lt_succ earlier) (by omega)
      refine ⟨age, .inl ⟨?_, ?_⟩, index⟩
      · split
        · refine List.mem_filter.mpr ⟨member, ?_⟩
          simp only [BlockhashQueue.isHashIndexValid, chained.lastHashIndex_eq, index, decide_eq_true_eq]
          exact young
        · exact member
      · exact decide_eq_true (fresh j (Nat.le_of_lt_succ earlier))
    · exact ⟨_, .inr rfl, by simp [chained.lastHashIndex_eq]⟩

/-- With the chain's hashes distinct, a hash more than `age` registrations old is not
valid for `age`, whether the purge dropped it or not. -/
theorem isHashValidForAge_chain_eq_false {q : BlockhashQueue} {n j age : Nat} (chained : ChainQueue q chain n)
    (distinct : Set.InjOn chain (Set.Iic n)) (bound : j ≤ n) (old : age < n - j) :
    q.isHashValidForAge (chain j) age = false := by
  apply Bool.eq_false_iff.mpr
  rw [Ne, BlockhashQueue.isHashValidForAge_eq_true]
  rintro ⟨entry, member, within⟩
  obtain ⟨i, iBound, key, index⟩ := chained.sound _ member
  have same : j = i := distinct (Set.mem_Iic.mpr bound) (Set.mem_Iic.mpr iBound) key
  rw [chained.lastHashIndex_eq, index, ← same] at within
  omega

end ChainQueue

end EphemeralValidator
