import Mathlib.Algebra.Order.BigOperators.Group.List
import Mathlib.Algebra.Order.Ring.Nat

/-! # Flushing a slot's accounts to storage

`AccountsPersister::flush_slot_cache` writes the accounts of a slot cache into a new append
vec: `create_and_insert_store` makes a store of `total_size` bytes, the sum of
`aligned_stored_size` of the accounts' data lengths, inserts it for the slot, and
`write_accounts_to_storage` appends the accounts to it until every one has an `AccountInfo`.
When `append_accounts` cannot store the next account, the loop marks the store full and
creates a second store for the same slot, which `AccountStorage::insert` rejects with a
panic.

`append_accounts` writes each account as its `StoredMeta`, `AccountMeta` and hash followed by
its data, every part at a `u64` boundary, so an account takes `aligned_stored_size` of its
stored data length, and a zero-lamport account is stored with no data.  A store of
`total_size` bytes therefore takes all the accounts in one pass (`appendLoop_of_fits`), and
the full-store branch, which would end in that panic, is never reached
(`flushSlotCache_eq_some`).

Two limits remain.  `AppendVec::new` panics on a size over `MAXIMUM_APPEND_VEC_FILE_SIZE`
(16 GiB), and `next_id` panics when the `u32` store ids run out
(`flush_slot_cache_panics_past_limits`).  Within them, every sequence of flushes on
increasing slots stores each non-empty cache under one new entry for its slot
(`flush_slot_cache_stores_one_entry_per_slot`).

The store's map of accounts, the write versions, the account counts and the clean-up of old
storage files on disk are left out: nothing above reads them.
-/

namespace EphemeralValidator.AccountsDb

/-- `u64_align!`: the next multiple of 8. -/
def u64Align (addr : Nat) : Nat := (addr + 7) / 8 * 8

/-- `mem::size_of::<StoredMeta>()`. -/
def storedMetaSize : Nat := 48

/-- `mem::size_of::<AccountMeta>()`. -/
def accountMetaSize : Nat := 56

/-- `mem::size_of::<AccountHash>()`. -/
def accountHashSize : Nat := 32

/-- `STORE_META_OVERHEAD`. -/
def storeMetaOverhead : Nat := 136

def alignedStoredSize (dataLen : Nat) : Nat := u64Align (storeMetaOverhead + dataLen)

/-- `MAXIMUM_APPEND_VEC_FILE_SIZE`, 16 GiB. -/
def maximumAppendVecFileSize : Nat := 16 * 1024 * 1024 * 1024

/-- `AppendVecId::MAX`, the largest `u32`. -/
def appendVecIdMax : Nat := 2 ^ 32 - 1

/-- An account of the slot cache, with what the persister reads of it. -/
structure CachedAccount where
  lamports : Nat
  dataLen : Nat

/-- The data length `append_accounts` writes: `account_default_if_zero_lamport` gives no
account for zero lamports, which is stored with no data. -/
def CachedAccount.storedDataLen (account : CachedAccount) : Nat :=
  if account.lamports ≠ 0 then account.dataLen else 0

/-- `total_size` of `flush_slot_cache`. -/
def totalSize (accounts : List CachedAccount) : Nat :=
  (accounts.map fun account => alignedStoredSize account.dataLen).sum

/-- The room the accounts take in an append vec, from a `u64` boundary. -/
def footprint (accounts : List CachedAccount) : Nat :=
  (accounts.map fun account => alignedStoredSize account.storedDataLen).sum

structure AppendVec where
  fileSize : Nat
  currentLen : Nat

structure StoredAccountInfo where
  offset : Nat
  size : Nat

namespace AppendVec

/-- `AppendVec::new`; `none` is the panic of `sanitize_len_and_size(..).unwrap()`. -/
def new (size : Nat) : Option AppendVec :=
  if size = 0 then none
  else if maximumAppendVecFileSize < size then none
  else some ⟨size, 0⟩

/-- The offset past values of the given lengths written from `offset`, each from a `u64`
boundary: the `end` that `append_ptrs_locked` checks, and the offset its `append_ptr` calls
leave. -/
def appendEnd (offset : Nat) (lens : List Nat) : Nat :=
  lens.foldl (fun offset len => u64Align offset + len) offset

/-- `append_ptrs_locked`: the position of the first value and the offset past the last one,
or `none` when they do not fit. -/
def appendPtrsLocked (av : AppendVec) (offset : Nat) (lens : List Nat) : Option (Nat × Nat) :=
  if av.fileSize < appendEnd offset lens then none else some (u64Align offset, appendEnd offset lens)

/-- The loop of `append_accounts`: the position of each account stored until one does not
fit, and the offset past the last one. -/
def appendLoop (av : AppendVec) : Nat → List CachedAccount → List Nat × Nat
  | offset, [] => ([], offset)
  | offset, account :: accounts =>
    match av.appendPtrsLocked offset [storedMetaSize, accountMetaSize, accountHashSize, account.storedDataLen] with
    | some (pos, offset') =>
      let stored := av.appendLoop offset' accounts
      (pos :: stored.1, stored.2)
    | none => ([], offset)

/-- `append_accounts(accounts, skip)`: `none` when not even the first account fits. -/
def appendAccounts (av : AppendVec) (accounts : List CachedAccount) (skip : Nat) :
    Option (List StoredAccountInfo) × AppendVec :=
  let stored := av.appendLoop av.currentLen (accounts.drop skip)
  if stored.1 = [] then (none, av)
  else
    -- the aligned offset past the last account closes its entry
    let offsets := stored.1 ++ [u64Align stored.2]
    (some (List.zipWith (fun offset next => ⟨offset, next - offset⟩) offsets offsets.tail),
      { av with currentLen := stored.2 })

def remainingBytes (av : AppendVec) : Nat := av.fileSize - u64Align av.currentLen

end AppendVec

inductive AccountStorageStatus where
  | available
  | full
  deriving DecidableEq

structure AccountStorageEntry where
  id : Nat
  accounts : AppendVec
  status : AccountStorageStatus

structure AccountInfo where
  storeId : Nat
  offset : Nat
  lamports : Nat

/-- The persister: the stores by slot (`AccountStorage`), the next store id, and the size of a
store made for an account that overflows. -/
structure AccountsPersister where
  storage : Nat → Option AccountStorageEntry
  nextId : Nat
  fileSize : Nat

namespace AccountsPersister

/-- `AccountsPersister::default()`, with `file_size` `DEFAULT_FILE_SIZE`. -/
def default (fileSize : Nat) : AccountsPersister := ⟨fun _ => none, 0, fileSize⟩

/-- `next_id`: the id `fetch_add` hands out; `none` is its `assert!` on `AppendVecId::MAX`. -/
def takeNextId (p : AccountsPersister) : Option (Nat × AccountsPersister) :=
  if p.nextId = appendVecIdMax then none else some (p.nextId, { p with nextId := p.nextId + 1 })

/-- `AccountStorage::insert`; `none` is its `assert!` on a slot that has a store. -/
def insertStore (p : AccountsPersister) (slot : Nat) (store : AccountStorageEntry) : Option AccountsPersister :=
  match p.storage slot with
  | some _ => none
  | none => some { p with storage := Function.update p.storage slot (some store) }

/-- `create_and_insert_store`. -/
def createAndInsertStore (p : AccountsPersister) (slot size : Nat) : Option AccountsPersister := do
  let (id, p) ← p.takeNextId
  let accounts ← AppendVec.new size
  p.insertStore slot ⟨id, accounts, .available⟩

/-- `has_space_available`; `none` is the `unwrap` of a slot with no store. -/
def hasSpaceAvailable (p : AccountsPersister) (slot size : Nat) : Option Bool :=
  (p.storage slot).map fun store => store.status = .available && decide (size ≤ store.accounts.remainingBytes)

def setStore (p : AccountsPersister) (slot : Nat) (store : AccountStorageEntry) : AccountsPersister :=
  { p with storage := Function.update p.storage slot (some store) }

/-- The `while` loop of `write_accounts_to_storage`.  The store it appends to is the slot's
entry: `flush_slot_cache` inserted that same `Arc`.  `none` is a panic, or a loop still
running after `fuel` passes. -/
def writeAccountsToStorage (accounts : List CachedAccount) (slot : Nat) :
    Nat → AccountsPersister → List AccountInfo → Option (AccountsPersister × List AccountInfo)
  | 0, p, infos => if infos.length < accounts.length then none else some (p, infos)
  | fuel + 1, p, infos =>
    if infos.length < accounts.length then
      match p.storage slot with
      | none => none
      | some store =>
        match store.accounts.appendAccounts accounts infos.length with
        | (some stored, appended) =>
          -- the lamports are read at the index within this pass
          let infos := infos ++ stored.mapIdx fun i info =>
            ⟨store.id, info.offset, (accounts[i]?.map CachedAccount.lamports).getD 0⟩
          writeAccountsToStorage accounts slot fuel
            (p.setStore slot { store with accounts := appended, status := .available }) infos
        | (none, _) =>
          let p := p.setStore slot { store with status := .full }
          let dataLen := (accounts[infos.length]?.map CachedAccount.storedDataLen).getD 0 + storeMetaOverhead
          match p.hasSpaceAvailable slot dataLen with
          | none => none
          | some true => writeAccountsToStorage accounts slot fuel p infos
          | some false =>
            match p.createAndInsertStore slot (max (dataLen * 2) p.fileSize) with
            | none => none
            | some p => writeAccountsToStorage accounts slot fuel p infos
    else some (p, infos)

/-- `flush_slot_cache`; `none` is a panic. -/
def flushSlotCache (p : AccountsPersister) (slot : Nat) (slotCache : List CachedAccount) :
    Option (AccountsPersister × List AccountInfo) :=
  -- `is_dead_slot`
  if slotCache = [] then some (p, [])
  else do
    let p ← p.createAndInsertStore slot (totalSize slotCache)
    p.writeAccountsToStorage slotCache slot (slotCache.length + 1) []

/-- A sequence of flushes, with the `AccountInfo`s of each. -/
def flushAll (p : AccountsPersister) :
    List (Nat × List CachedAccount) → Option (AccountsPersister × List (List AccountInfo))
  | [] => some (p, [])
  | (slot, slotCache) :: flushes => do
    let (p, infos) ← p.flushSlotCache slot slotCache
    let (p, rest) ← p.flushAll flushes
    pure (p, infos :: rest)

end AccountsPersister

/-! ## The layout of an account -/

theorem dvd_u64Align (addr : Nat) : 8 ∣ u64Align addr := Nat.dvd_mul_left 8 _

theorem le_u64Align (addr : Nat) : addr ≤ u64Align addr := by
  unfold u64Align
  omega

theorem u64Align_mono {addr addr' : Nat} (le : addr ≤ addr') : u64Align addr ≤ u64Align addr' := by
  unfold u64Align
  omega

theorem u64Align_add_of_dvd {base : Nat} (aligned : 8 ∣ base) (addr : Nat) :
    u64Align (base + addr) = base + u64Align addr := by
  unfold u64Align
  omega

/-- The header of an account keeps the `u64` alignment, so its data starts right after it. -/
theorem appendEnd_fields (offset dataLen : Nat) :
    AppendVec.appendEnd offset [storedMetaSize, accountMetaSize, accountHashSize, dataLen] =
      u64Align offset + storeMetaOverhead + dataLen := by
  simp only [AppendVec.appendEnd, List.foldl, storedMetaSize, accountMetaSize, accountHashSize,
    storeMetaOverhead, u64Align]
  omega

/-- The next account starts `aligned_stored_size` after the last one. -/
theorem u64Align_appendEnd_fields (offset dataLen : Nat) :
    u64Align (AppendVec.appendEnd offset [storedMetaSize, accountMetaSize, accountHashSize, dataLen]) =
      u64Align offset + alignedStoredSize dataLen := by
  rw [appendEnd_fields, Nat.add_assoc, u64Align_add_of_dvd (dvd_u64Align offset)]
  rfl

@[simp] theorem footprint_nil : footprint [] = 0 := rfl

@[simp] theorem footprint_cons (account : CachedAccount) (accounts : List CachedAccount) :
    footprint (account :: accounts) = alignedStoredSize account.storedDataLen + footprint accounts := by
  simp [footprint]

/-- A zero-lamport account takes no more room than its data length reserves. -/
theorem footprint_le_totalSize (accounts : List CachedAccount) : footprint accounts ≤ totalSize accounts := by
  apply List.sum_le_sum
  intro account _
  apply u64Align_mono
  unfold CachedAccount.storedDataLen
  split <;> omega

theorem totalSize_pos {accounts : List CachedAccount} (nonempty : accounts ≠ []) : 0 < totalSize accounts := by
  obtain ⟨account, rest, rfl⟩ := List.exists_cons_of_ne_nil nonempty
  have header : storeMetaOverhead ≤ alignedStoredSize account.dataLen :=
    (Nat.le_add_right _ _).trans (le_u64Align _)
  simp only [totalSize, List.map_cons, List.sum_cons]
  unfold storeMetaOverhead at header
  omega

namespace AppendVec

/-- From any offset, accounts whose room fits after it are all stored, and the next free
`u64` boundary is their room further. -/
theorem appendLoop_of_fits (av : AppendVec) (offset : Nat) (accounts : List CachedAccount)
    (fits : u64Align offset + footprint accounts ≤ av.fileSize) :
    (av.appendLoop offset accounts).1.length = accounts.length ∧
      u64Align (av.appendLoop offset accounts).2 = u64Align offset + footprint accounts := by
  induction accounts generalizing offset with
  | nil => simp [appendLoop]
  | cons account accounts ih =>
    rw [footprint_cons] at fits
    -- the account ends within its aligned room
    have fitsHere : ¬ av.fileSize <
        appendEnd offset [storedMetaSize, accountMetaSize, accountHashSize, account.storedDataLen] := by
      have room := le_u64Align (storeMetaOverhead + account.storedDataLen)
      rw [appendEnd_fields]
      unfold alignedStoredSize at fits
      omega
    have next := u64Align_appendEnd_fields offset account.storedDataLen
    obtain ⟨stored, last⟩ := ih
      (appendEnd offset [storedMetaSize, accountMetaSize, accountHashSize, account.storedDataLen])
      (by omega)
    simp only [appendLoop, appendPtrsLocked, fitsHere, if_false, List.length_cons, footprint_cons]
    exact ⟨by rw [stored], by omega⟩

/-- A fresh append vec as large as the accounts' room takes them all in one call. -/
theorem appendAccounts_of_fits (av : AppendVec) {accounts : List CachedAccount} (nonempty : accounts ≠ [])
    (fresh : av.currentLen = 0) (fits : footprint accounts ≤ av.fileSize) :
    ∃ stored appended, av.appendAccounts accounts 0 = (some stored, appended) ∧
      stored.length = accounts.length ∧ appended.fileSize = av.fileSize := by
  have aligned : u64Align 0 = 0 := rfl
  obtain ⟨length, -⟩ := av.appendLoop_of_fits 0 accounts (by rw [aligned]; omega)
  have someStored : (av.appendLoop 0 accounts).1 ≠ [] := by
    intro none
    rw [none, List.length_nil] at length
    exact nonempty (List.length_eq_zero_iff.mp length.symm)
  simp only [appendAccounts, List.drop_zero, fresh, someStored, if_false]
  refine ⟨_, _, rfl, ?_, rfl⟩
  simp [length]

end AppendVec

namespace AccountsPersister

/-! ## Creating a store -/

theorem createAndInsertStore_eq_some {p : AccountsPersister} {slot size : Nat} (fresh : p.storage slot = none)
    (ids : p.nextId < appendVecIdMax) (positive : 0 < size) (bounded : size ≤ maximumAppendVecFileSize) :
    p.createAndInsertStore slot size =
      some { p with
        storage := Function.update p.storage slot (some ⟨p.nextId, ⟨size, 0⟩, .available⟩)
        nextId := p.nextId + 1 } := by
  have notMax : p.nextId ≠ appendVecIdMax := by omega
  have notZero : size ≠ 0 := by omega
  have notLarge : ¬ maximumAppendVecFileSize < size := by omega
  simp [createAndInsertStore, takeNextId, notMax, AppendVec.new, notZero, notLarge, insertStore, fresh]

theorem createAndInsertStore_of_too_large {p : AccountsPersister} {slot size : Nat}
    (large : maximumAppendVecFileSize < size) : p.createAndInsertStore slot size = none := by
  unfold createAndInsertStore takeNextId
  split
  · rfl
  · simp [AppendVec.new, large]

theorem createAndInsertStore_of_ids {p : AccountsPersister} {slot : Nat} (exhausted : p.nextId = appendVecIdMax)
    (size : Nat) : p.createAndInsertStore slot size = none := by
  simp [createAndInsertStore, takeNextId, exhausted]

/-! ## Writing the accounts -/

/-- On a fresh store with room for every account, the first pass stores them all, with their
lamports, and the loop ends. -/
theorem writeAccountsToStorage_of_fits {accounts : List CachedAccount} {slot : Nat} {p : AccountsPersister}
    {store : AccountStorageEntry} (entry : p.storage slot = some store) (nonempty : accounts ≠ [])
    (fresh : store.accounts.currentLen = 0) (fits : footprint accounts ≤ store.accounts.fileSize) :
    ∃ appended infos, p.writeAccountsToStorage accounts slot (accounts.length + 1) [] =
        some (p.setStore slot { store with accounts := appended, status := .available }, infos) ∧
      appended.fileSize = store.accounts.fileSize ∧
      infos.map AccountInfo.lamports = accounts.map CachedAccount.lamports := by
  obtain ⟨stored, appended, appendedEq, length, size⟩ := store.accounts.appendAccounts_of_fits nonempty fresh fits
  obtain ⟨n, counted⟩ : ∃ n, accounts.length = n + 1 :=
    Nat.exists_eq_add_one.mpr (List.length_pos_iff.mpr nonempty)
  -- the infos of the one pass, with the lamports read at each index
  have lamports : (stored.mapIdx fun i info =>
      (⟨store.id, info.offset, (accounts[i]?.map CachedAccount.lamports).getD 0⟩ : AccountInfo)).map
        AccountInfo.lamports = accounts.map CachedAccount.lamports := by
    apply List.ext_getElem
    · simp [length]
    · intro i lhs rhs
      simp only [List.length_map] at rhs
      simp [List.getElem?_eq_getElem rhs]
  obtain ⟨infos, infosEq⟩ : ∃ infos : List AccountInfo, stored.mapIdx (fun i info =>
      (⟨store.id, info.offset, (accounts[i]?.map CachedAccount.lamports).getD 0⟩ : AccountInfo)) = infos :=
    ⟨_, rfl⟩
  have infosLength : infos.length = accounts.length := by
    rw [← infosEq, List.length_mapIdx, length]
  refine ⟨appended, infos, ?_, size, infosEq ▸ lamports⟩
  -- one pass, then the loop's test fails
  have fuel : accounts.length + 1 = n + 1 + 1 := by rw [counted]
  have short : ([] : List AccountInfo).length < accounts.length := by simp [counted]
  rw [fuel, writeAccountsToStorage, if_pos short]
  simp only [entry, List.length_nil, appendedEq, List.nil_append, infosEq]
  rw [writeAccountsToStorage, if_neg (by omega)]

/-! ## One flush -/

/-- A flush of a non-empty cache at a slot with no store inserts one store for the slot, of
`total_size`, and appends every account to it in one pass. -/
theorem flushSlotCache_eq_some {p : AccountsPersister} {slot : Nat} {slotCache : List CachedAccount}
    (nonempty : slotCache ≠ []) (fresh : p.storage slot = none) (ids : p.nextId < appendVecIdMax)
    (fits : totalSize slotCache ≤ maximumAppendVecFileSize) :
    ∃ appended infos, p.flushSlotCache slot slotCache =
        some ({ p with
          storage := Function.update p.storage slot (some ⟨p.nextId, appended, .available⟩)
          nextId := p.nextId + 1 }, infos) ∧
      appended.fileSize = totalSize slotCache ∧
      infos.map AccountInfo.lamports = slotCache.map CachedAccount.lamports := by
  have created := createAndInsertStore_eq_some fresh ids (totalSize_pos nonempty) fits
  obtain ⟨appended, infos, written, size, lamports⟩ :=
    writeAccountsToStorage_of_fits (p := { p with
      storage := Function.update p.storage slot (some ⟨p.nextId, ⟨totalSize slotCache, 0⟩, .available⟩)
      nextId := p.nextId + 1 }) (Function.update_self _ _ _) nonempty rfl (footprint_le_totalSize slotCache)
  refine ⟨appended, infos, ?_, size, lamports⟩
  simp only [flushSlotCache, nonempty, if_false, created, Option.bind_eq_bind, Option.bind_some, written]
  simp [setStore]

/-- One flush at a slot with no store: nothing panics, every account's lamports come back in its
`AccountInfo`, one store id is used for a non-empty cache, no other slot changes, and the slot
ends with a store of `total_size` exactly when the cache is not empty. -/
theorem flushSlotCache_spec {p : AccountsPersister} {slot : Nat} {slotCache : List CachedAccount}
    (fresh : p.storage slot = none) (ids : slotCache ≠ [] → p.nextId < appendVecIdMax)
    (fits : totalSize slotCache ≤ maximumAppendVecFileSize) :
    ∃ p' infos, p.flushSlotCache slot slotCache = some (p', infos) ∧
      infos.map AccountInfo.lamports = slotCache.map CachedAccount.lamports ∧
      p'.nextId = p.nextId + (if slotCache = [] then 0 else 1) ∧
      (∀ other, other ≠ slot → p'.storage other = p.storage other) ∧
      match p'.storage slot with
      | some store => slotCache ≠ [] ∧ store.accounts.fileSize = totalSize slotCache
      | none => slotCache = [] := by
  by_cases empty : slotCache = []
  · subst empty
    refine ⟨p, [], rfl, rfl, by simp, fun _ _ => rfl, ?_⟩
    simp [fresh]
  · obtain ⟨appended, infos, flushed, size, lamports⟩ := flushSlotCache_eq_some empty fresh (ids empty) fits
    refine ⟨_, infos, flushed, lamports, by simp [empty], fun other differs => ?_, ?_⟩
    · simp [Function.update_of_ne differs]
    · simp [empty, size]

/-! ## A sequence of flushes -/

/-- The number of flushes with a non-empty cache, one store id each. -/
def nonemptyCount (flushes : List (Nat × List CachedAccount)) : Nat :=
  flushes.countP fun flush => !flush.2.isEmpty

theorem nonemptyCount_cons (slot : Nat) (slotCache : List CachedAccount) (flushes : List (Nat × List CachedAccount)) :
    nonemptyCount ((slot, slotCache) :: flushes) = (if slotCache = [] then 0 else 1) + nonemptyCount flushes := by
  unfold nonemptyCount
  rw [List.countP_cons]
  cases slotCache <;> simp [Nat.add_comm]

theorem flushAll_cons (p : AccountsPersister) (slot : Nat) (slotCache : List CachedAccount)
    (flushes : List (Nat × List CachedAccount)) :
    p.flushAll ((slot, slotCache) :: flushes) =
      (p.flushSlotCache slot slotCache).bind fun flushed =>
        (flushed.1.flushAll flushes).bind fun rest => some (rest.1, flushed.2 :: rest.2) := rfl

/-- Flushes on increasing slots, all above the slots that have a store, with room for their
store ids and stores within the size limit: none panics, and each non-empty cache ends as the
store of its slot. -/
theorem flushAll_spec {p : AccountsPersister} {flushes : List (Nat × List CachedAccount)}
    (increasing : (flushes.map Prod.fst).Pairwise (· < ·))
    (above : ∀ flush ∈ flushes, ∀ slot, (p.storage slot).isSome → slot < flush.1)
    (fits : ∀ flush ∈ flushes, totalSize flush.2 ≤ maximumAppendVecFileSize)
    (ids : p.nextId + nonemptyCount flushes ≤ appendVecIdMax) :
    ∃ p' infos, p.flushAll flushes = some (p', infos) ∧
      infos.map (List.map AccountInfo.lamports) = flushes.map (fun flush => flush.2.map CachedAccount.lamports) ∧
      p'.nextId = p.nextId + nonemptyCount flushes ∧
      (∀ slot, (∀ flush ∈ flushes, flush.1 ≠ slot) → p'.storage slot = p.storage slot) ∧
      ∀ slot slotCache, (slot, slotCache) ∈ flushes →
        match p'.storage slot with
        | some store => slotCache ≠ [] ∧ store.accounts.fileSize = totalSize slotCache
        | none => slotCache = [] := by
  induction flushes generalizing p with
  | nil =>
    refine ⟨p, [], rfl, rfl, by simp [nonemptyCount], fun _ _ => rfl, ?_⟩
    intro slot slotCache mem
    cases mem
  | cons flush flushes ih =>
    obtain ⟨slot, slotCache⟩ := flush
    rw [List.map_cons, List.pairwise_cons] at increasing
    rw [nonemptyCount_cons] at ids
    have fresh : p.storage slot = none := by
      cases stored : p.storage slot with
      | none => rfl
      | some store =>
        have := above (slot, slotCache) List.mem_cons_self slot (by simp [stored])
        omega
    obtain ⟨p₁, infos, flushed, lamports, nextId, others, here⟩ :=
      flushSlotCache_spec fresh (fun nonempty => by simp only [nonempty, if_false] at ids; omega)
        (fits _ List.mem_cons_self)
    dsimp only at flushed lamports nextId here
    -- the later flushes are above this slot, and above every slot with a store before
    have later : ∀ flush ∈ flushes, slot < flush.1 := fun flush mem =>
      increasing.1 flush.1 (List.mem_map_of_mem mem)
    have above₁ : ∀ flush ∈ flushes, ∀ other, (p₁.storage other).isSome → other < flush.1 := by
      intro flush mem other stored
      by_cases same : other = slot
      · rw [same]
        exact later flush mem
      · rw [others other same] at stored
        exact above flush (List.mem_cons_of_mem _ mem) other stored
    obtain ⟨p', rest, ranRest, lamportsRest, nextIdRest, othersRest, storedRest⟩ :=
      ih increasing.2 above₁ (fun flush mem => fits flush (List.mem_cons_of_mem _ mem))
        (by rw [nextId]; omega)
    have kept : p'.storage slot = p₁.storage slot :=
      othersRest slot fun flush mem same => by have := later flush mem; omega
    refine ⟨p', infos :: rest, by simp [flushAll_cons, flushed, ranRest], by simp [lamports, lamportsRest],
      by rw [nextIdRest, nextId, nonemptyCount_cons]; omega, fun other unflushed => ?_, ?_⟩
    · rw [othersRest other fun flush mem => unflushed flush (List.mem_cons_of_mem _ mem),
        others other fun same => unflushed (slot, slotCache) List.mem_cons_self same.symm]
    · intro other otherCache mem
      rcases List.mem_cons.mp mem with first | mem
      · cases first
        rw [kept]
        exact here
      · exact storedRest other otherCache mem

/-! ## Flushes from the start -/

/-- For every sequence of flushes on strictly increasing slots from the default persister,
with each cache within `MAXIMUM_APPEND_VEC_FILE_SIZE` and fewer non-empty caches than store
ids: no flush panics, so the full-store branch is never reached; every account comes back in
one `AccountInfo` with its lamports; one store id is used per non-empty cache; and the stores
are exactly one per slot with a non-empty cache, of its `total_size`. -/
theorem flush_slot_cache_stores_one_entry_per_slot (fileSize : Nat) (flushes : List (Nat × List CachedAccount))
    (increasing : (flushes.map Prod.fst).Pairwise (· < ·))
    (fits : ∀ flush ∈ flushes, totalSize flush.2 ≤ maximumAppendVecFileSize)
    (ids : nonemptyCount flushes ≤ appendVecIdMax) :
    ∃ p infos, (default fileSize).flushAll flushes = some (p, infos) ∧
      infos.map (List.map AccountInfo.lamports) = flushes.map (fun flush => flush.2.map CachedAccount.lamports) ∧
      p.nextId = nonemptyCount flushes ∧
      ∀ slot, match p.storage slot with
        | some store => ∃ slotCache, (slot, slotCache) ∈ flushes ∧ slotCache ≠ [] ∧
            store.accounts.fileSize = totalSize slotCache
        | none => ∀ slotCache, (slot, slotCache) ∈ flushes → slotCache = [] := by
  obtain ⟨p, infos, ran, lamports, nextId, unflushed, flushed⟩ :=
    @flushAll_spec (default fileSize) flushes increasing
      (fun _ _ _ stored => by simp [AccountsPersister.default] at stored) fits
      (by simpa [AccountsPersister.default] using ids)
  refine ⟨p, infos, ran, lamports, by simpa [AccountsPersister.default] using nextId, fun slot => ?_⟩
  by_cases touched : ∃ slotCache, (slot, slotCache) ∈ flushes
  · obtain ⟨slotCache, mem⟩ := touched
    have entry := flushed slot slotCache mem
    split
    · next store stored =>
      rw [stored] at entry
      exact ⟨slotCache, mem, entry⟩
    · next stored =>
      intro otherCache otherMem
      have other := flushed slot otherCache otherMem
      rw [stored] at other
      exact other
  · -- a slot no flush names keeps the default: no store
    have none : p.storage slot = none := by
      rw [unflushed slot fun flush mem same => touched ⟨flush.2, same ▸ mem⟩]
      rfl
    rw [none]
    intro slotCache mem
    exact absurd ⟨slotCache, mem⟩ touched

/-- Three slots: the first with three accounts (10, 0 and 33 bytes of data), the second empty,
the third with two accounts. -/
theorem flush_slot_cache_stores_one_entry_per_slot_of_three :
    let flushes : List (Nat × List CachedAccount) :=
      [(1, [⟨5, 10⟩, ⟨7, 0⟩, ⟨3, 33⟩]), (2, []), (4, [⟨9, 1⟩, ⟨2, 8⟩])]
    (flushes.map Prod.fst).Pairwise (· < ·) ∧
    (∀ flush ∈ flushes, totalSize flush.2 ≤ maximumAppendVecFileSize) ∧
    nonemptyCount flushes ≤ appendVecIdMax ∧
    ∃ p infos, (default 0).flushAll flushes = some (p, infos) ∧
      infos.map (List.map AccountInfo.lamports) = flushes.map (fun flush => flush.2.map CachedAccount.lamports) ∧
      p.nextId = nonemptyCount flushes ∧
      ∀ slot, match p.storage slot with
        | some store => ∃ slotCache, (slot, slotCache) ∈ flushes ∧ slotCache ≠ [] ∧
            store.accounts.fileSize = totalSize slotCache
        | none => ∀ slotCache, (slot, slotCache) ∈ flushes → slotCache = [] := by
  intro flushes
  have increasing : (flushes.map Prod.fst).Pairwise (· < ·) := by decide
  have fits : ∀ flush ∈ flushes, totalSize flush.2 ≤ maximumAppendVecFileSize := by decide
  have ids : nonemptyCount flushes ≤ appendVecIdMax := by decide
  exact ⟨increasing, fits, ids, flush_slot_cache_stores_one_entry_per_slot 0 flushes increasing fits ids⟩

/-- Past either limit a flush panics: a cache over `MAXIMUM_APPEND_VEC_FILE_SIZE` in
`AppendVec::new`, and a non-empty cache once the store ids are spent in `next_id`. -/
theorem flush_slot_cache_panics_past_limits :
    (∀ (p : AccountsPersister) slot slotCache, maximumAppendVecFileSize < totalSize slotCache →
      p.flushSlotCache slot slotCache = none) ∧
    (∀ (p : AccountsPersister) slot slotCache, slotCache ≠ [] → p.nextId = appendVecIdMax →
      p.flushSlotCache slot slotCache = none) := by
  constructor
  · intro p slot slotCache large
    have nonempty : slotCache ≠ [] := by
      rintro rfl
      simp [totalSize] at large
    simp [flushSlotCache, nonempty, createAndInsertStore_of_too_large large]
  · intro p slot slotCache nonempty exhausted
    simp [flushSlotCache, nonempty, createAndInsertStore_of_ids exhausted]

end AccountsPersister

end EphemeralValidator.AccountsDb
