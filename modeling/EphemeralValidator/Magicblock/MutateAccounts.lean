import Mathlib.Data.List.AList
import EphemeralValidator.Lib.Counter
import EphemeralValidator.Lib.Except
import EphemeralValidator.Magicblock.AccountModData
import EphemeralValidator.Magicblock.ScheduleCommit

/-! # `ModifyAccounts`: building and processing account mutations

`modify_accounts_instruction` turns a list of `AccountModification`s into one
instruction: the account metas are the validator authority followed by each modified
pubkey, in order, and the instruction data is a `HashMap` from pubkey to the
modification, with any account data parked in `DATA_MODS` and replaced by its id.  A
pubkey listed twice gets two metas but one map entry, the later one.

`process_mutate_accounts` checks the signer, that the number of metas after the
authority equals the number of map entries, and that the authority comes first and is
owned by the system program.  It then walks the metas, removes each one's modification
from the map and applies it, and finally charges the authority for the lamports it
handed out.

The transaction's accounts are a function from pubkey to account, so that two metas
with one key are one account, as in the runtime.  The map is Mathlib's `AList`, an
association list without duplicate keys.
-/

namespace EphemeralValidator.Magicblock

open EphemeralValidator.Bytes EphemeralValidator.Solana EphemeralValidator.Lib

/-- `AccountModification`. -/
structure AccountModification where
  pubkey : Pubkey
  lamports : Option UInt64
  owner : Option Pubkey
  executable : Option Bool
  data : Option (List UInt8)
  rentEpoch : Option UInt64

/-- `AccountModificationForInstruction`: the data replaced by the id it is parked under. -/
structure AccountModificationForInstruction where
  lamports : Option UInt64
  owner : Option Pubkey
  executable : Option Bool
  dataKey : Option UInt64
  rentEpoch : Option UInt64

/-- The instruction's entry for a modification whose data, if any, is parked under
`dataKey`. -/
def AccountModification.forInstruction (m : AccountModification) (dataKey : Option UInt64) :
    AccountModificationForInstruction :=
  ⟨m.lamports, m.owner, m.executable, dataKey, m.rentEpoch⟩

/-- The instruction's `HashMap<Pubkey, AccountModificationForInstruction>`. -/
abbrev AccountMods := AList fun _ : Pubkey => AccountModificationForInstruction

/-! ## The instruction builder -/

/-- `account_modification.data.map(set_account_mod_data)`. -/
def parkData (data : Option (List UInt8)) (s : AccountModDataState) :
    Option UInt64 × AccountModDataState :=
  match data with
  | none => (none, s)
  | some data =>
    let parked := s.setAccountModData data
    (some parked.1, parked.2)

/-- The loop of `modify_accounts_instruction` over the modifications, from the metas and
the map built so far. -/
def modifyAccountsLoop : List AccountModification → List Pubkey → AccountMods →
    AccountModDataState → List Pubkey × AccountMods × AccountModDataState
  | [], metas, accountMods, s => (metas, accountMods, s)
  | m :: ms, metas, accountMods, s =>
    let parked := parkData m.data s
    modifyAccountsLoop ms (metas ++ [m.pubkey])
      (accountMods.insert m.pubkey (m.forInstruction parked.1))
      parked.2

/-- `modify_accounts_instruction`: the account metas' keys, the map, and the statics
after parking the data. -/
def modifyAccountsInstruction (validatorAuthority : Pubkey) (modifications : List AccountModification)
    (s : AccountModDataState) : List Pubkey × AccountMods × AccountModDataState :=
  modifyAccountsLoop modifications [validatorAuthority] ∅ s

/-! ## The processor -/

/-- The checks of `process_mutate_accounts` (its step 1).  `accounts_len - 1` is `u16`
arithmetic, as the runtime counts instruction accounts in `u16`. -/
def mutateAccountsChecks (validatorAuthority systemProgramId : Pubkey) (signers keys : List Pubkey)
    (accountMods : AccountMods) (accounts : Pubkey → AccountSharedData) :
    Except InstructionError Unit := do
  let accountsToModLen : UInt16 := UInt16.ofNat keys.length - 1
  if validatorAuthority ∉ signers then throw .missingRequiredSignature
  if accountsToModLen = 0 then throw MagicBlockProgramError.noAccountsToModify.toInstructionError
  if accountsToModLen.toNat ≠ accountMods.entries.length then
    throw MagicBlockProgramError.accountsToModifyNotMatchingAccountModifications.toInstructionError
  let authorityKey ← instructionPubkey keys 0
  if authorityKey ≠ validatorAuthority then
    throw MagicBlockProgramError.firstAccountNeedsToBeMagicBlockAuthority.toInstructionError
  if (accounts authorityKey).owner ≠ systemProgramId then
    throw MagicBlockProgramError.magicBlockAuthorityNeedsToBeOwnedBySystemProgram.toInstructionError

/-- What the loop of `process_mutate_accounts` carries: the transaction's accounts, the
map being emptied, the lamports to debit from the authority (an `i128`, which no sum
of `u64` differences over an instruction's accounts can overflow), and the data
resolved from memory, to persist at the end. -/
structure MutateLoopState where
  accounts : Pubkey → AccountSharedData
  accountMods : AccountMods
  lamportsToDebit : Int
  memoryDataMods : List ResolvedAccountModData

/-- The data step of one modification: resolve the key and set the data from it.  The
outer `none` is a failed sequence check inside the resolution. -/
def modifyData (dataKey : Option UInt64) (account : AccountSharedData)
    (memoryDataMods : List ResolvedAccountModData) (s : AccountModDataState) :
    Option (Except InstructionError (AccountSharedData × List ResolvedAccountModData) ×
      AccountModDataState) :=
  match dataKey with
  | none => some (.ok (account, memoryDataMods), s)
  | some dataKey =>
    match resolveAccountModData dataKey s with
    | none => none
    | some (.error e, s) => some (.error e.toInstructionError, s)
    | some (.ok resolved, s) =>
      match resolved.data with
      | none => some (.error MagicBlockProgramError.accountDataMissing.toInstructionError, s)
      | some data =>
        let memoryDataMods :=
          if resolved.isFromMemory then memoryDataMods ++ [resolved] else memoryDataMods
        some (.ok (account.setDataFromSlice data, memoryDataMods), s)

/-- One pass of the loop (step 2): the account at instruction index `idx + 1` gets the
modification removed from the map under its key. -/
def mutateAccount (keys : List Pubkey) (idx : Nat) (st : MutateLoopState) (s : AccountModDataState) :
    Option (Except InstructionError MutateLoopState × AccountModDataState) :=
  match keys[idx + 1]? with
  | none => some (.error .notEnoughAccountKeys, s)
  | some accountKey =>
    match st.accountMods.lookup accountKey with
    | none => some (.error MagicBlockProgramError.accountModificationMissing.toInstructionError, s)
    | some modification =>
      let accountMods := st.accountMods.erase accountKey
      let account := st.accounts accountKey
      -- `lamports_to_debit += lamports - current_lamports`, then the plain setters
      let lamportsToDebit := match modification.lamports with
        | some lamports => st.lamportsToDebit + ((lamports.toNat : Int) - account.lamports.toNat)
        | none => st.lamportsToDebit
      let account := { account with
        lamports := modification.lamports.getD account.lamports
        owner := modification.owner.getD account.owner
        executable := modification.executable.getD account.executable }
      match modifyData modification.dataKey account st.memoryDataMods s with
      | none => none
      | some (.error e, s) => some (.error e, s)
      | some (.ok (account, memoryDataMods), s) =>
        let account := { account with rentEpoch := modification.rentEpoch.getD account.rentEpoch }
        some (.ok ⟨Function.update st.accounts accountKey account, accountMods, lamportsToDebit,
          memoryDataMods⟩, s)

/-- The loop over `0..account_mods_len`. -/
def mutateAccountsLoop (keys : List Pubkey) : List Nat → MutateLoopState → AccountModDataState →
    Option (Except InstructionError MutateLoopState × AccountModDataState)
  | [], st, s => some (.ok st, s)
  | idx :: idxs, st, s =>
    match mutateAccount keys idx st s with
    | none => none
    | some (.error e, s) => some (.error e, s)
    | some (.ok st, s) => mutateAccountsLoop keys idxs st s

/-- Step 3: the authority pays for the lamports handed out and is credited with those
taken away; its balance must stay a `u64`. -/
def debitAuthority (validatorAuthority : Pubkey) (lamportsToDebit : Int)
    (accounts : Pubkey → AccountSharedData) : Except InstructionError (Pubkey → AccountSharedData) :=
  if lamportsToDebit = 0 then .ok accounts
  else
    let authority := accounts validatorAuthority
    let adjusted : Int := authority.lamports.toNat - lamportsToDebit
    -- `checked_sub` in `u128` fails below zero; a credit cannot overflow `u128`
    if adjusted < 0 then .error .insufficientFunds
    -- `u64::try_from`
    else if 2 ^ 64 ≤ adjusted then .error .arithmeticOverflow
    else .ok (Function.update accounts validatorAuthority
      { authority with lamports := UInt64.ofNat adjusted.toNat })

/-- Step 4: persist the data resolved from memory, so that a replay can load it. -/
def persistDataMods : List ResolvedAccountModData → AccountModDataState →
    Except InstructionError Unit × AccountModDataState
  | [], s => (.ok (), s)
  | resolved :: rest, s =>
    match resolved.persist s with
    | .error e => (.error e.toInstructionError, s)
    | .ok s => persistDataMods rest s

/-- `process_mutate_accounts`: the outcome with the accounts it leaves (written back
only on success), and the statics, which keep their changes either way.  The outer
`none` is an aborted validator. -/
def processMutateAccounts (validatorAuthority systemProgramId : Pubkey) (signers keys : List Pubkey)
    (accountMods : AccountMods) (accounts : Pubkey → AccountSharedData) (s : AccountModDataState) :
    Option (Except InstructionError (Pubkey → AccountSharedData) × AccountModDataState) :=
  match mutateAccountsChecks validatorAuthority systemProgramId signers keys accountMods accounts with
  | .error e => some (.error e, s)
  | .ok () =>
    match mutateAccountsLoop keys (List.range accountMods.entries.length)
        ⟨accounts, accountMods, 0, []⟩ s with
    | none => none
    | some (.error e, s) => some (.error e, s)
    | some (.ok st, s) =>
      match debitAuthority validatorAuthority st.lamportsToDebit st.accounts with
      | .error e => some (.error e, s)
      | .ok accounts =>
        match persistDataMods st.memoryDataMods s with
        | (.error e, s) => some (.error e, s)
        | (.ok (), s) => some (.ok accounts, s)

/-! ## What the modifications mean

The abstract behaviour the instruction is for: each listed account gets the fields its
modification sets, and the authority pays for the lamports handed out. -/

/-- A modification applied to an account: each field it sets replaces the account's. -/
def AccountModification.applyTo (m : AccountModification) (account : AccountSharedData) :
    AccountSharedData :=
  { lamports := m.lamports.getD account.lamports
    data := m.data.getD account.data
    owner := m.owner.getD account.owner
    executable := m.executable.getD account.executable
    rentEpoch := m.rentEpoch.getD account.rentEpoch }

/-- The lamports a modification hands to an account (negative when it takes them away). -/
def AccountModification.lamportsDelta (m : AccountModification) (account : AccountSharedData) : Int :=
  match m.lamports with
  | some lamports => (lamports.toNat : Int) - account.lamports.toNat
  | none => 0

/-- What the authority pays for modifications of distinct accounts. -/
def netDebit (modifications : List AccountModification) (accounts : Pubkey → AccountSharedData) : Int :=
  (modifications.map fun m => m.lamportsDelta (accounts m.pubkey)).sum

/-- `accounts'` is `accounts` with the modifications `ms` applied: each listed account has
its own modification, and every other account is untouched. -/
structure Applied (ms : List AccountModification) (accounts accounts' : Pubkey → AccountSharedData) :
    Prop where
  listed : ∀ m ∈ ms, accounts' m.pubkey = m.applyTo (accounts m.pubkey)
  unlisted : ∀ k, k ∉ ms.map (·.pubkey) → accounts' k = accounts k

theorem Applied.nil (accounts : Pubkey → AccountSharedData) : Applied [] accounts accounts :=
  ⟨by simp, fun _ _ => rfl⟩

/-- Applying a modification of an account the rest do not touch, then the rest. -/
theorem Applied.cons {m : AccountModification} {ms : List AccountModification}
    {accounts accounts' : Pubkey → AccountSharedData} (fresh : m.pubkey ∉ ms.map (·.pubkey))
    (rest : Applied ms (Function.update accounts m.pubkey (m.applyTo (accounts m.pubkey))) accounts') :
    Applied (m :: ms) accounts accounts' := by
  constructor
  · intro m' mem
    rcases List.mem_cons.mp mem with rfl | later
    · rw [rest.unlisted _ fresh, Function.update_self]
    · have other : m'.pubkey ≠ m.pubkey := fun same => fresh (same ▸ List.mem_map_of_mem later)
      rw [rest.listed m' later, Function.update_of_ne other]
  · intro k unlisted
    rw [List.map_cons, List.mem_cons, not_or] at unlisted
    rw [rest.unlisted k unlisted.2, Function.update_of_ne unlisted.1]

theorem netDebit_cons (m : AccountModification) (ms : List AccountModification)
    (accounts : Pubkey → AccountSharedData) :
    netDebit (m :: ms) accounts = m.lamportsDelta (accounts m.pubkey) + netDebit ms accounts := by
  rw [netDebit, List.map_cons, List.sum_cons]
  rfl

theorem netDebit_update_of_notMem {ms : List AccountModification} {k : Pubkey}
    (unlisted : k ∉ ms.map (·.pubkey)) (accounts : Pubkey → AccountSharedData) (account : AccountSharedData) :
    netDebit ms (Function.update accounts k account) = netDebit ms accounts := by
  unfold netDebit
  congr 1
  apply List.map_congr_left
  intro m mem
  have other : m.pubkey ≠ k := fun same => unlisted (same ▸ List.mem_map_of_mem mem)
  rw [Function.update_of_ne other]

/-! ## What the builder produces -/

/-- Where the instruction finds a modification's data: nowhere when it has none, else
parked in memory under its key. -/
def Parked (data : Option (List UInt8)) (dataKey : Option UInt64) (s : AccountModDataState) : Prop :=
  match data with
  | none => dataKey = none
  | some data => ∃ id, dataKey = some id ∧ s.dataMods id = some data

/-- Data stays parked while the memory under its key is left alone. -/
theorem Parked.of_dataMods {data : Option (List UInt8)} {dataKey : Option UInt64}
    {s s' : AccountModDataState} (parked : Parked data dataKey s)
    (untouched : ∀ id, dataKey = some id → s'.dataMods id = s.dataMods id) :
    Parked data dataKey s' := by
  cases data with
  | none => exact parked
  | some data =>
    obtain ⟨id, rfl, stored⟩ := parked
    exact ⟨id, rfl, by rw [untouched id rfl, stored]⟩

/-- Modifications, each with the data key it got, that the instruction's map holds under
their pubkeys and whose data is parked. -/
structure Prepared (ps : List (AccountModification × Option UInt64)) (accountMods : AccountMods)
    (s : AccountModDataState) : Prop where
  lookup : ∀ p ∈ ps, accountMods.lookup p.1.pubkey = some (p.1.forInstruction p.2)
  parked : ∀ p ∈ ps, Parked p.1.data p.2 s

@[simp] theorem parkData_none (s : AccountModDataState) : parkData none s = (none, s) := rfl

@[simp] theorem parkData_some (data : List UInt8) (s : AccountModDataState) :
    parkData (some data) s = (some s.dataModId,
      { s with dataModId := s.dataModId + 1,
               dataMods := Function.update s.dataMods s.dataModId (some data) }) := rfl

theorem parkData_persisted (data : Option (List UInt8)) (s : AccountModDataState) :
    (parkData data s).2.persisted = s.persisted := by
  cases data <;> rfl

theorem filterMap_dataKey_append (ps : List (AccountModification × Option UInt64))
    (p : AccountModification × Option UInt64) :
    (ps ++ [p]).filterMap (·.2) = ps.filterMap (·.2) ++ p.2.toList := by
  obtain ⟨m, dataKey⟩ := p
  cases dataKey <;> simp

/-- What the builder's loop keeps: the modifications so far are prepared, and their data
keys are the counter's first draws since `start`. -/
structure Building (start : UInt64) (ps : List (AccountModification × Option UInt64))
    (accountMods : AccountMods) (s : AccountModDataState) : Prop where
  prepared : Prepared ps accountMods s
  drawn : ps.filterMap (·.2) = drawnIds start (ps.filterMap (·.2)).length
  counter : s.dataModId = start + UInt64.ofNat (ps.filterMap (·.2)).length

/-- One pass of the builder's loop, for a pubkey not seen before. -/
theorem Building.park {start : UInt64} {ps : List (AccountModification × Option UInt64)}
    {accountMods : AccountMods} {s : AccountModDataState} (building : Building start ps accountMods s)
    {m : AccountModification} (fresh : m.pubkey ∉ ps.map (·.1.pubkey)) (room : ps.length < 2 ^ 64) :
    Building start (ps ++ [(m, (parkData m.data s).1)])
      (accountMods.insert m.pubkey (m.forInstruction (parkData m.data s).1)) (parkData m.data s).2 := by
  -- the earlier entries survive the insert, whatever key the data gets
  have lookup : ∀ dataKey, ∀ p ∈ ps ++ [(m, dataKey)],
      (accountMods.insert m.pubkey (m.forInstruction dataKey)).lookup p.1.pubkey =
        some (p.1.forInstruction p.2) := by
    intro dataKey p mem
    rcases List.mem_append.mp mem with old | new
    · have other : p.1.pubkey ≠ m.pubkey := fun same => fresh (same ▸ List.mem_map_of_mem old)
      rw [AList.lookup_insert_ne other, building.prepared.lookup p old]
    · rw [List.mem_singleton.mp new]
      exact AList.lookup_insert _
  cases hdata : m.data with
  | none =>
    -- nothing is parked and the counter stays
    rw [parkData_none]
    refine ⟨⟨lookup none, ?_⟩, ?_, ?_⟩
    · intro p mem
      rcases List.mem_append.mp mem with old | new
      · exact building.prepared.parked p old
      · rw [List.mem_singleton.mp new]
        simp only [Parked, hdata]
    · rw [filterMap_dataKey_append, Option.toList_none, List.append_nil]
      exact building.drawn
    · rw [filterMap_dataKey_append, Option.toList_none, List.append_nil]
      exact building.counter
  | some data =>
    -- the data is parked under the counter's next draw, which no earlier key holds
    have roomDrawn : (ps.filterMap (·.2)).length < 2 ^ 64 :=
      Nat.lt_of_le_of_lt (List.length_filterMap_le _ _) room
    have next := @next_notMem_drawnIds start _ roomDrawn
    rw [← building.drawn, ← building.counter] at next
    rw [parkData_some]
    refine ⟨⟨lookup _, ?_⟩, ?_, ?_⟩
    · intro p mem
      rcases List.mem_append.mp mem with old | new
      · refine (building.prepared.parked p old).of_dataMods fun id held => ?_
        have other : id ≠ s.dataModId := fun same =>
          next (List.mem_filterMap.mpr ⟨p, old, same ▸ held⟩)
        exact Function.update_of_ne other _ _
      · rw [List.mem_singleton.mp new]
        simp only [Parked, hdata]
        exact ⟨s.dataModId, rfl, Function.update_self _ _ _⟩
    · rw [filterMap_dataKey_append, Option.toList_some, List.length_append, List.length_singleton,
        drawnIds_succ, ← building.drawn, ← building.counter]
    · rw [filterMap_dataKey_append, Option.toList_some, List.length_append, List.length_singleton,
        UInt64.ofNat_add, UInt64.ofNat_one, ← UInt64.add_assoc, ← building.counter]

theorem modifyAccountsLoop_metas (ms : List AccountModification) (metas : List Pubkey)
    (accountMods : AccountMods) (s : AccountModDataState) :
    (modifyAccountsLoop ms metas accountMods s).1 = metas ++ ms.map (·.pubkey) := by
  induction ms generalizing metas accountMods s with
  | nil => simp [modifyAccountsLoop]
  | cons m ms ih => simp [modifyAccountsLoop, ih]

theorem mem_modifyAccountsLoop {k : Pubkey} (ms : List AccountModification) (metas : List Pubkey)
    (accountMods : AccountMods) (s : AccountModDataState) :
    k ∈ (modifyAccountsLoop ms metas accountMods s).2.1 ↔ k ∈ accountMods ∨ k ∈ ms.map (·.pubkey) := by
  induction ms generalizing metas accountMods s with
  | nil => simp [modifyAccountsLoop]
  | cons m ms ih =>
    rw [modifyAccountsLoop, ih, AList.mem_insert, List.map_cons, List.mem_cons]
    tauto

theorem modifyAccountsLoop_persisted (ms : List AccountModification) (metas : List Pubkey)
    (accountMods : AccountMods) (s : AccountModDataState) :
    (modifyAccountsLoop ms metas accountMods s).2.2.persisted = s.persisted := by
  induction ms generalizing metas accountMods s with
  | nil => rfl
  | cons m ms ih => rw [modifyAccountsLoop, ih, parkData_persisted]

/-- The builder's loop over pubkeys distinct from each other and from those already
seen prepares every modification. -/
theorem modifyAccountsLoop_building {start : UInt64} (ms : List AccountModification)
    (metas : List Pubkey) (accountMods : AccountMods) (s : AccountModDataState)
    (ps : List (AccountModification × Option UInt64)) (building : Building start ps accountMods s)
    (distinct : (ps.map (·.1.pubkey) ++ ms.map (·.pubkey)).Nodup)
    (room : ps.length + ms.length ≤ 2 ^ 64) :
    ∃ qs, qs.map Prod.fst = ms ∧ Building start (ps ++ qs)
      (modifyAccountsLoop ms metas accountMods s).2.1 (modifyAccountsLoop ms metas accountMods s).2.2 := by
  induction ms generalizing metas accountMods s ps with
  | nil => exact ⟨[], rfl, by simpa [modifyAccountsLoop] using building⟩
  | cons m ms ih =>
    rw [List.map_cons, List.nodup_append] at distinct
    have fresh : m.pubkey ∉ ps.map (·.1.pubkey) :=
      fun seen => distinct.2.2 _ seen _ (List.mem_cons_self) rfl
    rw [List.length_cons] at room
    have parked := building.park fresh (by omega)
    have distinct' : ((ps ++ [(m, (parkData m.data s).1)]).map (·.1.pubkey) ++ ms.map (·.pubkey)).Nodup := by
      rw [List.map_append, List.map_singleton, List.append_assoc, List.singleton_append]
      exact List.nodup_append.mpr ⟨distinct.1, distinct.2.1, distinct.2.2⟩
    obtain ⟨qs, hqs, built⟩ := ih _ _ _ _ parked distinct' (by simp; omega)
    refine ⟨(m, (parkData m.data s).1) :: qs, by simp [hqs], ?_⟩
    rw [modifyAccountsLoop]
    simpa using built

/-- For distinct pubkeys, the built instruction's map holds every modification, each with
its data parked under a key of its own. -/
theorem modifyAccountsInstruction_prepared (validatorAuthority : Pubkey)
    (modifications : List AccountModification) (s : AccountModDataState)
    (distinct : (modifications.map (·.pubkey)).Nodup) (room : modifications.length ≤ 2 ^ 64) :
    ∃ ps, ps.map Prod.fst = modifications ∧ (ps.filterMap (·.2)).Nodup ∧
      Prepared ps (modifyAccountsInstruction validatorAuthority modifications s).2.1
        (modifyAccountsInstruction validatorAuthority modifications s).2.2 := by
  have initial : Building s.dataModId [] ∅ s :=
    ⟨⟨by simp, by simp⟩, rfl, by simp⟩
  obtain ⟨ps, hps, building⟩ := modifyAccountsLoop_building modifications [validatorAuthority] ∅ s []
    initial (by simpa using distinct) (by simpa using room)
  rw [List.nil_append] at building
  refine ⟨ps, hps, ?_, building.prepared⟩
  -- the keys are the first draws of the counter, fewer than it can hand out
  have fewer : (ps.filterMap (·.2)).length ≤ 2 ^ 64 := by
    have := List.length_filterMap_le (·.2) ps
    rw [← hps, List.length_map] at room
    omega
  rw [building.drawn]
  exact nodup_drawnIds fewer

/-- The map has one entry per distinct pubkey. -/
theorem length_entries_modifyAccountsInstruction (validatorAuthority : Pubkey)
    (modifications : List AccountModification) (s : AccountModDataState) :
    (modifyAccountsInstruction validatorAuthority modifications s).2.1.entries.length =
      (modifications.map (·.pubkey)).toFinset.card := by
  have sameKeys : (modifyAccountsInstruction validatorAuthority modifications s).2.1.keys.toFinset =
      (modifications.map (·.pubkey)).toFinset := by
    ext k
    rw [List.mem_toFinset, List.mem_toFinset, ← AList.mem_keys, modifyAccountsInstruction,
      mem_modifyAccountsLoop]
    simp [AList.notMem_empty]
  rw [← sameKeys, List.toFinset_card_of_nodup (AList.keys_nodup _)]
  simp [AList.keys, List.keys]

/-! ## Processing a prepared instruction -/

theorem resolveAccountModData_of_stored {id : UInt64} {data : List UInt8} {s : AccountModDataState}
    (stored : s.dataMods id = some data) :
    resolveAccountModData id s = some (.ok (.fromMemory id data), (s.getData id).2) := by
  simp only [resolveAccountModData, stored]

/-- Parked data is found in memory and set; its key is all of memory that changes. -/
theorem modifyData_of_parked {data : Option (List UInt8)} {dataKey : Option UInt64}
    (account : AccountSharedData) {memoryDataMods : List ResolvedAccountModData}
    {s : AccountModDataState} (parked : Parked data dataKey s)
    (fromMemory : ∀ r ∈ memoryDataMods, r.isFromMemory) :
    ∃ memoryDataMods' s', modifyData dataKey account memoryDataMods s =
        some (.ok ({ account with data := data.getD account.data }, memoryDataMods'), s') ∧
      (∀ r ∈ memoryDataMods', r.isFromMemory) ∧ s'.persisted = s.persisted ∧
      ∀ id, dataKey ≠ some id → s'.dataMods id = s.dataMods id := by
  cases data with
  | none =>
    have noKey : dataKey = none := parked
    subst noKey
    exact ⟨memoryDataMods, s, rfl, fromMemory, rfl, fun _ _ => rfl⟩
  | some data =>
    obtain ⟨id, rfl, stored⟩ := parked
    refine ⟨memoryDataMods ++ [ResolvedAccountModData.fromMemory id data], (s.getData id).2, ?_, ?_, rfl, ?_⟩
    · simp only [modifyData, resolveAccountModData_of_stored stored]
      rfl
    · intro r mem
      rcases List.mem_append.mp mem with old | new
      · exact fromMemory r old
      · rw [List.mem_singleton.mp new]
        rfl
    · intro other differs
      have differs : other ≠ id := fun same => differs (same ▸ rfl)
      exact Function.update_of_ne differs _ _

/-- One pass of the loop over a prepared modification. -/
theorem mutateAccount_of_prepared {keys : List Pubkey} {idx : Nat} {st : MutateLoopState}
    {s : AccountModDataState} {m : AccountModification} {dataKey : Option UInt64}
    (key : keys[idx + 1]? = some m.pubkey)
    (held : st.accountMods.lookup m.pubkey = some (m.forInstruction dataKey))
    (parked : Parked m.data dataKey s) (fromMemory : ∀ r ∈ st.memoryDataMods, r.isFromMemory) :
    ∃ memoryDataMods s', mutateAccount keys idx st s = some (.ok
        ⟨Function.update st.accounts m.pubkey (m.applyTo (st.accounts m.pubkey)),
          st.accountMods.erase m.pubkey, st.lamportsToDebit + m.lamportsDelta (st.accounts m.pubkey),
          memoryDataMods⟩, s') ∧
      (∀ r ∈ memoryDataMods, r.isFromMemory) ∧ s'.persisted = s.persisted ∧
      ∀ id, dataKey ≠ some id → s'.dataMods id = s.dataMods id := by
  -- the plain setters run before the data is resolved
  obtain ⟨memoryDataMods, s', data, keep, persisted, untouched⟩ := modifyData_of_parked
    { st.accounts m.pubkey with
      lamports := m.lamports.getD (st.accounts m.pubkey).lamports
      owner := m.owner.getD (st.accounts m.pubkey).owner
      executable := m.executable.getD (st.accounts m.pubkey).executable }
    parked fromMemory
  refine ⟨memoryDataMods, s', ?_, keep, persisted, untouched⟩
  simp only [mutateAccount, key, held, AccountModification.forInstruction, data]
  cases hlamports : m.lamports <;>
    simp [AccountModification.lamportsDelta, AccountModification.applyTo, hlamports]

theorem nodup_dataKeys_cons {p : AccountModification × Option UInt64}
    {ps : List (AccountModification × Option UInt64)} (distinct : ((p :: ps).filterMap (·.2)).Nodup) :
    (ps.filterMap (·.2)).Nodup ∧ ∀ id, p.2 = some id → id ∉ ps.filterMap (·.2) := by
  obtain ⟨m, dataKey⟩ := p
  cases dataKey with
  | none => exact ⟨by simpa using distinct, fun _ absurd => nomatch absurd⟩
  | some id =>
    simp only [List.filterMap_cons, List.nodup_cons] at distinct
    exact ⟨distinct.2, fun _ same => Option.some_injective _ same ▸ distinct.1⟩

/-- What is left after the first prepared modification is processed stays prepared. -/
theorem Prepared.tail {m : AccountModification} {dataKey : Option UInt64}
    {ps : List (AccountModification × Option UInt64)} {accountMods : AccountMods}
    {s s' : AccountModDataState} (prepared : Prepared ((m, dataKey) :: ps) accountMods s)
    (fresh : m.pubkey ∉ ps.map (·.1.pubkey)) (distinctKeys : (((m, dataKey) :: ps).filterMap (·.2)).Nodup)
    (untouched : ∀ id, dataKey ≠ some id → s'.dataMods id = s.dataMods id) :
    Prepared ps (accountMods.erase m.pubkey) s' := by
  constructor
  · intro p mem
    have other : p.1.pubkey ≠ m.pubkey := fun same => fresh (same ▸ List.mem_map_of_mem mem)
    rw [AList.lookup_erase_ne other]
    exact prepared.lookup p (List.mem_cons_of_mem _ mem)
  · intro p mem
    refine (prepared.parked p (List.mem_cons_of_mem _ mem)).of_dataMods fun id held => ?_
    -- `p`'s key is not the first modification's, which is all the pass took from memory
    apply untouched
    intro same
    exact (nodup_dataKeys_cons distinctKeys).2 id same (List.mem_filterMap.mpr ⟨p, mem, held⟩)

/-- The loop over prepared modifications of distinct accounts applies each of them and
adds up what the authority owes. -/
theorem mutateAccountsLoop_of_prepared {keys : List Pubkey} {ps : List (AccountModification × Option UInt64)}
    {j : Nat} {st : MutateLoopState} {s : AccountModDataState}
    (metas : keys.drop (j + 1) = ps.map (·.1.pubkey)) (prepared : Prepared ps st.accountMods s)
    (distinct : (ps.map (·.1.pubkey)).Nodup) (distinctKeys : (ps.filterMap (·.2)).Nodup)
    (fromMemory : ∀ r ∈ st.memoryDataMods, r.isFromMemory) :
    ∃ st' s', mutateAccountsLoop keys (List.range' j ps.length) st s = some (.ok st', s') ∧
      Applied (ps.map Prod.fst) st.accounts st'.accounts ∧
      st'.lamportsToDebit = st.lamportsToDebit + netDebit (ps.map Prod.fst) st.accounts ∧
      (∀ r ∈ st'.memoryDataMods, r.isFromMemory) ∧ s'.persisted = s.persisted := by
  induction ps generalizing j st s with
  | nil =>
    exact ⟨st, s, rfl, Applied.nil st.accounts, by simp [netDebit], fromMemory, rfl⟩
  | cons p ps ih =>
    obtain ⟨m, dataKey⟩ := p
    -- the meta at `j + 1` is `m`'s, and the others follow it
    have key : keys[j + 1]? = some m.pubkey := by
      have first := congrArg (·[0]?) metas
      simpa [List.getElem?_drop] using first
    have rest : keys.drop (j + 1 + 1) = ps.map (·.1.pubkey) := by
      rw [← List.drop_drop, metas]
      rfl
    rw [List.map_cons, List.nodup_cons] at distinct
    obtain ⟨memoryDataMods, s₁, step, keep, persisted, untouched⟩ :=
      mutateAccount_of_prepared key (prepared.lookup _ List.mem_cons_self)
        (prepared.parked _ List.mem_cons_self) fromMemory
    obtain ⟨st', s', loop, applied, debit, keep', persisted'⟩ := @ih (j + 1)
      ⟨Function.update st.accounts m.pubkey (m.applyTo (st.accounts m.pubkey)),
        st.accountMods.erase m.pubkey, st.lamportsToDebit + m.lamportsDelta (st.accounts m.pubkey),
        memoryDataMods⟩ s₁
      rest (prepared.tail distinct.1 distinctKeys untouched) distinct.2
        (nodup_dataKeys_cons distinctKeys).1 keep
    have fresh : m.pubkey ∉ (ps.map Prod.fst).map (·.pubkey) := by
      rw [List.map_map]
      exact distinct.1
    refine ⟨st', s', ?_, ?_, ?_, keep', persisted'.trans persisted⟩
    · rw [List.length_cons, List.range'_succ, mutateAccountsLoop, step]
      exact loop
    · exact Applied.cons fresh applied
    · rw [debit, List.map_cons, netDebit_cons, netDebit_update_of_notMem fresh, Int.add_assoc]

/-- With a persister, everything taken from memory is persisted. -/
theorem persistDataMods_ok {rs : List ResolvedAccountModData} {s : AccountModDataState}
    (fromMemory : ∀ r ∈ rs, r.isFromMemory) (persister : s.persisted.isSome) :
    ∃ s', persistDataMods rs s = (.ok (), s') := by
  induction rs generalizing s with
  | nil => exact ⟨s, rfl⟩
  | cons r rs ih =>
    obtain ⟨stored, hstored⟩ := Option.isSome_iff_exists.mp persister
    cases r with
    | fromMemory id data =>
      obtain ⟨s', persisted⟩ := ih (fun r mem => fromMemory r (List.mem_cons_of_mem _ mem))
        (s := { s with persisted := some (Function.update stored id (some data)) }) rfl
      refine ⟨s', ?_⟩
      simp only [persistDataMods, ResolvedAccountModData.persist, AccountModDataState.persistData,
        hstored, Option.map_some]
      exact persisted
    | fromStorage id data => exact absurd (fromMemory _ List.mem_cons_self) Bool.false_ne_true
    | notFound id => exact absurd (fromMemory _ List.mem_cons_self) Bool.false_ne_true

/-- The authority's balance after step 3, in one expression for a zero and a non-zero debit. -/
theorem debitAuthority_eq (validatorAuthority : Pubkey) (lamportsToDebit : Int)
    (accounts : Pubkey → AccountSharedData) :
    debitAuthority validatorAuthority lamportsToDebit accounts =
      let adjusted := ((accounts validatorAuthority).lamports.toNat : Int) - lamportsToDebit
      if adjusted < 0 then .error .insufficientFunds
      else if 2 ^ 64 ≤ adjusted then .error .arithmeticOverflow
      else .ok (Function.update accounts validatorAuthority
        { accounts validatorAuthority with lamports := UInt64.ofNat adjusted.toNat }) := by
  by_cases zero : lamportsToDebit = 0
  · -- nothing to pay: the balance is written back as it was
    have below := (accounts validatorAuthority).lamports.toNat_lt
    subst zero
    simp only [debitAuthority, if_pos, Int.sub_zero]
    rw [if_neg (by omega), if_neg (by omega), Int.toNat_natCast, UInt64.ofNat_toNat]
    simp
  · rw [debitAuthority, if_neg zero]

/-! ## The built instruction, processed -/

section Built

variable {validatorAuthority systemProgramId : Pubkey} {signers : List Pubkey}
  {modifications : List AccountModification} {accounts : Pubkey → AccountSharedData}
  {s : AccountModDataState}

/-- The checks on an instruction whose first account is a signing, system-owned
authority: what is left is the count of the other accounts against the map. -/
theorem mutateAccountsChecks_of_authority {pubkeys : List Pubkey} {accountMods : AccountMods}
    (signs : validatorAuthority ∈ signers)
    (systemOwned : (accounts validatorAuthority).owner = systemProgramId)
    (fits : pubkeys.length + 1 < 2 ^ 16) :
    mutateAccountsChecks validatorAuthority systemProgramId signers (validatorAuthority :: pubkeys)
        accountMods accounts =
      if pubkeys.length = 0 then .error MagicBlockProgramError.noAccountsToModify.toInstructionError
      else if pubkeys.length ≠ accountMods.entries.length then
        .error MagicBlockProgramError.accountsToModifyNotMatchingAccountModifications.toInstructionError
      else .ok () := by
  -- `accounts_len - 1` in `u16` is the number of the other accounts, which fits
  have below : pubkeys.length < UInt16.size := by
    unfold UInt16.size
    omega
  have toNat : (UInt16.ofNat pubkeys.length).toNat = pubkeys.length := UInt16.toNat_ofNat_of_lt' below
  have zero : UInt16.ofNat pubkeys.length = 0 ↔ pubkeys.length = 0 := by
    rw [← UInt16.toNat_inj, toNat]
    rfl
  by_cases empty : pubkeys.length = 0
  · simp [mutateAccountsChecks, empty, signs]
  · by_cases mismatch : pubkeys.length ≠ accountMods.entries.length
    · simp [mutateAccountsChecks, zero, toNat, empty, mismatch, signs]
    · simp [mutateAccountsChecks, zero, toNat, empty, mismatch, signs, instructionPubkey, systemOwned]

theorem modifyAccountsInstruction_metas :
    (modifyAccountsInstruction validatorAuthority modifications s).1 =
      validatorAuthority :: modifications.map (·.pubkey) := by
  rw [modifyAccountsInstruction, modifyAccountsLoop_metas, List.singleton_append]

/-- The checks pass on the built instruction exactly for a non-empty list of distinct
pubkeys; an empty list has nothing to modify, and a repeated pubkey leaves fewer map
entries than metas. -/
theorem mutateAccountsChecks_modifyAccountsInstruction (signs : validatorAuthority ∈ signers)
    (systemOwned : (accounts validatorAuthority).owner = systemProgramId)
    (fits : modifications.length + 1 < 2 ^ 16) :
    let built := modifyAccountsInstruction validatorAuthority modifications s
    mutateAccountsChecks validatorAuthority systemProgramId signers built.1 built.2.1 accounts =
      if modifications = [] then .error MagicBlockProgramError.noAccountsToModify.toInstructionError
      else if ¬ (modifications.map (·.pubkey)).Nodup then
        .error MagicBlockProgramError.accountsToModifyNotMatchingAccountModifications.toInstructionError
      else .ok () := by
  intro built
  have entries : built.2.1.entries.length = (modifications.map (·.pubkey)).length ↔
      (modifications.map (·.pubkey)).Nodup := by
    rw [length_entries_modifyAccountsInstruction]
    simpa using Multiset.toFinset_card_eq_card_iff_nodup (m := (modifications.map (·.pubkey) : Multiset Pubkey))
  rw [modifyAccountsInstruction_metas, mutateAccountsChecks_of_authority signs systemOwned (by simpa using fits)]
  simp only [List.length_map, List.length_eq_zero_iff, ← entries, ne_comm]

/-- A built instruction the checks reject fails, with the statics as the builder left them:
an empty list with `NoAccountsToModify`, a repeated pubkey with
`AccountsToModifyNotMatchingAccountModifications`. -/
theorem processMutateAccounts_modifyAccountsInstruction_rejected (signs : validatorAuthority ∈ signers)
    (systemOwned : (accounts validatorAuthority).owner = systemProgramId)
    (fits : modifications.length + 1 < 2 ^ 16)
    (rejected : ¬ (modifications ≠ [] ∧ (modifications.map (·.pubkey)).Nodup)) :
    let built := modifyAccountsInstruction validatorAuthority modifications s
    processMutateAccounts validatorAuthority systemProgramId signers built.1 built.2.1 accounts built.2.2 =
      some (.error (if modifications = [] then MagicBlockProgramError.noAccountsToModify.toInstructionError
        else MagicBlockProgramError.accountsToModifyNotMatchingAccountModifications.toInstructionError), built.2.2) := by
  intro built
  have checks := mutateAccountsChecks_modifyAccountsInstruction (s := s) signs systemOwned fits
  by_cases empty : modifications = []
  · rw [if_pos empty] at checks
    rw [processMutateAccounts, checks, if_pos empty]
  · have repeated : ¬ (modifications.map (·.pubkey)).Nodup := fun distinct => rejected ⟨empty, distinct⟩
    rw [if_neg empty, if_pos repeated] at checks
    rw [processMutateAccounts, checks, if_neg empty]

/-- A built instruction over distinct accounts other than the authority applies every
modification and then settles the authority's balance. -/
theorem processMutateAccounts_modifyAccountsInstruction_of_nodup (signs : validatorAuthority ∈ signers)
    (systemOwned : (accounts validatorAuthority).owner = systemProgramId)
    (fits : modifications.length + 1 < 2 ^ 16) (persister : s.persisted.isSome)
    (nonempty : modifications ≠ []) (distinct : (modifications.map (·.pubkey)).Nodup) :
    let built := modifyAccountsInstruction validatorAuthority modifications s
    ∃ accounts' s', Applied modifications accounts accounts' ∧
      processMutateAccounts validatorAuthority systemProgramId signers built.1 built.2.1 accounts
        built.2.2 = some (debitAuthority validatorAuthority (netDebit modifications accounts) accounts', s') := by
  intro built
  obtain ⟨ps, hps, distinctKeys, prepared⟩ :=
    modifyAccountsInstruction_prepared validatorAuthority modifications s distinct (by omega)
  have metas : built.1.drop (0 + 1) = ps.map (·.1.pubkey) := by
    rw [modifyAccountsInstruction_metas, ← hps, List.map_map]
    rfl
  have distinctPs : (ps.map (·.1.pubkey)).Nodup := by
    rw [← hps, List.map_map] at distinct
    exact distinct
  have entries : built.2.1.entries.length = ps.length := by
    rw [length_entries_modifyAccountsInstruction, List.toFinset_card_of_nodup distinct, ← hps,
      List.map_map, List.length_map]
  obtain ⟨st, s₁, loop, applied, debit, fromMemory, persisted⟩ :=
    @mutateAccountsLoop_of_prepared built.1 ps 0 ⟨accounts, built.2.1, 0, []⟩ built.2.2 metas prepared
      distinctPs distinctKeys (fun _ absurd => nomatch absurd)
  have persister₁ : s₁.persisted.isSome := by
    have kept : built.2.2.persisted = s.persisted := modifyAccountsLoop_persisted _ _ _ _
    rw [persisted, kept]
    exact persister
  rw [hps] at applied debit
  rw [Int.zero_add] at debit
  have checks : mutateAccountsChecks validatorAuthority systemProgramId signers built.1 built.2.1
      accounts = .ok () := by
    have checks := mutateAccountsChecks_modifyAccountsInstruction (s := s) signs systemOwned fits
    rw [if_neg nonempty, if_neg (not_not.mpr distinct)] at checks
    exact checks
  refine ⟨st.accounts, ?_⟩
  -- the persisting at the end cannot fail, so the outcome is the authority's settlement
  cases settled : debitAuthority validatorAuthority (netDebit modifications accounts) st.accounts with
  | error e =>
    refine ⟨s₁, applied, ?_⟩
    simp only [processMutateAccounts, checks, entries, List.range_eq_range', loop, debit, settled]
  | ok accounts' =>
    obtain ⟨s₂, persist⟩ := persistDataMods_ok fromMemory persister₁
    refine ⟨s₂, applied, ?_⟩
    simp only [processMutateAccounts, checks, entries, List.range_eq_range', loop, debit, settled, persist]

end Built

theorem modify_accounts_accepted_iff_distinct (validatorAuthority systemProgramId : Pubkey)
    (signers : List Pubkey) (modifications : List AccountModification)
    (accounts : Pubkey → AccountSharedData) (s : AccountModDataState)
    (signs : validatorAuthority ∈ signers)
    (systemOwned : (accounts validatorAuthority).owner = systemProgramId)
    (notAuthority : validatorAuthority ∉ modifications.map (·.pubkey))
    (fits : modifications.length + 1 < 2 ^ 16) (persister : s.persisted.isSome) :
    let built := modifyAccountsInstruction validatorAuthority modifications s
    let adjusted := ((accounts validatorAuthority).lamports.toNat : Int) - netDebit modifications accounts
    ∃ result s', processMutateAccounts validatorAuthority systemProgramId signers built.1 built.2.1
        accounts built.2.2 = some (result, s') ∧
      ((∃ accounts', result = .ok accounts') ↔
        modifications ≠ [] ∧ (modifications.map (·.pubkey)).Nodup ∧ 0 ≤ adjusted ∧ adjusted < 2 ^ 64) ∧
      (modifications = [] → result = .error MagicBlockProgramError.noAccountsToModify.toInstructionError) ∧
      (¬ (modifications.map (·.pubkey)).Nodup →
        result = .error MagicBlockProgramError.accountsToModifyNotMatchingAccountModifications.toInstructionError) ∧
      ∀ accounts', result = .ok accounts' →
        (∀ m ∈ modifications, accounts' m.pubkey = m.applyTo (accounts m.pubkey)) ∧
        accounts' validatorAuthority =
          { accounts validatorAuthority with lamports := UInt64.ofNat adjusted.toNat } ∧
        ∀ k, k ≠ validatorAuthority → k ∉ modifications.map (·.pubkey) → accounts' k = accounts k := by
  intro built adjusted
  by_cases accepted : modifications ≠ [] ∧ (modifications.map (·.pubkey)).Nodup
  · obtain ⟨nonempty, distinct⟩ := accepted
    obtain ⟨applied₁, s', applied, processed⟩ :=
      processMutateAccounts_modifyAccountsInstruction_of_nodup signs systemOwned
        fits persister nonempty distinct
    -- the loop leaves the authority alone, so the settlement starts from its balance
    have authority : applied₁ validatorAuthority = accounts validatorAuthority :=
      applied.unlisted _ notAuthority
    have settled : debitAuthority validatorAuthority (netDebit modifications accounts) applied₁ =
        if adjusted < 0 then .error .insufficientFunds
        else if 2 ^ 64 ≤ adjusted then .error .arithmeticOverflow
        else .ok (Function.update applied₁ validatorAuthority
          { accounts validatorAuthority with lamports := UInt64.ofNat adjusted.toNat }) := by
      rw [debitAuthority_eq, authority]
    refine ⟨_, s', processed, ?_, fun empty => absurd empty nonempty, fun repeated => absurd distinct repeated, ?_⟩
    · rw [settled]
      constructor
      · rintro ⟨accounts', ok⟩
        split_ifs at ok with low high
        exact ⟨nonempty, distinct, by omega, by omega⟩
      · rintro ⟨-, -, low, high⟩
        rw [if_neg (by omega), if_neg (by omega)]
        exact ⟨_, rfl⟩
    · intro accounts' ok
      rw [settled] at ok
      split_ifs at ok with low high
      cases ok
      refine ⟨fun m mem => ?_, Function.update_self _ _ _, fun k other unlisted => ?_⟩
      · have other : m.pubkey ≠ validatorAuthority := fun same =>
          notAuthority (same ▸ List.mem_map_of_mem mem)
        rw [Function.update_of_ne other, applied.listed m mem]
      · rw [Function.update_of_ne other, applied.unlisted k unlisted]
  · -- the checks turn the instruction down before anything is touched
    have processed :=
      processMutateAccounts_modifyAccountsInstruction_rejected (s := s) signs systemOwned fits accepted
    refine ⟨_, built.2.2, processed, ?_, fun empty => by rw [if_pos empty], fun repeated => ?_,
      fun _ rejected => nomatch rejected⟩
    · constructor
      · rintro ⟨_, rejected⟩
        exact nomatch rejected
      · rintro ⟨nonempty, distinct, -⟩
        exact absurd ⟨nonempty, distinct⟩ accepted
    · -- the empty list has no repeated pubkey
      have nonempty : modifications ≠ [] := by
        rintro rfl
        exact repeated List.nodup_nil
      rw [if_neg nonempty]

/-- A validator whose statics have a persister and nothing parked, and a bank where every
account holds 100 lamports and belongs to the system program (the zero key). -/
def exampleStore : AccountModDataState := ⟨fun _ => none, 0, some fun _ => none, false⟩

def exampleAuthority : Pubkey := FixedBytes.replicate 32 1

def exampleAccounts : Pubkey → AccountSharedData := fun _ => ⟨100, [], FixedBytes.zero 32, false, 0⟩

/-- One account gets 50 lamports and new data. -/
def exampleModification : AccountModification :=
  ⟨FixedBytes.replicate 32 2, some 50, none, none, some [7], none⟩

/-- Another gets 150 lamports and a new owner. -/
def exampleOwnerModification : AccountModification :=
  ⟨FixedBytes.replicate 32 3, some 150, some (FixedBytes.replicate 32 9), none, none, none⟩

/-- Two modifications of distinct accounts, one with data parked in the statics: the authority
pays 50 lamports more than it is paid back. -/
theorem modify_accounts_accepted_iff_distinct_of_two :
    exampleAuthority ∈ [exampleAuthority] ∧
      (exampleAccounts exampleAuthority).owner = FixedBytes.zero 32 ∧
      exampleAuthority ∉ [exampleModification, exampleOwnerModification].map (·.pubkey) ∧
      [exampleModification, exampleOwnerModification].length + 1 < 2 ^ 16 ∧ exampleStore.persisted.isSome ∧
      let built := modifyAccountsInstruction exampleAuthority [exampleModification, exampleOwnerModification]
        exampleStore
      let adjusted := ((exampleAccounts exampleAuthority).lamports.toNat : Int) -
        netDebit [exampleModification, exampleOwnerModification] exampleAccounts
      ∃ result s', processMutateAccounts exampleAuthority (FixedBytes.zero 32) [exampleAuthority]
          built.1 built.2.1 exampleAccounts built.2.2 = some (result, s') ∧
        ((∃ accounts', result = .ok accounts') ↔
          [exampleModification, exampleOwnerModification] ≠ [] ∧
            ([exampleModification, exampleOwnerModification].map (·.pubkey)).Nodup ∧ 0 ≤ adjusted ∧
            adjusted < 2 ^ 64) ∧
        ([exampleModification, exampleOwnerModification] = [] →
          result = .error MagicBlockProgramError.noAccountsToModify.toInstructionError) ∧
        (¬ ([exampleModification, exampleOwnerModification].map (·.pubkey)).Nodup →
          result = .error MagicBlockProgramError.accountsToModifyNotMatchingAccountModifications.toInstructionError) ∧
        ∀ accounts', result = .ok accounts' →
          (∀ m ∈ [exampleModification, exampleOwnerModification],
            accounts' m.pubkey = m.applyTo (exampleAccounts m.pubkey)) ∧
          accounts' exampleAuthority =
            { exampleAccounts exampleAuthority with lamports := UInt64.ofNat adjusted.toNat } ∧
          ∀ k, k ≠ exampleAuthority → k ∉ [exampleModification, exampleOwnerModification].map (·.pubkey) →
            accounts' k = exampleAccounts k :=
  have signs : exampleAuthority ∈ [exampleAuthority] := List.mem_singleton_self _
  have notAuthority : exampleAuthority ∉ [exampleModification, exampleOwnerModification].map (·.pubkey) := by
    decide
  have fits : [exampleModification, exampleOwnerModification].length + 1 < 2 ^ 16 := by norm_num
  ⟨signs, rfl, notAuthority, fits, rfl,
    modify_accounts_accepted_iff_distinct exampleAuthority (FixedBytes.zero 32) [exampleAuthority]
      [exampleModification, exampleOwnerModification] exampleAccounts exampleStore signs rfl notAuthority fits rfl⟩

/-- The empty list has no repeated pubkey, and the authority signs, is system-owned and
owes nothing, yet its instruction is rejected with `NoAccountsToModify`. -/
theorem empty_modifications_rejected :
    ([] : List AccountModification).Pairwise (fun m m' => m.pubkey ≠ m'.pubkey) ∧
      exampleAuthority ∈ [exampleAuthority] ∧
      (exampleAccounts exampleAuthority).owner = FixedBytes.zero 32 ∧
      netDebit [] exampleAccounts = 0 ∧
      let built := modifyAccountsInstruction exampleAuthority [] exampleStore
      processMutateAccounts exampleAuthority (FixedBytes.zero 32) [exampleAuthority] built.1 built.2.1
          exampleAccounts built.2.2 =
        some (.error MagicBlockProgramError.noAccountsToModify.toInstructionError, exampleStore) := by
  refine ⟨List.Pairwise.nil, List.mem_singleton_self _, rfl, rfl, ?_⟩
  have checks := @mutateAccountsChecks_modifyAccountsInstruction exampleAuthority (FixedBytes.zero 32)
    [exampleAuthority] [] exampleAccounts exampleStore (List.mem_singleton_self exampleAuthority)
    (show (exampleAccounts exampleAuthority).owner = FixedBytes.zero 32 from rfl) (by norm_num)
  rw [if_pos rfl] at checks
  simp only [processMutateAccounts]
  rw [checks]
  rfl

end EphemeralValidator.Magicblock
