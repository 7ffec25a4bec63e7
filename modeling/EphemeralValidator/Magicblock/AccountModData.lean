import EphemeralValidator.Solana.Account

/-! # Account modification data

A `ModifyAccounts` instruction cannot carry large account data, so
`set_account_mod_data` parks the data in the process-global map `DATA_MODS` under an id
drawn from the counter `DATA_MOD_ID`, and the instruction carries the id.  When the
instruction runs, `resolve_account_mod_data` takes the data out of the map; during a
ledger replay the map is empty and the data is loaded from the ledger instead, and
`set_data_mod_id_checking_sequence` advances the counter so that, in the words of its
documentation, "once the validator starts running after ledger replay the
[DATA_MOD_ID] has the same value as it did when the initial validator instance stopped".

It does not: the id `0` only checks the counter and leaves it at `0`, so replaying the
ids `0, …, k` leaves the counter at `k` where the original run left it at `k + 1`
(`replay_leaves_data_mod_id_behind`).  The next id handed out after the replay is the
last one already persisted.

The statics are one state record; a failed `assert_eq!` aborts the validator and is
modelled as `none`.
-/

namespace EphemeralValidator.Magicblock

open EphemeralValidator.Solana

/-- `MagicBlockProgramError`, in declaration order. -/
inductive MagicBlockProgramError where
  | noAccountsToModify
  | accountsToModifyNotMatchingAccountModifications
  | accountModificationMissing
  | firstAccountNeedsToBeMagicBlockAuthority
  | magicBlockAuthorityNeedsToBeOwnedBySystemProgram
  | accountDataResolutionFailed
  | accountDataMissing
  | accountDataMissingFromMemory
  | attemptedToPersistUnresolvedData
  | attemptedToPersistDataFromStorage
  | failedToPersistAccountModData
  deriving DecidableEq, Repr

/-- The discriminant, which `.into()` turns into `InstructionError::Custom`. -/
def MagicBlockProgramError.code : MagicBlockProgramError → UInt32
  | .noAccountsToModify => 0
  | .accountsToModifyNotMatchingAccountModifications => 1
  | .accountModificationMissing => 2
  | .firstAccountNeedsToBeMagicBlockAuthority => 3
  | .magicBlockAuthorityNeedsToBeOwnedBySystemProgram => 4
  | .accountDataResolutionFailed => 5
  | .accountDataMissing => 6
  | .accountDataMissingFromMemory => 7
  | .attemptedToPersistUnresolvedData => 8
  | .attemptedToPersistDataFromStorage => 9
  | .failedToPersistAccountModData => 10

def MagicBlockProgramError.toInstructionError (e : MagicBlockProgramError) : InstructionError :=
  .custom e.code

/-- The statics of `account_mod_data.rs` and the validator's `STARTING_UP` flag.  The
persister is the ledger's `AccountModDatas` column behind `PERSISTER`, or `none` while
no persister is set. -/
structure AccountModDataState where
  dataMods : UInt64 → Option (List UInt8)
  dataModId : UInt64
  persisted : Option (UInt64 → Option (List UInt8))
  startingUp : Bool

namespace AccountModDataState

/-- `get_account_mod_data_id`: `DATA_MOD_ID.fetch_add(1)`. -/
def getAccountModDataId (s : AccountModDataState) : UInt64 × AccountModDataState :=
  (s.dataModId, { s with dataModId := s.dataModId + 1 })

/-- `set_data_mod_id_checking_sequence`; `none` when its `assert_eq!` fails. -/
def setDataModIdCheckingSequence (nextId : UInt64) (s : AccountModDataState) :
    Option AccountModDataState :=
  if nextId = 0 then
    if s.dataModId = 0 then some s else none
  else
    -- `current_id` is what `fetch_add` returns: the counter before it moves on
    if s.dataModId + 1 = nextId then some { s with dataModId := s.dataModId + 1 } else none

/-- `set_account_mod_data`: draw an id and park the data under it. -/
def setAccountModData (data : List UInt8) (s : AccountModDataState) : UInt64 × AccountModDataState :=
  let drawn := s.getAccountModDataId
  (drawn.1, { drawn.2 with dataMods := Function.update drawn.2.dataMods drawn.1 (some data) })

/-- `get_data`: take the data out of `DATA_MODS`. -/
def getData (id : UInt64) (s : AccountModDataState) : Option (List UInt8) × AccountModDataState :=
  (s.dataMods id, { s with dataMods := Function.update s.dataMods id none })

/-- `load_data`: `none` when no persister is set. -/
def loadData (id : UInt64) (s : AccountModDataState) : Option (Option (List UInt8)) :=
  s.persisted.map fun stored => stored id

/-- `persist_data`: `none` when no persister is set. -/
def persistData (id : UInt64) (data : List UInt8) (s : AccountModDataState) :
    Option AccountModDataState :=
  s.persisted.map fun stored => { s with persisted := some (Function.update stored id (some data)) }

end AccountModDataState

/-- `ResolvedAccountModData`. -/
inductive ResolvedAccountModData where
  | fromMemory (id : UInt64) (data : List UInt8)
  | fromStorage (id : UInt64) (data : List UInt8)
  | notFound (id : UInt64)
  deriving DecidableEq, Repr

namespace ResolvedAccountModData

def id : ResolvedAccountModData → UInt64
  | .fromMemory id _ | .fromStorage id _ | .notFound id => id

def data : ResolvedAccountModData → Option (List UInt8)
  | .fromMemory _ data | .fromStorage _ data => some data
  | .notFound _ => none

def isFromMemory : ResolvedAccountModData → Bool
  | .fromMemory .. => true
  | _ => false

/-- `ResolvedAccountModData::persist`: only data taken from memory is written. -/
def persist (resolved : ResolvedAccountModData) (s : AccountModDataState) :
    Except MagicBlockProgramError AccountModDataState :=
  match resolved with
  | .fromMemory id data =>
    match s.persistData id data with
    | some s => .ok s
    | none => .error .failedToPersistAccountModData
  | .fromStorage .. => .error .attemptedToPersistDataFromStorage
  | .notFound _ => .error .attemptedToPersistUnresolvedData

end ResolvedAccountModData

open AccountModDataState in
/-- `resolve_account_mod_data`: from memory if the data is parked there, else from the
ledger while the validator is starting up.  The outer `none` is a failed sequence check. -/
def resolveAccountModData (id : UInt64) (s : AccountModDataState) :
    Option (Except MagicBlockProgramError ResolvedAccountModData × AccountModDataState) :=
  match s.dataMods id with
  | some data => some (.ok (.fromMemory id data), (s.getData id).2)
  | none =>
    if s.startingUp then
      match s.loadData id with
      | none => some (.error .accountDataResolutionFailed, s)
      | some (some data) =>
        (s.setDataModIdCheckingSequence id).map fun s => (.ok (.fromStorage id data), s)
      | some none => some (.ok (.notFound id), s)
    else some (.error .accountDataMissingFromMemory, s)

/-! ## Replaying the ledger -/

/-- Resolve the ids of a replayed ledger in order, as the replayed `ModifyAccounts`
transactions do; `none` if the validator aborts on the way. -/
def replayResolve : List UInt64 → AccountModDataState → Option AccountModDataState
  | [], s => some s
  | id :: ids, s =>
    match resolveAccountModData id s with
    | none => none
    | some (_, s) => replayResolve ids s

/-- What a replay can count on: starting up, nothing parked in memory, and every
replayed id in the ledger. -/
structure Replaying (ids : List UInt64) (s : AccountModDataState) : Prop where
  startingUp : s.startingUp = true
  nothingParked : ∀ id, s.dataMods id = none
  stored : ∃ stored, s.persisted = some stored ∧ ∀ id ∈ ids, (stored id).isSome

theorem Replaying.resolve {id : UInt64} {ids : List UInt64} {s : AccountModDataState}
    (replaying : Replaying (id :: ids) s) :
    ∃ data, resolveAccountModData id s =
      (s.setDataModIdCheckingSequence id).map fun s => (.ok (.fromStorage id data), s) := by
  obtain ⟨stored, hstored, hids⟩ := replaying.stored
  obtain ⟨data, hdata⟩ := Option.isSome_iff_exists.mp (hids id List.mem_cons_self)
  refine ⟨data, ?_⟩
  simp [resolveAccountModData, replaying.nothingParked, replaying.startingUp,
    AccountModDataState.loadData, hstored, hdata]

/-- The sequence check moves only the counter. -/
theorem AccountModDataState.setDataModIdCheckingSequence_eq_some {nextId : UInt64}
    {s s' : AccountModDataState} (h : s.setDataModIdCheckingSequence nextId = some s') :
    s' = { s with dataModId := s'.dataModId } := by
  unfold AccountModDataState.setDataModIdCheckingSequence at h
  -- every branch either keeps `s`, moves only the counter, or aborts
  split at h <;> split at h <;> cases h <;> rfl

theorem Replaying.tail {id : UInt64} {ids : List UInt64} {s s' : AccountModDataState}
    (replaying : Replaying (id :: ids) s) (h : s.setDataModIdCheckingSequence id = some s') :
    Replaying ids s' := by
  rw [AccountModDataState.setDataModIdCheckingSequence_eq_some h]
  obtain ⟨stored, hstored, hids⟩ := replaying.stored
  exact ⟨replaying.startingUp, replaying.nothingParked, stored, hstored,
    fun id hid => hids id (List.mem_cons_of_mem _ hid)⟩

/-- Resolving never writes the ledger. -/
theorem resolveAccountModData_persisted {id : UInt64} {s s' : AccountModDataState}
    {resolved : Except MagicBlockProgramError ResolvedAccountModData}
    (h : resolveAccountModData id s = some (resolved, s')) : s'.persisted = s.persisted := by
  unfold resolveAccountModData at h
  split at h
  · cases h
    rfl
  split at h
  · split at h
    · cases h
      rfl
    · obtain ⟨checked, hcheck, hpair⟩ := Option.map_eq_some_iff.mp h
      cases hpair
      rw [AccountModDataState.setDataModIdCheckingSequence_eq_some hcheck]
    · cases h
      rfl
  · cases h
    rfl

/-- The statics `s` are later than `s₀` within one instruction: memory has only lost
data, and the ledger is as it was. -/
structure AccountModDataState.Since (s s₀ : AccountModDataState) : Prop where
  dataMods : ∀ id data, s.dataMods id = some data → s₀.dataMods id = some data
  persisted : s.persisted = s₀.persisted

theorem AccountModDataState.Since.refl (s : AccountModDataState) : s.Since s :=
  ⟨fun _ _ held => held, rfl⟩

theorem AccountModDataState.Since.trans {s₀ s₁ s₂ : AccountModDataState} (later : s₂.Since s₁)
    (earlier : s₁.Since s₀) : s₂.Since s₀ :=
  ⟨fun id data held => earlier.dataMods id data (later.dataMods id data held),
    later.persisted.trans earlier.persisted⟩

/-- Where the data under an id can be found: parked in memory or in the ledger. -/
def AccountModDataState.Holds (s : AccountModDataState) (id : UInt64) (data : List UInt8) : Prop :=
  s.dataMods id = some data ∨ ∃ stored, s.persisted = some stored ∧ stored id = some data

theorem AccountModDataState.Holds.of_since {s s₀ : AccountModDataState} {id : UInt64}
    {data : List UInt8} (holds : s.Holds id data) (since : s.Since s₀) : s₀.Holds id data := by
  rcases holds with parked | ⟨stored, hstored, found⟩
  · exact .inl (since.dataMods id data parked)
  · exact .inr ⟨stored, since.persisted ▸ hstored, found⟩

/-- A resolution only takes data out of memory, and the data it finds is held under its id. -/
theorem resolveAccountModData_since {id : UInt64} {s s' : AccountModDataState}
    {result : Except MagicBlockProgramError ResolvedAccountModData}
    (h : resolveAccountModData id s = some (result, s')) :
    s'.Since s ∧ ∀ resolved data, result = .ok resolved → resolved.data = some data → s.Holds id data := by
  unfold resolveAccountModData at h
  split at h
  · next parked hparked =>
    -- taken from memory: the entry is cleared
    cases h
    refine ⟨⟨fun other data held => ?_, rfl⟩, ?_⟩
    · by_cases same : other = id
      · subst same
        simp [AccountModDataState.getData] at held
      · simpa [AccountModDataState.getData, Function.update_of_ne same] using held
    · rintro resolved data ⟨⟩ found
      cases found
      exact .inl hparked
  split at h
  · split at h
    · cases h
      exact ⟨.refl s, fun _ _ absurd => nomatch absurd⟩
    · next stored hload =>
      -- loaded from the ledger: the sequence check moves only the counter
      obtain ⟨checked, hcheck, hpair⟩ := Option.map_eq_some_iff.mp h
      cases hpair
      rw [AccountModDataState.setDataModIdCheckingSequence_eq_some hcheck]
      refine ⟨⟨fun _ _ held => held, rfl⟩, ?_⟩
      rintro resolved data ⟨⟩ found
      cases found
      obtain ⟨ledger, hledger, found⟩ := Option.map_eq_some_iff.mp hload
      exact .inr ⟨ledger, hledger, found⟩
    · cases h
      exact ⟨.refl s, fun resolved data same found => by cases same; cases found⟩
  · cases h
    exact ⟨.refl s, fun _ _ absurd => nomatch absurd⟩

theorem replayResolve_persisted {ids : List UInt64} {s s' : AccountModDataState}
    (h : replayResolve ids s = some s') : s'.persisted = s.persisted := by
  induction ids generalizing s with
  | nil =>
    cases h
    rfl
  | cons id ids ih =>
    unfold replayResolve at h
    split at h
    · cases h
    · next resolved s'' hresolve =>
      rw [ih h, resolveAccountModData_persisted hresolve]

/-- Past the id `0`, each replayed id is one more than the counter, which the check
advances by one: replaying `j + 1, …, j + m` from `j` leaves the counter at `j + m`. -/
theorem replay_consecutive {s : AccountModDataState} (j m : Nat) (small : j + m < 2 ^ 64)
    (replaying : Replaying ((List.range' (j + 1) m).map UInt64.ofNat) s)
    (counter : s.dataModId = UInt64.ofNat j) :
    ∃ s', replayResolve ((List.range' (j + 1) m).map UInt64.ofNat) s = some s' ∧
      s'.dataModId = UInt64.ofNat (j + m) := by
  induction m generalizing j s with
  | zero => exact ⟨s, rfl, counter⟩
  | succ m ih =>
    rw [List.range'_succ, List.map_cons] at replaying ⊢
    obtain ⟨data, hresolve⟩ := replaying.resolve
    -- the check accepts `j + 1` against the counter `j` and advances it
    have nonzero : UInt64.ofNat (j + 1) ≠ 0 := by
      intro h
      have fits : j + 1 < UInt64.size := by
        unfold UInt64.size
        omega
      have := congrArg UInt64.toNat h
      rw [UInt64.toNat_ofNat_of_lt' fits] at this
      simp at this
    have next : UInt64.ofNat j + 1 = UInt64.ofNat (j + 1) := by
      rw [UInt64.ofNat_add, UInt64.ofNat_one]
    have hcheck : s.setDataModIdCheckingSequence (UInt64.ofNat (j + 1)) =
        some { s with dataModId := UInt64.ofNat (j + 1) } := by
      rw [AccountModDataState.setDataModIdCheckingSequence, if_neg nonzero, counter, next,
        if_pos rfl]
    rw [hcheck] at hresolve
    obtain ⟨s', hrun, hcounter⟩ := ih (j + 1) (by omega) (replaying.tail hcheck) rfl
    refine ⟨s', ?_, by rw [hcounter, Nat.add_right_comm, Nat.add_assoc]⟩
    rw [replayResolve, hresolve]
    exact hrun

/-- Replaying the persisted ids `0, 1, …, k` in order from a fresh counter passes every
sequence check and leaves `DATA_MOD_ID` at `k`; the original run, which drew those `k + 1`
ids, had left it at `k + 1`.  So the next id handed out is `k`, an id whose data the
ledger already holds. -/
theorem replay_leaves_data_mod_id_behind {s : AccountModDataState} (k : Nat) (small : k < 2 ^ 64)
    (replaying : Replaying ((List.range (k + 1)).map UInt64.ofNat) s) (fresh : s.dataModId = 0)
    (data : List UInt8) :
    ∃ s', replayResolve ((List.range (k + 1)).map UInt64.ofNat) s = some s' ∧
      s'.dataModId = UInt64.ofNat k ∧ (s'.setAccountModData data).1 = UInt64.ofNat k ∧
      ∃ stored, s'.persisted = some stored ∧ (stored (UInt64.ofNat k)).isSome := by
  rw [List.range_eq_range', List.range'_succ, List.map_cons] at replaying ⊢
  obtain ⟨data₀, hresolve⟩ := replaying.resolve
  -- the id `0` only checks that the counter is still `0`
  have hcheck : s.setDataModIdCheckingSequence (UInt64.ofNat 0) = some s := by
    have zero : UInt64.ofNat 0 = (0 : UInt64) := rfl
    rw [AccountModDataState.setDataModIdCheckingSequence, if_pos zero, if_pos fresh]
  rw [hcheck] at hresolve
  have rest := replaying.tail hcheck
  obtain ⟨s', hrun, hcounter⟩ := replay_consecutive 0 k (by omega) rest
    (by rw [fresh]; rfl)
  rw [Nat.zero_add] at hcounter
  have hrun' : replayResolve (UInt64.ofNat 0 :: (List.range' (0 + 1) k).map UInt64.ofNat) s = some s' := by
    rw [replayResolve, hresolve]
    exact hrun
  refine ⟨s', hrun', hcounter, by simp [AccountModDataState.setAccountModData,
    AccountModDataState.getAccountModDataId, hcounter], ?_⟩
  -- the counter's value is the last replayed id, which the ledger holds
  obtain ⟨stored, hstored, hids⟩ := replaying.stored
  refine ⟨stored, by rw [replayResolve_persisted hrun', hstored], hids _ ?_⟩
  rcases Nat.eq_zero_or_pos k with rfl | positive
  · exact List.mem_cons_self
  · exact List.mem_cons_of_mem _ (List.mem_map_of_mem (List.mem_range'_1.mpr ⟨positive, by omega⟩))

theorem replay_leaves_data_mod_id_behind_at_zero :
    Replaying ((List.range 1).map UInt64.ofNat) ⟨fun _ => none, 0, some fun _ => some [], true⟩ ∧
      ∃ s', replayResolve ((List.range 1).map UInt64.ofNat)
          ⟨fun _ => none, 0, some fun _ => some [], true⟩ = some s' ∧
        s'.dataModId = UInt64.ofNat 0 ∧ (s'.setAccountModData []).1 = UInt64.ofNat 0 ∧
        ∃ stored, s'.persisted = some stored ∧ (stored (UInt64.ofNat 0)).isSome :=
  have replaying : Replaying ((List.range 1).map UInt64.ofNat)
      ⟨fun _ => none, 0, some fun _ => some [], true⟩ :=
    ⟨rfl, fun _ => rfl, fun _ => some [], rfl, fun _ _ => rfl⟩
  ⟨replaying, replay_leaves_data_mod_id_behind 0 (by norm_num) replaying rfl []⟩

end EphemeralValidator.Magicblock
