import Mathlib.Algebra.BigOperators.Group.Finset.Piecewise
import Mathlib.Algebra.Order.BigOperators.Group.Finset
import EphemeralValidator.Magicblock.MutateAccounts

/-! # `process_mutate_accounts` on any instruction

`MutateAccounts.lean` follows an instruction built by `modify_accounts_instruction`.  Here
the instruction is arbitrary: any metas (the authority may be listed again, among the
modified accounts), any map, any statics.  The loop is followed through one invariant,
`Progress`: the accounts it has passed have had their modification taken out of the map
and applied, the others are as they were, and the debt it accumulates is what the passed
accounts gained.

From it, an instruction that succeeds keeps the lamports of its distinct accounts, and
gives each modified account other than the authority the fields of its modification.
The settlement compares the debt with the authority's balance *after* the loop, which
has already applied any modification of the authority itself; `InsufficientFunds` is
that comparison failing, and nothing else.
-/

namespace EphemeralValidator.Magicblock

open EphemeralValidator.Bytes EphemeralValidator.Solana EphemeralValidator.Lib Finset

/-- The lamports held by the distinct accounts among `keys`. -/
def totalLamports (keys : List Pubkey) (accounts : Pubkey → AccountSharedData) : Int :=
  ∑ k ∈ keys.toFinset, ((accounts k).lamports.toNat : Int)

/-- Replacing one listed account moves the total by the difference of the two balances. -/
theorem totalLamports_update {keys : List Pubkey} {k : Pubkey} (mem : k ∈ keys)
    (accounts : Pubkey → AccountSharedData) (account : AccountSharedData) :
    totalLamports keys (Function.update accounts k account) =
      totalLamports keys accounts - (accounts k).lamports.toNat + account.lamports.toNat := by
  have listed : k ∈ keys.toFinset := List.mem_toFinset.mpr mem
  have pointwise : ∀ k', (((Function.update accounts k account) k').lamports.toNat : Int) =
      Function.update (fun k' => ((accounts k').lamports.toNat : Int)) k account.lamports.toNat k' := by
    intro k'
    by_cases same : k' = k
    · subst same
      simp
    · simp [same]
  unfold totalLamports
  simp only [pointwise]
  rw [sum_update_of_mem listed, ← add_sum_erase _ _ listed, sdiff_singleton_eq_erase]
  ring

/-- Where a modified account's data comes from: without a data key it is the old data,
with one it is data the statics hold under the key. -/
def DataFrom (dataKey : Option UInt64) (s : AccountModDataState) (old new : List UInt8) : Prop :=
  match dataKey with
  | none => new = old
  | some id => s.Holds id new

/-- Data held by later statics was held by the earlier ones. -/
theorem DataFrom.of_since {dataKey : Option UInt64} {s s₀ : AccountModDataState} {old new : List UInt8}
    (found : DataFrom dataKey s old new) (since : s.Since s₀) : DataFrom dataKey s₀ old new := by
  cases dataKey with
  | none => exact found
  | some id => exact AccountModDataState.Holds.of_since found since

/-- `new` is `old` with the modification `mi` applied: every field the modification sets
is replaced, every field it leaves `None` is kept, and the data is found under its key. -/
structure ModifiedBy (mi : AccountModificationForInstruction) (s : AccountModDataState)
    (old new : AccountSharedData) : Prop where
  lamports : new.lamports = mi.lamports.getD old.lamports
  owner : new.owner = mi.owner.getD old.owner
  executable : new.executable = mi.executable.getD old.executable
  data : DataFrom mi.dataKey s old.data new.data
  rentEpoch : new.rentEpoch = mi.rentEpoch.getD old.rentEpoch

theorem ModifiedBy.of_since {mi : AccountModificationForInstruction} {s s₀ : AccountModDataState}
    {old new : AccountSharedData} (modified : ModifiedBy mi s old new) (since : s.Since s₀) :
    ModifiedBy mi s₀ old new :=
  ⟨modified.lamports, modified.owner, modified.executable, modified.data.of_since since,
    modified.rentEpoch⟩

/-! ## One pass of the loop -/

/-- A data step that succeeds sets data held under the key, or keeps the account's data
when there is no key, and only takes data out of memory. -/
theorem modifyData_ok {dataKey : Option UInt64} {account account' : AccountSharedData}
    {memoryDataMods memoryDataMods' : List ResolvedAccountModData} {s s' : AccountModDataState}
    (h : modifyData dataKey account memoryDataMods s = some (.ok (account', memoryDataMods'), s')) :
    s'.Since s ∧ ∃ data, account' = { account with data := data } ∧
      DataFrom dataKey s account.data data := by
  cases dataKey with
  | none =>
    cases h
    exact ⟨.refl s, account.data, rfl, rfl⟩
  | some id =>
    simp only [modifyData] at h
    split at h
    · cases h
    · cases h
    · next resolved s₁ resolution =>
      obtain ⟨since, found⟩ := resolveAccountModData_since resolution
      split at h
      · cases h
      · next data hdata =>
        cases h
        exact ⟨since, data, rfl, found resolved data rfl hdata⟩

/-- What one pass of the loop does when it succeeds: the account at `idx + 1` had a
modification in the map, which is taken out and applied, and the debt grows by the
lamports the account gained. -/
theorem mutateAccount_ok {keys : List Pubkey} {idx : Nat} {st st' : MutateLoopState}
    {s s' : AccountModDataState} (h : mutateAccount keys idx st s = some (.ok st', s')) :
    ∃ k mi new, keys[idx + 1]? = some k ∧ st.accountMods.lookup k = some mi ∧
      ModifiedBy mi s (st.accounts k) new ∧ s'.Since s ∧
      st'.accounts = Function.update st.accounts k new ∧
      st'.accountMods = st.accountMods.erase k ∧
      st'.lamportsToDebit =
        st.lamportsToDebit + ((new.lamports.toNat : Int) - (st.accounts k).lamports.toNat) := by
  unfold mutateAccount at h
  split at h
  · cases h
  next k key =>
  split at h
  · cases h
  next mi held =>
  -- the debt is a `match` on the new lamports: fix them, so that only the data step is
  -- left to split
  cases hlamports : mi.lamports <;> simp only [hlamports] at h <;> split at h <;> try (cases h; done)
  all_goals
    rename_i account memoryDataMods s₁ hdata
    obtain ⟨since, data, rfl, found⟩ := modifyData_ok hdata
    cases h
    -- the data step sees the account after the plain setters, whose data is the old one
    exact ⟨k, mi, _, key, held, ⟨by simp [hlamports], rfl, rfl, found, rfl⟩, since, rfl, rfl, by simp⟩

/-! ## The loop -/

section Loop

variable {keys : List Pubkey} {accountMods : AccountMods} {accounts : Pubkey → AccountSharedData}
  {s₀ : AccountModDataState}

/-- What the loop keeps, against the map `accountMods` and accounts `accounts` it started
from: each account it has passed (`done`) has had its modification taken out of the map
and applied, every other account and map entry is as it was, and the debt is what the
listed accounts gained. -/
structure Progress (keys : List Pubkey) (accountMods : AccountMods)
    (accounts : Pubkey → AccountSharedData) (s₀ : AccountModDataState) (done : List Pubkey)
    (st : MutateLoopState) (s : AccountModDataState) : Prop where
  pending : ∀ k, k ∉ done → st.accountMods.lookup k = accountMods.lookup k ∧ st.accounts k = accounts k
  applied : ∀ k ∈ done, st.accountMods.lookup k = none ∧
    ∃ mi, accountMods.lookup k = some mi ∧ ModifiedBy mi s₀ (accounts k) (st.accounts k)
  debit : st.lamportsToDebit = totalLamports keys st.accounts - totalLamports keys accounts
  since : s.Since s₀

theorem Progress.start (memoryDataMods : List ResolvedAccountModData) :
    Progress keys accountMods accounts s₀ [] ⟨accounts, accountMods, 0, memoryDataMods⟩ s₀ :=
  ⟨fun _ _ => ⟨rfl, rfl⟩, (fun _ absurd => nomatch absurd), by simp, .refl s₀⟩

/-- One pass keeps the invariant, with the account it passed added to `done`. -/
theorem Progress.step {done : List Pubkey} {st st' : MutateLoopState} {s s' : AccountModDataState}
    {idx : Nat} (progress : Progress keys accountMods accounts s₀ done st s)
    (h : mutateAccount keys idx st s = some (.ok st', s')) :
    ∃ k, keys[idx + 1]? = some k ∧ Progress keys accountMods accounts s₀ (done ++ [k]) st' s' := by
  obtain ⟨k, mi, new, key, held, modified, since, hacc, hmods, hdebit⟩ := mutateAccount_ok h
  -- an account already passed is out of the map, so the pass is at a new account
  have fresh : k ∉ done := by
    intro passed
    rw [(progress.applied k passed).1] at held
    cases held
  obtain ⟨original, unchanged⟩ := progress.pending k fresh
  refine ⟨k, key, ⟨?_, ?_, ?_, since.trans progress.since⟩⟩
  · intro k' notDone
    have other : k' ≠ k := fun same => notDone (List.mem_append_right _ (same ▸ List.mem_singleton_self k))
    rw [hmods, AList.lookup_erase_ne other, hacc, Function.update_of_ne other]
    exact progress.pending k' fun passed => notDone (List.mem_append_left _ passed)
  · intro k' mem
    rcases List.mem_append.mp mem with passed | now
    · have other : k' ≠ k := fun same => fresh (same ▸ passed)
      rw [hmods, AList.lookup_erase_ne other, hacc, Function.update_of_ne other]
      exact progress.applied k' passed
    · rw [List.mem_singleton.mp now, hmods, AList.lookup_erase, hacc, Function.update_self]
      rw [original] at held
      rw [unchanged] at modified
      exact ⟨rfl, mi, held, modified.of_since progress.since⟩
  · rw [hdebit, progress.debit, hacc, totalLamports_update (List.mem_of_getElem? key), unchanged]
    ring

/-- A run of the loop over `j, …, j + n - 1` passes the accounts at `j + 1, …, j + n`. -/
theorem Progress.run {done : List Pubkey} {st st' : MutateLoopState} {s s' : AccountModDataState}
    {j n : Nat} (progress : Progress keys accountMods accounts s₀ done st s)
    (h : mutateAccountsLoop keys (List.range' j n) st s = some (.ok st', s')) :
    Progress keys accountMods accounts s₀ (done ++ (keys.drop (j + 1)).take n) st' s' := by
  induction n generalizing j done st s with
  | zero =>
    cases h
    simpa using progress
  | succ n ih =>
    rw [List.range'_succ, mutateAccountsLoop] at h
    split at h
    · cases h
    · cases h
    next st₁ s₁ step =>
    obtain ⟨k, key, next⟩ := progress.step step
    -- the pass was at `k`, and the rest of the run starts after it
    have passed : (keys.drop (j + 1)).take (n + 1) = k :: (keys.drop (j + 1 + 1)).take n := by
      obtain ⟨bound, rfl⟩ := List.getElem?_eq_some_iff.mp key
      rw [List.drop_eq_getElem_cons bound, List.take_succ_cons]
    rw [passed, ← List.singleton_append, ← List.append_assoc]
    exact ih next h

end Loop

/-! ## The settlement and the outcome -/

theorem toInstructionError_ne_insufficientFunds (e : MagicBlockProgramError) :
    e.toInstructionError ≠ .insufficientFunds := by
  simp [MagicBlockProgramError.toInstructionError]

/-- The checks never fail with `InsufficientFunds`. -/
theorem mutateAccountsChecks_ne_insufficientFunds (validatorAuthority systemProgramId : Pubkey)
    (signers keys : List Pubkey) (accountMods : AccountMods) (accounts : Pubkey → AccountSharedData) :
    mutateAccountsChecks validatorAuthority systemProgramId signers keys accountMods accounts ≠
      .error .insufficientFunds := by
  intro h
  simp [mutateAccountsChecks, ite_eq_iff, instructionPubkey_eq_error,
    toInstructionError_ne_insufficientFunds] at h

/-- The checks pass only with the authority as the first account and as many map
entries as `u16` arithmetic counts other accounts. -/
theorem mutateAccountsChecks_ok {validatorAuthority systemProgramId : Pubkey} {signers keys : List Pubkey}
    {accountMods : AccountMods} {accounts : Pubkey → AccountSharedData}
    (h : mutateAccountsChecks validatorAuthority systemProgramId signers keys accountMods accounts = .ok ()) :
    keys[0]? = some validatorAuthority ∧
      (UInt16.ofNat keys.length - 1).toNat = accountMods.entries.length := by
  simp only [mutateAccountsChecks, throw_bind, ite_throw_eq_ok, bind_eq_ok, instructionPubkey_eq_ok] at h
  obtain ⟨-, -, count, authorityKey, first, authority, -⟩ := h
  exact ⟨by rw [first, not_not.mp authority], not_not.mp count⟩

/-- The data step fails only with an error of the resolution or missing data. -/
theorem modifyData_ne_insufficientFunds {dataKey : Option UInt64} {account : AccountSharedData}
    {memoryDataMods : List ResolvedAccountModData} {s s' : AccountModDataState} :
    modifyData dataKey account memoryDataMods s ≠ some (.error .insufficientFunds, s') := by
  intro h
  cases dataKey with
  | none => cases h
  | some id =>
    simp only [modifyData] at h
    split at h
    · cases h
    · next e s₁ _ =>
      cases h
    · split at h <;> cases h

/-- A pass fails only with a missing key, a missing modification or a failed data step. -/
theorem mutateAccount_ne_insufficientFunds {keys : List Pubkey} {idx : Nat} {st : MutateLoopState}
    {s s' : AccountModDataState} : mutateAccount keys idx st s ≠ some (.error .insufficientFunds, s') := by
  intro h
  unfold mutateAccount at h
  split at h
  · cases h
  split at h
  · cases h
  next mi _ =>
  cases hlamports : mi.lamports <;> simp only [hlamports] at h <;> split at h <;> try (cases h; done)
  all_goals
    rename_i e s₁ failed
    cases h
    exact modifyData_ne_insufficientFunds failed

theorem mutateAccountsLoop_ne_insufficientFunds {keys : List Pubkey} {idxs : List Nat}
    {st : MutateLoopState} {s s' : AccountModDataState} :
    mutateAccountsLoop keys idxs st s ≠ some (.error .insufficientFunds, s') := by
  induction idxs generalizing st s with
  | nil => nofun
  | cons idx idxs ih =>
    intro h
    rw [mutateAccountsLoop] at h
    split at h
    · cases h
    · next e s₁ failed =>
      cases h
      exact mutateAccount_ne_insufficientFunds failed
    · exact ih h

theorem persistDataMods_ne_insufficientFunds (rs : List ResolvedAccountModData) (s : AccountModDataState) :
    (persistDataMods rs s).1 ≠ .error .insufficientFunds := by
  induction rs generalizing s with
  | nil => nofun
  | cons r rs ih =>
    rw [persistDataMods]
    split
    · simp [toInstructionError_ne_insufficientFunds]
    · exact ih _

/-- The settlement fails with `InsufficientFunds` exactly when the debt exceeds the
authority's balance at that point. -/
theorem debitAuthority_eq_insufficientFunds (validatorAuthority : Pubkey) (lamportsToDebit : Int)
    (accounts : Pubkey → AccountSharedData) :
    debitAuthority validatorAuthority lamportsToDebit accounts = .error .insufficientFunds ↔
      ((accounts validatorAuthority).lamports.toNat : Int) < lamportsToDebit := by
  rw [debitAuthority_eq]
  dsimp only
  split_ifs with low high
  · exact ⟨fun _ => by omega, fun _ => rfl⟩
  · exact ⟨nofun, fun short => by omega⟩
  · exact ⟨nofun, fun short => by omega⟩

/-- A settlement that succeeds takes the debt from the authority and touches nothing else. -/
theorem totalLamports_debitAuthority {keys : List Pubkey} {validatorAuthority : Pubkey}
    (listed : validatorAuthority ∈ keys) {lamportsToDebit : Int}
    {accounts accounts' : Pubkey → AccountSharedData}
    (h : debitAuthority validatorAuthority lamportsToDebit accounts = .ok accounts') :
    totalLamports keys accounts' = totalLamports keys accounts - lamportsToDebit ∧
      ∀ k, k ≠ validatorAuthority → accounts' k = accounts k := by
  rw [debitAuthority_eq] at h
  dsimp only at h
  split_ifs at h with low high
  cases h
  refine ⟨?_, fun k other => Function.update_of_ne other _ _⟩
  -- the new balance is the old one less the debt, which fits a `u64`
  have fits : (((accounts validatorAuthority).lamports.toNat : Int) - lamportsToDebit).toNat <
      UInt64.size := by
    unfold UInt64.size
    omega
  rw [totalLamports_update listed, UInt64.toNat_ofNat_of_lt' fits]
  omega

/-! ## The outcome -/

section Outcome

variable {validatorAuthority systemProgramId : Pubkey} {signers keys : List Pubkey}
  {accountMods : AccountMods} {accounts : Pubkey → AccountSharedData} {s : AccountModDataState}

/-- A call that succeeds passed the checks, ran the loop through and settled. -/
theorem processMutateAccounts_eq_ok {accounts' : Pubkey → AccountSharedData} {s' : AccountModDataState}
    (h : processMutateAccounts validatorAuthority systemProgramId signers keys accountMods accounts s =
      some (.ok accounts', s')) :
    mutateAccountsChecks validatorAuthority systemProgramId signers keys accountMods accounts = .ok () ∧
      ∃ st s₁, mutateAccountsLoop keys (List.range accountMods.entries.length)
          ⟨accounts, accountMods, 0, []⟩ s = some (.ok st, s₁) ∧
        debitAuthority validatorAuthority st.lamportsToDebit st.accounts = .ok accounts' := by
  unfold processMutateAccounts at h
  split at h
  · cases h
  next checks =>
  split at h
  · cases h
  · cases h
  next st s₁ loop =>
  split at h
  · cases h
  next accounts₁ settled =>
  split at h
  · cases h
  · cases h
    exact ⟨checks, st, s₁, loop, settled⟩

/-- `InsufficientFunds` comes from the settlement alone. -/
theorem processMutateAccounts_eq_insufficientFunds :
    (∃ s', processMutateAccounts validatorAuthority systemProgramId signers keys accountMods accounts s =
        some (.error .insufficientFunds, s')) ↔
      mutateAccountsChecks validatorAuthority systemProgramId signers keys accountMods accounts = .ok () ∧
      ∃ st s₁, mutateAccountsLoop keys (List.range accountMods.entries.length)
          ⟨accounts, accountMods, 0, []⟩ s = some (.ok st, s₁) ∧
        ((st.accounts validatorAuthority).lamports.toNat : Int) < st.lamportsToDebit := by
  constructor
  · rintro ⟨s', h⟩
    unfold processMutateAccounts at h
    split at h
    · next e failed =>
      cases h
      exact (mutateAccountsChecks_ne_insufficientFunds _ _ _ _ _ _ failed).elim
    next checks =>
    split at h
    · cases h
    · next e s₁ failed =>
      cases h
      exact (mutateAccountsLoop_ne_insufficientFunds failed).elim
    next st s₁ loop =>
    split at h
    · next e settled =>
      cases h
      exact ⟨checks, st, _, loop, (debitAuthority_eq_insufficientFunds _ _ _).mp settled⟩
    · split at h
      · next e s₂ failed =>
        cases h
        exact (persistDataMods_ne_insufficientFunds _ _ (congrArg Prod.fst failed)).elim
      · cases h
  · rintro ⟨checks, st, s₁, loop, short⟩
    have settled := (debitAuthority_eq_insufficientFunds _ _ _).mpr short
    exact ⟨s₁, by simp only [processMutateAccounts, checks, loop, settled]⟩

end Outcome

theorem mutate_accounts_conserves_lamports (validatorAuthority systemProgramId : Pubkey)
    (signers keys : List Pubkey) (accountMods : AccountMods) (accounts : Pubkey → AccountSharedData)
    (s : AccountModDataState) :
    (∀ accounts' s', processMutateAccounts validatorAuthority systemProgramId signers keys accountMods
        accounts s = some (.ok accounts', s') →
      totalLamports keys accounts' = totalLamports keys accounts ∧
      (∀ k, k ∉ keys → accounts' k = accounts k) ∧
      ∀ k ∈ (keys.drop 1).take accountMods.entries.length, k ≠ validatorAuthority →
        ∃ mi, accountMods.lookup k = some mi ∧ ModifiedBy mi s (accounts k) (accounts' k)) ∧
    (∀ st s₁, mutateAccountsLoop keys (List.range accountMods.entries.length)
        ⟨accounts, accountMods, 0, []⟩ s = some (.ok st, s₁) →
      st.lamportsToDebit = totalLamports keys st.accounts - totalLamports keys accounts) ∧
    ((∃ s', processMutateAccounts validatorAuthority systemProgramId signers keys accountMods accounts s =
        some (.error .insufficientFunds, s')) ↔
      mutateAccountsChecks validatorAuthority systemProgramId signers keys accountMods accounts = .ok () ∧
      ∃ st s₁, mutateAccountsLoop keys (List.range accountMods.entries.length)
          ⟨accounts, accountMods, 0, []⟩ s = some (.ok st, s₁) ∧
        ((st.accounts validatorAuthority).lamports.toNat : Int) < st.lamportsToDebit) := by
  -- the loop runs from the start of `Progress` and passes the accounts after the first
  have progressOf : ∀ st s₁, mutateAccountsLoop keys (List.range accountMods.entries.length)
      ⟨accounts, accountMods, 0, []⟩ s = some (.ok st, s₁) →
      Progress keys accountMods accounts s ((keys.drop 1).take accountMods.entries.length) st s₁ := by
    intro st s₁ loop
    rw [List.range_eq_range'] at loop
    have run := (Progress.start []).run loop
    rw [List.nil_append, Nat.zero_add] at run
    exact run
  refine ⟨?_, fun st s₁ loop => (progressOf st s₁ loop).debit, processMutateAccounts_eq_insufficientFunds⟩
  intro accounts' s' ok
  obtain ⟨checks, st, s₁, loop, settled⟩ := processMutateAccounts_eq_ok ok
  have progress := progressOf st s₁ loop
  have authority : validatorAuthority ∈ keys := List.mem_of_getElem? (mutateAccountsChecks_ok checks).1
  obtain ⟨total, others⟩ := totalLamports_debitAuthority authority settled
  refine ⟨by rw [total, progress.debit]; ring, fun k unlisted => ?_, fun k visited other => ?_⟩
  · -- an account outside the instruction is neither visited nor the authority
    have notVisited : k ∉ (keys.drop 1).take accountMods.entries.length :=
      fun visited => unlisted (List.mem_of_mem_drop (List.mem_of_mem_take visited))
    rw [others k fun same => unlisted (same ▸ authority)]
    exact (progress.pending k notVisited).2
  · obtain ⟨-, mi, held, modified⟩ := progress.applied k visited
    rw [others k other]
    exact ⟨mi, held, modified⟩

/-- Two accounts of 100 lamports: `[2; 32]` is raised to 150, and `[3; 32]` lowered to 90 and
given to the program `[9; 32]`. -/
def twoAccountMods : AccountMods :=
  ((∅ : AccountMods).insert (FixedBytes.replicate 32 2) ⟨some 150, none, none, none, none⟩).insert
    (FixedBytes.replicate 32 3) ⟨some 90, some (FixedBytes.replicate 32 9), none, none, none⟩

/-- The two modifications succeed, the authority paying the net 40 lamports. -/
theorem mutate_accounts_conserves_lamports_of_two :
    let keys := [exampleAuthority, FixedBytes.replicate 32 2, FixedBytes.replicate 32 3]
    (∃ accounts' s', processMutateAccounts exampleAuthority (FixedBytes.zero 32) [exampleAuthority] keys
        twoAccountMods exampleAccounts exampleStore = some (.ok accounts', s')) ∧
      (∀ accounts' s', processMutateAccounts exampleAuthority (FixedBytes.zero 32) [exampleAuthority] keys
          twoAccountMods exampleAccounts exampleStore = some (.ok accounts', s') →
        totalLamports keys accounts' = totalLamports keys exampleAccounts ∧
        (∀ k, k ∉ keys → accounts' k = exampleAccounts k) ∧
        ∀ k ∈ (keys.drop 1).take twoAccountMods.entries.length, k ≠ exampleAuthority →
          ∃ mi, twoAccountMods.lookup k = some mi ∧ ModifiedBy mi exampleStore (exampleAccounts k) (accounts' k)) ∧
      (∀ st s₁, mutateAccountsLoop keys (List.range twoAccountMods.entries.length)
          ⟨exampleAccounts, twoAccountMods, 0, []⟩ exampleStore = some (.ok st, s₁) →
        st.lamportsToDebit = totalLamports keys st.accounts - totalLamports keys exampleAccounts) ∧
      ((∃ s', processMutateAccounts exampleAuthority (FixedBytes.zero 32) [exampleAuthority] keys twoAccountMods
          exampleAccounts exampleStore = some (.error .insufficientFunds, s')) ↔
        mutateAccountsChecks exampleAuthority (FixedBytes.zero 32) [exampleAuthority] keys twoAccountMods
            exampleAccounts = .ok () ∧
          ∃ st s₁, mutateAccountsLoop keys (List.range twoAccountMods.entries.length)
              ⟨exampleAccounts, twoAccountMods, 0, []⟩ exampleStore = some (.ok st, s₁) ∧
            ((st.accounts exampleAuthority).lamports.toNat : Int) < st.lamportsToDebit) :=
  ⟨⟨_, _, rfl⟩, mutate_accounts_conserves_lamports _ _ _ _ _ _ _⟩

/-- The authority lists itself a second time and gives away its own 100 lamports, while
another account gets 150 more. -/
def selfModifyingMods : AccountMods :=
  ((∅ : AccountMods).insert exampleAuthority ⟨some 0, none, none, none, none⟩).insert
    (FixedBytes.replicate 32 2) ⟨some 250, none, none, none, none⟩

def selfModifyingMetas : List Pubkey := [exampleAuthority, exampleAuthority, FixedBytes.replicate 32 2]

/-- The modifications add up to a debt of 50 against the authority's 100 lamports, yet the
call fails with `InsufficientFunds`: by the settlement the authority's own modification
has already emptied it. -/
theorem insufficient_funds_within_authority_balance :
    netDebit [⟨exampleAuthority, some 0, none, none, none, none⟩,
        ⟨FixedBytes.replicate 32 2, some 250, none, none, none, none⟩] exampleAccounts = 50 ∧
      50 ≤ ((exampleAccounts exampleAuthority).lamports.toNat : Int) ∧
      ∃ s', processMutateAccounts exampleAuthority (FixedBytes.zero 32) [exampleAuthority]
          selfModifyingMetas selfModifyingMods exampleAccounts exampleStore =
        some (.error .insufficientFunds, s') :=
  ⟨rfl, by decide, _, rfl⟩

end EphemeralValidator.Magicblock
