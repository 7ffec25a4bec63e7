import EphemeralValidator.Geyser.MessageFilters

/-! # What one account filter selects

`FilterAccounts::get_filters` names a filter for an account update when three tests pass:
its accounts, its owners and its data filters.  For a request of one filter the first two
read: the account list is empty or has the pubkey, and the owner list is empty or has the
owner (`FilterAccounts.getFilters_of_new_singleton`), because `FilterAccounts::set` records
a name as required exactly when its list is not empty (`FilterAccounts.set_eq_ok`).

The data filters are the request's own: where no memcmp reaches past `u64::MAX`, `is_match`
never panics and holds of an account's data exactly when every data filter of the request
allows it (`FilterAccountsData.isMatch_of_new`): the data size, a valid token account, the
decoded memcmp bytes at their offset.  The pass of `FilterAccountsData::new` adds one data
filter to what the data must meet (`FilterAccountsData.meets_push`), and the loop is read
by induction over the request's filters.  Where a memcmp wraps,
`get_update_panics_on_wrapping_memcmp` says what happens instead.
-/

namespace EphemeralValidator.Geyser

open EphemeralValidator.Bytes EphemeralValidator.Solana EphemeralValidator.Lib

/-! ## The account and owner tests -/

namespace FilterAccounts

/-- The key loop puts the name under each of its keys, and reports an insert exactly when
some key did not have the name yet. -/
theorem setKeys_eq_ok {name : String} {reject keys : List Pubkey} {map : Pubkey → Finset String}
    {required : Bool} {result : (Pubkey → Finset String) × Bool}
    (set : setKeys name reject keys map required = .ok result) :
    (∀ key, name ∈ result.1 key ↔ name ∈ map key ∨ key ∈ keys) ∧
      (result.2 = true ↔ required = true ∨ ∃ key ∈ keys, name ∉ map key) := by
  induction keys generalizing map required with
  | nil =>
    simp only [setKeys, pure_eq_ok] at set
    subst set
    simp
  | cons key keys ih =>
    simp only [setKeys, bind_eq_ok, checkPubkeyReject_eq_ok] at set
    obtain ⟨-, -, set⟩ := set
    by_cases present : name ∈ map key
    · -- the name is already under this key: nothing changes
      rw [if_pos present] at set
      obtain ⟨kept, reported⟩ := ih set
      refine ⟨fun other => ?_, ?_⟩
      · rw [kept other, List.mem_cons]
        by_cases same : other = key
        · subst same
          simp [present]
        · simp [same]
      · rw [reported]
        simp [present]
    · rw [if_neg present] at set
      obtain ⟨kept, reported⟩ := ih set
      refine ⟨fun other => ?_, ?_⟩
      · rw [kept other, List.mem_cons]
        by_cases same : other = key
        · subst same
          simp
        · simp [same]
      · simp only [true_or] at reported
        simp [reported, present]

/-- `set` adds the name under each key, and to the required names when some key did not
have it yet. -/
theorem set_eq_ok {map : Pubkey → Finset String} {mapRequired : Finset String} {name : String}
    {keys reject : List Pubkey} {result : (Pubkey → Finset String) × Finset String}
    (setOk : set map mapRequired name keys reject = .ok result) :
    (∀ key, name ∈ result.1 key ↔ name ∈ map key ∨ key ∈ keys) ∧
      (name ∈ result.2 ↔ name ∈ mapRequired ∨ ∃ key ∈ keys, name ∉ map key) := by
  simp only [FilterAccounts.set, bind_eq_ok] at setOk
  obtain ⟨⟨map', required⟩, looped, setOk⟩ := setOk
  simp only [pure_eq_ok] at setOk
  subst setOk
  obtain ⟨kept, reported⟩ := setKeys_eq_ok looped
  simp only [Bool.false_eq_true, false_or] at reported
  refine ⟨kept, ?_⟩
  by_cases added : required = true
  · simp [added, ← reported]
  · simp [added, ← reported]

/-- A request of one account filter: the filter is named for an account update when its
account list is empty or has the pubkey, its owner list is empty or has the owner, and its
data filters match the data; the match of the data filters comes first, and its panic is the
whole answer's. -/
theorem getFilters_of_new_singleton {name : String} {request : SubscribeRequestFilterAccounts}
    {limit : ConfigGrpcFiltersAccounts} {this : FilterAccounts} (built : FilterAccounts.new [(name, request)] limit = .ok this) :
    ∃ data, FilterAccountsData.new request.filters = .ok data ∧
      ∀ validAccountData pubkey owner accountData, this.getFilters validAccountData pubkey owner accountData =
        (data.isMatch validAccountData accountData).map fun matched =>
          if (request.account = [] ∨ pubkey ∈ request.account) ∧ (request.owner = [] ∨ owner ∈ request.owner) ∧
            (data.isEmpty = true ∨ matched = true) then [name] else [] := by
  simp only [FilterAccounts.new, List.foldlM_cons, List.foldlM_nil, bind_eq_ok, pure_eq_ok] at built
  obtain ⟨-, -, pushed, pushOk, rfl⟩ := built
  simp only [FilterAccounts.push, bind_eq_ok] at pushOk
  obtain ⟨-, -, -, -, -, -, ⟨account, accountRequired⟩, accountSet, pushOk⟩ := pushOk
  obtain ⟨⟨owner, ownerRequired⟩, ownerSet, data, dataOk, pushOk⟩ := pushOk
  simp only [pure_eq_ok] at pushOk
  subst pushOk
  obtain ⟨accountKept, accountRequires⟩ := set_eq_ok accountSet
  obtain ⟨ownerKept, ownerRequires⟩ := set_eq_ok ownerSet
  refine ⟨data, dataOk, fun validAccountData pubkey ownerKey accountData => ?_⟩
  -- from the empty maps, a name is required exactly when its list has a key
  have accountTest : (name ∈ accountRequired ∧ name ∉ account pubkey) ↔ ¬(request.account = [] ∨ pubkey ∈ request.account) := by
    simp only [FilterAccounts.default] at accountKept accountRequires
    simp [accountKept, accountRequires, List.eq_nil_iff_forall_not_mem]
  have ownerTest : (name ∈ ownerRequired ∧ name ∉ owner ownerKey) ↔ ¬(request.owner = [] ∨ ownerKey ∈ request.owner) := by
    simp only [FilterAccounts.default] at ownerKept ownerRequires
    simp [ownerKept, ownerRequires, List.eq_nil_iff_forall_not_mem]
  clear accountKept accountRequires ownerKept ownerRequires accountSet ownerSet
  cases dataMatch : data.isMatch validAccountData accountData with
  | none => simp [FilterAccounts.getFilters, FilterAccounts.matchData, FilterAccounts.default, dataMatch]
  | some matched =>
    simp only [FilterAccounts.getFilters, FilterAccounts.matchData, FilterAccounts.default, dataMatch,
      List.nil_append, List.filterMap_cons, List.filterMap_nil, accountTest, ownerTest]
    by_cases accountOk : request.account = [] ∨ pubkey ∈ request.account <;>
      by_cases ownerOk : request.owner = [] ∨ ownerKey ∈ request.owner <;>
      cases empty : data.isEmpty <;> cases matched <;> simp [accountOk, ownerOk]

/-- A request of one account filter whose data filters are refused is refused. -/
theorem new_eq_error_of_data {name : String} {request : SubscribeRequestFilterAccounts}
    {limit : ConfigGrpcFiltersAccounts} {error : FilterError} (refused : FilterAccountsData.new request.filters = .error error) :
    ∃ error', FilterAccounts.new [(name, request)] limit = .error error' := by
  cases built : FilterAccounts.new [(name, request)] limit with
  | error error' => exact ⟨error', rfl⟩
  | ok this =>
    obtain ⟨data, dataOk, -⟩ := getFilters_of_new_singleton built
    rw [dataOk] at refused
    cases refused

end FilterAccounts

/-! ## The data filters -/

namespace FilterAccountsData

/-- What the data filters built so far ask of an account's data: its size, a valid token
account, and each memcmp window within the data and equal to its bytes. -/
def meets (this : FilterAccountsData) (validAccountData : List UInt8 → Bool) (data : List UInt8) : Bool :=
  this.datasize.all (data.length == ·) && (!this.tokenAccountState || validAccountData data) &&
    this.memcmp.all fun entry =>
      decide (entry.1 + entry.2.length ≤ data.length) && slice data entry.1 (entry.1 + entry.2.length) == entry.2

/-- No memcmp of the filters reaches past `u64::MAX`. -/
def Fits (this : FilterAccountsData) : Prop :=
  ∀ entry ∈ this.memcmp, entry.1 + entry.2.length < 2 ^ 64

/-- Where no memcmp reaches past `u64::MAX`, the memcmp loop checks each window within the
data against its bytes, and does not panic. -/
theorem memcmpMatch_of_fits {data : List UInt8} {memcmp : List (Nat × List UInt8)}
    (fits : ∀ entry ∈ memcmp, entry.1 + entry.2.length < 2 ^ 64) :
    memcmpMatch data memcmp = some (memcmp.all fun entry =>
      decide (entry.1 + entry.2.length ≤ data.length) && slice data entry.1 (entry.1 + entry.2.length) == entry.2) := by
  induction memcmp with
  | nil => rfl
  | cons entry memcmp ih =>
    obtain ⟨offset, bytes⟩ := entry
    have noWrap : wrappingAdd offset bytes.length = offset + bytes.length :=
      Nat.mod_eq_of_lt (fits _ List.mem_cons_self)
    have rest := ih fun entry member => fits entry (List.mem_cons_of_mem _ member)
    by_cases short : data.length < offset + bytes.length
    · simp [memcmpMatch, noWrap, short]
    · -- the window is within the data, so the slicing does not panic
      have window : rangeIndex data offset (offset + bytes.length) = some (slice data offset (offset + bytes.length)) := by
        simp only [rangeIndex]
        rw [if_pos (by omega)]
      by_cases same : slice data offset (offset + bytes.length) = bytes
      · simp [memcmpMatch, noWrap, short, window, same, rest]
        omega
      · simp [memcmpMatch, noWrap, short, window, same]

/-- Where no memcmp reaches past `u64::MAX`, `is_match` does not panic and answers `meets`. -/
theorem isMatch_of_fits {this : FilterAccountsData} (fits : this.Fits) (validAccountData : List UInt8 → Bool)
    (data : List UInt8) : this.isMatch validAccountData data = some (this.meets validAccountData data) := by
  unfold isMatch meets
  rw [memcmpMatch_of_fits fits]
  cases datasize : this.datasize with
  | none =>
    cases token : this.tokenAccountState <;> cases valid : validAccountData data <;> simp
  | some size =>
    by_cases sized : data.length = size
    · cases token : this.tokenAccountState <;> cases valid : validAccountData data <;> simp [sized]
    · simp [sized]

/-- Filters with no data filter match every data. -/
theorem isMatch_of_isEmpty {this : FilterAccountsData} (empty : this.isEmpty = true)
    (validAccountData : List UInt8 → Bool) (data : List UInt8) : this.isMatch validAccountData data = some true := by
  simp only [isEmpty, Bool.and_eq_true, List.isEmpty_iff, Option.isNone_iff_eq_none, Bool.not_eq_true'] at empty
  obtain ⟨⟨noMemcmp, noSize⟩, noToken⟩ := empty
  simp [isMatch, noMemcmp, noSize, noToken, memcmpMatch]

end FilterAccountsData

/-- What a data filter of a request asks of an account's data, in the request's terms: its
size, a valid token account, or the memcmp's decoded bytes at its offset. -/
def AccountsFilterDataOneof.allows (validAccountData : List UInt8 → Bool) (data : List UInt8) :
    AccountsFilterDataOneof → Bool
  | .memcmp compared =>
    match FilterAccountsData.decodeMemcmpData compared.data with
    | .ok bytes =>
      decide (compared.offset.toNat + bytes.length ≤ data.length) &&
        slice data compared.offset.toNat (compared.offset.toNat + bytes.length) == bytes
    | .error _ => false
  | .datasize size => data.length == size.toNat
  | .tokenAccountState _ => validAccountData data

/-- A data filter of a request whose memcmp does not reach past `u64::MAX`. -/
def AccountsFilterDataOneof.Fits : AccountsFilterDataOneof → Prop
  | .memcmp compared =>
    ∀ bytes, FilterAccountsData.decodeMemcmpData compared.data = .ok bytes → compared.offset.toNat + bytes.length < 2 ^ 64
  | _ => True

namespace FilterAccountsData

variable (validAccountData : List UInt8 → Bool) (data : List UInt8)

/-- One pass of `FilterAccountsData::new` adds its data filter to what the data must meet. -/
theorem meets_push {this this' : FilterAccountsData} {filter : Option AccountsFilterDataOneof}
    (pushed : this.push filter = .ok this') (fits : ∀ value ∈ filter, value.Fits) (thisFits : this.Fits) :
    this'.Fits ∧ this'.meets validAccountData data = (this.meets validAccountData data &&
      filter.all (AccountsFilterDataOneof.allows validAccountData data)) := by
  match filter, pushed with
  | some (.memcmp memcmp), pushed =>
    simp only [push, bind_eq_ok] at pushed
    obtain ⟨bytes, decoded, pushed⟩ := pushed
    split at pushed
    · simp only [pure_eq_ok] at pushed
      subst pushed
      have fitsHere : memcmp.offset.toNat + bytes.length < 2 ^ 64 := by
        have fitsFilter := fits _ rfl
        simp only [AccountsFilterDataOneof.Fits] at fitsFilter
        exact fitsFilter bytes decoded
      refine ⟨fun entry member => ?_, ?_⟩
      · rcases List.mem_append.mp member with earlier | added
        · exact thisFits entry earlier
        · rw [List.mem_singleton.mp added]
          exact fitsHere
      · simp [meets, AccountsFilterDataOneof.allows, decoded, Bool.and_assoc]
    · cases pushed
  | some (.datasize size), pushed =>
    simp only [push] at pushed
    cases datasize : this.datasize with
    | none =>
      rw [datasize] at pushed
      simp only [pure_eq_ok] at pushed
      subst pushed
      refine ⟨thisFits, ?_⟩
      simp only [meets, datasize, AccountsFilterDataOneof.allows, Option.all_some, Option.all_none]
      cases (data.length == size.toNat) <;> simp
    | some _ =>
      rw [datasize] at pushed
      cases pushed
  | some (.tokenAccountState value), pushed =>
    simp only [push] at pushed
    split at pushed
    · simp only [pure_eq_ok] at pushed
      subst pushed
      refine ⟨thisFits, ?_⟩
      simp only [meets, AccountsFilterDataOneof.allows, Option.all_some]
      cases this.tokenAccountState <;> cases validAccountData data <;> simp
    · cases pushed

/-- The loop of `FilterAccountsData::new` asks of the data what each of its data filters asks. -/
theorem meets_foldlM_push {filters : List (Option AccountsFilterDataOneof)} {init this : FilterAccountsData}
    (built : filters.foldlM push init = .ok this) (fits : ∀ filter ∈ filters, ∀ value ∈ filter, value.Fits)
    (initFits : init.Fits) :
    this.Fits ∧ this.meets validAccountData data = (init.meets validAccountData data &&
      filters.all fun filter => filter.all (AccountsFilterDataOneof.allows validAccountData data)) := by
  induction filters generalizing init with
  | nil =>
    cases built
    simp [initFits]
  | cons filter filters ih =>
    simp only [List.foldlM_cons, bind_eq_ok] at built
    obtain ⟨next, pushed, built⟩ := built
    obtain ⟨nextFits, nextMeets⟩ := meets_push validAccountData data pushed (fits filter List.mem_cons_self) initFits
    obtain ⟨thisFits, thisMeets⟩ := ih built (fun filter member => fits filter (List.mem_cons_of_mem _ member)) nextFits
    refine ⟨thisFits, ?_⟩
    rw [thisMeets, nextMeets, List.all_cons, Bool.and_assoc]

/-- Where no memcmp of the request reaches past `u64::MAX`, the data filters it builds never
panic, and match an account's data exactly when each of its data filters allows it. -/
theorem isMatch_of_new {filters : List (Option AccountsFilterDataOneof)} {this : FilterAccountsData}
    (built : FilterAccountsData.new filters = .ok this) (fits : ∀ filter ∈ filters, ∀ value ∈ filter, value.Fits) :
    this.isMatch validAccountData data =
      some (filters.all fun filter => filter.all (AccountsFilterDataOneof.allows validAccountData data)) := by
  unfold FilterAccountsData.new at built
  split at built
  · -- the defaults meet every data and have no memcmp
    have defaultFits : FilterAccountsData.default.Fits := fun _ member => nomatch member
    obtain ⟨thisFits, thisMeets⟩ := meets_foldlM_push validAccountData data built fits defaultFits
    rw [isMatch_of_fits thisFits, thisMeets]
    simp [meets, FilterAccountsData.default]
  · cases built

end FilterAccountsData

end EphemeralValidator.Geyser
