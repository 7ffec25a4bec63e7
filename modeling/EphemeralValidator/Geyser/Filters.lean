import Mathlib.Data.Finset.Basic
import EphemeralValidator.Solana.Account
import EphemeralValidator.Lib.Except

/-! # The account filters of a geyser subscription

`Filter::new` builds, from a `SubscribeRequest`, the account filters (`FilterAccounts::new`)
and the data slices (`FilterAccountsDataSlice::create`).  For an account update,
`Filter::get_update` reports the names of the filters that match it, with the account's
data cut down to the requested slices.  A filter matches when its account list is empty
or has the pubkey, its owner list is empty or has the owner, and its data filters hold:
`FilterAccounts::set` records a name as "required" for the accounts (owners) exactly when
its list is not empty.

Offsets and lengths come from the request as `u64`.  `FilterAccountsData::is_match` checks
`data.len() < offset + bytes.len()` and `From<&SubscribeRequestAccountsDataSlice>` computes
`offset + length` before any bound is checked; in a release build these additions wrap, the
check passes, and the slicing that follows panics.  A request with a memcmp near
`u64::MAX` is accepted, and then every account update panics in `get_update`
(`get_update_panics_on_wrapping_memcmp`).

The pubkeys of a request are taken as decoded (a request with a string that is not a pubkey
is rejected), the base58 and base64 strings of a memcmp by their length and what they decode
to, and `TokenAccount::valid_account_data` as a parameter.  The filters for slots,
transactions, entries, blocks and block metas, which `Filter::new` also builds, are left out.
-/

namespace EphemeralValidator.Geyser

open EphemeralValidator.Bytes EphemeralValidator.Solana

/-- `usize` addition in a release build: it wraps at `2 ^ 64`. -/
def wrappingAdd (a b : Nat) : Nat := (a + b) % 2 ^ 64

/-- `&data[start..stop]`; `none` is its panic. -/
def rangeIndex (data : List UInt8) (start stop : Nat) : Option (List UInt8) :=
  if start ≤ stop ∧ stop ≤ data.length then some (slice data start stop) else none

/-- The errors of `Filter::new` for accounts, one per message. -/
inductive FilterError where
  /-- "Max amount of filters reached, only {max} allowed" -/
  | maxFilters (max : Nat)
  /-- "Broadcast `any` is not allowed, at least one filter required" -/
  | anyNotAllowed
  /-- "Max amount of Pubkeys reached, only {max} allowed" -/
  | maxPubkeys (max : Nat)
  /-- "Pubkey {pubkey} in filters not allowed" -/
  | pubkeyNotAllowed (pubkey : Pubkey)
  /-- "Too many filters provided; max 4" -/
  | tooManyFilters
  /-- "data too large" -/
  | dataTooLarge
  /-- "invalid base58" -/
  | invalidBase58
  /-- "invalid base64" -/
  | invalidBase64
  /-- "data for memcmp should be defined" -/
  | memcmpDataUndefined
  /-- "datasize used more than once" -/
  | datasizeUsedMoreThanOnce
  /-- "token_account_state only allowed to be true" -/
  | tokenAccountStateNotTrue
  /-- "filter should be defined" -/
  | filterUndefined
  /-- "data slices out of order" -/
  | dataSlicesOutOfOrder
  /-- "data slices overlap" -/
  | dataSlicesOverlap

/-! ## The request -/

/-- The data of a memcmp: bytes, or a base58 or base64 string given by its length and what it
decodes to. -/
inductive MemcmpData where
  | bytes (data : List UInt8)
  | base58 (encodedLength : Nat) (decoded : Option (List UInt8))
  | base64 (encodedLength : Nat) (decoded : Option (List UInt8))

structure SubscribeRequestFilterAccountsFilterMemcmp where
  offset : UInt64
  data : Option MemcmpData

inductive AccountsFilterDataOneof where
  | memcmp (memcmp : SubscribeRequestFilterAccountsFilterMemcmp)
  | datasize (datasize : UInt64)
  | tokenAccountState (value : Bool)

structure SubscribeRequestFilterAccounts where
  account : List Pubkey
  owner : List Pubkey
  /-- the `filter` of each `SubscribeRequestFilterAccountsFilter` -/
  filters : List (Option AccountsFilterDataOneof)

structure SubscribeRequestAccountsDataSlice where
  offset : UInt64
  length : UInt64

/-- `ConfigGrpcFiltersAccounts`, the limits of the validator's configuration. -/
structure ConfigGrpcFiltersAccounts where
  max : Nat
  any : Bool
  accountMax : Nat
  accountReject : List Pubkey
  ownerMax : Nat
  ownerReject : List Pubkey

/-! ## Data filters -/

/-- `FilterAccountsData`. -/
structure FilterAccountsData where
  memcmp : List (Nat × List UInt8)
  datasize : Option Nat
  tokenAccountState : Bool

namespace FilterAccountsData

def default : FilterAccountsData := ⟨[], none, false⟩

def maxFilters : Nat := 4
def maxDataSize : Nat := 128
def maxDataBase58Size : Nat := 175
def maxDataBase64Size : Nat := 172

def decodeMemcmpData : Option MemcmpData → Except FilterError (List UInt8)
  | some (.bytes data) => .ok data
  | some (.base58 encodedLength decoded) =>
    if encodedLength ≤ maxDataBase58Size then
      match decoded with
      | some data => .ok data
      | none => .error .invalidBase58
    else .error .dataTooLarge
  | some (.base64 encodedLength decoded) =>
    if encodedLength ≤ maxDataBase64Size then
      match decoded with
      | some data => .ok data
      | none => .error .invalidBase64
    else .error .dataTooLarge
  | none => .error .memcmpDataUndefined

/-- One pass of the loop of `FilterAccountsData::new`. -/
def push (this : FilterAccountsData) : Option AccountsFilterDataOneof → Except FilterError FilterAccountsData
  | some (.memcmp memcmp) => do
    let data ← decodeMemcmpData memcmp.data
    if data.length ≤ maxDataSize then
      pure { this with memcmp := this.memcmp ++ [(memcmp.offset.toNat, data)] }
    else throw .dataTooLarge
  | some (.datasize datasize) =>
    match this.datasize with
    | none => pure { this with datasize := some datasize.toNat }
    | some _ => throw .datasizeUsedMoreThanOnce
  | some (.tokenAccountState value) =>
    if value then pure { this with tokenAccountState := true } else throw .tokenAccountStateNotTrue
  | none => throw .filterUndefined

def new (filters : List (Option AccountsFilterDataOneof)) : Except FilterError FilterAccountsData :=
  if filters.length ≤ maxFilters then filters.foldlM push default else throw .tooManyFilters

def isEmpty (this : FilterAccountsData) : Bool :=
  this.memcmp.isEmpty && this.datasize.isNone && !this.tokenAccountState

/-- The memcmp loop of `is_match`; `none` is a panic. -/
def memcmpMatch (data : List UInt8) : List (Nat × List UInt8) → Option Bool
  | [] => some true
  | (offset, bytes) :: memcmp =>
    -- `*offset + bytes.len()`, which wraps
    if data.length < wrappingAdd offset bytes.length then some false
    else
      match rangeIndex data offset (wrappingAdd offset bytes.length) with
      | none => none
      | some window => if window ≠ bytes then some false else memcmpMatch data memcmp

/-- `is_match`, with `TokenAccount::valid_account_data` as `validAccountData`; `none` is a panic. -/
def isMatch (validAccountData : List UInt8 → Bool) (this : FilterAccountsData) (data : List UInt8) : Option Bool :=
  -- `matches!(self.datasize, Some(datasize) if data.len() != datasize)`
  if this.datasize.any (data.length != ·) then some false
  else if this.tokenAccountState ∧ !validAccountData data then some false
  else memcmpMatch data this.memcmp

end FilterAccountsData

/-! ## Account filters -/

/-- `FilterAccounts`: the filters by name, and the names by account and by owner. -/
structure FilterAccounts where
  filters : List (String × FilterAccountsData)
  account : Pubkey → Finset String
  accountRequired : Finset String
  owner : Pubkey → Finset String
  ownerRequired : Finset String

def checkMax (len max : Nat) : Except FilterError Unit :=
  if len ≤ max then pure () else throw (.maxFilters max)

def checkAny (isEmpty any : Bool) : Except FilterError Unit :=
  if !isEmpty || any then pure () else throw .anyNotAllowed

def checkPubkeyMax (len max : Nat) : Except FilterError Unit :=
  if len ≤ max then pure () else throw (.maxPubkeys max)

def checkPubkeyReject (pubkey : Pubkey) (set : List Pubkey) : Except FilterError Unit :=
  if pubkey ∈ set then throw (.pubkeyNotAllowed pubkey) else pure ()

namespace FilterAccounts

def default : FilterAccounts := ⟨[], fun _ => ∅, ∅, fun _ => ∅, ∅⟩

/-- The key loop of `FilterAccounts::set`: the map, and whether some insert added the name. -/
def setKeys (name : String) (reject : List Pubkey) :
    List Pubkey → (Pubkey → Finset String) → Bool → Except FilterError ((Pubkey → Finset String) × Bool)
  | [], map, required => pure (map, required)
  | key :: keys, map, required => do
    checkPubkeyReject key reject
    if name ∈ map key then setKeys name reject keys map required
    else setKeys name reject keys (Function.update map key (insert name (map key))) true

/-- `FilterAccounts::set`. -/
def set (map : Pubkey → Finset String) (mapRequired : Finset String) (name : String) (keys : List Pubkey)
    (reject : List Pubkey) : Except FilterError ((Pubkey → Finset String) × Finset String) := do
  let (map, required) ← setKeys name reject keys map false
  pure (map, if required then insert name mapRequired else mapRequired)

/-- One pass of the loop of `FilterAccounts::new`. -/
def push (limit : ConfigGrpcFiltersAccounts) (this : FilterAccounts)
    (entry : String × SubscribeRequestFilterAccounts) : Except FilterError FilterAccounts := do
  let (name, filter) := entry
  checkAny (filter.account.isEmpty && filter.owner.isEmpty) limit.any
  checkPubkeyMax filter.account.length limit.accountMax
  checkPubkeyMax filter.owner.length limit.ownerMax
  let (account, accountRequired) ← set this.account this.accountRequired name filter.account limit.accountReject
  let (owner, ownerRequired) ← set this.owner this.ownerRequired name filter.owner limit.ownerReject
  let data ← FilterAccountsData.new filter.filters
  pure ⟨this.filters ++ [(name, data)], account, accountRequired, owner, ownerRequired⟩

/-- `FilterAccounts::new`, over the request's map in its iteration order. -/
def new (configs : List (String × SubscribeRequestFilterAccounts)) (limit : ConfigGrpcFiltersAccounts) :
    Except FilterError FilterAccounts := do
  checkMax configs.length limit.max
  configs.foldlM (push limit) default

/-- `match_data`: the names whose data filters hold; `none` is a panic. -/
def matchData (validAccountData : List UInt8 → Bool) (data : List UInt8) :
    List (String × FilterAccountsData) → Option (Finset String)
  | [] => some ∅
  | (name, filter) :: filters => do
    let matched ← filter.isMatch validAccountData data
    let names ← matchData validAccountData data filters
    pure (if matched then insert name names else names)

/-- `FilterAccounts::get_filters` and `FilterAccountsMatch::get_filters`: the names of the
filters that match the account; `none` is a panic. -/
def getFilters (validAccountData : List UInt8 → Bool) (this : FilterAccounts) (pubkey owner : Pubkey)
    (data : List UInt8) : Option (List String) := do
  let dataMatched ← matchData validAccountData data this.filters
  pure (this.filters.filterMap fun (name, filter) =>
    if name ∈ this.accountRequired ∧ name ∉ this.account pubkey then none
    else if name ∈ this.ownerRequired ∧ name ∉ this.owner owner then none
    else if !filter.isEmpty ∧ name ∉ dataMatched then none
    else some name)

end FilterAccounts

/-! ## Data slices -/

/-- `FilterAccountsDataSlice`; `stop` is its `end`. -/
structure FilterAccountsDataSlice where
  start : Nat
  stop : Nat
  length : Nat

/-- `From<&SubscribeRequestAccountsDataSlice>`: `offset + length` is a `u64` sum, which wraps. -/
def FilterAccountsDataSlice.ofRequest (dataSlice : SubscribeRequestAccountsDataSlice) : FilterAccountsDataSlice :=
  ⟨dataSlice.offset.toNat, (dataSlice.offset + dataSlice.length).toNat, dataSlice.length.toNat⟩

/-- The checks of `FilterAccountsDataSlice::create`, slice by slice: against every later slice
the order, then against every earlier one the overlap. -/
def checkSlices : List FilterAccountsDataSlice → List FilterAccountsDataSlice → Except FilterError Unit
  | _, [] => pure ()
  | earlier, sliceA :: later =>
    if later.all fun sliceB => sliceA.start ≤ sliceB.start then
      if earlier.all fun sliceB => sliceB.stop ≤ sliceA.start then checkSlices (earlier ++ [sliceA]) later
      else throw .dataSlicesOverlap
    else throw .dataSlicesOutOfOrder

def FilterAccountsDataSlice.create (slices : List SubscribeRequestAccountsDataSlice) :
    Except FilterError (List FilterAccountsDataSlice) := do
  checkSlices [] (slices.map FilterAccountsDataSlice.ofRequest)
  pure (slices.map FilterAccountsDataSlice.ofRequest)

/-- The data of `MessageAccountInfo::to_proto`: the slices that end within the data, in order;
`none` is a panic. -/
def sliceData (data : List UInt8) (slices : List FilterAccountsDataSlice) : Option (List UInt8) :=
  if slices.isEmpty then some data
  else
    slices.foldlM (fun sliced dataSlice =>
      if dataSlice.stop ≤ data.length then (rangeIndex data dataSlice.start dataSlice.stop).map (sliced ++ ·)
      else some sliced) []

/-! ## The filter -/

/-- The account part of `Filter`. -/
structure Filter where
  accounts : FilterAccounts
  accountsDataSlice : List FilterAccountsDataSlice

/-- The account part of `SubscribeRequest`. -/
structure SubscribeRequest where
  accounts : List (String × SubscribeRequestFilterAccounts)
  accountsDataSlice : List SubscribeRequestAccountsDataSlice

/-- What the filters read of an account update. -/
structure MessageAccountInfo where
  pubkey : Pubkey
  owner : Pubkey
  data : List UInt8

/-- A `SubscribeUpdate` of an account: the filter names and the data sent. -/
structure SubscribeUpdate where
  filters : List String
  data : List UInt8

namespace Filter

def new (config : SubscribeRequest) (limit : ConfigGrpcFiltersAccounts) : Except FilterError Filter := do
  let accounts ← FilterAccounts.new config.accounts limit
  let accountsDataSlice ← FilterAccountsDataSlice.create config.accountsDataSlice
  pure ⟨accounts, accountsDataSlice⟩

/-- `Filter::get_update` on an account update; `none` is a panic. -/
def getUpdate (validAccountData : List UInt8 → Bool) (filter : Filter) (message : MessageAccountInfo) :
    Option (List SubscribeUpdate) := do
  let names ← filter.accounts.getFilters validAccountData message.pubkey message.owner message.data
  if names.isEmpty then pure []
  else
    let data ← sliceData message.data filter.accountsDataSlice
    pure [⟨names, data⟩]

end Filter

/-! ## A memcmp past the end of `usize` -/

namespace FilterAccountsData

/-- A memcmp whose end wraps past `2 ^ 64` to within the data passes the length check and
panics in the slicing: its offset is past its wrapped end. -/
theorem memcmpMatch_of_wraps {data : List UInt8} {offset : Nat} {bytes : List UInt8}
    (memcmp : List (Nat × List UInt8)) (inRange : offset < 2 ^ 64) (short : bytes.length < 2 ^ 64)
    (wraps : 2 ^ 64 ≤ offset + bytes.length) (reached : wrappingAdd offset bytes.length ≤ data.length) :
    memcmpMatch data ((offset, bytes) :: memcmp) = none := by
  have wrapped : wrappingAdd offset bytes.length = offset + bytes.length - 2 ^ 64 := by
    unfold wrappingAdd
    rw [Nat.mod_eq_sub_mod wraps, Nat.mod_eq_of_lt (by omega)]
  have backwards : ¬ (offset ≤ wrappingAdd offset bytes.length ∧ wrappingAdd offset bytes.length ≤ data.length) := by
    rw [wrapped]
    omega
  simp only [memcmpMatch, Nat.not_lt.mpr reached, if_false, rangeIndex, backwards]

end FilterAccountsData

/-- A subscription with one filter, on no account and no owner, whose only data filter is a
memcmp of `bytes` at an `offset` with `offset + bytes.len()` past `u64::MAX`: `Filter::new`
accepts it wherever `any` filters are allowed, and then `get_update` panics on every account
update whose data reaches the wrapped end, so on every update for `offset = u64::MAX` and one
byte. -/
theorem get_update_panics_on_wrapping_memcmp (name : String) (offset : UInt64) (bytes : List UInt8)
    (limit : ConfigGrpcFiltersAccounts) (allowed : 1 ≤ limit.max) (any : limit.any = true)
    (small : bytes.length ≤ FilterAccountsData.maxDataSize)
    (wraps : 2 ^ 64 ≤ offset.toNat + bytes.length) :
    ∃ filter, Filter.new ⟨[(name, ⟨[], [], [some (.memcmp ⟨offset, some (.bytes bytes)⟩)]⟩)], []⟩ limit = .ok filter ∧
      ∀ validAccountData message, wrappingAdd offset.toNat bytes.length ≤ message.data.length →
        filter.getUpdate validAccountData message = none := by
  have small' : bytes.length ≤ 128 := small
  refine ⟨⟨⟨[(name, ⟨[(offset.toNat, bytes)], none, false⟩)], fun _ => ∅, ∅, fun _ => ∅, ∅⟩, []⟩, ?_, ?_⟩
  · simp [Filter.new, FilterAccounts.new, checkMax, allowed, FilterAccounts.push, checkAny, any,
      checkPubkeyMax, FilterAccounts.set, FilterAccounts.setKeys, FilterAccountsData.new,
      FilterAccountsData.maxFilters, FilterAccountsData.push, FilterAccountsData.decodeMemcmpData,
      FilterAccountsData.maxDataSize, small', FilterAccounts.default, FilterAccountsData.default,
      FilterAccountsDataSlice.create, checkSlices]
  · intro validAccountData message reached
    have panics := FilterAccountsData.memcmpMatch_of_wraps [] offset.toNat_lt (by omega) wraps reached
    simp [Filter.getUpdate, FilterAccounts.getFilters, FilterAccounts.matchData,
      FilterAccountsData.isMatch, panics]

/-- `offset = u64::MAX` and one byte: every account update panics. -/
theorem get_update_panics_on_wrapping_memcmp_at_max :
    let limit : ConfigGrpcFiltersAccounts := ⟨2 ^ 64 - 1, true, 2 ^ 64 - 1, [], 2 ^ 64 - 1, []⟩
    1 ≤ limit.max ∧ limit.any = true ∧ [0].length ≤ FilterAccountsData.maxDataSize ∧
      2 ^ 64 ≤ (UInt64.ofNat (2 ^ 64 - 1)).toNat + [(0 : UInt8)].length ∧
      ∃ filter, Filter.new ⟨[("program", ⟨[], [], [some (.memcmp ⟨UInt64.ofNat (2 ^ 64 - 1), some (.bytes [0])⟩)]⟩)], []⟩
          limit = .ok filter ∧
        ∀ validAccountData message, wrappingAdd (UInt64.ofNat (2 ^ 64 - 1)).toNat [(0 : UInt8)].length ≤ message.data.length →
          filter.getUpdate validAccountData message = none := by
  intro limit
  have allowed : 1 ≤ limit.max := by decide
  have any : limit.any = true := rfl
  have small : [(0 : UInt8)].length ≤ FilterAccountsData.maxDataSize := by decide
  have wraps : 2 ^ 64 ≤ (UInt64.ofNat (2 ^ 64 - 1)).toNat + [(0 : UInt8)].length := by decide
  exact ⟨allowed, any, small, wraps,
    get_update_panics_on_wrapping_memcmp "program" (UInt64.ofNat (2 ^ 64 - 1)) [0] limit allowed any small wraps⟩

end EphemeralValidator.Geyser
