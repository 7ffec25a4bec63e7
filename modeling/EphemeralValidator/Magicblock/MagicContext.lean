import EphemeralValidator.Solana.Account

/-! # The `MagicContext` account and its encoding

`MagicContext` (programs/magicblock/src/magic_context.rs) is the account in which
`ScheduleCommit` instructions queue `ScheduledCommit`s until the validator accepts
them.  Its data is the bincode encoding of the context, which today is only the
vector of scheduled commits: an eight-byte little-endian count followed by the
commits.  `has_scheduled_commits` therefore looks at the first eight bytes alone.

The SDK `Transaction` carried by each commit is a type parameter `Tx` with its own
lawful codec.  The main facts here are `encode_eq_some`, which exposes the count at
the front of every encoding, and `hasScheduledCommits_encode_append`, which says the
eight-byte shortcut agrees with the decoded vector whatever follows the encoding.
-/

namespace EphemeralValidator.Magicblock

open EphemeralValidator.Bytes EphemeralValidator.Solana

/-- `ScheduledCommit`. -/
structure ScheduledCommit (Tx : Type) where
  id : UInt64
  slot : Slot
  blockhash : Hash
  accounts : List Pubkey
  payer : Pubkey
  owner : Pubkey
  commitSentTransaction : Tx
  requestUndelegation : Bool

/-- `MagicContext`. -/
structure MagicContext (Tx : Type) where
  scheduledCommits : List (ScheduledCommit Tx)

namespace MagicContext

variable {Tx : Type}

instance : Inhabited (MagicContext Tx) := ⟨⟨[]⟩⟩

/-- `MagicContext::SIZE` (`MAGIC_CONTEXT_SIZE`, 5 MiB). -/
def size : Nat := 1024 * 1024 * 5

/-- `MagicContext::ZERO`.  Irreducible so that no proof step evaluates five megabytes. -/
@[irreducible] def zero : List UInt8 := List.replicate size 0

/-- `add_scheduled_commit`. -/
def addScheduledCommit (context : MagicContext Tx) (commit : ScheduledCommit Tx) :
    MagicContext Tx :=
  ⟨context.scheduledCommits ++ [commit]⟩

/-- `take_scheduled_commits` (`mem::take`): the commits, and the emptied context. -/
def takeScheduledCommits (context : MagicContext Tx) : List (ScheduledCommit Tx) × MagicContext Tx :=
  (context.scheduledCommits, ⟨[]⟩)

end MagicContext

/-! ## Encoding -/

section Codecs

variable {Tx : Type} (txCodec : Codec Tx)

/-- The derived bincode encoding of `ScheduledCommit`: its fields in declaration order. -/
def ScheduledCommit.codec : Codec (ScheduledCommit Tx) :=
  Codec.iso
    (.prod .u64 (.prod .u64 (.prod (.fixed 32) (.prod (.vec (.fixed 32))
      (.prod (.fixed 32) (.prod (.fixed 32) (.prod txCodec .bool)))))))
    (fun c => (c.id, c.slot, c.blockhash, c.accounts, c.payer, c.owner,
      c.commitSentTransaction, c.requestUndelegation))
    (fun ⟨id, slot, blockhash, accounts, payer, owner, tx, undelegate⟩ =>
      ⟨id, slot, blockhash, accounts, payer, owner, tx, undelegate⟩)
    (fun _ => rfl)

/-- The derived bincode encoding of `MagicContext`: its one field, the vector. -/
def MagicContext.codec : Codec (MagicContext Tx) :=
  Codec.iso (.vec (ScheduledCommit.codec txCodec)) MagicContext.scheduledCommits
    MagicContext.mk (fun _ => rfl)

/-- `MagicContext::deserialize`: an empty account is the default context, any other
is decoded. -/
def MagicContext.deserialize (account : AccountSharedData) : Except BincodeError (MagicContext Tx) :=
  if account.data.isEmpty then .ok default else account.deserializeData (MagicContext.codec txCodec)

/-- Every encoding of a context is its commit count, in eight little-endian bytes, then
the commits; a context has an encoding only if that count fits a `u64`. -/
theorem MagicContext.encode_eq_some {context : MagicContext Tx} {bs : List UInt8}
    (h : (MagicContext.codec txCodec).encode context = some bs) :
    context.scheduledCommits.length < 2 ^ 64 ∧
      ∃ xs, bs = leBytes 8 context.scheduledCommits.length ++ xs :=
  let ⟨hlen, xs, _, hbs⟩ := Codec.vec_encode_eq_some h
  ⟨hlen, xs, hbs⟩

theorem MagicContext.encode_empty :
    (MagicContext.codec txCodec).encode (⟨[]⟩ : MagicContext Tx) = some (leBytes 8 0) := by
  simp [MagicContext.codec, Codec.iso, Codec.vec, Codec.encodeAll]

end Codecs

/-! ## The eight-byte shortcut -/

/-- `is_zeroed`: every full eight-byte chunk and the remainder are zero. -/
def isZeroed (buf : List UInt8) : Bool :=
  let zeros : List UInt8 := List.replicate 8 0
  let chunks := chunksExact 8 buf
  chunks.1.all (fun chunk => chunk == zeros) && chunks.2 == zeros.take chunks.2.length

/-- `MagicContext::has_scheduled_commits`: the first eight bytes are not all zero
(`&data[0..8]`; every context account is longer than that). -/
def MagicContext.hasScheduledCommits (data : List UInt8) : Bool := !isZeroed (slice data 0 8)

theorem isZeroed_iff (buf : List UInt8) : isZeroed buf = true ↔ ∀ b ∈ buf, b = 0 := by
  obtain ⟨join, chunkLength, remainderLength⟩ := chunksExact_spec 8 buf
  -- a list of known length is the zero list of that length exactly when all its bytes are zero
  have zeroList : ∀ c : List UInt8, (c == List.replicate c.length 0) = true ↔ ∀ b ∈ c, b = 0 := by
    intro c
    rw [beq_iff_eq, List.eq_replicate_iff]
    simp
  have chunkZero : ∀ c ∈ (chunksExact 8 buf).1,
      (c == List.replicate 8 0) = true ↔ ∀ b ∈ c, b = 0 := by
    intro c hc
    rw [← chunkLength c hc]
    exact zeroList c
  have remainderZero : ((chunksExact 8 buf).2 ==
      (List.replicate 8 0).take (chunksExact 8 buf).2.length) = true ↔
      ∀ b ∈ (chunksExact 8 buf).2, b = 0 := by
    rw [List.take_replicate, Nat.min_eq_left (by omega)]
    exact zeroList _
  conv_rhs => rw [← join]
  simp only [isZeroed, Bool.and_eq_true, List.all_eq_true, remainderZero, List.mem_append,
    List.mem_flatten]
  constructor
  · rintro ⟨hchunks, hrest⟩ b (⟨c, hc, hb⟩ | hb)
    · exact (chunkZero c hc).mp (hchunks c hc) b hb
    · exact hrest b hb
  · intro hall
    refine ⟨fun c hc => (chunkZero c hc).mpr fun b hb => hall b (.inl ⟨c, hc, hb⟩),
      fun b hb => hall b (.inr hb)⟩

/-- The shortcut agrees with the decoded vector on any data that starts with the
encoding of a context, whatever bytes follow it. -/
theorem MagicContext.hasScheduledCommits_encode_append {Tx : Type} {txCodec : Codec Tx}
    {context : MagicContext Tx} {bs : List UInt8} (tail : List UInt8)
    (h : (MagicContext.codec txCodec).encode context = some bs) :
    MagicContext.hasScheduledCommits (bs ++ tail) = true ↔ context.scheduledCommits ≠ [] := by
  obtain ⟨hlen, xs, rfl⟩ := MagicContext.encode_eq_some txCodec h
  have prefix8 : slice (leBytes 8 context.scheduledCommits.length ++ xs ++ tail) 0 8 =
      leBytes 8 context.scheduledCommits.length := by
    simpa using slice_append [] (leBytes 8 context.scheduledCommits.length) (xs ++ tail)
  have small : context.scheduledCommits.length % 256 ^ 8 = context.scheduledCommits.length :=
    Nat.mod_eq_of_lt (lt_of_lt_of_eq hlen (by norm_num))
  rw [MagicContext.hasScheduledCommits, prefix8, Bool.not_eq_true', Bool.eq_false_iff, Ne,
    isZeroed_iff, leBytes_all_zero_iff, small, List.length_eq_zero_iff]

end EphemeralValidator.Magicblock
