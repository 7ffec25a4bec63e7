import Mathlib

/-! # `getBlocks` and `getBlocksWithLimit`

Both handlers of the full RPC API answer from the bank's slot alone: the last slot with a
block is taken to be `bank.slot().saturating_sub(1)`, the end of the range is cut down to it,
and every slot from `start_slot` to that end is returned, after a check that the range is not
wider than `MAX_GET_CONFIRMED_BLOCKS_RANGE`.  Slots are `u64`: `saturating_sub` is the
subtraction of `Nat`, and `saturating_add` stops at `u64::MAX`.

Because the end is an inclusive bound computed with saturating subtraction, the range is
never empty when it starts at slot 0: with `limit` 0, or at bank slot 0, slot 0 is returned
all the same (`get_blocks_returns_slot_zero`).  With a positive limit and bank slot the answer
is what it should be (`getBlocksWithLimit_bounded`).
-/

namespace EphemeralValidator.Rpc

/-- `u64::MAX`. -/
def slotMax : Nat := 2 ^ 64 - 1

/-- `MAX_GET_CONFIRMED_BLOCKS_RANGE` of the Solana RPC client API. -/
def maxGetConfirmedBlocksRange : Nat := 500000

inductive RpcError where
  /-- `Error::invalid_params` with its message -/
  | invalidParams (message : String)
  deriving DecidableEq, Repr

/-- `(start_slot..=end_slot).collect()`. -/
def slotRange (startSlot endSlot : Nat) : List Nat :=
  List.range' startSlot (endSlot + 1 - startSlot)

/-- The check and the answer both handlers end with, once they have their `end_slot`. -/
def blocksUpTo (startSlot endSlot : Nat) : Except RpcError (List Nat) :=
  if endSlot - startSlot > maxGetConfirmedBlocksRange then
    .error (.invalidParams ("Slot range too large; max " ++ toString maxGetConfirmedBlocksRange))
  else .ok (slotRange startSlot endSlot)

def getBlocks (bankSlot startSlot : Nat) (endSlot : Option Nat) : Except RpcError (List Nat) :=
  blocksUpTo startSlot (min (bankSlot - 1) (endSlot.getD slotMax))

def getBlocksWithLimit (bankSlot startSlot limit : Nat) : Except RpcError (List Nat) :=
  -- `u64::try_from(limit).unwrap_or(u64::MAX)`
  let limit := min limit slotMax
  blocksUpTo startSlot (min (bankSlot - 1) (min (startSlot + limit) slotMax - 1))

/-! ## The answers -/

@[simp] theorem mem_slotRange {startSlot endSlot slot : Nat} :
    slot ∈ slotRange startSlot endSlot ↔ startSlot ≤ slot ∧ slot ≤ endSlot := by
  rw [slotRange, List.mem_range'_1]
  omega

@[simp] theorem length_slotRange (startSlot endSlot : Nat) :
    (slotRange startSlot endSlot).length = endSlot + 1 - startSlot := List.length_range' ..

theorem blocksUpTo_eq_ok {startSlot endSlot : Nat} {slots : List Nat} :
    blocksUpTo startSlot endSlot = .ok slots ↔
      endSlot - startSlot ≤ maxGetConfirmedBlocksRange ∧ slots = slotRange startSlot endSlot := by
  unfold blocksUpTo
  split
  · next wide =>
    simp only [reduceCtorEq, false_iff, not_and]
    intro narrow
    omega
  · next narrow =>
    simp only [Except.ok.injEq]
    constructor
    · intro answered
      exact ⟨Nat.le_of_not_lt narrow, answered.symm⟩
    · rintro ⟨-, rfl⟩
      rfl

/-- With a positive limit and a bank past slot 0, the answer is at most `limit` slots from
`start_slot` on, all before the bank's slot. -/
theorem getBlocksWithLimit_bounded {bankSlot startSlot limit : Nat} {slots : List Nat} (positive : 0 < limit)
    (started : 0 < bankSlot) (answered : getBlocksWithLimit bankSlot startSlot limit = .ok slots) :
    slots.length ≤ limit ∧ ∀ slot ∈ slots, startSlot ≤ slot ∧ slot < bankSlot := by
  obtain ⟨-, rfl⟩ := blocksUpTo_eq_ok.mp answered
  constructor
  · rw [length_slotRange]
    omega
  · intro slot member
    rw [mem_slotRange] at member
    omega

/-- A limit of 4 from slot 3, with the bank at slot 10: slots 3 to 6. -/
theorem getBlocksWithLimit_bounded_from_three :
    getBlocksWithLimit 10 3 4 = .ok [3, 4, 5, 6] ∧ [3, 4, 5, 6].length ≤ 4 ∧
      ∀ slot ∈ [3, 4, 5, 6], 3 ≤ slot ∧ slot < 10 :=
  ⟨rfl, getBlocksWithLimit_bounded (by decide) (by decide) rfl⟩

/-- Starting at slot 0, the inclusive end `saturating_sub(1)` still reaches slot 0: a limit
of 0 returns one slot, and a bank at slot 0 returns its own slot, which has no block. -/
theorem get_blocks_returns_slot_zero (bankSlot : Nat) :
    getBlocksWithLimit bankSlot 0 0 = .ok [0] ∧ ∀ endSlot, getBlocks 0 0 endSlot = .ok [0] := by
  constructor
  · have ending : min (bankSlot - 1) (min (0 + min 0 slotMax) slotMax - 1) = 0 := by
      simp
    rw [getBlocksWithLimit, ending]
    rfl
  · intro endSlot
    rw [getBlocks, Nat.zero_sub, Nat.zero_min]
    rfl

end EphemeralValidator.Rpc
