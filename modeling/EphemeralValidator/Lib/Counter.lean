import Mathlib

/-!
# Ids drawn from a wrapping counter

A `u64` counter that hands out its value and then moves on (`fetch_add(1)`) gives
`start, start + 1, …` in turn, and these are distinct only until it wraps: the first `n`
draws are distinct exactly while `n ≤ 2 ^ 64`.
-/

namespace EphemeralValidator.Lib

/-- The ids a counter started at `start` hands out in its first `n` draws. -/
def drawnIds (start : UInt64) (n : Nat) : List UInt64 :=
  (List.range n).map fun i => start + UInt64.ofNat i

variable {start : UInt64} {n : Nat}

@[simp] theorem drawnIds_zero : drawnIds start 0 = [] := rfl

theorem drawnIds_succ : drawnIds start (n + 1) = drawnIds start n ++ [start + UInt64.ofNat n] := by
  rw [drawnIds, List.range_succ, List.map_append]
  rfl

/-- Draw `i` is `i` steps past the start, as long as the counter has not wrapped. -/
theorem toNat_drawn_sub {i : Nat} (room : i < 2 ^ 64) : (start + UInt64.ofNat i - start).toNat = i := by
  rw [UInt64.add_comm, UInt64.add_sub_cancel]
  exact UInt64.toNat_ofNat_of_lt' room

/-- Until the counter wraps, no id is handed out twice. -/
theorem nodup_drawnIds (room : n ≤ 2 ^ 64) : (drawnIds start n).Nodup := by
  apply List.Nodup.map_on _ List.nodup_range
  intro i hi j hj same
  have hi : i < 2 ^ 64 := Nat.lt_of_lt_of_le (List.mem_range.mp hi) room
  have hj : j < 2 ^ 64 := Nat.lt_of_lt_of_le (List.mem_range.mp hj) room
  -- both draws are their own distance from the start
  have distance := congrArg (fun id => (id - start).toNat) same
  simp only [toNat_drawn_sub hi, toNat_drawn_sub hj] at distance
  exact distance

/-- The next id has not been handed out yet. -/
theorem next_notMem_drawnIds (room : n < 2 ^ 64) : start + UInt64.ofNat n ∉ drawnIds start n := by
  have fresh := @nodup_drawnIds start (n + 1) (Nat.succ_le_of_lt room)
  rw [drawnIds_succ, List.nodup_append] at fresh
  exact fun mem => fresh.2.2 _ mem _ (List.mem_singleton_self _) rfl

end EphemeralValidator.Lib
