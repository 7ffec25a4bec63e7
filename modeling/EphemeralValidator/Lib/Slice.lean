import Mathlib.Data.List.Basic

/-! # Sorting and searching a slice

`slice::sort` is a stable sort by `Ord`, and a stable sort of a list is determined by the
order alone: it is core's `List.mergeSort` on `compare a b ≠ .gt` (`sort`).  The result is
sorted (`sorted_sort`) and holds the same elements (`mem_sort`).

`slice::binary_search_by` looks for an element in a sorted slice by halving the window
`[left, right)`; `binarySearchByLoop` is its loop, one call per iteration, with the bound
`right ≤ len` carried as an argument so that every read is in range.  A search returns
`Ok(mid)` only at an element it compares equal to (`binarySearchByLoop_eq_ok`), and on a
sorted slice it returns `Err` only when no element does (`binarySearchByLoop_eq_error`): so
`binary_search(x).is_ok()` on a sorted slice is `x ∈ slice` (`isOk_binarySearch_iff`).
Which index an `Ok` names among equal elements, and where an `Err` would insert, are not
read by the callers of this development and are not stated.
-/

namespace EphemeralValidator.Lib.Slice

open Std

variable {α : Type} [Ord α]

/-- Sorted by `Ord`: no element compares greater than one after it. -/
def Sorted (xs : List α) : Prop := xs.Pairwise fun a b => (compare a b).isLE

/-- `slice::sort`. -/
def sort (xs : List α) : List α := xs.mergeSort fun a b => (compare a b).isLE

/-- The loop of `slice::binary_search_by` on the window `[left, right)`: `f` compares an
element with the one searched for. -/
def binarySearchByLoop (xs : List α) (f : α → Ordering) (left right : Nat) (bound : right ≤ xs.length) :
    Except Nat Nat :=
  if lt : left < right then
    let mid := left + (right - left) / 2
    have inside : mid < xs.length := by omega
    match f xs[mid] with
    | .lt => binarySearchByLoop xs f (mid + 1) right bound
    | .gt => binarySearchByLoop xs f left mid (by omega)
    | .eq => .ok mid
  else .error left
termination_by right - left

/-- `slice::binary_search_by`: `Ok` with an index found, `Err` with where to insert. -/
def binarySearchBy (xs : List α) (f : α → Ordering) : Except Nat Nat :=
  binarySearchByLoop xs f 0 xs.length (Nat.le_refl _)

/-- `slice::binary_search`: `binary_search_by(|p| p.cmp(x))`. -/
def binarySearch (xs : List α) (x : α) : Except Nat Nat :=
  binarySearchBy xs fun y => compare y x

/-! ## Sorting -/

@[simp] theorem mem_sort {xs : List α} {x : α} : x ∈ sort xs ↔ x ∈ xs := List.mem_mergeSort

@[simp] theorem length_sort (xs : List α) : (sort xs).length = xs.length := List.length_mergeSort xs

@[simp] theorem sort_eq_nil_iff {xs : List α} : sort xs = [] ↔ xs = [] := by
  rw [← List.length_eq_zero_iff, length_sort, List.length_eq_zero_iff]

theorem sorted_sort [TransOrd α] (xs : List α) : Sorted (sort xs) := by
  apply List.pairwise_mergeSort
  · intro a b c ab bc
    exact TransCmp.isLE_trans ab bc
  · intro a b
    -- one of the two comparisons is not `.gt`
    cases order : compare a b with
    | lt => simp
    | eq => simp
    | gt =>
      have swapped : compare b a = .lt := OrientedCmp.lt_of_gt order
      simp [swapped]

/-! ## Searching -/

omit [Ord α] in
/-- A search answers `Ok` only at an element that `f` finds equal; this needs no order. -/
theorem binarySearchByLoop_eq_ok {xs : List α} {f : α → Ordering} {left right : Nat}
    {bound : right ≤ xs.length} {i : Nat} (found : binarySearchByLoop xs f left right bound = .ok i) :
    ∃ inside : i < xs.length, f xs[i] = .eq := by
  fun_induction binarySearchByLoop xs f left right bound with
  | case1 left right bound lt mid inside less ih => exact ih found
  | case2 left right bound lt mid inside greater ih => exact ih found
  | case3 left right bound lt mid inside equal =>
    rw [Except.ok.injEq] at found
    subst found
    exact ⟨inside, equal⟩
  | case4 left right bound ge => cases found

/-- The window of a search for `x`: every element left of it is smaller than `x`, every
element from its right end on is greater. -/
def Window (xs : List α) (x : α) (left right : Nat) : Prop :=
  (∀ (i : Nat) (inside : i < xs.length), i < left → compare xs[i] x = .lt) ∧
    ∀ (i : Nat) (inside : i < xs.length), right ≤ i → compare xs[i] x = .gt

section Sorted

variable [TransOrd α] {xs : List α} (sorted : Sorted xs)
include sorted

theorem Sorted.isLE {i j : Nat} (le : i ≤ j) (inside : j < xs.length) :
    (compare xs[i] xs[j]).isLE := by
  rcases Nat.lt_or_eq_of_le le with before | rfl
  · exact List.pairwise_iff_getElem.mp sorted i j _ inside before
  · exact ReflCmp.isLE_rfl

/-- On a sorted slice, a search that answers `Err` has found every element different
from `x`: the window it closes on is kept by every halving. -/
theorem binarySearchByLoop_eq_error {x : α} {left right : Nat} {bound : right ≤ xs.length} {r : Nat}
    (window : Window xs x left right) (missed : binarySearchByLoop xs (compare · x) left right bound = .error r) :
    ∀ (i : Nat) (inside : i < xs.length), compare xs[i] x ≠ .eq := by
  fun_induction binarySearchByLoop xs (compare · x) left right bound with
  | case1 left right bound lt mid inside less ih =>
    -- everything up to `mid` is below `x`
    refine ih ⟨fun i inside' before => ?_, window.2⟩ missed
    exact TransCmp.lt_of_isLE_of_lt (sorted.isLE (Nat.le_of_lt_succ before) inside) less
  | case2 left right bound lt mid inside greater ih =>
    -- everything from `mid` on is above `x`
    refine ih ⟨window.1, fun i inside' after => ?_⟩ missed
    exact TransCmp.gt_of_isGE_of_gt (OrientedCmp.isGE_of_isLE (sorted.isLE after inside')) greater
  | case3 left right bound lt mid inside equal => cases missed
  | case4 left right bound ge =>
    intro i inside
    by_cases before : i < left
    · rw [window.1 i inside before]
      nofun
    · rw [window.2 i inside (by omega)]
      nofun

variable [LawfulEqOrd α]

/-- On a sorted slice, `binary_search(x)` is `Ok` exactly when `x` is in the slice. -/
theorem isOk_binarySearch_iff {x : α} : (binarySearch xs x).isOk ↔ x ∈ xs := by
  cases searched : binarySearch xs x with
  | ok i =>
    obtain ⟨inside, equal⟩ := binarySearchByLoop_eq_ok searched
    simp only [Except.isOk, Except.toBool, true_iff]
    rw [← LawfulEqOrd.eq_of_compare equal]
    exact List.getElem_mem inside
  | error r =>
    simp only [Except.isOk, Except.toBool, Bool.false_eq_true, false_iff]
    intro mem
    -- the first window is the whole slice, which has nothing outside it
    have window : Window xs x 0 xs.length :=
      ⟨fun i _ before => absurd before (Nat.not_lt_zero i), fun i inside after => absurd inside (by omega)⟩
    obtain ⟨i, inside, rfl⟩ := List.getElem_of_mem mem
    exact binarySearchByLoop_eq_error sorted window searched i inside ReflCmp.compare_self

end Sorted

end EphemeralValidator.Lib.Slice
