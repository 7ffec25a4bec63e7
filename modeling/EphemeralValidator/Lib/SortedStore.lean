import Mathlib.Data.List.Sort

/-! # Keyed stores read in key order

An ordered key-value store (one column family of an LSM store, say) as the list of its
entries, at most one per key: `put` replaces the entry of its key and `get` reads it.  Keys
compare by `cmp`, a total order (`Std.TransCmp`) in which only equal keys compare equal
(`Std.LawfulEqCmp`), and `iterReverse` is an iterator run backwards from a seek key: the
entries whose keys are not above the seek key, greatest first.

What a scan over such an iterator needs: which entries it visits (`mem_iterReverse`), that
it visits them in strictly decreasing key order (`descending_iterReverse`), that a scan
which stops at the first entry outside a set of keys the order keeps on top visits exactly
the entries in that set (`takeWhile_eq_filter_of_pairwise`), and that two strictly
decreasing lists of the same entries are one list (`Descending.eq_of_mem_iff`).  Keeping
some entries of a list under their own keys keeps the keys distinct (`nodup_map_filterMap`).
-/

namespace EphemeralValidator.Lib.SortedStore

variable {κ ν : Type}

/-! ## Writing and reading one key -/

section Keyed

variable [DecidableEq κ]

def put (store : List (κ × ν)) (key : κ) (value : ν) : List (κ × ν) :=
  (store.filter fun entry => entry.1 ≠ key) ++ [(key, value)]

def get (store : List (κ × ν)) (key : κ) : Option ν :=
  (store.find? fun entry => entry.1 = key).map Prod.snd

theorem mem_put {store : List (κ × ν)} {key : κ} {value : ν} {entry : κ × ν} :
    entry ∈ put store key value ↔ (entry ∈ store ∧ entry.1 ≠ key) ∨ entry = (key, value) := by
  simp [put]

theorem mem_put_of_ne {store : List (κ × ν)} {key : κ} {value : ν} {entry : κ × ν} (member : entry ∈ store)
    (differ : entry.1 ≠ key) : entry ∈ put store key value :=
  mem_put.mpr (.inl ⟨member, differ⟩)

theorem mem_put_self (store : List (κ × ν)) (key : κ) (value : ν) : (key, value) ∈ put store key value :=
  mem_put.mpr (.inr rfl)

theorem nodup_keys_put {store : List (κ × ν)} (distinct : (store.map Prod.fst).Nodup) (key : κ)
    (value : ν) : ((put store key value).map Prod.fst).Nodup := by
  rw [put, List.map_append, List.nodup_append]
  refine ⟨distinct.sublist ((List.filter_sublist).map Prod.fst), by simp, ?_⟩
  -- the key put is not among those of the entries kept
  simp

/-- In a store with one entry per key, the entry of a key is what `get` reads. -/
theorem get_eq_some_of_mem {store : List (κ × ν)} (distinct : (store.map Prod.fst).Nodup) {key : κ}
    {value : ν} (member : (key, value) ∈ store) : get store key = some value := by
  obtain ⟨found, foundEq⟩ : ∃ found, store.find? (fun entry => entry.1 = key) = some found :=
    Option.isSome_iff_exists.mp (List.find?_isSome.mpr ⟨_, member, by simp⟩)
  have sameKey : found.1 = key := by simpa using List.find?_some foundEq
  have same : found = (key, value) :=
    List.inj_on_of_nodup_map distinct (List.mem_of_find?_eq_some foundEq) member sameKey
  rw [get, foundEq, same]
  rfl

end Keyed

/-- Keeping some entries of a list, each under its own key, keeps the keys distinct. -/
theorem nodup_map_filterMap {α β γ : Type} {f : α → Option β} {key : α → γ} {key' : β → γ}
    (keyed : ∀ a b, f a = some b → key' b = key a) {l : List α} (distinct : (l.map key).Nodup) :
    ((l.filterMap f).map key').Nodup := by
  induction l with
  | nil => exact List.nodup_nil
  | cons a l ih =>
    rw [List.map_cons, List.nodup_cons] at distinct
    cases kept : f a with
    | none =>
      rw [List.filterMap_cons_none kept]
      exact ih distinct.2
    | some b =>
      rw [List.filterMap_cons_some kept, List.map_cons, List.nodup_cons]
      refine ⟨fun mem => distinct.1 ?_, ih distinct.2⟩
      -- an entry kept later with the same key would come from an element with `a`'s key
      obtain ⟨b', keptLater, same⟩ := List.mem_map.mp mem
      obtain ⟨a', member, found⟩ := List.mem_filterMap.mp keptLater
      rw [keyed a b kept, keyed a' b' found] at same
      exact List.mem_map.mpr ⟨a', member, same⟩

/-! ## Iterating backwards from a seek key -/

section Order

variable (cmp : κ → κ → Ordering)

/-- The entries whose keys are not above `seek`, greatest key first. -/
def iterReverse (store : List (κ × ν)) (seek : κ) : List (κ × ν) :=
  (store.filter fun entry => (cmp entry.1 seek).isLE).mergeSort fun a b => (cmp a.1 b.1).isGE

/-- Entries in strictly decreasing key order. -/
def Descending (entries : List (κ × ν)) : Prop :=
  entries.Pairwise fun a b => cmp a.1 b.1 = .gt

variable {cmp}

@[simp] theorem mem_iterReverse {store : List (κ × ν)} {seek : κ} {entry : κ × ν} :
    entry ∈ iterReverse cmp store seek ↔ entry ∈ store ∧ (cmp entry.1 seek).isLE := by
  simp [iterReverse]

variable [Std.TransCmp cmp]

theorem descending_iterReverse [Std.LawfulEqCmp cmp] {store : List (κ × ν)}
    (distinct : (store.map Prod.fst).Nodup) (seek : κ) : Descending cmp (iterReverse cmp store seek) := by
  have sorted : (iterReverse cmp store seek).Pairwise fun a b => (cmp a.1 b.1).isGE :=
    List.pairwise_mergeSort (fun _ _ _ => Std.TransCmp.isGE_trans)
      (fun a b => by
        cases ordered : cmp a.1 b.1 with
        | lt => simp [Std.OrientedCmp.gt_of_lt ordered]
        | eq => simp
        | gt => simp) _
  have keysDistinct : (iterReverse cmp store seek).Pairwise fun a b => a.1 ≠ b.1 := by
    apply List.pairwise_map.mp
    apply ((List.mergeSort_perm _ _).map Prod.fst).nodup_iff.mpr
    exact distinct.sublist ((List.filter_sublist).map Prod.fst)
  apply (sorted.and keysDistinct).imp
  intro a b ⟨notBelow, differ⟩
  -- a key not below another, and not equal to it, is above it
  cases ordered : cmp a.1 b.1 with
  | lt => simp [ordered] at notBelow
  | eq => exact absurd (Std.LawfulEqCmp.eq_of_compare ordered) differ
  | gt => rfl

/-- Two strictly decreasing lists of the same entries are one list. -/
theorem Descending.eq_of_mem_iff {first second : List (κ × ν)} (firstDescending : Descending cmp first)
    (secondDescending : Descending cmp second) (same : ∀ entry, entry ∈ first ↔ entry ∈ second) :
    first = second := by
  have nodup : ∀ entries : List (κ × ν), Descending cmp entries → entries.Nodup := fun entries descending =>
    descending.imp fun above equal => by simp [equal, Std.ReflCmp.compare_self] at above
  apply List.Perm.eq_of_pairwise _ firstDescending secondDescending
  · exact (List.perm_ext_iff_of_nodup (nodup _ firstDescending) (nodup _ secondDescending)).mpr same
  · intro a b _ _ above below
    rw [Std.OrientedCmp.gt_iff_lt] at above
    simp [above] at below

end Order

/-- A scan that stops at the first element outside `p` sees all of `p`, when the order of
the list puts every element of `p` before every other. -/
theorem takeWhile_eq_filter_of_pairwise {α : Type} {p : α → Bool} {elements : List α}
    (top : elements.Pairwise fun a b => p b → p a) : elements.takeWhile p = elements.filter p := by
  induction elements with
  | nil => rfl
  | cons element rest ih =>
    have ⟨above, restTop⟩ := List.pairwise_cons.mp top
    cases kept : p element with
    | true => simp [kept, ih restTop]
    | false =>
      -- nothing after an element outside `p` is in `p`
      have none : rest.filter p = [] :=
        List.filter_eq_nil_iff.mpr fun other member inside => by simpa [kept] using above other member inside
      simp [kept, none]

end EphemeralValidator.Lib.SortedStore
