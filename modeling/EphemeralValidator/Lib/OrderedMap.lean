import EphemeralValidator.Lib.SortedStore

/-! # Maps kept in key order

A `BTreeMap` keeps its entries in increasing key order, and code that walks it from the
least key (`keys().next()`, then `remove`) relies on that order.  `OrderedMap` is such a map
as the list of its entries, with the order a field of the structure, so that every map that
can be built is ordered.  Keys compare by `cmp`, a total order (`Std.TransCmp`) in which
only equal keys compare equal (`Std.LawfulEqCmp`).

`insert` puts an entry in its place, or replaces the entry of its key; `modify` changes the
value of a key that is there; `below` lists the entries under a bound, least first, as a walk
from the least key that stops at the bound visits them, and `dropBelow` is what that walk
leaves.  What proofs about such code need: where each entry of a map comes from
(`mem_insert`, `mem_modify`), what a lookup reads back (`mem_of_get?_eq_some`), and which entries the walk visits (`mem_below`).
-/

namespace EphemeralValidator.Lib

/-- Entries in strictly increasing key order. -/
def Increasing {κ ν : Type} (cmp : κ → κ → Ordering) (entries : List (κ × ν)) : Prop :=
  entries.Pairwise fun a b => cmp a.1 b.1 = .lt

/-- An ordered map: its entries, least key first, and that order. -/
structure OrderedMap (κ ν : Type) (cmp : κ → κ → Ordering) where
  entries : List (κ × ν)
  increasing : Increasing cmp entries

namespace OrderedMap

variable {κ ν : Type} {cmp : κ → κ → Ordering}

/-- The entry list with `(key, value)` in its place: before the first greater key, or over
the entry of `key`. -/
def insertEntry (cmp : κ → κ → Ordering) (key : κ) (value : ν) : List (κ × ν) → List (κ × ν)
  | [] => [(key, value)]
  | entry :: rest =>
    match cmp key entry.1 with
    | .lt => (key, value) :: entry :: rest
    | .eq => (key, value) :: rest
    | .gt => entry :: insertEntry cmp key value rest

theorem mem_insertEntry {key : κ} {value : ν} {entries : List (κ × ν)} {entry : κ × ν}
    (member : entry ∈ insertEntry cmp key value entries) : entry = (key, value) ∨ entry ∈ entries := by
  induction entries with
  | nil => exact .inl (List.mem_singleton.mp member)
  | cons first rest ih =>
    unfold insertEntry at member
    split at member
    · simpa using member
    · rcases List.mem_cons.mp member with same | later
      · exact .inl same
      · exact .inr (List.mem_cons_of_mem _ later)
    · rcases List.mem_cons.mp member with same | later
      · exact .inr (same ▸ List.mem_cons_self)
      · exact (ih later).imp_right (List.mem_cons_of_mem _)

theorem increasing_insertEntry [Std.TransCmp cmp] [Std.LawfulEqCmp cmp] (key : κ) (value : ν)
    {entries : List (κ × ν)} (increasing : Increasing cmp entries) :
    Increasing cmp (insertEntry cmp key value entries) := by
  induction entries with
  | nil => exact List.pairwise_singleton _ _
  | cons first rest ih =>
    obtain ⟨firstBelow, restIncreasing⟩ := List.pairwise_cons.mp increasing
    unfold insertEntry
    split
    case h_1 ordered =>
      -- the new key goes first: it is below `first`, hence below all of `rest`
      refine List.pairwise_cons.mpr ⟨fun entry member => ?_, increasing⟩
      rcases List.mem_cons.mp member with rfl | later
      · exact ordered
      · exact Std.TransCmp.lt_trans ordered (firstBelow entry later)
    case h_2 ordered =>
      -- the new entry replaces `first`, whose key it has
      have same : key = first.1 := Std.LawfulEqCmp.eq_of_compare ordered
      exact List.pairwise_cons.mpr ⟨fun entry later => same ▸ firstBelow entry later, restIncreasing⟩
    case h_3 ordered =>
      refine List.pairwise_cons.mpr ⟨fun entry member => ?_, ih restIncreasing⟩
      rcases mem_insertEntry member with rfl | later
      · exact Std.OrientedCmp.gt_iff_lt.mp ordered
      · exact firstBelow entry later

/-- The map with no entry. -/
def empty : OrderedMap κ ν cmp := ⟨[], List.Pairwise.nil⟩

/-- The value of `key`, if the map has one. -/
def get? (m : OrderedMap κ ν cmp) (key : κ) : Option ν :=
  (m.entries.find? fun entry => cmp entry.1 key == .eq).map Prod.snd

/-- The value of `key`, or `default` (`entry(key).or_default()` reads this). -/
def getD (m : OrderedMap κ ν cmp) (key : κ) (default : ν) : ν :=
  (m.get? key).getD default

/-- The map with `key` set to `value`. -/
def insert [Std.TransCmp cmp] [Std.LawfulEqCmp cmp] (m : OrderedMap κ ν cmp) (key : κ) (value : ν) :
    OrderedMap κ ν cmp :=
  ⟨insertEntry cmp key value m.entries, increasing_insertEntry key value m.increasing⟩

/-- The map with the value of `key` changed by `f`, if `key` has one (`get_mut`). -/
def modify [Std.TransCmp cmp] [Std.LawfulEqCmp cmp] (m : OrderedMap κ ν cmp) (key : κ) (f : ν → ν) :
    OrderedMap κ ν cmp :=
  match m.get? key with
  | some value => m.insert key (f value)
  | none => m

/-- The entries whose keys are below `bound`, least first. -/
def below (m : OrderedMap κ ν cmp) (bound : κ) : List (κ × ν) :=
  m.entries.takeWhile fun entry => cmp entry.1 bound == .lt

/-- The map without the entries below `bound`. -/
def dropBelow (m : OrderedMap κ ν cmp) (bound : κ) : OrderedMap κ ν cmp :=
  ⟨m.entries.dropWhile fun entry => cmp entry.1 bound == .lt, m.increasing.sublist (List.dropWhile_sublist _)⟩

@[simp] theorem get?_empty (key : κ) : (empty : OrderedMap κ ν cmp).get? key = none := rfl

theorem mem_of_get?_eq_some {m : OrderedMap κ ν cmp} {key : κ} {value : ν} (found : m.get? key = some value) :
    ∃ key', (key', value) ∈ m.entries := by
  obtain ⟨entry, entryFound, rfl⟩ := Option.map_eq_some_iff.mp found
  exact ⟨entry.1, List.mem_of_find?_eq_some entryFound⟩

theorem mem_dropBelow {m : OrderedMap κ ν cmp} {bound : κ} {entry : κ × ν}
    (member : entry ∈ (m.dropBelow bound).entries) : entry ∈ m.entries :=
  (List.dropWhile_sublist _).subset member

variable [Std.TransCmp cmp]

/-- The walk from the least key visits exactly the entries below the bound. -/
theorem mem_below {m : OrderedMap κ ν cmp} {bound : κ} {entry : κ × ν} :
    entry ∈ m.below bound ↔ entry ∈ m.entries ∧ cmp entry.1 bound = .lt := by
  have walk : m.below bound = m.entries.filter fun entry => cmp entry.1 bound == .lt := by
    apply SortedStore.takeWhile_eq_filter_of_pairwise
    -- an entry below the bound has every entry before it below the bound too
    refine m.increasing.imp fun {a b} ordered later => ?_
    simp only [beq_iff_eq] at later ⊢
    exact Std.TransCmp.lt_trans ordered later
  simp [walk]

variable [Std.LawfulEqCmp cmp]

theorem mem_insert {m : OrderedMap κ ν cmp} {key : κ} {value : ν} {entry : κ × ν}
    (member : entry ∈ (m.insert key value).entries) : entry = (key, value) ∨ entry ∈ m.entries :=
  mem_insertEntry member

theorem mem_modify {m : OrderedMap κ ν cmp} {key : κ} {f : ν → ν} {entry : κ × ν}
    (member : entry ∈ (m.modify key f).entries) :
    entry ∈ m.entries ∨ ∃ value, m.get? key = some value ∧ entry = (key, f value) := by
  unfold modify at member
  split at member
  case h_1 value found =>
    rcases mem_insert member with rfl | kept
    · exact .inr ⟨value, found, rfl⟩
    · exact .inl kept
  case h_2 => exact .inl member

end OrderedMap

end EphemeralValidator.Lib
