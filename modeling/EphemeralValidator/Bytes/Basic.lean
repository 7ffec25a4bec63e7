import Mathlib

/-! # Fixed-width integer encodings and the order of byte strings

The byte-level vocabulary every other module is written in.

* `leBytes w n` / `beBytes w n` are the `w` little- and big-endian bytes of `n`
  (`to_le_bytes` / `to_be_bytes` of a `w`-byte unsigned integer), with their
  decoders `ofLeBytes` / `ofBeBytes` and the round-trip laws.
* `slice` and `writeSlice` are the range read `&buf[a..b]` and the range write
  `buf[a..b].copy_from_slice(src)` on a byte buffer.
* `compare_append_of_length_eq` and `compare_beBytes` describe the byte-wise
  (memcmp) order of byte strings: fixed-width fields compare field by field, and a
  big-endian field compares as the number it encodes.
-/

namespace EphemeralValidator.Bytes

/-! ## Little- and big-endian encodings -/

/-- The `w` little-endian bytes of `n`; bits above `8 * w` are dropped. -/
def leBytes : Nat → Nat → List UInt8
  | 0, _ => []
  | w + 1, n => UInt8.ofNat (n % 256) :: leBytes w (n / 256)

/-- The number whose little-endian bytes are `bs`. -/
def ofLeBytes : List UInt8 → Nat
  | [] => 0
  | b :: bs => b.toNat + 256 * ofLeBytes bs

/-- The `w` big-endian bytes of `n`, most significant first. -/
def beBytes (w n : Nat) : List UInt8 := (leBytes w n).reverse

/-- The number whose big-endian bytes are `bs`. -/
def ofBeBytes (bs : List UInt8) : Nat := ofLeBytes bs.reverse

@[simp] theorem leBytes_zero (n : Nat) : leBytes 0 n = [] := rfl

@[simp] theorem leBytes_succ (w n : Nat) :
    leBytes (w + 1) n = UInt8.ofNat (n % 256) :: leBytes w (n / 256) := rfl

@[simp] theorem ofLeBytes_nil : ofLeBytes [] = 0 := rfl

@[simp] theorem ofLeBytes_cons (b : UInt8) (bs : List UInt8) :
    ofLeBytes (b :: bs) = b.toNat + 256 * ofLeBytes bs := rfl

@[simp] theorem length_leBytes (w n : Nat) : (leBytes w n).length = w := by
  induction w generalizing n with
  | zero => rfl
  | succ w ih => simp [ih]

@[simp] theorem length_beBytes (w n : Nat) : (beBytes w n).length = w := by
  simp [beBytes]

theorem ofLeBytes_leBytes (w n : Nat) : ofLeBytes (leBytes w n) = n % 256 ^ w := by
  induction w generalizing n with
  | zero => rw [leBytes_zero, ofLeBytes_nil, pow_zero, Nat.mod_one]
  | succ w ih =>
    have byte : (UInt8.ofNat (n % 256)).toNat = n % 256 := by
      rw [UInt8.toNat_ofNat']
      omega
    rw [leBytes_succ, ofLeBytes_cons, ih, byte, pow_succ', Nat.mod_mul]

theorem ofBeBytes_beBytes (w n : Nat) : ofBeBytes (beBytes w n) = n % 256 ^ w := by
  simp [ofBeBytes, beBytes, ofLeBytes_leBytes]

/-- A little-endian encoding is all zero bytes exactly when the encoded number is. -/
theorem ofLeBytes_eq_zero_iff (bs : List UInt8) : ofLeBytes bs = 0 ↔ ∀ b ∈ bs, b = 0 := by
  induction bs with
  | nil => simp
  | cons b bs ih =>
    have hb : b = 0 ↔ b.toNat = 0 := by
      constructor
      · rintro rfl
        rfl
      · intro h
        exact UInt8.toNat_inj.mp h
    simp only [ofLeBytes_cons, List.mem_cons, forall_eq_or_imp, ← ih, hb]
    omega

theorem leBytes_all_zero_iff (w n : Nat) :
    (∀ b ∈ leBytes w n, b = 0) ↔ n % 256 ^ w = 0 := by
  rw [← ofLeBytes_eq_zero_iff, ofLeBytes_leBytes]

/-! ## Fixed-length byte arrays -/

/-- A byte array of exactly `n` bytes (`[u8; n]`); the length is part of the value. -/
structure FixedBytes (n : Nat) where
  bytes : List UInt8
  length_eq : bytes.length = n
  deriving DecidableEq

/-- `<[u8; n]>::try_from(&[u8])`: succeeds exactly on slices of length `n`. -/
def FixedBytes.tryFrom (n : Nat) (bs : List UInt8) : Option (FixedBytes n) :=
  if h : bs.length = n then some ⟨bs, h⟩ else none

/-- The all-zero array (`Default::default()`). -/
def FixedBytes.zero (n : Nat) : FixedBytes n := ⟨List.replicate n 0, List.length_replicate⟩

/-- The array with every byte equal to `b` (`[b; n]`). -/
def FixedBytes.replicate (n : Nat) (b : UInt8) : FixedBytes n := ⟨List.replicate n b, List.length_replicate⟩

theorem FixedBytes.ext_bytes {n : Nat} {a b : FixedBytes n} (h : a.bytes = b.bytes) : a = b := by
  cases a
  cases b
  simp_all

/-- `[u8; n]` compares byte by byte, as Rust's derived `Ord` of an array does. -/
instance FixedBytes.instOrd {n : Nat} : Ord (FixedBytes n) := ⟨compareOn FixedBytes.bytes⟩

instance FixedBytes.instTransOrd {n : Nat} : Std.TransOrd (FixedBytes n) :=
  inferInstanceAs (Std.TransCmp (compareOn FixedBytes.bytes))

instance FixedBytes.instLawfulEqOrd {n : Nat} : Std.LawfulEqOrd (FixedBytes n) where
  compare_self {a} := (Std.ReflOrd.compare_self : compare a.bytes a.bytes = .eq)
  eq_of_compare equal := FixedBytes.ext_bytes (Std.LawfulEqOrd.eq_of_compare equal)

@[simp] theorem FixedBytes.tryFrom_bytes {n : Nat} (a : FixedBytes n) :
    FixedBytes.tryFrom n a.bytes = some a := by
  simp [FixedBytes.tryFrom, a.length_eq]

/-! ## Ranges of a buffer -/

/-- The bytes `buf[a..b]` (the caller checks `a ≤ b ≤ buf.len()`). -/
def slice (buf : List UInt8) (a b : Nat) : List UInt8 := (buf.drop a).take (b - a)

/-- `buf[a..a + src.len()].copy_from_slice(src)`: overwrite a range of the buffer. -/
def writeSlice (buf : List UInt8) (a : Nat) (src : List UInt8) : List UInt8 :=
  buf.take a ++ src ++ buf.drop (a + src.length)

theorem slice_append (pre mid post : List UInt8) :
    slice (pre ++ mid ++ post) pre.length (pre.length + mid.length) = mid := by
  simp [slice]

/-! ## Exact chunks -/

/-- `xs.chunks_exact(n)`: the consecutive chunks of exactly `n` elements, and the
remainder shorter than `n` (a zero chunk size yields no chunks). -/
def chunksExact {α : Type} (n : Nat) (xs : List α) : List (List α) × List α :=
  if 0 < n ∧ n ≤ xs.length then
    let rest := chunksExact n (xs.drop n)
    (xs.take n :: rest.1, rest.2)
  else ([], xs)
termination_by xs.length
decreasing_by
  simp only [List.length_drop]
  omega

/-- The chunks and the remainder put back together are the input, every chunk has
`n` elements, and (for `0 < n`) the remainder has fewer. -/
theorem chunksExact_spec {α : Type} (n : Nat) (xs : List α) :
    (chunksExact n xs).1.flatten ++ (chunksExact n xs).2 = xs ∧
      (∀ c ∈ (chunksExact n xs).1, c.length = n) ∧
      (0 < n → (chunksExact n xs).2.length < n) := by
  induction xs using chunksExact.induct n with
  | case1 xs h ih =>
    rw [chunksExact, if_pos h]
    obtain ⟨ihJoin, ihLength, ihRemainder⟩ := ih
    refine ⟨?_, ?_, ihRemainder⟩
    · simp only [List.flatten_cons, List.append_assoc, ihJoin, List.take_append_drop]
    · intro c hc
      simp only [List.mem_cons] at hc
      rcases hc with rfl | hc
      · simp [Nat.min_eq_left h.2]
      · exact ihLength c hc
  | case2 xs h =>
    rw [chunksExact, if_neg h]
    refine ⟨by simp, by simp, ?_⟩
    -- no full chunk fits, so the whole input is the remainder
    intro hn
    simp only
    omega

/-! ## Byte-wise order -/

/-- Strings of equal-length heads compare head first, then tail. -/
theorem compare_append_of_length_eq {a b : List UInt8} (c d : List UInt8)
    (h : a.length = b.length) :
    compare (a ++ c) (b ++ d) = (compare a b).then (compare c d) := by
  induction a generalizing b with
  | nil =>
    cases b with
    | nil => simp
    | cons _ _ => simp at h
  | cons x a ih =>
    cases b with
    | nil => simp at h
    | cons y b =>
      simp only [List.cons_append, List.compare_cons_cons]
      rw [ih (by simpa using h), Ordering.then_assoc]

theorem compare_ofNat_byte {a b : Nat} (ha : a < 256) (hb : b < 256) :
    compare (UInt8.ofNat a) (UInt8.ofNat b) = compare a b := by
  have ta : (UInt8.ofNat a).toNat = a := by rw [UInt8.toNat_ofNat']; omega
  have tb : (UInt8.ofNat b).toNat = b := by rw [UInt8.toNat_ofNat']; omega
  have hlt : UInt8.ofNat a < UInt8.ofNat b ↔ a < b := by rw [UInt8.lt_iff_toNat_lt, ta, tb]
  have heq : UInt8.ofNat a = UInt8.ofNat b ↔ a = b := by rw [← UInt8.toNat_inj, ta, tb]
  show compareOfLessAndEq (UInt8.ofNat a) (UInt8.ofNat b) = compareOfLessAndEq a b
  simp only [compareOfLessAndEq, hlt, heq]

/-- A number compares with another as its high part, then its low byte. -/
theorem compare_div_mod (n m : Nat) :
    compare n m = (compare (n / 256) (m / 256)).then (compare (n % 256) (m % 256)) := by
  rcases Nat.lt_trichotomy (n / 256) (m / 256) with hlt | heq | hgt
  · rw [(Nat.compare_eq_lt).mpr hlt, (Nat.compare_eq_lt).mpr (by omega)]
    rfl
  · rw [(Nat.compare_eq_eq).mpr heq, Ordering.eq_then]
    rcases Nat.lt_trichotomy (n % 256) (m % 256) with h | h | h
    · rw [(Nat.compare_eq_lt).mpr h, (Nat.compare_eq_lt).mpr (by omega)]
    · rw [(Nat.compare_eq_eq).mpr h, (Nat.compare_eq_eq).mpr (by omega)]
    · rw [(Nat.compare_eq_gt).mpr h, (Nat.compare_eq_gt).mpr (by omega)]
  · rw [(Nat.compare_eq_gt).mpr hgt, (Nat.compare_eq_gt).mpr (by omega)]
    rfl

/-- Big-endian encoding embeds the numeric order into the byte-wise order. -/
theorem compare_beBytes {w n m : Nat} (hn : n < 256 ^ w) (hm : m < 256 ^ w) :
    compare (beBytes w n) (beBytes w m) = compare n m := by
  induction w generalizing n m with
  | zero => simp_all
  | succ w ih =>
    have hn' : n / 256 < 256 ^ w := by rw [pow_succ] at hn; omega
    have hm' : m / 256 < 256 ^ w := by rw [pow_succ] at hm; omega
    simp only [beBytes, leBytes_succ, List.reverse_cons]
    rw [compare_append_of_length_eq _ _ (by simp), List.compare_cons_cons, List.compare_nil_nil,
      Ordering.then_eq]
    rw [show (leBytes w (n / 256)).reverse = beBytes w (n / 256) from rfl,
      show (leBytes w (m / 256)).reverse = beBytes w (m / 256) from rfl, ih hn' hm',
      compare_ofNat_byte (Nat.mod_lt _ (by decide)) (Nat.mod_lt _ (by decide)), compare_div_mod n m]

end EphemeralValidator.Bytes
