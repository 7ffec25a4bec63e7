import EphemeralValidator.Bytes.Basic

/-! # Rust slices and the `byteorder` integer accessors

`&buf[a..b]` panics out of bounds, so it is modelled as an `Option`; `BigEndian::write_u64`
and `read_u64` (and their `u32` forms) store and load a fixed-width big-endian field, the
reader panicking on a slice too short for it.  On top of these:

* `writeSlice_zeros` lays a field into the zeroed tail of a buffer, so that a key built
  field by field into `vec![0; len]` is the concatenation of its fields;
* `readU64_beBytes` and `rangeSlice_middle` read the fields back;
* `compare_beBytes_toNat` says a big-endian field orders as the integer it holds.
-/

namespace EphemeralValidator.Bytes

/-- `&buf[a..b]`; `none` where Rust panics. -/
def rangeSlice (buf : List UInt8) (a b : Nat) : Option (List UInt8) :=
  if a ≤ b ∧ b ≤ buf.length then some (slice buf a b) else none

namespace BigEndian

/-- `BigEndian::write_u64(&mut buf[a..a + 8], v)`. -/
def writeU64 (buf : List UInt8) (a : Nat) (v : UInt64) : List UInt8 :=
  writeSlice buf a (beBytes 8 v.toNat)

/-- `BigEndian::write_u32(&mut buf[a..a + 4], v)`. -/
def writeU32 (buf : List UInt8) (a : Nat) (v : UInt32) : List UInt8 :=
  writeSlice buf a (beBytes 4 v.toNat)

/-- `BigEndian::read_u64(buf)`: the first eight bytes; `none` (a panic) when there are fewer. -/
def readU64 (buf : List UInt8) : Option UInt64 :=
  if 8 ≤ buf.length then some (UInt64.ofNat (ofBeBytes (buf.take 8))) else none

/-- `BigEndian::read_u32(buf)`. -/
def readU32 (buf : List UInt8) : Option UInt32 :=
  if 4 ≤ buf.length then some (UInt32.ofNat (ofBeBytes (buf.take 4))) else none

theorem readU64_beBytes (v : UInt64) : readU64 (beBytes 8 v.toNat) = some v := by
  have fits : v.toNat < 256 ^ 8 := v.toNat_lt
  rw [readU64, if_pos (by simp), List.take_of_length_le (by simp), ofBeBytes_beBytes,
    Nat.mod_eq_of_lt fits, UInt64.ofNat_toNat]

theorem readU32_beBytes (v : UInt32) : readU32 (beBytes 4 v.toNat) = some v := by
  have fits : v.toNat < 256 ^ 4 := v.toNat_lt
  rw [readU32, if_pos (by simp), List.take_of_length_le (by simp), ofBeBytes_beBytes,
    Nat.mod_eq_of_lt fits, UInt32.ofNat_toNat]

end BigEndian

/-- Writing a field at the start of a zeroed tail keeps the rest of the tail zero. -/
theorem writeSlice_zeros (pre : List UInt8) {a : Nat} (offset : pre.length = a) (src : List UInt8)
    (n : Nat) :
    writeSlice (pre ++ List.replicate n 0) a src = pre ++ src ++ List.replicate (n - src.length) 0 := by
  subst offset
  simp [writeSlice, List.drop_append, List.drop_replicate]

/-- A range that is exactly a field of the buffer reads that field. -/
theorem rangeSlice_middle (pre mid post : List UInt8) {a b : Nat} (start : pre.length = a)
    (stop : pre.length + mid.length = b) :
    rangeSlice (pre ++ mid ++ post) a b = some mid := by
  subst start stop
  rw [rangeSlice, if_pos (by simp), slice_append]

/-- The same, for a buffer given in any shape that splits at the range. -/
theorem rangeSlice_field {buf : List UInt8} (pre mid post : List UInt8) (shape : buf = pre ++ mid ++ post)
    {a b : Nat} (start : pre.length = a) (stop : a + mid.length = b) :
    rangeSlice buf a b = some mid := by
  subst shape
  exact rangeSlice_middle pre mid post start (by rw [start]; exact stop)

/-- An encoder with a decoder that reads every encoding back is injective. -/
theorem injective_of_decode_eq_some {α β : Type} {encode : α → β} {decode : β → Option α}
    (readsBack : ∀ a, decode (encode a) = some a) : Function.Injective encode := by
  intro a b same
  have decoded := readsBack a
  rw [same, readsBack b] at decoded
  exact (Option.some.inj decoded).symm

/-! ## Order -/

theorem compare_uInt64 (a b : UInt64) : compare a b = compare a.toNat b.toNat := by
  show compareOfLessAndEq a b = compareOfLessAndEq a.toNat b.toNat
  simp only [compareOfLessAndEq, UInt64.lt_iff_toNat_lt, ← UInt64.toNat_inj]

theorem compare_uInt32 (a b : UInt32) : compare a b = compare a.toNat b.toNat := by
  show compareOfLessAndEq a b = compareOfLessAndEq a.toNat b.toNat
  simp only [compareOfLessAndEq, UInt32.lt_iff_toNat_lt, ← UInt32.toNat_inj]

/-- A big-endian `u64` field orders as the integer it holds. -/
theorem compare_beBytes_uInt64 (a b : UInt64) :
    compare (beBytes 8 a.toNat) (beBytes 8 b.toNat) = compare a b := by
  rw [compare_beBytes a.toNat_lt b.toNat_lt, compare_uInt64]

theorem compare_beBytes_uInt32 (a b : UInt32) :
    compare (beBytes 4 a.toNat) (beBytes 4 b.toNat) = compare a b := by
  rw [compare_beBytes a.toNat_lt b.toNat_lt, compare_uInt32]

end EphemeralValidator.Bytes
