import EphemeralValidator.Bytes.Basic

/-! # A lawful model of the bincode wire format

bincode (fixed-int encoding, the `bincode::serialize` / `bincode::deserialize`
defaults) writes a value as the concatenation of its fields: integers as fixed-width
little-endian bytes, `bool` as one byte, fixed arrays as their raw bytes, and a
sequence as a `u64` element count followed by the elements.

A `Codec α` packages an encoder, a prefix decoder that returns the unread rest of
its input, and the law that decoding an encoding followed by *anything* gives the
value back and leaves exactly that rest.  The law is what makes `deserialize` ignore
trailing bytes, and it composes: `prod`, `iso` and `vec` build lawful codecs from
lawful ones.  Encoding can fail (a sequence longer than a `u64` count can hold has
no encoding), so `encode` returns an `Option`.
-/

namespace EphemeralValidator.Bytes

/-- An encoder with a prefix decoder that inverts it. -/
structure Codec (α : Type) where
  encode : α → Option (List UInt8)
  decode : List UInt8 → Option (α × List UInt8)
  decode_encode : ∀ {a : α} {bs : List UInt8} (rest : List UInt8),
    encode a = some bs → decode (bs ++ rest) = some (a, rest)

namespace Codec

variable {α β : Type}

/-- `bincode::deserialize`: decode a prefix and ignore the trailing bytes. -/
def deserialize (c : Codec α) (data : List UInt8) : Option α := (c.decode data).map Prod.fst

/-- `bincode::serialized_size`. -/
def serializedSize (c : Codec α) (a : α) : Option Nat := (c.encode a).map List.length

theorem deserialize_encode_append (c : Codec α) {a : α} {bs : List UInt8} (rest : List UInt8)
    (h : c.encode a = some bs) : c.deserialize (bs ++ rest) = some a := by
  simp [deserialize, c.decode_encode rest h]

/-! ## Primitive codecs -/

/-- `u64`: eight little-endian bytes. -/
def u64 : Codec UInt64 where
  encode x := some (leBytes 8 x.toNat)
  decode bs := if 8 ≤ bs.length then some (UInt64.ofNat (ofLeBytes (bs.take 8)), bs.drop 8) else none
  decode_encode := by
    intro x bs rest h
    cases h
    have value : ofLeBytes (leBytes 8 x.toNat) = x.toNat := by
      rw [ofLeBytes_leBytes, Nat.mod_eq_of_lt (lt_of_lt_of_eq x.toNat_lt (by norm_num))]
    have len : (leBytes 8 x.toNat).length = 8 := length_leBytes 8 x.toNat
    have enough : 8 ≤ (leBytes 8 x.toNat ++ rest).length := by simp
    rw [if_pos enough, List.take_left' len, List.drop_left' len, value, UInt64.ofNat_toNat]

/-- `()`: no bytes at all. -/
def unit : Codec Unit where
  encode _ := some []
  decode bs := some ((), bs)
  decode_encode := by
    intro a bs rest h
    cases h
    rfl

/-- `bool`: the byte `1` or `0`; any other byte is rejected. -/
def bool : Codec Bool where
  encode b := some [if b then 1 else 0]
  decode
    | 0 :: rest => some (false, rest)
    | 1 :: rest => some (true, rest)
    | _ => none
  decode_encode := by
    intro b bs rest h
    cases h
    cases b <;> rfl

/-- `[u8; n]`: the raw bytes, with no length prefix. -/
def fixed (n : Nat) : Codec (FixedBytes n) where
  encode a := some a.bytes
  decode bs :=
    if h : n ≤ bs.length then
      some (⟨bs.take n, by simp [List.length_take, Nat.min_eq_left h]⟩, bs.drop n)
    else none
  decode_encode := by
    intro a bs rest h
    cases h
    have hn : n ≤ (a.bytes ++ rest).length := by simp [a.length_eq]
    rw [dif_pos hn]
    congr 2
    · apply FixedBytes.ext_bytes
      simp [← a.length_eq]
    · simp [← a.length_eq]

/-- `u32`: four little-endian bytes; also the variant index of an enum. -/
def u32 : Codec UInt32 where
  encode x := some (leBytes 4 x.toNat)
  decode bs := if 4 ≤ bs.length then some (UInt32.ofNat (ofLeBytes (bs.take 4)), bs.drop 4) else none
  decode_encode := by
    intro x bs rest h
    cases h
    have value : ofLeBytes (leBytes 4 x.toNat) = x.toNat := by
      rw [ofLeBytes_leBytes, Nat.mod_eq_of_lt (lt_of_lt_of_eq x.toNat_lt (by norm_num))]
    have len : (leBytes 4 x.toNat).length = 4 := length_leBytes 4 x.toNat
    have enough : 4 ≤ (leBytes 4 x.toNat ++ rest).length := by simp
    rw [if_pos enough, List.take_left' len, List.drop_left' len, value, UInt32.ofNat_toNat]

/-! ## Combinators -/

/-- A pair is its two components in order (also a tuple struct of two fields). -/
def prod (c : Codec α) (d : Codec β) : Codec (α × β) where
  encode p := do
    let x ← c.encode p.1
    let y ← d.encode p.2
    pure (x ++ y)
  decode bs := do
    let (a, rest) ← c.decode bs
    let (b, rest) ← d.decode rest
    pure ((a, b), rest)
  decode_encode := by
    rintro ⟨a, b⟩ bs rest h
    simp only [Option.bind_eq_bind, Option.bind_eq_some_iff, Option.pure_def,
      Option.some.injEq] at h
    obtain ⟨x, hx, y, hy, rfl⟩ := h
    simp [List.append_assoc, c.decode_encode _ hx, d.decode_encode _ hy]

theorem prod_encode_eq_some (c : Codec α) (d : Codec β) {a : α} {b : β} {bs : List UInt8} :
    (prod c d).encode (a, b) = some bs ↔ ∃ x y, c.encode a = some x ∧ d.encode b = some y ∧ bs = x ++ y := by
  simp only [prod, Option.bind_eq_bind, Option.bind_eq_some_iff, Option.pure_def, Option.some.injEq]
  constructor
  · rintro ⟨x, hx, y, hy, rfl⟩
    exact ⟨x, y, hx, hy, rfl⟩
  · rintro ⟨x, y, hx, hy, rfl⟩
    exact ⟨x, hx, y, hy, rfl⟩

/-- `Option<T>`: the byte `0`, or the byte `1` followed by the value. -/
def option (c : Codec α) : Codec (Option α) where
  encode
    | none => some [0]
    | some a => (c.encode a).map (1 :: ·)
  decode
    | 0 :: rest => some (none, rest)
    | 1 :: rest => (c.decode rest).map fun (a, rest) => (some a, rest)
    | _ => none
  decode_encode := by
    intro o bs rest h
    cases o with
    | none =>
      cases h
      rfl
    | some a =>
      obtain ⟨x, hx, rfl⟩ := Option.map_eq_some_iff.mp h
      simp [c.decode_encode rest hx]

/-- Transport a codec along an encoding of `α` into `β` with a left inverse
(a struct is encoded as the tuple of its fields). -/
def iso (c : Codec β) (forward : α → β) (back : β → α) (back_forward : ∀ a, back (forward a) = a) :
    Codec α where
  encode a := c.encode (forward a)
  decode bs := (c.decode bs).map fun (b, rest) => (back b, rest)
  decode_encode := by
    intro a bs rest h
    simp [c.decode_encode rest h, back_forward]

/-- The concatenated encodings of a list of values (no count). -/
def encodeAll (c : Codec α) : List α → Option (List UInt8)
  | [] => some []
  | a :: as => do
    let x ← c.encode a
    let xs ← encodeAll c as
    pure (x ++ xs)

/-- Decode `n` consecutive values. -/
def decodeMany (c : Codec α) : Nat → List UInt8 → Option (List α × List UInt8)
  | 0, bs => some ([], bs)
  | n + 1, bs => do
    let (a, rest) ← c.decode bs
    let (as, rest) ← decodeMany c n rest
    pure (a :: as, rest)

theorem encodeAll_cons_eq_some (c : Codec α) {a : α} {as : List α} {bs : List UInt8} :
    c.encodeAll (a :: as) = some bs ↔
      ∃ x xs, c.encode a = some x ∧ c.encodeAll as = some xs ∧ bs = x ++ xs := by
  simp only [encodeAll, Option.bind_eq_bind, Option.bind_eq_some_iff, Option.pure_def,
    Option.some.injEq]
  constructor
  · rintro ⟨x, hx, xs, hxs, rfl⟩
    exact ⟨x, xs, hx, hxs, rfl⟩
  · rintro ⟨x, xs, hx, hxs, rfl⟩
    exact ⟨x, hx, xs, hxs, rfl⟩

theorem decodeMany_encodeAll (c : Codec α) {as : List α} {bs : List UInt8} (rest : List UInt8)
    (h : c.encodeAll as = some bs) : c.decodeMany as.length (bs ++ rest) = some (as, rest) := by
  induction as generalizing bs with
  | nil =>
    cases h
    rfl
  | cons a as ih =>
    obtain ⟨x, xs, hx, hxs, rfl⟩ := (encodeAll_cons_eq_some c).mp h
    simp [decodeMany, List.append_assoc, c.decode_encode _ hx, ih hxs]

/-- `Vec<T>`: a `u64` count, then the elements.  A list whose length does not fit the
count has no encoding. -/
def vec (c : Codec α) : Codec (List α) where
  encode as :=
    if as.length < 2 ^ 64 then (c.encodeAll as).map (leBytes 8 as.length ++ ·) else none
  decode bs := do
    let (n, rest) ← u64.decode bs
    c.decodeMany n.toNat rest
  decode_encode := by
    intro as bs rest h
    split at h
    · next hlen =>
      obtain ⟨xs, hxs, rfl⟩ := Option.map_eq_some_iff.mp h
      have count : u64.decode (leBytes 8 as.length ++ (xs ++ rest)) =
          some (UInt64.ofNat as.length, xs ++ rest) := by
        have := @Codec.decode_encode _ u64 (UInt64.ofNat as.length) _ (xs ++ rest) rfl
        simpa [UInt64.toNat_ofNat_of_lt' hlen] using this
      have toNat : (UInt64.ofNat as.length).toNat = as.length := UInt64.toNat_ofNat_of_lt' hlen
      simp only [List.append_assoc, Option.bind_eq_bind, count, Option.bind_some, toNat]
      exact c.decodeMany_encodeAll rest hxs
    · cases h

/-- The encoding of a sequence starts with its count. -/
theorem vec_encode_eq_some {c : Codec α} {as : List α} {bs : List UInt8}
    (h : (vec c).encode as = some bs) :
    as.length < 2 ^ 64 ∧ ∃ xs, c.encodeAll as = some xs ∧ bs = leBytes 8 as.length ++ xs := by
  simp only [vec] at h
  split at h
  · next hlen =>
    obtain ⟨xs, hxs, rfl⟩ := Option.map_eq_some_iff.mp h
    exact ⟨hlen, xs, hxs, rfl⟩
  · cases h

end Codec

end EphemeralValidator.Bytes
