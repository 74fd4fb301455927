import S2nQuic.Codec

/-!
# QUIC variable-length integers (`varint/mod.rs`, `varint/table.rs`)

A `VarInt` is a `u64` of at most 62 bits. Its encoding puts the base-2 logarithm
of the byte length in the two top bits of the first byte (RFC 9000 Section 16).

The encoder does not branch on the length when it writes: `Formatted::new` walks
the RFC table from the widest row down, lowering a pre-byte-swapped two-bit prefix
by one step per matching row, shifts the value to the top of a `u64`, swaps it to
big endian and ors the prefix in. It then writes the eight bytes of that word at
the cursor (or, close to the end of the buffer, only the first `len` of them) and
moves the cursor by `len`. Byte swapping is host dependent, so the model takes the
host byte order as a parameter and every result holds for both.
-/

namespace S2nQuic.Varint
open ByteOrder Codec

def maxVarintValue : Nat := 4611686018427387903

theorem maxVarintValue_eq : maxVarintValue = 2 ^ 62 - 1 := rfl

structure VarInt where
  val : Nat
  le_max : val ≤ maxVarintValue
  deriving DecidableEq

namespace VarInt

def new (v : Nat) : Option VarInt :=
  if h : v ≤ maxVarintValue then some ⟨v, h⟩ else none

def MAX : VarInt := ⟨maxVarintValue, le_rfl⟩

theorem val_lt (v : VarInt) : v.val < 2 ^ 62 := by
  have := v.le_max; rw [maxVarintValue_eq] at this; omega

@[ext] theorem ext {a b : VarInt} (h : a.val = b.val) : a = b := by
  cases a; cases b; cases h; rfl

theorem new_of_le {v : Nat} (h : v ≤ maxVarintValue) : VarInt.new v = some ⟨v, h⟩ := dif_pos h

theorem new_of_lt {v : Nat} (h : maxVarintValue < v) : VarInt.new v = none :=
  dif_neg (Nat.not_le.mpr h)

theorem val_of_new_eq_some {v : Nat} {x : VarInt} (h : VarInt.new v = some x) : x.val = v := by
  unfold VarInt.new at h
  split_ifs at h
  cases h
  rfl

def ofMasked (v : Nat) (bits : Nat) (hbits : bits ≤ 62) : VarInt :=
  ⟨v &&& (2 ^ bits - 1), by
    rw [Nat.and_two_pow_sub_one_eq_mod, maxVarintValue_eq]
    have := Nat.mod_lt v (Nat.two_pow_pos bits)
    have := Nat.pow_le_pow_right (n := 2) (by omega) hbits
    omega⟩

end VarInt

/-! ## Host byte order -/

inductive Endian
  | little
  | big
  deriving DecidableEq, Repr

/-- `u64::to_be`: a byte swap on a little-endian host. -/
def toBe : Endian → UInt64 → UInt64
  | .big, v => v
  | .little, v => UInt64.ofNat (ofLeBytes (beBytes 8 v.toNat))

/-- `u64::to_ne_bytes`: the word's bytes in memory order. -/
def toNeBytes : Endian → UInt64 → List UInt8
  | .big, v => beBytes 8 v.toNat
  | .little, v => leBytes 8 v.toNat

/-! ## The table -/

structure Entry where
  twoBit : UInt64
  twoBitBe : UInt64
  len : Nat
  usableBits : UInt64
  shift : UInt64
  deriving DecidableEq, Repr

structure Formatted where
  encodedBe : UInt64
  len : Nat
  deriving DecidableEq, Repr

/-- The rows of `call_table!`: `(two_bit, length, usable_bits, max_value)`, widest first. -/
def table : List (UInt64 × Nat × UInt64 × UInt64) :=
  [(0b10, 4, 30, 1073741823), (0b01, 2, 14, 16383), (0b00, 1, 6, 63)]

section
variable (endian : Endian)

/-- `Entry::read_rfc`; `none` is the `unreachable!()` arm above `VarInt::MAX`. -/
def Entry.readRfc (x : UInt64) : Option Entry :=
  if x ≤ 63 then
    some ⟨0b00, 0b00, 1, 6, 56⟩
  else if x ≤ 16383 then
    some ⟨0b01, toBe endian ((0b01 : UInt64) <<< 62), 2, 14, 48⟩
  else if x ≤ 1073741823 then
    some ⟨0b10, toBe endian ((0b10 : UInt64) <<< 62), 4, 30, 32⟩
  else if x ≤ 4611686018427387903 then
    some ⟨0b11, toBe endian ((0b11 : UInt64) <<< 62), 8, 62, 0⟩
  else none

/-- One expansion of the `table!` body in `Entry::read_optimized`. -/
def Entry.readRow (x : UInt64) (t : Entry) : UInt64 × Nat × UInt64 × UInt64 → Entry
  | (_, length, usableBits, maxValue) =>
    if x ≤ maxValue then
      { shift := 62 - usableBits, usableBits := usableBits, twoBit := t.twoBit - 1,
        twoBitBe := t.twoBitBe - toBe endian ((1 : UInt64) <<< 62), len := length }
    else t

def Entry.readOptimized (x : UInt64) : Entry :=
  table.foldl (Entry.readRow endian x)
    ⟨0b11, toBe endian ((0b11 : UInt64) <<< 62), 8, 62, 0⟩

def Entry.read (x : UInt64) : Entry := Entry.readOptimized endian x

def Entry.format (t : Entry) (value : UInt64) : Formatted :=
  ⟨toBe endian (value <<< t.shift) ||| t.twoBitBe, t.len⟩

/-- One expansion of the `table!` body in `Formatted::new`: `(shift, two_bit, len)`. -/
def Formatted.newRow (x : UInt64) (acc : UInt64 × UInt64 × Nat) :
    UInt64 × Nat × UInt64 × UInt64 → UInt64 × UInt64 × Nat
  | (_, length, usableBits, maxValue) =>
    if x ≤ maxValue then (62 - usableBits, acc.2.1 - toBe endian ((1 : UInt64) <<< 62), length) else acc

def Formatted.new (x : UInt64) : Formatted :=
  let (shift, twoBit, len) :=
    table.foldl (Formatted.newRow endian x) (0, toBe endian ((0b11 : UInt64) <<< 62), 8)
  ⟨toBe endian (x <<< shift) ||| twoBit, len⟩

/-- The eight-byte fast path: all of `encoded_be` is stored, the cursor moves by `len`. -/
def Formatted.encodeOversized (f : Formatted) (encoder : EncoderBuffer) :
    Option EncoderBuffer :=
  encoder.writeSized f.len (toNeBytes endian f.encodedBe)

def Formatted.encodeMaybeUndersized (f : Formatted) (encoder : EncoderBuffer) :
    Option EncoderBuffer :=
  encoder.writeSized f.len ((toNeBytes endian f.encodedBe).take f.len)

def Formatted.encode (f : Formatted) (encoder : EncoderBuffer) : Option EncoderBuffer :=
  if encoder.remainingCapacity ≥ 8 then f.encodeOversized endian encoder
  else f.encodeMaybeUndersized endian encoder

def VarInt.format (v : VarInt) : Formatted := Formatted.new endian (UInt64.ofNat v.val)

def VarInt.encodingSize (v : VarInt) : Nat := (v.format endian).len

def VarInt.encode (v : VarInt) (encoder : EncoderBuffer) : Option EncoderBuffer :=
  (v.format endian).encode endian encoder

/-- `VarInt::encode_updated`: the replacement formatted with the placeholder's table entry, so
that it takes the placeholder's length; `none` is the `debug_assert` on the two lengths. -/
def VarInt.encodeUpdated (self replacement : VarInt) (encoder : EncoderBuffer) :
    Option EncoderBuffer :=
  if (Entry.read endian (UInt64.ofNat self.val)).len ≥
      (Entry.read endian (UInt64.ofNat replacement.val)).len then
    ((Entry.read endian (UInt64.ofNat self.val)).format endian
      (UInt64.ofNat replacement.val)).encodeMaybeUndersized endian encoder
  else none

end

/-- `VarInt::decode`: the two top bits of the first byte select the width. -/
def VarInt.decode (buffer : DecoderBuffer) : DecoderBufferResult VarInt :=
  match peekByte buffer 0 with
  | .error err => .error err
  | .ok header =>
    match ((header >>> 6) &&& 0b11).toNat with
    | 0 =>
      match skip buffer 1 with
      | .ok buffer => .ok (VarInt.ofMasked header.toNat 6 (by omega), buffer)
      | .error err => .error err
    | 1 =>
      match decodeUInt 2 buffer with
      | .ok (value, buffer) => .ok (VarInt.ofMasked value 14 (by omega), buffer)
      | .error err => .error err
    | 2 =>
      match decodeUInt 4 buffer with
      | .ok (value, buffer) => .ok (VarInt.ofMasked value 30 (by omega), buffer)
      | .error err => .error err
    -- the two bits are `0b11`; the source's `unreachable_unchecked` arm is never taken
    | _ =>
      match decodeUInt 8 buffer with
      | .ok (value, buffer) => .ok (VarInt.ofMasked value 62 (by omega), buffer)
      | .error err => .error err

/-! ## The RFC encoding -/

/-- The RFC 9000 Section 16 length of a value: 1, 2, 4 or 8 bytes. -/
def rfcLen (v : Nat) : Nat :=
  if v ≤ 63 then 1 else if v ≤ 16383 then 2 else if v ≤ 1073741823 then 4 else 8

def rfcPrefix (v : Nat) : Nat :=
  if v ≤ 63 then 0b00 else if v ≤ 16383 then 0b01 else if v ≤ 1073741823 then 0b10 else 0b11

/-- The value in `rfcLen v` big-endian bytes under its two-bit prefix. -/
def rfcEncoding (v : Nat) : List UInt8 :=
  beBytes (rfcLen v) (rfcPrefix v * 2 ^ (8 * rfcLen v - 2) + v)

/-! ## Byte swapping -/

theorem toNeBytes_toBe (endian : Endian) (v : UInt64) :
    toNeBytes endian (toBe endian v) = beBytes 8 v.toNat := by
  cases endian with
  | big => rfl
  | little =>
    have hlt : ofLeBytes (beBytes 8 v.toNat) < UInt64.size := by
      simpa using ofLeBytes_lt (beBytes 8 v.toNat)
    simp only [toNeBytes, toBe, UInt64.toNat_ofNat_of_lt' hlt]
    simpa using leBytes_ofLeBytes (beBytes 8 v.toNat)

theorem toNeBytes_or (endian : Endian) (a b : UInt64) :
    toNeBytes endian (a ||| b) =
      List.zipWith (· ||| ·) (toNeBytes endian a) (toNeBytes endian b) := by
  cases endian <;> simp [toNeBytes, UInt64.toNat_or, leBytes_lor, beBytes_lor]

theorem toNeBytes_or_toBe (endian : Endian) (a b : UInt64) :
    toNeBytes endian (toBe endian a ||| toBe endian b) = beBytes 8 (a.toNat ||| b.toNat) := by
  rw [toNeBytes_or, toNeBytes_toBe, toNeBytes_toBe, beBytes_lor]

theorem toBe_prefix_sub (endian : Endian) :
    toBe endian ((0b11 : UInt64) <<< 62) - toBe endian ((1 : UInt64) <<< 62) =
        toBe endian ((0b10 : UInt64) <<< 62) ∧
      toBe endian ((0b10 : UInt64) <<< 62) - toBe endian ((1 : UInt64) <<< 62) =
        toBe endian ((1 : UInt64) <<< 62) ∧
      toBe endian ((1 : UInt64) <<< 62) - toBe endian ((1 : UInt64) <<< 62) = 0 := by
  cases endian <;> decide

theorem toBe_zero (endian : Endian) : toBe endian 0 = 0 := by
  cases endian <;> decide

/-! ## The optimised table is the RFC table -/

section
variable (endian : Endian)

theorem readRfc_readOptimized (x : UInt64) (hx : x.toNat ≤ maxVarintValue) :
    Entry.readRfc endian x = some (Entry.readOptimized endian x) := by
  obtain ⟨h1, h2, -⟩ := toBe_prefix_sub endian
  rw [maxVarintValue] at hx
  simp only [Entry.readRfc, Entry.readOptimized, table, List.foldl, Entry.readRow,
    UInt64.le_iff_toNat_le, UInt64.reduceToNat]
  by_cases b0 : x.toNat ≤ 63
  · simp [b0, show x.toNat ≤ 16383 by omega, show x.toNat ≤ 1073741823 by omega, h1, h2]
  by_cases b1 : x.toNat ≤ 16383
  · simp [b0, b1, show x.toNat ≤ 1073741823 by omega, h1, h2]
  by_cases b2 : x.toNat ≤ 1073741823
  · simp [b0, b1, b2, h1]
  · simp [b0, b1, b2, hx]

theorem new_eq_format (x : UInt64) :
    Formatted.new endian x = (Entry.readOptimized endian x).format endian x := by
  simp only [Formatted.new, Formatted.newRow, Entry.readOptimized, Entry.readRow, table,
    List.foldl, Entry.format, UInt64.le_iff_toNat_le, UInt64.reduceToNat]
  by_cases b0 : x.toNat ≤ 63
  · simp [b0, show x.toNat ≤ 16383 by omega, show x.toNat ≤ 1073741823 by omega]
  by_cases b1 : x.toNat ≤ 16383
  · simp [b0, b1, show x.toNat ≤ 1073741823 by omega]
  by_cases b2 : x.toNat ≤ 1073741823
  · simp [b0, b1, b2]
  · simp [b0, b1, b2]

end

/-! ## The bytes of a formatted word -/

theorem take_beBytes_word (k x t : Nat) (hk : k ≤ 7) (hx : x < 2 ^ (8 * k + 6)) :
    (beBytes 8 (x * 2 ^ (56 - 8 * k) ||| t * 2 ^ 62)).take (k + 1) =
      beBytes (k + 1) (t * 2 ^ (8 * k + 6) + x) := by
  have hpow : 2 ^ 62 = 2 ^ (8 * k + 6) * 2 ^ (56 - 8 * k) := by
    rw [← Nat.pow_add]; congr 1; omega
  have hlow : x * 2 ^ (56 - 8 * k) < 2 ^ 62 := by
    rw [hpow]; exact Nat.mul_lt_mul_of_pos_right hx (Nat.two_pow_pos _)
  have hor : x * 2 ^ (56 - 8 * k) ||| t * 2 ^ 62 = 2 ^ 62 * t + x * 2 ^ (56 - 8 * k) := by
    rw [Nat.or_comm, Nat.mul_comm t, Nat.two_pow_add_eq_or_of_lt hlow]
  have hword : (2 ^ 62 * t + x * 2 ^ (56 - 8 * k)) / 2 ^ (8 * (7 - k)) =
      t * 2 ^ (8 * k + 6) + x := by
    rw [show 8 * (7 - k) = 56 - 8 * k by omega, hpow,
      show 2 ^ (8 * k + 6) * 2 ^ (56 - 8 * k) * t + x * 2 ^ (56 - 8 * k) =
        (t * 2 ^ (8 * k + 6) + x) * 2 ^ (56 - 8 * k) by ring]
    exact Nat.mul_div_cancel _ (Nat.two_pow_pos _)
  have htake := take_beBytes (k + 1) (7 - k) (2 ^ 62 * t + x * 2 ^ (56 - 8 * k))
  rw [show k + 1 + (7 - k) = 8 by omega, hword] at htake
  rw [hor, htake]

theorem take_toNeBytes_format (endian : Endian) (x s p : UInt64) (k t : Nat) (hk : k ≤ 7)
    (hx : x.toNat < 2 ^ (8 * k + 6)) (hs : s.toNat = 56 - 8 * k) (hp : p.toNat = t * 2 ^ 62) :
    (toNeBytes endian (toBe endian (x <<< s) ||| toBe endian p)).take (k + 1) =
      beBytes (k + 1) (t * 2 ^ (8 * k + 6) + x.toNat) := by
  have hshift : (x <<< s).toNat = x.toNat * 2 ^ (56 - 8 * k) := by
    have : x.toNat * 2 ^ (56 - 8 * k) < 2 ^ 64 :=
      calc x.toNat * 2 ^ (56 - 8 * k) < 2 ^ (8 * k + 6) * 2 ^ (56 - 8 * k) :=
            Nat.mul_lt_mul_of_pos_right hx (Nat.two_pow_pos _)
        _ = 2 ^ 62 := by rw [← Nat.pow_add]; congr 1; omega
        _ < 2 ^ 64 := by norm_num
    rw [UInt64.toNat_shiftLeft, hs, Nat.mod_eq_of_lt (by omega : 56 - 8 * k < 64),
      Nat.shiftLeft_eq, Nat.mod_eq_of_lt this]
  rw [toNeBytes_or_toBe, hshift, hp, take_beBytes_word k _ t hk hx]

theorem toNat_ofNat_val (v : VarInt) : (UInt64.ofNat v.val).toNat = v.val :=
  UInt64.toNat_ofNat_of_lt' (lt_trans v.val_lt (by decide))

theorem rfcLen_eq_two_pow (v : Nat) : rfcLen v = 2 ^ rfcPrefix v := by
  unfold rfcLen rfcPrefix; split_ifs <;> rfl

theorem readOptimized_row (endian : Endian) (v : VarInt) :
    ∃ k t : Nat, ∃ s p : UInt64, k ≤ 7 ∧ v.val < 2 ^ (8 * k + 6) ∧ s.toNat = 56 - 8 * k ∧
      p.toNat = t * 2 ^ 62 ∧ rfcLen v.val = k + 1 ∧ rfcPrefix v.val = t ∧
      (Entry.readOptimized endian (UInt64.ofNat v.val)).shift = s ∧
      (Entry.readOptimized endian (UInt64.ofNat v.val)).twoBitBe = toBe endian p ∧
      (Entry.readOptimized endian (UInt64.ofNat v.val)).len = k + 1 := by
  have hlt := v.val_lt
  have hx := toNat_ofNat_val v
  have hr := readRfc_readOptimized endian (UInt64.ofNat v.val) (by rw [hx]; exact v.le_max)
  simp only [Entry.readRfc, UInt64.le_iff_toNat_le, hx, UInt64.reduceToNat] at hr
  by_cases b0 : v.val ≤ 63
  · rw [if_pos b0, Option.some.injEq] at hr
    refine ⟨0, 0, 56, 0, by omega, by omega, rfl, rfl, by simp [rfcLen, b0],
      by simp [rfcPrefix, b0], ?_⟩
    rw [← hr, toBe_zero]
    exact ⟨rfl, rfl, rfl⟩
  by_cases b1 : v.val ≤ 16383
  · rw [if_neg b0, if_pos b1, Option.some.injEq] at hr
    refine ⟨1, 1, 48, (1 : UInt64) <<< 62, by omega, by omega, rfl, rfl, by simp [rfcLen, b0, b1],
      by simp [rfcPrefix, b0, b1], ?_⟩
    rw [← hr]
    exact ⟨rfl, rfl, rfl⟩
  by_cases b2 : v.val ≤ 1073741823
  · rw [if_neg b0, if_neg b1, if_pos b2, Option.some.injEq] at hr
    refine ⟨3, 2, 32, (0b10 : UInt64) <<< 62, by omega, by omega, rfl, rfl,
      by simp [rfcLen, b0, b1, b2], by simp [rfcPrefix, b0, b1, b2], ?_⟩
    rw [← hr]
    exact ⟨rfl, rfl, rfl⟩
  · rw [if_neg b0, if_neg b1, if_neg b2,
      if_pos (show v.val ≤ 4611686018427387903 from v.le_max), Option.some.injEq] at hr
    refine ⟨7, 3, 0, (0b11 : UInt64) <<< 62, by omega, by omega, rfl, rfl,
      by simp [rfcLen, b0, b1, b2], by simp [rfcPrefix, b0, b1, b2], ?_⟩
    rw [← hr]
    exact ⟨rfl, rfl, rfl⟩

theorem format_row (endian : Endian) (v : VarInt) :
    ∃ k t : Nat, ∃ s p : UInt64, k ≤ 7 ∧ v.val < 2 ^ (8 * k + 6) ∧ s.toNat = 56 - 8 * k ∧
      p.toNat = t * 2 ^ 62 ∧ rfcLen v.val = k + 1 ∧ rfcPrefix v.val = t ∧
      v.format endian = ⟨toBe endian (UInt64.ofNat v.val <<< s) ||| toBe endian p, k + 1⟩ := by
  obtain ⟨k, t, s, p, hk, hv, hs, hp, hlen, hpre, hshift, htwo, helen⟩ := readOptimized_row endian v
  refine ⟨k, t, s, p, hk, hv, hs, hp, hlen, hpre, ?_⟩
  rw [VarInt.format, new_eq_format, Entry.format, hshift, htwo, helen]

theorem format_rfcEncoding (endian : Endian) (v : VarInt) :
    (v.format endian).len = rfcLen v.val ∧
      (toNeBytes endian (v.format endian).encodedBe).take (v.format endian).len =
        rfcEncoding v.val := by
  obtain ⟨k, t, s, p, hk, hv, hs, hp, hlen, hpre, hf⟩ := format_row endian v
  have hx := toNat_ofNat_val v
  refine ⟨by rw [hf, hlen], ?_⟩
  rw [hf, take_toNeBytes_format endian _ s p k t hk (by rw [hx]; exact hv) hs hp, hx,
    rfcEncoding, hlen, hpre, show 8 * (k + 1) - 2 = 8 * k + 6 by omega]

/-! ## Decoding -/

theorem tag_toNat (h : UInt8) : ((h >>> 6) &&& 0b11).toNat = h.toNat / 64 := by
  have hlt := h.toNat_lt
  rw [UInt8.toNat_and, UInt8.toNat_shiftRight, Nat.shiftRight_eq_div_pow,
    show (0b11 : UInt8).toNat = 2 ^ 2 - 1 from rfl, Nat.and_two_pow_sub_one_eq_mod]
  simp only [UInt8.reduceToNat, Nat.reduceMod, Nat.reducePow]
  omega

theorem tag_lt (h : UInt8) : h.toNat / 64 < 4 := by
  have := h.toNat_lt; omega

theorem width_bits_le (h : UInt8) : 8 * 2 ^ (h.toNat / 64) - 2 ≤ 62 := by
  have : h.toNat / 64 = 0 ∨ h.toNat / 64 = 1 ∨ h.toNat / 64 = 2 ∨ h.toNat / 64 = 3 := by
    have := tag_lt h; omega
  rcases this with h0 | h0 | h0 | h0 <;> simp [h0]

theorem decode_cons (h : UInt8) (bs : List UInt8) :
    VarInt.decode (h :: bs) =
      if 2 ^ (h.toNat / 64) ≤ bs.length + 1 then
        .ok (VarInt.ofMasked (ofBeBytes ((h :: bs).take (2 ^ (h.toNat / 64))))
          (8 * 2 ^ (h.toNat / 64) - 2) (width_bits_le h), (h :: bs).drop (2 ^ (h.toNat / 64)))
      else .error (.unexpectedEof (2 ^ (h.toNat / 64))) := by
  have htag := tag_toNat h
  have hcases : h.toNat / 64 = 0 ∨ h.toNat / 64 = 1 ∨ h.toNat / 64 = 2 ∨ h.toNat / 64 = 3 := by
    have := tag_lt h; omega
  simp only [VarInt.decode, peekByte, List.getElem?_cons_zero, htag]
  rcases hcases with h0 | h0 | h0 | h0 <;> simp only [h0]
  · have h1 : (h :: bs).take 1 = [h] := rfl
    simp [skip, decodeSlice, ofBeBytes, Except.map, h1]
  all_goals
    split_ifs with hlen
    · rw [decodeUInt_long (by simp at hlen ⊢; omega)]
      simp
    · rw [decodeUInt_short (by simp at hlen ⊢; omega)]
      simp

theorem shiftRight_six_toNat (h : UInt8) : (h >>> 6).toNat = h.toNat / 64 := by
  rw [UInt8.toNat_shiftRight, Nat.shiftRight_eq_div_pow]; rfl

theorem decode_nil : VarInt.decode [] = .error (.unexpectedEof 0) := rfl

theorem decode_consumes (h : UInt8) (bs : List UInt8) :
    (bs.length + 1 < 2 ^ (h >>> 6).toNat ∧
        VarInt.decode (h :: bs) = .error (.unexpectedEof (2 ^ (h >>> 6).toNat))) ∨
      (2 ^ (h >>> 6).toNat ≤ bs.length + 1 ∧ ∃ v : VarInt, v.val ≤ maxVarintValue ∧
        VarInt.decode (h :: bs) = .ok (v, (h :: bs).drop (2 ^ (h >>> 6).toNat))) := by
  rw [shiftRight_six_toNat, decode_cons]
  by_cases hlen : 2 ^ (h.toNat / 64) ≤ bs.length + 1
  · exact .inr ⟨hlen, _, VarInt.le_max _, by rw [if_pos hlen]⟩
  · exact .inl ⟨by omega, by rw [if_neg hlen]⟩

theorem beBytes_prefix (L t v : Nat) (hL : 1 ≤ L) :
    ∃ bs, beBytes L (t * 2 ^ (8 * L - 2) + v) = UInt8.ofNat (t * 64 + v / 2 ^ (8 * (L - 1))) :: bs := by
  have hpow : 2 ^ (8 * L - 2) = 64 * 2 ^ (8 * (L - 1)) := by
    rw [show 8 * L - 2 = 6 + 8 * (L - 1) by omega, Nat.pow_add]
  have hsplit := beBytes_add 1 (L - 1) (t * 2 ^ (8 * L - 2) + v)
  rw [show 1 + (L - 1) = L by omega] at hsplit
  have hdiv : (t * 2 ^ (8 * L - 2) + v) / 2 ^ (8 * (L - 1)) = t * 64 + v / 2 ^ (8 * (L - 1)) := by
    rw [hpow, show t * (64 * 2 ^ (8 * (L - 1))) = t * 64 * 2 ^ (8 * (L - 1)) by ring,
      Nat.add_comm, Nat.add_mul_div_right _ _ (Nat.two_pow_pos _), Nat.add_comm]
  exact ⟨_, by rw [hsplit, hdiv]; rfl⟩

theorem rfcPrefix_lt (v : Nat) : rfcPrefix v < 4 := by
  unfold rfcPrefix; split_ifs <;> decide

theorem one_le_rfcLen (v : Nat) : 1 ≤ rfcLen v := by
  rw [rfcLen_eq_two_pow]; exact Nat.one_le_two_pow

theorem val_lt_rfcLen (v : VarInt) : v.val < 2 ^ (8 * rfcLen v.val - 2) := by
  have := v.val_lt
  unfold rfcLen; split_ifs <;> simp <;> omega

@[simp] theorem length_rfcEncoding (v : Nat) : (rfcEncoding v).length = rfcLen v := by
  simp [rfcEncoding]

theorem ofBeBytes_prefixed {L t v : Nat} (hL : 1 ≤ L) (ht : t < 4) (hv : v < 2 ^ (8 * L - 2)) :
    ofBeBytes (beBytes L (t * 2 ^ (8 * L - 2) + v)) = t * 2 ^ (8 * L - 2) + v := by
  have hfull : 2 ^ (8 * L) = 4 * 2 ^ (8 * L - 2) := by
    conv_lhs => rw [show 8 * L = 2 + (8 * L - 2) by omega]
    rw [Nat.pow_add]
  have hle : t * 2 ^ (8 * L - 2) ≤ 3 * 2 ^ (8 * L - 2) := Nat.mul_le_mul_right _ (by omega)
  have hlt : t * 2 ^ (8 * L - 2) + v < 2 ^ (8 * L) := by rw [hfull]; omega
  rw [ofBeBytes_beBytes, Nat.mod_eq_of_lt hlt]

theorem prefixed_head {L t v : Nat} (hL : 1 ≤ L) (ht : t < 4) (hv : v < 2 ^ (8 * L - 2)) :
    ∃ h bs, beBytes L (t * 2 ^ (8 * L - 2) + v) = h :: bs ∧ h.toNat / 64 = t := by
  obtain ⟨bs, hbs⟩ := beBytes_prefix L t v hL
  have hpow : 2 ^ (8 * L - 2) = 64 * 2 ^ (8 * (L - 1)) := by
    rw [show 8 * L - 2 = 6 + 8 * (L - 1) by omega, Nat.pow_add]
  have hquot : v / 2 ^ (8 * (L - 1)) < 64 :=
    Nat.div_lt_of_lt_mul (by rw [Nat.mul_comm, ← hpow]; exact hv)
  refine ⟨_, bs, hbs, ?_⟩
  rw [ByteOrder.toNat_ofNat_byte, show (2 : Nat) ^ 8 = 256 from rfl]
  generalize v / 2 ^ (8 * (L - 1)) = q at hquot ⊢
  omega

theorem rfcEncoding_head (v : VarInt) :
    ∃ h bs, rfcEncoding v.val = h :: bs ∧ h.toNat / 64 = rfcPrefix v.val :=
  prefixed_head (one_le_rfcLen v.val) (rfcPrefix_lt v.val) (val_lt_rfcLen v)

theorem decode_prefixed (t : Nat) (v : VarInt) (ht : t < 4) (hv : v.val < 2 ^ (8 * 2 ^ t - 2))
    (rest : List UInt8) :
    VarInt.decode (beBytes (2 ^ t) (t * 2 ^ (8 * 2 ^ t - 2) + v.val) ++ rest) = .ok (v, rest) := by
  have hL : 1 ≤ 2 ^ t := Nat.one_le_two_pow
  obtain ⟨h, bs, hbs, hhead⟩ := prefixed_head hL ht hv
  have hn : 2 ^ (h.toNat / 64) = 2 ^ t := by rw [hhead]
  have hlen := length_beBytes (2 ^ t) (t * 2 ^ (8 * 2 ^ t - 2) + v.val)
  have hword := ofBeBytes_prefixed hL ht hv
  rw [hbs, List.length_cons] at hlen
  rw [hbs, List.cons_append, decode_cons, if_pos (by rw [hn, List.length_append]; omega)]
  simp only [hn]
  rw [← List.cons_append, ← hbs, List.take_left' (by simp), List.drop_left' (by simp), hword]
  congr 2
  ext
  simp only [VarInt.ofMasked, Nat.and_two_pow_sub_one_eq_mod]
  rw [Nat.add_comm, Nat.mul_comm, Nat.add_mul_mod_self_left, Nat.mod_eq_of_lt hv]

theorem decode_rfcEncoding (v : VarInt) (rest : List UInt8) :
    VarInt.decode (rfcEncoding v.val ++ rest) = .ok (v, rest) := by
  have h := decode_prefixed (rfcPrefix v.val) v (rfcPrefix_lt _)
    (by rw [← rfcLen_eq_two_pow]; exact val_lt_rfcLen v) rest
  rwa [← rfcLen_eq_two_pow] at h

/-! ## Encoding into a buffer -/

theorem length_toNeBytes (endian : Endian) (w : UInt64) : (toNeBytes endian w).length = 8 := by
  cases endian <;> simp [toNeBytes]

theorem rfcLen_le_eight (v : Nat) : rfcLen v ≤ 8 := by
  unfold rfcLen; split_ifs <;> omega

theorem encode_spec (endian : Endian) (v : VarInt) (encoder : EncoderBuffer)
    (hcap : rfcLen v.val ≤ encoder.remainingCapacity) :
    ∃ encoder', v.encode endian encoder = some encoder' ∧
      encoder'.position = encoder.position + rfcLen v.val ∧
      encoder'.asSlice = encoder.asSlice ++ rfcEncoding v.val := by
  obtain ⟨hlen, hbytes⟩ := format_rfcEncoding endian v
  have hword := length_toNeBytes endian (v.format endian).encodedBe
  have hle8 := rfcLen_le_eight v.val
  unfold VarInt.encode Formatted.encode Formatted.encodeOversized Formatted.encodeMaybeUndersized
  split_ifs with hfast
  · -- the eight-byte fast path stores the whole word
    obtain ⟨e', he'⟩ := EncoderBuffer.writeSized_exists encoder (v.format endian).len
      (toNeBytes endian (v.format endian).encodedBe) (by rw [hlen]; exact hcap)
      (by rw [hword]; exact hfast)
    obtain ⟨hs, hp⟩ := EncoderBuffer.asSlice_writeSized he' (by rw [hword, hlen]; exact hle8)
    exact ⟨e', he', by rw [hp, hlen], by rw [hs, hbytes]⟩
  · have hsrc : ((toNeBytes endian (v.format endian).encodedBe).take
        (v.format endian).len).length = rfcLen v.val := by
      rw [List.length_take, hword, hlen, Nat.min_eq_left hle8]
    obtain ⟨e', he'⟩ := EncoderBuffer.writeSized_exists encoder (v.format endian).len
      ((toNeBytes endian (v.format endian).encodedBe).take (v.format endian).len)
      (by rw [hlen]; exact hcap) (by rw [hsrc]; exact hcap)
    obtain ⟨hs, hp⟩ := EncoderBuffer.asSlice_writeSized he' (by rw [hsrc, hlen])
    exact ⟨e', he', by rw [hp, hlen], by rw [hs, List.take_take, Nat.min_self, hbytes]⟩

/-- RFC 9000 Section 16 for `VarInt`: every value is written in its minimal length under the
matching prefix and read back from exactly those bytes; every byte string is either short
of the announced width or yields a `VarInt` after exactly that width; and the optimised table
computes the RFC table. -/
theorem varint_rfc_encoding (endian : Endian) :
    (∀ (v : VarInt) (encoder : EncoderBuffer), rfcLen v.val ≤ encoder.remainingCapacity →
      v.encodingSize endian = rfcLen v.val ∧
      (∃ encoder', v.encode endian encoder = some encoder' ∧
        encoder'.position = encoder.position + rfcLen v.val ∧
        encoder'.asSlice = encoder.asSlice ++ rfcEncoding v.val) ∧
      rfcLen v.val = 2 ^ rfcPrefix v.val ∧
      (∃ h bs, rfcEncoding v.val = h :: bs ∧ (h >>> 6).toNat = rfcPrefix v.val) ∧
      ∀ rest, VarInt.decode (rfcEncoding v.val ++ rest) = .ok (v, rest)) ∧
    VarInt.decode [] = .error (.unexpectedEof 0) ∧
    (∀ (h : UInt8) (bs : List UInt8),
      (bs.length + 1 < 2 ^ (h >>> 6).toNat ∧
          VarInt.decode (h :: bs) = .error (.unexpectedEof (2 ^ (h >>> 6).toNat))) ∨
        (2 ^ (h >>> 6).toNat ≤ bs.length + 1 ∧ ∃ v : VarInt, v.val ≤ maxVarintValue ∧
          VarInt.decode (h :: bs) = .ok (v, (h :: bs).drop (2 ^ (h >>> 6).toNat)))) ∧
    (∀ x : UInt64, x.toNat ≤ maxVarintValue →
      Entry.readRfc endian x = some (Entry.readOptimized endian x) ∧
        Formatted.new endian x = (Entry.readOptimized endian x).format endian x) := by
  refine ⟨fun v encoder hcap => ⟨(format_rfcEncoding endian v).1, encode_spec endian v encoder hcap,
    rfcLen_eq_two_pow v.val, ?_, decode_rfcEncoding v⟩, decode_nil, decode_consumes,
    fun x hx => ⟨readRfc_readOptimized endian x hx, new_eq_format endian x⟩⟩
  obtain ⟨h, bs, hbs, hhead⟩ := rfcEncoding_head v
  exact ⟨h, bs, hbs, by rw [shiftRight_six_toNat, hhead]⟩

theorem varint_rfc_encoding_15293 :
    rfcLen 15293 ≤ (⟨List.replicate 8 0, 0, by simp⟩ : EncoderBuffer).remainingCapacity ∧
      rfcEncoding 15293 = [0x7b, 0xbd] ∧
      VarInt.decode [0x7b, 0xbd] = .ok (⟨15293, by decide⟩, []) := by
  have hcap : rfcLen 15293 ≤ (⟨List.replicate 8 0, 0, by simp⟩ : EncoderBuffer).remainingCapacity := by
    decide
  have hrt := ((varint_rfc_encoding .little).1 ⟨15293, by decide⟩ _ hcap).2.2.2.2 []
  have henc : rfcEncoding 15293 = [0x7b, 0xbd] := by decide
  rw [henc] at hrt
  exact ⟨hcap, henc, hrt⟩

/-! ## Updating a placeholder -/

theorem encodingSize_eq_len (endian : Endian) (v : VarInt) :
    v.encodingSize endian = (Entry.read endian (UInt64.ofNat v.val)).len := by
  rw [VarInt.encodingSize, VarInt.format, new_eq_format]
  rfl

/-- `encode_updated` writes a replacement no longer than the placeholder in exactly the
placeholder's length: the bytes before the cursor and after those it writes stay, and the
written bytes decode to the replacement whatever follows them. -/
theorem encodeUpdated_spec (endian : Endian) (p r : VarInt) (encoder : EncoderBuffer)
    (hsize : r.encodingSize endian ≤ p.encodingSize endian)
    (hcap : p.encodingSize endian ≤ encoder.remainingCapacity) :
    ∃ encoder' bytes, p.encodeUpdated endian r encoder = some encoder' ∧
      bytes.length = p.encodingSize endian ∧
      encoder'.position = encoder.position + p.encodingSize endian ∧
      encoder'.bytes = encoder.asSlice ++ bytes ++
        encoder.bytes.drop (encoder.position + p.encodingSize endian) ∧
      ∀ rest, VarInt.decode (bytes ++ rest) = .ok (r, rest) := by
  obtain ⟨k, t, s, w, hk, -, hs, hw, hlen, hpre, hshift, htwo, helen⟩ := readOptimized_row endian p
  have hpsize : p.encodingSize endian = k + 1 := by rw [encodingSize_eq_len]; exact helen
  have hrsize : r.encodingSize endian = rfcLen r.val := (format_rfcEncoding endian r).1
  have hrv : r.val < 2 ^ (8 * k + 6) :=
    lt_of_lt_of_le (val_lt_rfcLen r) (Nat.pow_le_pow_right (by norm_num) (by omega))
  have hx := toNat_ofNat_val r
  have hbytes := take_toNeBytes_format endian (UInt64.ofNat r.val) s w k t hk
    (by rw [hx]; exact hrv) hs hw
  rw [hx] at hbytes
  have hf : (Entry.read endian (UInt64.ofNat p.val)).format endian (UInt64.ofNat r.val) =
      ⟨toBe endian (UInt64.ofNat r.val <<< s) ||| toBe endian w, k + 1⟩ := by
    rw [Entry.read, Entry.format, hshift, htwo, helen]
  -- the debug assertion compares the two rows' lengths, which are the encoding sizes
  unfold VarInt.encodeUpdated
  rw [if_pos (by rw [← encodingSize_eq_len, ← encodingSize_eq_len]; exact hsize), hf,
    Formatted.encodeMaybeUndersized]
  simp only []
  rw [hbytes]
  obtain ⟨e', he'⟩ := EncoderBuffer.writeSized_exists encoder (k + 1)
    (beBytes (k + 1) (t * 2 ^ (8 * k + 6) + r.val)) (by omega) (by rw [length_beBytes]; omega)
  refine ⟨e', beBytes (k + 1) (t * 2 ^ (8 * k + 6) + r.val), he', by rw [length_beBytes, hpsize],
    ?_, ?_, fun rest => ?_⟩
  · rw [(EncoderBuffer.asSlice_writeSized he' (by rw [length_beBytes])).2, hpsize]
  · rw [EncoderBuffer.bytes_writeSized he', length_beBytes, hpsize]
  · -- the placeholder's row is `2 ^ t` bytes under prefix `t`
    have hkt : k + 1 = 2 ^ t := by rw [← hlen, ← hpre, rfcLen_eq_two_pow]
    have h8 : 8 * k + 6 = 8 * 2 ^ t - 2 := by omega
    rw [hkt, h8]
    exact decode_prefixed t r (hpre ▸ rfcPrefix_lt _) (h8 ▸ hrv) rest

theorem encodeUpdated_spec_16384 :
    (⟨0, by decide⟩ : VarInt).encodingSize .little ≤
        (⟨16384, by decide⟩ : VarInt).encodingSize .little ∧
      (⟨16384, by decide⟩ : VarInt).encodingSize .little ≤
        (⟨List.replicate 8 0, 0, by simp⟩ : EncoderBuffer).remainingCapacity ∧
      ∃ encoder' bytes, (⟨16384, by decide⟩ : VarInt).encodeUpdated .little ⟨0, by decide⟩
          ⟨List.replicate 8 0, 0, by simp⟩ = some encoder' ∧ bytes.length = 4 ∧
        ∀ rest, VarInt.decode (bytes ++ rest) = .ok (⟨0, by decide⟩, rest) := by
  have hsize : (⟨0, by decide⟩ : VarInt).encodingSize .little ≤
      (⟨16384, by decide⟩ : VarInt).encodingSize .little := by decide
  have hcap : (⟨16384, by decide⟩ : VarInt).encodingSize .little ≤
      (⟨List.replicate 8 0, 0, by simp⟩ : EncoderBuffer).remainingCapacity := by decide
  obtain ⟨e', bytes, he, hlen, -, -, hdec⟩ := encodeUpdated_spec .little _ _ _ hsize hcap
  exact ⟨hsize, hcap, e', bytes, he, hlen.trans (by decide), hdec⟩

/-! ## Checked arithmetic -/

namespace VarInt

def checkedAdd (self value : VarInt) : Option VarInt := VarInt.new (self.val + value.val)

def checkedSub (self value : VarInt) : Option VarInt :=
  if h : value.val ≤ self.val then some ⟨self.val - value.val, by have := self.le_max; omega⟩
  else none

/-- `VarInt::from_u8`. -/
def fromU8 (v : UInt8) : VarInt := ⟨v.toNat, by have := v.toNat_lt; unfold maxVarintValue; omega⟩

@[simp] theorem fromU8_val (v : UInt8) : (fromU8 v).val = v.toNat := rfl

theorem ne_iff {a b : VarInt} : a ≠ b ↔ a.val ≠ b.val :=
  ⟨fun h hv => h (VarInt.ext hv), fun h he => h (congrArg val he)⟩

theorem checkedSub_of_le {a b : VarInt} (h : b.val ≤ a.val) :
    a.checkedSub b = some ⟨a.val - b.val, by have := a.le_max; omega⟩ := by
  simp [checkedSub, h]

theorem checkedSub_of_lt {a b : VarInt} (h : a.val < b.val) : a.checkedSub b = none := by
  simp [checkedSub, Nat.not_le.mpr h]

theorem checkedSub_eq_none {a b : VarInt} : a.checkedSub b = none ↔ a.val < b.val := by
  unfold checkedSub
  split_ifs with h
  · simp only [false_iff, Nat.not_lt]; exact h
  · simp only [true_iff]; omega

theorem checkedSub_eq_some {a b c : VarInt} : a.checkedSub b = some c ↔ b.val ≤ a.val ∧ c.val = a.val - b.val := by
  unfold checkedSub
  split_ifs with h
  · constructor
    · rintro ⟨⟩
      exact ⟨h, rfl⟩
    · rintro ⟨-, hc⟩
      exact congrArg some (VarInt.ext hc.symm)
  · simp [h]

theorem checkedAdd_of_le {a b : VarInt} (h : a.val + b.val ≤ maxVarintValue) :
    a.checkedAdd b = some ⟨a.val + b.val, h⟩ := by
  simp [checkedAdd, VarInt.new, h]

/-- `VarInt::saturating_sub`. -/
def saturatingSub (self value : VarInt) : VarInt :=
  ⟨self.val - value.val, by have := self.le_max; omega⟩

/-- `VarInt::saturating_add`: the `u64` sum cannot overflow, and above `MAX` it is `MAX`. -/
def saturatingAdd (self value : VarInt) : VarInt :=
  ⟨min (self.val + value.val) maxVarintValue, Nat.min_le_right _ _⟩

/-- `VarInt::from_u32`. -/
def fromU32 (v : UInt32) : VarInt :=
  ⟨v.toNat, by have := v.toNat_lt; unfold maxVarintValue; omega⟩

@[simp] theorem saturatingSub_val (a b : VarInt) : (a.saturatingSub b).val = a.val - b.val := rfl

@[simp] theorem saturatingAdd_val (a b : VarInt) :
    (a.saturatingAdd b).val = min (a.val + b.val) maxVarintValue := rfl

@[simp] theorem fromU32_val (v : UInt32) : (fromU32 v).val = v.toNat := rfl

/-! ## Order

Varints compare as their values. `core::cmp::min` and `max` keep the first and the second
argument when the two are equal, as `minOfLe` and `maxOfLe` do. -/

instance : LE VarInt := ⟨fun a b => a.val ≤ b.val⟩

instance : LT VarInt := ⟨fun a b => a.val < b.val⟩

instance (a b : VarInt) : Decidable (a ≤ b) := inferInstanceAs (Decidable (a.val ≤ b.val))

instance (a b : VarInt) : Decidable (a < b) := inferInstanceAs (Decidable (a.val < b.val))

instance : Min VarInt := minOfLe

instance : Max VarInt := maxOfLe

@[simp] theorem le_def {a b : VarInt} : a ≤ b ↔ a.val ≤ b.val := Iff.rfl

@[simp] theorem lt_def {a b : VarInt} : a < b ↔ a.val < b.val := Iff.rfl

@[simp] theorem min_val (a b : VarInt) : (min a b).val = min a.val b.val := by
  change (if a ≤ b then a else b).val = _
  split_ifs with h
  · exact (Nat.min_eq_left h).symm
  · exact (Nat.min_eq_right (by simp at h; omega)).symm

@[simp] theorem max_val (a b : VarInt) : (max a b).val = max a.val b.val := by
  change (if a ≤ b then b else a).val = _
  split_ifs with h
  · exact (Nat.max_eq_right h).symm
  · exact (Nat.max_eq_left (by simp at h; omega)).symm

end VarInt

/-! ## Decoding from a longer buffer -/

theorem decode_cons_ok {b : UInt8} {bs r : List UInt8} {v : VarInt}
    (h : VarInt.decode (b :: bs) = .ok (v, r)) :
    2 ^ (b.toNat / 64) ≤ bs.length + 1 ∧ r = (b :: bs).drop (2 ^ (b.toNat / 64)) ∧
      v = VarInt.ofMasked (ofBeBytes ((b :: bs).take (2 ^ (b.toNat / 64))))
        (8 * 2 ^ (b.toNat / 64) - 2) (width_bits_le b) := by
  rw [decode_cons] at h
  by_cases hlen : 2 ^ (b.toNat / 64) ≤ bs.length + 1
  · rw [if_pos hlen] at h
    obtain ⟨rfl, rfl⟩ := Prod.mk.inj (Except.ok.inj h)
    exact ⟨hlen, rfl, rfl⟩
  · rw [if_neg hlen] at h
    exact absurd h (by simp)

theorem decode_of_append {xs t r : List UInt8} {v : VarInt}
    (h : VarInt.decode (xs ++ t) = .ok (v, r)) (hr : t.length ≤ r.length) :
    ∃ r', r = r' ++ t ∧ VarInt.decode xs = .ok (v, r') := by
  cases xs with
  | nil =>
    cases t with
    | nil => simp [decode_nil] at h
    | cons b bs =>
      obtain ⟨-, rfl, -⟩ := decode_cons_ok (by simpa using h)
      have := Nat.one_le_two_pow (n := b.toNat / 64)
      simp at hr
      omega
  | cons b bs =>
    obtain ⟨hlen, rfl, rfl⟩ := decode_cons_ok (by simpa using h)
    simp only [List.length_drop, List.length_cons, List.length_append] at hr
    rw [List.length_append] at hlen
    have hk : 2 ^ (b.toNat / 64) ≤ (b :: bs).length := by simp; omega
    refine ⟨(b :: bs).drop (2 ^ (b.toNat / 64)), ?_, ?_⟩
    · rw [← List.cons_append, List.drop_append_of_le_length hk]
    · rw [decode_cons, if_pos (by simpa using hk), ← List.cons_append,
        List.take_append_of_le_length hk]

theorem decode_suffix {xs r : List UInt8} {v : VarInt} (h : VarInt.decode xs = .ok (v, r)) :
    r <:+ xs := by
  cases xs with
  | nil => simp [decode_nil] at h
  | cons b bs =>
    obtain ⟨-, rfl, -⟩ := decode_cons_ok h
    exact List.drop_suffix _ _

end S2nQuic.Varint
