import S2nQuic.Varint

/-!
# Packet numbers and their truncation (`packet/number`)

A `PacketNumber` is a 62-bit value in one of three packet number spaces. On the wire it
is reduced to its low 1 to 4 bytes (RFC 9000 Section 17.1): `truncate` picks the width
from twice the distance to the largest acknowledged packet number, `expand` (the
constant-time `decode_packet_number`, RFC 9000 Appendix A.3) recovers the full number
from the truncated one and the largest number seen.

The source packs the space into the two top bits of a `NonZeroU64`; the model keeps the
space and the 62-bit value side by side, which is what `space` and `as_u64` read back.
The arithmetic of `decode_packet_number` is kept on `UInt64`, as in the source; its value is
the RFC's `DecodePacketNumber` read on unbounded integers (`rfcDecodePacketNumber`), clamped to
`VarInt::MAX`.
-/

namespace S2nQuic.Packet
open ByteOrder Codec Varint

inductive PacketNumberSpace
  | initial
  | handshake
  | applicationData
  deriving DecidableEq, Repr

structure PacketNumber where
  space : PacketNumberSpace
  value : VarInt
  deriving DecidableEq

def PacketNumberSpace.newPacketNumber (space : PacketNumberSpace) (value : VarInt) :
    PacketNumber :=
  ⟨space, value⟩

def PacketNumber.asU64 (pn : PacketNumber) : Nat := pn.value.val

def PacketNumber.asVarint (pn : PacketNumber) : VarInt := pn.value

def PacketNumberSpace.asTag : PacketNumberSpace → Nat
  | .initial => 1
  | .handshake => 2
  | .applicationData => 3

/-- The `u64` a packet number is stored as: the space's tag above the 62-bit value. -/
def PacketNumber.packed (pn : PacketNumber) : Nat := pn.space.asTag * 2 ^ 62 + pn.asU64

/-- `Ord for PacketNumber` compares the stored words. -/
def PacketNumber.lt (a b : PacketNumber) : Bool := decide (a.packed < b.packed)

/-- `PacketNumberRange`, an inclusive range of packet numbers: `new` asserts `start <= end`, and
the comparison asserts that the two share a space. -/
structure PacketNumberRange where
  start : PacketNumber
  «end» : PacketNumber
  sameSpace : start.space = «end».space
  le : start.asU64 ≤ «end».asU64

inductive PacketNumberLenValue
  | u8
  | u16
  | u24
  | u32
  deriving DecidableEq, Repr

structure PacketNumberLen where
  space : PacketNumberSpace
  value : PacketNumberLenValue
  deriving DecidableEq

namespace PacketNumberLenValue

def u8Max : Nat := 2 ^ 8 - 1
def u16Max : Nat := 2 ^ 16 - 1
def u24Max : Nat := 2 ^ 24 - 1
def u32Max : Nat := 2 ^ 32 - 1

def intoPacketTagMask : PacketNumberLenValue → UInt8
  | u8 => 0
  | u16 => 1
  | u24 => 2
  | u32 => 3

def bytesize : PacketNumberLenValue → Nat
  | u8 => 1
  | u16 => 2
  | u24 => 3
  | u32 => 4

def bitsize (v : PacketNumberLenValue) : Nat := v.bytesize * 8

/-- `from_packet_tag`: the two low bits of the tag; the mask leaves no fifth value. -/
def fromPacketTag (tag : UInt8) : PacketNumberLenValue :=
  match (tag &&& 0b11).toNat with
  | 0 => u8
  | 1 => u16
  | 2 => u24
  | _ => u32

def fromVarint (value : VarInt) : Option PacketNumberLenValue :=
  if value.val ≤ u8Max then some u8
  else if value.val ≤ u16Max then some u16
  else if value.val ≤ u24Max then some u24
  else if value.val ≤ u32Max then some u32
  else none

end PacketNumberLenValue

def PacketNumberLen.bytesize (len : PacketNumberLen) : Nat := len.value.bytesize

def PacketNumberLen.bitsize (len : PacketNumberLen) : Nat := len.value.bitsize

def PacketNumberLen.intoPacketTagMask (len : PacketNumberLen) : UInt8 :=
  len.value.intoPacketTagMask

def PacketNumberLen.fromPacketTag (tag : UInt8) (space : PacketNumberSpace) : PacketNumberLen :=
  ⟨space, PacketNumberLenValue.fromPacketTag tag⟩

def PacketNumberLen.fromVarint (value : VarInt) (space : PacketNumberSpace) :
    Option PacketNumberLen :=
  (PacketNumberLenValue.fromVarint value).map fun v => ⟨space, v⟩

/-- `u24` of `s2n-codec`: a `u32` storage kept below `2 ^ 24`. -/
abbrev U24 := Fin (2 ^ 24)

/-- `u24::new_truncated`. -/
def U24.newTruncated (value : UInt32) : U24 :=
  ⟨value.toNat &&& (2 ^ 24 - 1), by
    rw [Nat.and_two_pow_sub_one_eq_mod]; exact Nat.mod_lt _ (Nat.two_pow_pos _)⟩

inductive TruncatedPacketNumberValue
  | u8 (value : UInt8)
  | u16 (value : UInt16)
  | u24 (value : U24)
  | u32 (value : UInt32)
  deriving DecidableEq

structure TruncatedPacketNumber where
  space : PacketNumberSpace
  value : TruncatedPacketNumberValue
  deriving DecidableEq

namespace TruncatedPacketNumberValue

def intoU64 : TruncatedPacketNumberValue → Nat
  | u8 v => v.toNat
  | u16 v => v.toNat
  | u24 v => v.val
  | u32 v => v.toNat

def len : TruncatedPacketNumberValue → PacketNumberLenValue
  | u8 _ => .u8
  | u16 _ => .u16
  | u24 _ => .u24
  | u32 _ => .u32

end TruncatedPacketNumberValue

namespace TruncatedPacketNumber

def len (t : TruncatedPacketNumber) : PacketNumberLen := ⟨t.space, t.value.len⟩

def intoU64 (t : TruncatedPacketNumber) : Nat := t.value.intoU64

def bitsize (t : TruncatedPacketNumber) : Nat := t.len.bitsize

/-- `EncoderValue for TruncatedPacketNumber`: the value in its own width, network order. -/
def encode (t : TruncatedPacketNumber) (encoder : EncoderBuffer) : Option EncoderBuffer :=
  encoder.encodeUInt t.len.bytesize t.intoU64

end TruncatedPacketNumber

/-- `PacketNumberLenValue::truncate_packet_number`: the `as` casts keep the low bytes. -/
def PacketNumberLenValue.truncatePacketNumber (len : PacketNumberLenValue) (value : VarInt)
    (space : PacketNumberSpace) : TruncatedPacketNumber :=
  match len with
  | .u8 => ⟨space, .u8 (UInt8.ofNat value.val)⟩
  | .u16 => ⟨space, .u16 (UInt16.ofNat value.val)⟩
  | .u24 => ⟨space, .u24 (U24.newTruncated (UInt32.ofNat value.val))⟩
  | .u32 => ⟨space, .u32 (UInt32.ofNat value.val)⟩

def PacketNumberLen.truncatePacketNumber (len : PacketNumberLen) (value : VarInt) :
    TruncatedPacketNumber :=
  len.value.truncatePacketNumber value len.space

/-- `PacketNumberLenValue::decode_truncated_packet_number`. -/
def PacketNumberLenValue.decodeTruncatedPacketNumber (len : PacketNumberLenValue)
    (buffer : DecoderBuffer) (space : PacketNumberSpace) :
    DecoderBufferResult TruncatedPacketNumber :=
  match len with
  | .u8 => match decodeUInt 1 buffer with
    | .ok (v, buffer) => .ok (⟨space, .u8 (UInt8.ofNat v)⟩, buffer)
    | .error err => .error err
  | .u16 => match decodeUInt 2 buffer with
    | .ok (v, buffer) => .ok (⟨space, .u16 (UInt16.ofNat v)⟩, buffer)
    | .error err => .error err
  | .u24 => match decodeUInt 3 buffer with
    | .ok (v, buffer) => .ok (⟨space, .u24 (Fin.ofNat _ v)⟩, buffer)
    | .error err => .error err
  | .u32 => match decodeUInt 4 buffer with
    | .ok (v, buffer) => .ok (⟨space, .u32 (UInt32.ofNat v)⟩, buffer)
    | .error err => .error err

def PacketNumberLen.decodeTruncatedPacketNumber (len : PacketNumberLen) (buffer : DecoderBuffer) :
    DecoderBufferResult TruncatedPacketNumber :=
  len.value.decodeTruncatedPacketNumber buffer len.space

/-! ## Truncation and expansion -/

/-- `u64::checked_sub` and friends on the model's `u64` values. -/
def checkedSub (a b : UInt64) : Option UInt64 := if b ≤ a then some (a - b) else none

def checkedAdd (a b : UInt64) : Option UInt64 :=
  if a.toNat + b.toNat < 2 ^ 64 then some (a + b) else none

def checkedMul (a b : UInt64) : Option UInt64 :=
  if a.toNat * b.toNat < 2 ^ 64 then some (a * b) else none

def deriveTruncationRange (largestAcknowledgedPacketNumber packetNumber : PacketNumber) :
    Option PacketNumberLen := do
  let space := packetNumber.space
  let value ← checkedSub (UInt64.ofNat packetNumber.asU64)
    (UInt64.ofNat largestAcknowledgedPacketNumber.asU64)
  let value ← checkedMul value 2
  let value ← VarInt.new value.toNat
  PacketNumberLen.fromVarint value space

def PacketNumber.truncate (pn largestAcknowledgedPacketNumber : PacketNumber) :
    Option TruncatedPacketNumber := do
  let len ← deriveTruncationRange largestAcknowledgedPacketNumber pn
  pure (len.truncatePacketNumber pn.asVarint)

/-- `decode_packet_number`: RFC 9000 Appendix A.3 with the branches turned into flags. -/
def decodePacketNumber (largestPn : PacketNumber) (truncatedPn : TruncatedPacketNumber) :
    PacketNumber :=
  let space := largestPn.space
  let pnNbits := truncatedPn.bitsize
  let expectedPn : UInt64 := UInt64.ofNat largestPn.asU64 + 1
  let pnWin : UInt64 := 1 <<< UInt64.ofNat pnNbits
  let pnHwin := pnWin / 2
  let pnMask := pnWin - 1
  let candidatePn := (expectedPn &&& ~~~pnMask) ||| UInt64.ofNat truncatedPn.intoU64
  let a := ((checkedSub expectedPn pnHwin).filter (candidatePn ≤ ·)).isSome
  let b := ((checkedSub ((1 : UInt64) <<< 62) pnWin).filter (candidatePn < ·)).isSome
  let c := ((checkedAdd expectedPn pnHwin).filter (candidatePn > ·)).isSome
  let d := candidatePn ≥ pnWin
  let ab := a && b
  let cd := !ab && c && d
  let candidatePn := if ab then candidatePn + pnWin else candidatePn
  let candidatePn := if cd then candidatePn - pnWin else candidatePn
  space.newPacketNumber ((VarInt.new candidatePn.toNat).getD VarInt.MAX)

def TruncatedPacketNumber.expand (t : TruncatedPacketNumber)
    (largestAcknowledgedPacketNumber : PacketNumber) : PacketNumber :=
  decodePacketNumber largestAcknowledgedPacketNumber t

/-! ## Truncation -/

theorem bitsize_cases (len : PacketNumberLenValue) :
    len.bitsize = 8 ∨ len.bitsize = 16 ∨ len.bitsize = 24 ∨ len.bitsize = 32 := by
  cases len <;> simp [PacketNumberLenValue.bitsize, PacketNumberLenValue.bytesize]

theorem fromVarint_lt {value : VarInt} {len : PacketNumberLenValue}
    (h : PacketNumberLenValue.fromVarint value = some len) : value.val < 2 ^ len.bitsize := by
  unfold PacketNumberLenValue.fromVarint at h
  split_ifs at h with h1 h2 h3 h4 <;> cases h <;>
    simp only [PacketNumberLenValue.bitsize, PacketNumberLenValue.bytesize,
      PacketNumberLenValue.u8Max, PacketNumberLenValue.u16Max, PacketNumberLenValue.u24Max,
      PacketNumberLenValue.u32Max] at * <;> omega

theorem intoU64_truncatePacketNumber (len : PacketNumberLenValue) (value : VarInt)
    (space : PacketNumberSpace) :
    (len.truncatePacketNumber value space).intoU64 = value.val % 2 ^ len.bitsize ∧
      (len.truncatePacketNumber value space).len = ⟨space, len⟩ ∧
      (len.truncatePacketNumber value space).space = space := by
  have hmask : ∀ x : Nat, x &&& 16777215 = x % 16777216 := fun x =>
    Nat.and_two_pow_sub_one_eq_mod x 24
  cases len <;>
    simp [PacketNumberLenValue.truncatePacketNumber, TruncatedPacketNumber.intoU64,
      TruncatedPacketNumberValue.intoU64, TruncatedPacketNumber.len,
      TruncatedPacketNumberValue.len, PacketNumberLenValue.bitsize,
      PacketNumberLenValue.bytesize, U24.newTruncated, UInt32.toNat_ofNat',
      UInt8.toNat_ofNat', UInt16.toNat_ofNat', hmask]

theorem truncate_spec {pn largest : PacketNumber} {t : TruncatedPacketNumber}
    (ht : pn.truncate largest = some t) :
    largest.asU64 ≤ pn.asU64 ∧ 2 * (pn.asU64 - largest.asU64) < 2 ^ t.bitsize ∧
      t.intoU64 = pn.asU64 % 2 ^ t.bitsize ∧ t.space = pn.space := by
  have hpn := pn.value.val_lt
  have hla := largest.value.val_lt
  have hsize : UInt64.size = 2 ^ 64 := rfl
  have hpnU : (UInt64.ofNat pn.asU64).toNat = pn.asU64 :=
    UInt64.toNat_ofNat_of_lt' (by unfold PacketNumber.asU64; omega)
  have hlaU : (UInt64.ofNat largest.asU64).toNat = largest.asU64 :=
    UInt64.toNat_ofNat_of_lt' (by unfold PacketNumber.asU64; omega)
  simp only [PacketNumber.truncate, deriveTruncationRange, Option.bind_eq_bind,
    Option.bind_eq_some_iff, Option.pure_def, Option.some.injEq] at ht
  obtain ⟨len, ⟨d, hd, d2, hd2, v, hv, hlen⟩, rfl⟩ := ht
  unfold checkedSub at hd
  unfold checkedMul at hd2
  split_ifs at hd hd2 with hsub hmul
  cases hd
  cases hd2
  simp only [PacketNumberLen.fromVarint, Option.map_eq_some_iff] at hlen
  obtain ⟨lv, hlv, rfl⟩ := hlen
  have hlt := fromVarint_lt hlv
  unfold VarInt.new at hv
  split_ifs at hv with hmax
  cases hv
  obtain ⟨hbits, hlen, hsp⟩ := intoU64_truncatePacketNumber lv pn.asVarint pn.space
  rw [UInt64.le_iff_toNat_le, hpnU, hlaU] at hsub
  have hval : (UInt64.ofNat pn.asU64 - UInt64.ofNat largest.asU64).toNat =
      pn.asU64 - largest.asU64 := by
    rw [UInt64.toNat_sub_of_le _ _ (by rw [UInt64.le_iff_toNat_le, hpnU, hlaU]; exact hsub),
      hpnU, hlaU]
  have hmul' : ((UInt64.ofNat pn.asU64 - UInt64.ofNat largest.asU64) * 2).toNat =
      2 * (pn.asU64 - largest.asU64) := by
    rw [UInt64.toNat_mul, hval]; simp only [UInt64.reduceToNat]
    rw [hval] at hmul; simp only [UInt64.reduceToNat] at hmul
    rw [Nat.mod_eq_of_lt hmul]; ring
  refine ⟨hsub, ?_, ?_, hsp⟩
  · change 2 * (pn.asU64 - largest.asU64) <
      2 ^ (lv.truncatePacketNumber pn.asVarint pn.space).len.bitsize
    rw [hlen, ← hmul']; exact hlt
  · change (lv.truncatePacketNumber pn.asVarint pn.space).intoU64 =
      pn.asU64 % 2 ^ (lv.truncatePacketNumber pn.asVarint pn.space).len.bitsize
    rw [hbits, hlen]; rfl

/-! ## The truncated number on the wire -/

theorem fromPacketTag_intoPacketTagMask (len : PacketNumberLenValue) :
    PacketNumberLenValue.fromPacketTag len.intoPacketTagMask = len := by
  cases len <;> rfl

theorem decodeTruncatedPacketNumber_encode (t : TruncatedPacketNumber) (rest : List UInt8) :
    (PacketNumberLen.fromPacketTag t.len.intoPacketTagMask t.space).decodeTruncatedPacketNumber
      (beBytes t.len.bytesize t.intoU64 ++ rest) = .ok (t, rest) := by
  obtain ⟨space, value⟩ := t
  simp only [PacketNumberLen.fromPacketTag, PacketNumberLen.intoPacketTagMask,
    PacketNumberLen.decodeTruncatedPacketNumber, TruncatedPacketNumber.len,
    TruncatedPacketNumber.intoU64, PacketNumberLen.bytesize, fromPacketTag_intoPacketTagMask]
  cases value with
  | u8 x =>
    simp [TruncatedPacketNumberValue.len, TruncatedPacketNumberValue.intoU64,
      PacketNumberLenValue.decodeTruncatedPacketNumber, PacketNumberLenValue.bytesize,
      decodeUInt_beBytes, Nat.mod_eq_of_lt x.toNat_lt]
  | u16 x =>
    simp [TruncatedPacketNumberValue.len, TruncatedPacketNumberValue.intoU64,
      PacketNumberLenValue.decodeTruncatedPacketNumber, PacketNumberLenValue.bytesize,
      decodeUInt_beBytes, Nat.mod_eq_of_lt x.toNat_lt]
  | u24 x =>
    have hx : (x : Nat) % 16777216 = x := Nat.mod_eq_of_lt x.isLt
    simp [TruncatedPacketNumberValue.len, TruncatedPacketNumberValue.intoU64,
      PacketNumberLenValue.decodeTruncatedPacketNumber, PacketNumberLenValue.bytesize,
      decodeUInt_beBytes, hx]
  | u32 x =>
    simp [TruncatedPacketNumberValue.len, TruncatedPacketNumberValue.intoU64,
      PacketNumberLenValue.decodeTruncatedPacketNumber, PacketNumberLenValue.bytesize,
      decodeUInt_beBytes, Nat.mod_eq_of_lt x.toNat_lt]

theorem encode_spec (t : TruncatedPacketNumber) (encoder : EncoderBuffer)
    (hcap : t.len.bytesize ≤ encoder.remainingCapacity) :
    ∃ encoder', t.encode encoder = some encoder' ∧
      encoder'.asSlice = encoder.asSlice ++ beBytes t.len.bytesize t.intoU64 := by
  obtain ⟨e', he'⟩ := EncoderBuffer.writeSized_exists encoder t.len.bytesize
    (beBytes t.len.bytesize t.intoU64) hcap (by rw [length_beBytes]; exact hcap)
  obtain ⟨hs, -⟩ := EncoderBuffer.asSlice_writeSized he' (by rw [length_beBytes])
  refine ⟨e', he', ?_⟩
  rw [hs, List.take_of_length_le (by rw [length_beBytes])]

/-! ## Expansion -/

theorem isSome_filter_checkedSub (a b : UInt64) (p : UInt64 → Bool) :
    ((checkedSub a b).filter p).isSome = (decide (b.toNat ≤ a.toNat) && p (a - b)) := by
  unfold checkedSub
  by_cases h : b ≤ a
  · rw [if_pos h, decide_eq_true (UInt64.le_iff_toNat_le.mp h)]
    cases hp : p (a - b) <;> simp [Option.filter, hp]
  · rw [if_neg h, decide_eq_false (fun h' => h (UInt64.le_iff_toNat_le.mpr h'))]
    rfl

theorem isSome_filter_checkedAdd (a b : UInt64) (p : UInt64 → Bool) :
    ((checkedAdd a b).filter p).isSome = (decide (a.toNat + b.toNat < 2 ^ 64) && p (a + b)) := by
  unfold checkedAdd
  by_cases h : a.toNat + b.toNat < 2 ^ 64
  · rw [if_pos h, decide_eq_true h]
    cases hp : p (a + b) <;> simp [Option.filter, hp]
  · rw [if_neg h, decide_eq_false h]
    rfl

/-! The three window tests of `decode_packet_number`, read on the numbers the words hold. -/

theorem checkedSub_filter_le (a b c : UInt64) :
    ((checkedSub a b).filter (c ≤ ·)).isSome =
      decide (b.toNat ≤ a.toNat ∧ c.toNat ≤ a.toNat - b.toNat) := by
  rw [isSome_filter_checkedSub]
  by_cases h : b.toNat ≤ a.toNat
  · simp [h, UInt64.le_iff_toNat_le, UInt64.toNat_sub_of_le _ _ (UInt64.le_iff_toNat_le.mpr h)]
  · simp [h]

theorem checkedSub_filter_lt (a b c : UInt64) :
    ((checkedSub a b).filter (c < ·)).isSome =
      decide (b.toNat ≤ a.toNat ∧ c.toNat < a.toNat - b.toNat) := by
  rw [isSome_filter_checkedSub]
  by_cases h : b.toNat ≤ a.toNat
  · simp [h, UInt64.lt_iff_toNat_lt, UInt64.toNat_sub_of_le _ _ (UInt64.le_iff_toNat_le.mpr h)]
  · simp [h]

theorem checkedAdd_filter_gt (a b c : UInt64) :
    ((checkedAdd a b).filter (c > ·)).isSome =
      decide (a.toNat + b.toNat < 2 ^ 64 ∧ c.toNat > a.toNat + b.toNat) := by
  rw [isSome_filter_checkedAdd]
  by_cases h : a.toNat + b.toNat < 2 ^ 64
  · have hsum : (a + b).toNat = a.toNat + b.toNat := by
      rw [UInt64.toNat_add]; exact Nat.mod_eq_of_lt h
    simp only [h, decide_true, Bool.true_and, true_and, gt_iff_lt, UInt64.lt_iff_toNat_lt, hsum]
  · simp only [h, decide_false, Bool.false_and, false_and]

theorem window_arith (L P k tv : Nat) (hk : k = 8 ∨ k = 16 ∨ k = 24 ∨ k = 32)
    (hP : P < 2 ^ 62) (hle : L ≤ P) (hwin : 2 * (P - L) < 2 ^ k) (htv : tv = P % 2 ^ k) :
    let E := L + 1
    let W := 2 ^ k
    let C := E / W * W + tv
    let a := W / 2 ≤ E ∧ C ≤ E - W / 2
    let b := W ≤ 2 ^ 62 ∧ C < 2 ^ 62 - W
    let c := E + W / 2 < 2 ^ 64 ∧ C > E + W / 2
    let d := W ≤ C
    (a ∧ b → C + W = P ∧ C + W < 2 ^ 64) ∧ ((¬(a ∧ b) ∧ c) ∧ d → C - W = P) ∧
      (¬(a ∧ b) → ¬((¬(a ∧ b) ∧ c) ∧ d) → C = P) := by
  intro E W C a b c d
  rcases hk with rfl | rfl | rfl | rfl <;>
    simp only [E, W, C, a, b, c, d] <;> refine ⟨?_, ?_, ?_⟩ <;> omega

theorem toNat_expectedPn (largest : PacketNumber) :
    (UInt64.ofNat largest.asU64 + 1).toNat = largest.asU64 + 1 := by
  have := largest.value.val_lt
  have hsize : UInt64.size = 2 ^ 64 := rfl
  rw [UInt64.toNat_add, UInt64.toNat_ofNat_of_lt' (by unfold PacketNumber.asU64; omega)]
  simp only [UInt64.reduceToNat]
  exact Nat.mod_eq_of_lt (by unfold PacketNumber.asU64; omega)

theorem toNat_pnWin (k : Nat) (hk : k < 64) : ((1 : UInt64) <<< UInt64.ofNat k).toNat = 2 ^ k := by
  have hsize : UInt64.size = 2 ^ 64 := rfl
  rw [UInt64.toNat_shiftLeft, UInt64.toNat_ofNat_of_lt' (by omega : k < UInt64.size)]
  simp only [UInt64.reduceToNat, Nat.mod_eq_of_lt hk, Nat.shiftLeft_eq, Nat.one_mul]
  exact Nat.mod_eq_of_lt (Nat.pow_lt_pow_right (by omega) hk)

theorem toNat_candidatePn (e : UInt64) (k tv : Nat) (hk : k < 64) (htv : tv < 2 ^ k) :
    ((e &&& ~~~((1 <<< UInt64.ofNat k) - 1)) ||| UInt64.ofNat tv).toNat =
      e.toNat / 2 ^ k * 2 ^ k + tv := by
  have hW := toNat_pnWin k hk
  have hpos : 1 ≤ 2 ^ k := Nat.one_le_two_pow
  have hlt64 : 2 ^ k < 2 ^ 64 := Nat.pow_lt_pow_right (by omega) hk
  have hmask : ((1 : UInt64) <<< UInt64.ofNat k - 1).toNat = 2 ^ k - 1 := by
    rw [UInt64.toNat_sub_of_le _ _ (by rw [UInt64.le_iff_toNat_le, hW]; exact hpos), hW]; rfl
  rw [UInt64.toNat_or, UInt64.toNat_and, UInt64.toNat_not, hmask,
    UInt64.toNat_ofNat_of_lt' (by simp only [UInt64.size]; omega),
    show UInt64.size - 1 - (2 ^ k - 1) = 2 ^ 64 - 1 - (2 ^ k - 1) from rfl,
    land_clear_low _ _ e.toNat_lt (by omega), Nat.mul_comm, Nat.two_pow_add_eq_or_of_lt htv]

theorem intoU64_lt (t : TruncatedPacketNumber) : t.intoU64 < 2 ^ t.bitsize := by
  rcases t with ⟨space, v | v | v | v⟩
  · exact v.toNat_lt
  · exact v.toNat_lt
  · exact v.isLt
  · exact v.toNat_lt

theorem PacketNumber.ext_asU64 {a b : PacketNumber} (hs : a.space = b.space)
    (hv : a.asU64 = b.asU64) : a = b := by
  cases a; cases b
  cases hs
  exact congrArg _ (VarInt.ext hv)

theorem asU64_newPacketNumber_getD (space : PacketNumberSpace) (n : Nat) :
    (space.newPacketNumber ((VarInt.new n).getD VarInt.MAX)).asU64 = min n (2 ^ 62 - 1) := by
  unfold PacketNumber.asU64 PacketNumberSpace.newPacketNumber
  by_cases h : n ≤ maxVarintValue
  · rw [VarInt.new_of_le h, Option.getD_some, Nat.min_eq_left (maxVarintValue_eq ▸ h)]
  · rw [VarInt.new_of_lt (Nat.lt_of_not_le h), Option.getD_none,
      Nat.min_eq_right (by rw [maxVarintValue_eq] at h; omega)]
    rfl

theorem toNat_ite_add_sub (c w : UInt64) (p q : Prop) [Decidable p] [Decidable q]
    (hadd : p → c.toNat + w.toNat < 2 ^ 64) (hsub : q → w.toNat ≤ c.toNat) :
    (if ¬p ∧ q then (if p then c + w else c) - w else if p then c + w else c).toNat =
      if p then c.toNat + w.toNat else if q then c.toNat - w.toNat else c.toNat := by
  by_cases hp : p
  · simp only [hp, not_true_eq_false, false_and, if_false, if_true, UInt64.toNat_add,
      Nat.mod_eq_of_lt (hadd hp)]
  · by_cases hq : q
    · simp only [hp, hq, not_false_eq_true, and_self, if_true, if_false]
      exact UInt64.toNat_sub_of_le _ _ (UInt64.le_iff_toNat_le.mpr (hsub hq))
    · simp only [hp, hq, and_false, if_false]

theorem decodePacketNumber_asU64 (largest : PacketNumber) (t : TruncatedPacketNumber) :
    let E := largest.asU64 + 1
    let W := 2 ^ t.bitsize
    let C := E / W * W + t.intoU64
    (decodePacketNumber largest t).asU64 =
      min (if (W / 2 ≤ E ∧ C ≤ E - W / 2) ∧ (W ≤ 2 ^ 62 ∧ C < 2 ^ 62 - W) then C + W
        else if (E + W / 2 < 2 ^ 64 ∧ C > E + W / 2) ∧ W ≤ C then C - W else C)
        (2 ^ 62 - 1) := by
  have hk : t.bitsize = 8 ∨ t.bitsize = 16 ∨ t.bitsize = 24 ∨ t.bitsize = 32 :=
    bitsize_cases t.len.value
  have hk64 : t.bitsize < 64 := by omega
  have hW := toNat_pnWin t.bitsize hk64
  have hH : ((1 : UInt64) <<< UInt64.ofNat t.bitsize / 2).toNat = 2 ^ t.bitsize / 2 := by
    rw [UInt64.toNat_div, hW]; rfl
  have hC := toNat_candidatePn (UInt64.ofNat largest.asU64 + 1) t.bitsize t.intoU64 hk64
    (intoU64_lt t)
  rw [toNat_expectedPn] at hC
  have h62 : ((1 : UInt64) <<< 62).toNat = 2 ^ 62 := by decide
  unfold decodePacketNumber
  simp only [checkedSub_filter_le, checkedSub_filter_lt, checkedAdd_filter_gt]
  simp only [ge_iff_le, UInt64.le_iff_toNat_le, toNat_expectedPn, hW, hH, hC, h62]
  simp only [Bool.and_eq_true, Bool.not_eq_true', decide_eq_true_eq, Bool.eq_false_iff, ne_eq,
    and_assoc]
  rw [asU64_newPacketNumber_getD]
  congr 1
  generalize (UInt64.ofNat largest.asU64 + 1 &&& ~~~((1 : UInt64) <<< UInt64.ofNat t.bitsize - 1) |||
    UInt64.ofNat t.intoU64) = c at hC ⊢
  generalize (1 : UInt64) <<< UInt64.ofNat t.bitsize = w at hW ⊢
  rw [toNat_ite_add_sub c w _ _ (fun h => by omega) (fun h => by omega), hC, hW]

theorem decodePacketNumber_eq (largest : PacketNumber) (t : TruncatedPacketNumber) (pn : VarInt)
    (ht : t.intoU64 = pn.val % 2 ^ t.bitsize) (hle : largest.asU64 ≤ pn.val)
    (hwin : 2 * (pn.val - largest.asU64) < 2 ^ t.bitsize) :
    decodePacketNumber largest t = largest.space.newPacketNumber pn := by
  have hk : t.bitsize = 8 ∨ t.bitsize = 16 ∨ t.bitsize = 24 ∨ t.bitsize = 32 :=
    bitsize_cases t.len.value
  obtain ⟨hab, hcd, hnone⟩ :=
    window_arith largest.asU64 pn.val t.bitsize t.intoU64 hk pn.val_lt hle hwin ht
  have hP := pn.val_lt
  refine PacketNumber.ext_asU64 rfl ?_
  rw [decodePacketNumber_asU64]
  -- each branch the code takes lands on `pn`, which is below the clamp
  split_ifs with h₁ h₂
  · have := (hab h₁).1
    exact (Nat.min_eq_left (by omega)).trans this
  · have := hcd ⟨⟨h₁, h₂.1⟩, h₂.2⟩
    exact (Nat.min_eq_left (by omega)).trans this
  · have := hnone h₁ (fun h => h₂ ⟨h.1.2, h.2⟩)
    exact (Nat.min_eq_left (by omega)).trans this

/-! ## Round trip -/

/-- A packet number truncated against the largest acknowledged one of its space is sent as
`bytesize` bytes that the length read from the packet tag decodes back, and expanding the
decoded number against the same largest acknowledged one gives the packet number back. -/
theorem truncate_expand_round_trip {pn largest : PacketNumber} {t : TruncatedPacketNumber}
    (hspace : pn.space = largest.space) (ht : pn.truncate largest = some t) :
    (∀ encoder : EncoderBuffer, t.len.bytesize ≤ encoder.remainingCapacity →
      ∃ encoder' bytes, t.encode encoder = some encoder' ∧
        encoder'.asSlice = encoder.asSlice ++ bytes ∧ bytes.length = t.len.bytesize ∧
        ∀ rest, (PacketNumberLen.fromPacketTag t.len.intoPacketTagMask
          largest.space).decodeTruncatedPacketNumber (bytes ++ rest) = .ok (t, rest)) ∧
    t.expand largest = pn := by
  obtain ⟨hle, hwin, hbits, htsp⟩ := truncate_spec ht
  refine ⟨fun encoder hcap => ?_, ?_⟩
  · obtain ⟨encoder', henc, hslice⟩ := encode_spec t encoder hcap
    refine ⟨encoder', _, henc, hslice, length_beBytes _ _, fun rest => ?_⟩
    rw [← hspace, ← htsp]
    exact decodeTruncatedPacketNumber_encode t rest
  · rw [TruncatedPacketNumber.expand, decodePacketNumber_eq largest t pn.value hbits hle hwin,
      ← hspace]
    rfl

theorem truncate_expand_round_trip_ac5c02 :
    let pn := PacketNumberSpace.applicationData.newPacketNumber ⟨0xac5c02, by decide⟩
    let largest := PacketNumberSpace.applicationData.newPacketNumber ⟨0xabe8bc, by decide⟩
    let t : TruncatedPacketNumber := ⟨.applicationData, .u16 0x5c02⟩
    pn.space = largest.space ∧ pn.truncate largest = some t ∧ t.expand largest = pn := by
  intro pn largest t
  have ht : pn.truncate largest = some t := by decide
  exact ⟨rfl, ht, (@truncate_expand_round_trip pn largest t rfl ht).2⟩

/-! ## RFC 9000 Appendix A.3 -/

/-- `DecodePacketNumber` of RFC 9000 Appendix A.3 on unbounded integers: the pseudocode's bit
operations are those of `ℤ`, and its two window tests compare without overflow. -/
def rfcDecodePacketNumber (largestPn truncatedPn : ℤ) (pnNbits : ℕ) : ℤ :=
  let expectedPn := largestPn + 1
  let pnWin : ℤ := 1 <<< (pnNbits : ℤ)
  let pnHwin := pnWin / 2
  let pnMask := pnWin - 1
  let candidatePn := Int.lor (Int.land expectedPn (Int.lnot pnMask)) truncatedPn
  if candidatePn ≤ expectedPn - pnHwin ∧ candidatePn < (1 <<< (62 : ℤ)) - pnWin then
    candidatePn + pnWin
  else if candidatePn > expectedPn + pnHwin ∧ candidatePn ≥ pnWin then
    candidatePn - pnWin
  else candidatePn

theorem rfc_candidatePn (l k tv : Nat) (htv : tv < 2 ^ k) :
    Int.lor (Int.land ((l : ℤ) + 1) (Int.lnot (((2 ^ k : ℕ) : ℤ) - 1))) (tv : ℤ) =
      (((l + 1) / 2 ^ k * 2 ^ k + tv : ℕ) : ℤ) := by
  have hmask : ((2 ^ k : ℕ) : ℤ) - 1 = ((2 ^ k - 1 : ℕ) : ℤ) := by
    rw [Nat.cast_sub Nat.one_le_two_pow, Nat.cast_one]
  rw [hmask, show (l : ℤ) + 1 = ((l + 1 : ℕ) : ℤ) by push_cast; rfl]
  -- on nonnegative integers `land` with a complement and `lor` are `ldiff` and `|||` of `ℕ`
  show (((Nat.ldiff (l + 1) (2 ^ k - 1)) ||| tv : ℕ) : ℤ) = _
  rw [ldiff_two_pow_sub_one, Nat.mul_comm, Nat.two_pow_add_eq_or_of_lt htv]

theorem rfcDecodePacketNumber_natCast (largestPn truncatedPn k : ℕ) (htv : truncatedPn < 2 ^ k) :
    rfcDecodePacketNumber largestPn truncatedPn k =
      let E : ℤ := largestPn + 1
      let W : ℤ := ((2 ^ k : ℕ) : ℤ)
      let C : ℤ := ((largestPn + 1) / 2 ^ k * 2 ^ k + truncatedPn : ℕ)
      if C ≤ E - W / 2 ∧ C < 2 ^ 62 - W then C + W
      else if C > E + W / 2 ∧ C ≥ W then C - W else C := by
  have h62 : (1 : ℤ) <<< (62 : ℤ) = 2 ^ 62 := by decide
  simp only [rfcDecodePacketNumber, Int.one_shiftLeft, h62]
  rw [rfc_candidatePn _ _ _ htv]

/-- The example of RFC 9000 Appendix A.3. -/
example : rfcDecodePacketNumber 0xa82f30ea 0x9b32 16 = 0xa82f9b32 := by
  show rfcDecodePacketNumber ((0xa82f30ea : ℕ) : ℤ) ((0x9b32 : ℕ) : ℤ) 16 = 0xa82f9b32
  rw [rfcDecodePacketNumber_natCast 0xa82f30ea 0x9b32 16 (by norm_num)]
  decide

/-- The constant-time `decode_packet_number` is the RFC's decoding on unbounded integers,
clamped to the largest packet number. -/
theorem decodePacketNumber_eq_rfc (largest : PacketNumber) (t : TruncatedPacketNumber) :
    ((decodePacketNumber largest t).asU64 : ℤ) =
      min (rfcDecodePacketNumber largest.asU64 t.intoU64 t.bitsize) (2 ^ 62 - 1) := by
  have hk : t.bitsize = 8 ∨ t.bitsize = 16 ∨ t.bitsize = 24 ∨ t.bitsize = 32 :=
    bitsize_cases t.len.value
  have hW : 2 ^ t.bitsize ≤ 2 ^ 32 := Nat.pow_le_pow_right (by norm_num) (by omega)
  have hL : largest.asU64 < 2 ^ 62 := largest.value.val_lt
  rw [decodePacketNumber_asU64, rfcDecodePacketNumber_natCast _ _ _ (intoU64_lt t)]
  dsimp only
  -- the tests only compare the candidate with the window around the expected number, and
  -- the window is small enough that the code's words neither wrap nor underflow
  generalize (largest.asU64 + 1) / 2 ^ t.bitsize * 2 ^ t.bitsize + t.intoU64 = C
  generalize 2 ^ t.bitsize = W at hW ⊢
  push_cast
  split_ifs <;> omega

end S2nQuic.Packet
