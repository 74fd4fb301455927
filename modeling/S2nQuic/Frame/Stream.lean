import S2nQuic.Frame.Ack
import S2nQuic.Stream.ReceiveFlowControl

/-!
# STREAM frames

`frame::Stream` (`frame/stream.rs`). The tag carries the OFF, LEN and FIN bits: an offset of
zero is left out together with its bit, and a frame without the LEN bit (`is_last_frame`) has no
length prefix and takes the rest of the packet. `try_fit` trims the data to a capacity and
chooses between the two forms. A `VarInt` takes `rfcLen` bytes (`format_rfcEncoding`).

The data stays generic as in the source, read through its encoding size only; encoding and
decoding are modelled for byte data, for which `decode_with_len_prefix` and the implicit-length
branch take the whole slice. An `unwrap` or `expect` on a data length that is no `VarInt` is
`none`. The `debug_assertions` check of `encoding_size_for_encoder` against the encoder is
`length_encode`.
-/

namespace S2nQuic.Varint

theorem rfcLen_le_succ (v : Nat) : rfcLen v ≤ v + 1 := by
  unfold rfcLen
  split_ifs <;> omega

theorem rfcLen_mono {a b : Nat} (h : a ≤ b) : rfcLen a ≤ rfcLen b := by
  unfold rfcLen
  split_ifs <;> omega

theorem rfcLen_le_two_mul {m n : Nat} (h : n + 1 ≤ m + rfcLen n) : rfcLen n ≤ 2 * rfcLen m := by
  unfold rfcLen at *
  split_ifs at * <;> omega

end S2nQuic.Varint

namespace S2nQuic.Frame
open Codec Varint
open S2nQuic.Stream (STREAM_TAG OFF_BIT LEN_BIT FIN_BIT StreamFrame)

/-- `EncoderValue::encoding_size` of a frame's data. -/
class EncodingSize (Data : Type) where
  encodingSize : Data → Nat

instance : EncodingSize (List UInt8) := ⟨List.length⟩

/-- `frame::Padding`, the data of the source's `try_fit` model test: `length` zero bytes. -/
structure Padding where
  length : Nat
  deriving DecidableEq

instance : EncodingSize Padding := ⟨Padding.length⟩

structure Stream (Data : Type) where
  streamId : VarInt
  offset : VarInt
  isLastFrame : Bool
  isFin : Bool
  data : Data
  deriving DecidableEq

structure FitError where
  deriving DecidableEq

/-- `decode_slice_with_len_prefix::<VarInt>`. -/
def decodeSliceWithLenPrefix (buffer : DecoderBuffer) :
    Except DecoderError (DecoderBuffer × DecoderBuffer) := do
  let (len, buffer) ← VarInt.decode buffer
  decodeSlice buffer len.val

theorem decodeSliceWithLenPrefix_encode (data rest : List UInt8)
    (h : data.length ≤ maxVarintValue) :
    decodeSliceWithLenPrefix (encodeVarInt ⟨_, h⟩ ++ data ++ rest) = .ok (data, rest) := by
  simp only [decodeSliceWithLenPrefix, encodeVarInt, List.append_assoc,
    AckRangesIter.decode_rfcEncoding_of_le h, ok_bind]
  exact decodeSlice_append data rest

namespace Stream

variable {Data : Type}

def tag (self : Stream Data) : UInt8 :=
  let tag := STREAM_TAG
  let tag := if self.offset.val ≠ 0 then tag ||| OFF_BIT else tag
  let tag := if !self.isLastFrame then tag ||| LEN_BIT else tag
  if self.isFin then tag ||| FIN_BIT else tag

theorem tag_bits (self : Stream Data) :
    (self.tag &&& OFF_BIT == OFF_BIT) = decide (self.offset.val ≠ 0) ∧
      (self.tag &&& LEN_BIT != LEN_BIT) = self.isLastFrame ∧
      (self.tag &&& FIN_BIT == FIN_BIT) = self.isFin := by
  obtain ⟨streamId, offset, isLastFrame, isFin, data⟩ := self
  unfold tag
  by_cases hoff : offset.val = 0 <;> cases isLastFrame <;> cases isFin <;> simp [hoff] <;> decide

/-- The tag, the stream id and a nonzero offset: `fixed_len` of `try_fit`, and the part of
`encoding_size_for_encoder` before the data. -/
def fixedLen (self : Stream Data) : Nat :=
  1 + rfcLen self.streamId.val + (if self.offset.val ≠ 0 then rfcLen self.offset.val else 0)

/-- The header of a frame rebuilt from another one's stream id and offset. -/
@[simp] theorem fixedLen_mk {Data' : Type} (self : Stream Data) (isLastFrame isFin : Bool)
    (data : Data') :
    (Stream.mk self.streamId self.offset isLastFrame isFin data).fixedLen = self.fixedLen := rfl

section Fit

variable [EncodingSize Data]

/-- `try_fit`: the frame with `is_last_frame` updated, and the data length that fits. -/
def tryFit (self : Stream Data) (capacity : Nat) : Stream Data × Except FitError Nat :=
  if capacity < self.fixedLen then (self, .error ⟨⟩) else
  let remainingCapacity := capacity - self.fixedLen
  let dataLen := EncodingSize.encodingSize self.data
  let maxDataLen := min remainingCapacity dataLen
  if maxDataLen = remainingCapacity then ({ self with isLastFrame := true }, .ok maxDataLen) else
  let self := { self with isLastFrame := false }
  match VarInt.new maxDataLen with
  | none => (self, .error ⟨⟩)
  | some len =>
    if remainingCapacity < rfcLen len.val then (self, .error ⟨⟩)
    else (self, .ok (min (remainingCapacity - rfcLen len.val) dataLen))

/-- `encoding_size_for_encoder`. -/
def encodingSize (self : Stream Data) : Option Nat :=
  let dataLen := EncodingSize.encodingSize self.data
  let len := self.fixedLen + dataLen
  if !self.isLastFrame then (VarInt.new dataLen).map fun l => len + rfcLen l.val
  else some len

variable {self : Stream Data} {capacity : Nat}

theorem encodingSize_of_last (h : self.isLastFrame = true) :
    self.encodingSize = some (self.fixedLen + EncodingSize.encodingSize self.data) := by
  simp [encodingSize, h]

theorem encodingSize_of_not_last (h : self.isLastFrame = false)
    (hn : EncodingSize.encodingSize self.data ≤ maxVarintValue) :
    self.encodingSize =
      some (self.fixedLen + EncodingSize.encodingSize self.data +
        rfcLen (EncodingSize.encodingSize self.data)) := by
  simp [encodingSize, h, VarInt.new_of_le hn]

theorem le_of_encodingSize {size : Nat} (h : self.encodingSize = some size) :
    self.fixedLen + EncodingSize.encodingSize self.data ≤ size := by
  cases hlast : self.isLastFrame
  · simp only [encodingSize, hlast, Bool.not_false, if_true] at h
    obtain ⟨l, -, rfl⟩ := Option.map_eq_some_iff.mp h
    omega
  · rw [encodingSize_of_last hlast, Option.some.injEq] at h
    omega

theorem tryFit_of_lt (h : capacity < self.fixedLen) : self.tryFit capacity = (self, .error ⟨⟩) := by
  simp [tryFit, h]

theorem tryFit_of_fill (h : self.fixedLen ≤ capacity)
    (hfill : capacity - self.fixedLen ≤ EncodingSize.encodingSize self.data) :
    self.tryFit capacity = ({ self with isLastFrame := true }, .ok (capacity - self.fixedLen)) := by
  simp [tryFit, Nat.not_lt.mpr h, Nat.min_eq_left hfill]

theorem tryFit_of_gt_max (h : self.fixedLen + EncodingSize.encodingSize self.data < capacity)
    (hn : maxVarintValue < EncodingSize.encodingSize self.data) :
    self.tryFit capacity = ({ self with isLastFrame := false }, .error ⟨⟩) := by
  have hne : EncodingSize.encodingSize self.data ≠ capacity - self.fixedLen := by omega
  simp [tryFit, show ¬capacity < self.fixedLen by omega,
    Nat.min_eq_right (show EncodingSize.encodingSize self.data ≤ capacity - self.fixedLen by omega),
    hne, VarInt.new_of_lt hn]

theorem tryFit_of_explicit (h : self.fixedLen + EncodingSize.encodingSize self.data < capacity)
    (hn : EncodingSize.encodingSize self.data ≤ maxVarintValue) :
    self.tryFit capacity = ({ self with isLastFrame := false },
      .ok (min (capacity - self.fixedLen - rfcLen (EncodingSize.encodingSize self.data))
        (EncodingSize.encodingSize self.data))) := by
  have hne : EncodingSize.encodingSize self.data ≠ capacity - self.fixedLen := by omega
  have hprefix := rfcLen_le_succ (EncodingSize.encodingSize self.data)
  simp [tryFit, show ¬capacity < self.fixedLen by omega,
    Nat.min_eq_right (show EncodingSize.encodingSize self.data ≤ capacity - self.fixedLen by omega),
    hne, VarInt.new_of_le hn, show ¬capacity - self.fixedLen < rfcLen (EncodingSize.encodingSize self.data) by omega]

theorem tryFit_ok {frame : Stream Data} {m : Nat} (h : self.tryFit capacity = (frame, .ok m)) :
    frame = { self with isLastFrame := frame.isLastFrame } ∧
      m ≤ EncodingSize.encodingSize self.data ∧
      ∀ data : Data, EncodingSize.encodingSize data = m →
        ∃ size, { frame with data }.encodingSize = some size ∧ size ≤ capacity ∧
          (frame.isLastFrame = true → size = capacity) ∧
          (m < EncodingSize.encodingSize self.data → capacity ≤ size + rfcLen m) := by
  rcases Nat.lt_or_ge capacity self.fixedLen with hlt | hle
  · simp [tryFit_of_lt hlt] at h
  by_cases hfill : capacity - self.fixedLen ≤ EncodingSize.encodingSize self.data
  · rw [tryFit_of_fill hle hfill, Prod.mk.injEq, Except.ok.injEq] at h
    obtain ⟨rfl, rfl⟩ := h
    refine ⟨rfl, hfill, fun data hdata => ⟨capacity, ?_, le_rfl, fun _ => rfl, fun _ => by omega⟩⟩
    rw [encodingSize_of_last rfl, hdata]
    simp only [fixedLen_mk]
    exact congrArg some (by omega)
  -- room is left after the whole data: the explicit-length form
  have hroom : self.fixedLen + EncodingSize.encodingSize self.data < capacity := by omega
  by_cases hn : EncodingSize.encodingSize self.data ≤ maxVarintValue
  · rw [tryFit_of_explicit hroom hn, Prod.mk.injEq, Except.ok.injEq] at h
    obtain ⟨rfl, rfl⟩ := h
    set n := EncodingSize.encodingSize self.data
    set m := min (capacity - self.fixedLen - rfcLen n) n
    have hm : m ≤ n := Nat.min_le_right _ _
    have hprefix : rfcLen m ≤ rfcLen n := rfcLen_mono hm
    have hsucc := rfcLen_le_succ n
    refine ⟨rfl, hm, fun data hdata => ⟨_, encodingSize_of_not_last rfl (hdata ▸ hm.trans hn), ?_,
      fun h => Bool.noConfusion h, fun htrim => ?_⟩⟩
    · simp only [fixedLen_mk, hdata]
      omega
    · -- trimmed, so `m` is the capacity left after the prefix of the whole data
      have hm' : m = capacity - self.fixedLen - rfcLen n := by omega
      have htwice := rfcLen_le_two_mul (show n + 1 ≤ m + rfcLen n by omega)
      simp only [fixedLen_mk, hdata]
      omega
  · rw [tryFit_of_gt_max hroom (Nat.lt_of_not_le hn)] at h
    simp at h

theorem tryFit_error {frame : Stream Data} {e : FitError}
    (h : self.tryFit capacity = (frame, .error e)) :
    capacity < self.fixedLen ∨ maxVarintValue < EncodingSize.encodingSize self.data ∧
      self.fixedLen + EncodingSize.encodingSize self.data < capacity := by
  rcases Nat.lt_or_ge capacity self.fixedLen with hlt | hle
  · exact .inl hlt
  by_cases hfill : capacity - self.fixedLen ≤ EncodingSize.encodingSize self.data
  · simp [tryFit_of_fill hle hfill] at h
  have hroom : self.fixedLen + EncodingSize.encodingSize self.data < capacity := by omega
  by_cases hn : EncodingSize.encodingSize self.data ≤ maxVarintValue
  · simp [tryFit_of_explicit hroom hn] at h
  · exact .inr ⟨Nat.lt_of_not_le hn, hroom⟩

private def sevenStreamBytes : Stream (List UInt8) :=
  ⟨⟨0, Nat.zero_le _⟩, ⟨0, Nat.zero_le _⟩, false, false, List.replicate 7 0⟩

/-- Seven bytes in ten: after the two header bytes and a one-byte length prefix the
explicit-length frame fills the capacity, yet it is not the last frame. And `2^62` bytes of
padding in `2^62 + 3` are refused, since their length is no `VarInt`, although an empty frame
of two bytes fits. -/
theorem tryFit_fills_without_last_frame :
    (sevenStreamBytes.tryFit 10 = ({ sevenStreamBytes with isLastFrame := false }, .ok 7) ∧
      { sevenStreamBytes with isLastFrame := false }.encodingSize = some 10) ∧
    ((⟨⟨0, Nat.zero_le _⟩, ⟨0, Nat.zero_le _⟩, false, false, ⟨2 ^ 62⟩⟩ : Stream Padding).tryFit
        (2 ^ 62 + 3) =
      (⟨⟨0, Nat.zero_le _⟩, ⟨0, Nat.zero_le _⟩, false, false, ⟨2 ^ 62⟩⟩, .error ⟨⟩) ∧
      (⟨⟨0, Nat.zero_le _⟩, ⟨0, Nat.zero_le _⟩, true, false, ⟨0⟩⟩ : Stream Padding).encodingSize =
        some 2) :=
  ⟨⟨rfl, rfl⟩, rfl, rfl⟩

end Fit

/-- `EncoderValue::encode` for byte data; `none` is the `expect` of `encode_with_len_prefix` on
a data length that is no `VarInt`. -/
def encode (self : Stream (List UInt8)) : Option (List UInt8) :=
  let header := self.tag :: encodeVarInt self.streamId ++
    (if self.offset.val ≠ 0 then encodeVarInt self.offset else [])
  if self.isLastFrame then some (header ++ self.data)
  else (VarInt.new self.data.length).map fun len => header ++ encodeVarInt len ++ self.data

/-- `Stream::decode` for byte data. -/
def decode (tag : UInt8) (buffer : DecoderBuffer) :
    Except DecoderError (Stream DecoderBuffer × DecoderBuffer) := do
  let hasOffset := tag &&& OFF_BIT == OFF_BIT
  let isLastFrame := tag &&& LEN_BIT != LEN_BIT
  let isFin := tag &&& FIN_BIT == FIN_BIT
  let (streamId, buffer) ← VarInt.decode buffer
  let (offset, buffer) ←
    if hasOffset then VarInt.decode buffer else pure (⟨0, Nat.zero_le _⟩, buffer)
  let (data, buffer) ←
    if !isLastFrame then decodeSliceWithLenPrefix buffer else decodeSlice buffer buffer.length
  pure (⟨streamId, offset, isLastFrame, isFin, data⟩, buffer)

/-- The bytes `encode` writes after the tag and before the data or its length. -/
def headerBytes (self : Stream Data) : List UInt8 :=
  encodeVarInt self.streamId ++ (if self.offset.val ≠ 0 then encodeVarInt self.offset else [])

theorem encode_of_last {self : Stream (List UInt8)} (h : self.isLastFrame = true) :
    self.encode = some (self.tag :: (self.headerBytes ++ self.data)) := by
  simp [encode, headerBytes, h]

theorem encode_of_not_last {self : Stream (List UInt8)} (h : self.isLastFrame = false)
    (hn : self.data.length ≤ maxVarintValue) :
    self.encode = some (self.tag :: (self.headerBytes ++ encodeVarInt ⟨_, hn⟩ ++ self.data)) := by
  simp [encode, headerBytes, h, VarInt.new_of_le hn]

theorem decode_headerBytes (self : Stream Data) (tail : List UInt8) :
    decode self.tag (self.headerBytes ++ tail) =
      ((if !self.isLastFrame then decodeSliceWithLenPrefix tail else decodeSlice tail tail.length) >>=
        fun r : DecoderBuffer × DecoderBuffer =>
          pure (⟨self.streamId, self.offset, self.isLastFrame, self.isFin, r.1⟩, r.2)) := by
  obtain ⟨hoff, hlen, hfin⟩ := tag_bits self
  obtain ⟨streamId, ⟨offset, hoffset⟩, isLastFrame, isFin, data⟩ := self
  simp only at hoff hlen hfin
  -- an offset of zero has no bytes and no OFF bit; the decoder puts back `VarInt::default()`
  by_cases h0 : offset = 0
  · subst h0
    cases isLastFrame <;>
      simp [decode, headerBytes, hoff, hlen, hfin, encodeVarInt, decode_rfcEncoding]
  · cases isLastFrame <;>
      simp [decode, headerBytes, hoff, hlen, hfin, h0, encodeVarInt, decode_rfcEncoding,
        AckRangesIter.decode_rfcEncoding_of_le hoffset]

theorem length_headerBytes (self : Stream Data) : self.headerBytes.length + 1 = self.fixedLen := by
  unfold headerBytes fixedLen
  split_ifs <;> simp [encodeVarInt] <;> omega

theorem decode_encode_of_not_last {self : Stream (List UInt8)} (h : self.isLastFrame = false)
    (hn : self.data.length ≤ maxVarintValue) (rest : List UInt8) :
    decode self.tag (self.headerBytes ++ encodeVarInt ⟨_, hn⟩ ++ self.data ++ rest) =
      .ok (self, rest) := by
  rw [List.append_assoc, List.append_assoc, decode_headerBytes, h, ← List.append_assoc,
    decodeSliceWithLenPrefix_encode]
  obtain ⟨streamId, offset, isLastFrame, isFin, data⟩ := self
  subst h
  rfl

theorem decode_encode_of_last {self : Stream (List UInt8)} (h : self.isLastFrame = true)
    (rest : List UInt8) :
    decode self.tag (self.headerBytes ++ self.data ++ rest) =
      .ok ({ self with data := self.data ++ rest }, []) := by
  have hslice := decodeSlice_append (self.data ++ rest) []
  rw [List.append_nil] at hslice
  rw [List.append_assoc, decode_headerBytes, h]
  simp only [Bool.not_true, Bool.false_eq_true, if_false, hslice, ok_bind]
  obtain ⟨streamId, offset, isLastFrame, isFin, data⟩ := self
  subst h
  rfl

theorem encode_spec {self : Stream (List UInt8)} {size : Nat} (h : self.encodingSize = some size) :
    ∃ body, self.encode = some (self.tag :: body) ∧ body.length + 1 = size ∧
      (self.isLastFrame = false → ∀ rest, decode self.tag (body ++ rest) = .ok (self, rest)) ∧
      (self.isLastFrame = true → ∀ rest,
        decode self.tag (body ++ rest) = .ok ({ self with data := self.data ++ rest }, [])) := by
  have hheader := length_headerBytes self
  rcases Bool.eq_false_or_eq_true self.isLastFrame with hlast | hlast
  · rw [encodingSize_of_last hlast, Option.some.injEq] at h
    refine ⟨self.headerBytes ++ self.data, encode_of_last hlast, ?_,
      fun h => Bool.noConfusion (hlast.symm.trans h), fun _ => decode_encode_of_last hlast⟩
    rw [List.length_append]
    change self.fixedLen + self.data.length = size at h
    omega
  · simp only [encodingSize, hlast, Bool.not_false, if_true] at h
    obtain ⟨l, hl, rfl⟩ := Option.map_eq_some_iff.mp h
    have hlen : l.val = self.data.length := VarInt.val_of_new_eq_some hl
    have hn : self.data.length ≤ maxVarintValue := hlen ▸ l.le_max
    refine ⟨self.headerBytes ++ encodeVarInt ⟨_, hn⟩ ++ self.data, encode_of_not_last hlast hn, ?_,
      fun _ => decode_encode_of_not_last hlast hn, fun h => Bool.noConfusion (hlast.symm.trans h)⟩
    simp only [List.length_append, encodeVarInt, length_rfcEncoding, hlen]
    change _ = _ + self.data.length + _
    omega

/-- `try_fit` and the STREAM frame codec: an accepted length changes only `is_last_frame`,
fits, fills the capacity when the frame is the last one and leaves at most a length prefix unused
when the data was trimmed; a refusal of data a `VarInt` can count means not even an empty frame
fits; and every frame whose size is defined encodes to that many bytes and decodes back after
its tag, an implicit-length frame taking the rest of the buffer as data. -/
theorem stream_frame_fit_round_trip {Data : Type} [EncodingSize Data] (self : Stream Data)
    (capacity : Nat) :
    (∀ frame m, self.tryFit capacity = (frame, .ok m) →
      frame = { self with isLastFrame := frame.isLastFrame } ∧
      m ≤ EncodingSize.encodingSize self.data ∧
      ∀ data : Data, EncodingSize.encodingSize data = m →
        ∃ size, { frame with data }.encodingSize = some size ∧ size ≤ capacity ∧
          (frame.isLastFrame = true → size = capacity) ∧
          (m < EncodingSize.encodingSize self.data → capacity ≤ size + rfcLen m)) ∧
    (∀ frame e, self.tryFit capacity = (frame, .error e) →
      EncodingSize.encodingSize self.data ≤ maxVarintValue →
      ∀ (data : Data) (isLastFrame : Bool) size, EncodingSize.encodingSize data = 0 →
        { self with data, isLastFrame }.encodingSize = some size → capacity < size) ∧
    (∀ (frame : Stream (List UInt8)) size, frame.encodingSize = some size →
      ∃ body, frame.encode = some (frame.tag :: body) ∧ body.length + 1 = size ∧
        (frame.isLastFrame = false → ∀ rest, decode frame.tag (body ++ rest) = .ok (frame, rest)) ∧
        (frame.isLastFrame = true → ∀ rest,
          decode frame.tag (body ++ rest) = .ok ({ frame with data := frame.data ++ rest }, []))) := by
  refine ⟨fun frame m h => tryFit_ok h, fun frame e h hn data isLastFrame size hdata hsize => ?_,
    fun frame size h => encode_spec h⟩
  have hle := le_of_encodingSize hsize
  rw [fixedLen_mk, hdata] at hle
  rcases tryFit_error h with hlt | ⟨hlong, -⟩
  · omega
  · exact absurd hn (Nat.not_le.mpr hlong)

private def twentyStreamBytes : Stream (List UInt8) :=
  ⟨⟨0, Nat.zero_le _⟩, ⟨0, Nat.zero_le _⟩, false, false, List.replicate 20 0⟩

theorem stream_frame_fit_round_trip_ten :
    twentyStreamBytes.tryFit 10 = ({ twentyStreamBytes with isLastFrame := true }, .ok 8) ∧
      ∃ size, { twentyStreamBytes with
          isLastFrame := true, data := List.replicate 8 (0 : UInt8) }.encodingSize = some size ∧
        size = 10 := by
  have h : twentyStreamBytes.tryFit 10 = ({ twentyStreamBytes with isLastFrame := true }, .ok 8) :=
    rfl
  obtain ⟨-, -, hfit⟩ := (stream_frame_fit_round_trip twentyStreamBytes 10).1 _ _ h
  obtain ⟨size, hsize, -, hlast, -⟩ := hfit (List.replicate 8 (0 : UInt8)) List.length_replicate
  exact ⟨h, size, hsize, hlast rfl⟩

end Stream

end S2nQuic.Frame
