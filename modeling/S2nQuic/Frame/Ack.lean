import S2nQuic.Varint
import S2nQuic.Lib.Iterator

/-!
# ACK frames (`frame/ack.rs`)

An ACK frame carries the largest acknowledged packet number, the ACK delay, the number of
further ranges and the length of the first range, then for each further range the gap below the
previous one and its length, and the ECN counts when the tag is `0x03` (RFC 9000 Section 19.3).
`Ack::encode` writes the ranges its `AckRanges` iterator yields. `AckRangesDecoder::decode`
reads the count, walks every range once on a peeked copy of the buffer so that a range with a
negative packet number fails the decode, and keeps the bytes it walked; `AckRangesIter` then
yields the ranges lazily from those bytes.

Frames are written into a byte list: `buffer.encode(&v)` of a varint appends `rfcEncoding v`
(`Varint.encode_spec`). A panic of the encoder (an `expect`, a `VarInt` subtraction below zero)
is `none`.
-/

namespace S2nQuic.Frame
open Codec Varint

def ACK_TAG : UInt8 := 0x02

def ACK_W_ECN_TAG : UInt8 := 0x03

def ACK_RANGE_DECODING_ERROR : DecoderError := .invariantViolation "invalid ACK ranges"

/-- `RangeInclusive<VarInt>`: the packet numbers `start ..= end`. -/
@[ext] structure RangeInclusive where
  start : VarInt
  «end» : VarInt
  deriving DecidableEq

structure EcnCounts where
  ect0Count : VarInt
  ect1Count : VarInt
  ceCount : VarInt
  deriving DecidableEq

structure Ack (AckRanges : Type) where
  ackDelay : VarInt
  ackRanges : AckRanges
  ecnCounts : Option EcnCounts

def encodeVarInt (v : VarInt) : List UInt8 := rfcEncoding v.val

namespace EcnCounts

def decode (buffer : DecoderBuffer) : Except DecoderError (EcnCounts × DecoderBuffer) := do
  let (ect0Count, buffer) ← VarInt.decode buffer
  let (ect1Count, buffer) ← VarInt.decode buffer
  let (ceCount, buffer) ← VarInt.decode buffer
  pure (⟨ect0Count, ect1Count, ceCount⟩, buffer)

def encode (self : EcnCounts) : List UInt8 :=
  encodeVarInt self.ect0Count ++ encodeVarInt self.ect1Count ++ encodeVarInt self.ceCount

end EcnCounts

/-! ## Decoding -/

@[ext] structure AckRangesIter where
  largestAcknowledged : VarInt
  ackRangeCount : VarInt
  rangeBuffer : DecoderBuffer

namespace AckRangesIter

/-- `Iterator::next`. Each `?` returns `None` with what was assigned before it: once the count
check passed, a failed call has used up one of the count. -/
def next (self : AckRangesIter) : Option RangeInclusive × AckRangesIter :=
  match self.ackRangeCount.checkedSub (VarInt.fromU8 1) with
  | none => (none, self)
  | some ackRangeCount =>
    let self := { self with ackRangeCount }
    let largestAcknowledged := self.largestAcknowledged
    match VarInt.decode self.rangeBuffer with
    | .error _ => (none, self)
    | .ok (ackRange, buffer) =>
      match largestAcknowledged.checkedSub ackRange with
      | none => (none, self)
      | some start =>
        -- past the last range there is no gap to read
        if self.ackRangeCount ≠ VarInt.fromU8 0 then
          match VarInt.decode buffer with
          | .error _ => (none, self)
          | .ok (gap, buffer) =>
            match ((largestAcknowledged.checkedSub ackRange).bind (·.checkedSub gap)).bind
                (·.checkedSub (VarInt.fromU8 2)) with
            | none => (none, self)
            | some largest =>
              (some ⟨start, largestAcknowledged⟩,
                { self with largestAcknowledged := largest, rangeBuffer := buffer })
        else (some ⟨start, largestAcknowledged⟩, { self with rangeBuffer := buffer })

/-- `ExactSizeIterator::len`, from `size_hint`. -/
def len (self : AckRangesIter) : Nat := self.ackRangeCount.val

end AckRangesIter

structure AckRangesDecoder where
  largestAcknowledged : VarInt
  ackRangeCount : VarInt
  rangeBuffer : DecoderBuffer

namespace AckRangesDecoder

def ackRanges (self : AckRangesDecoder) : AckRangesIter :=
  ⟨self.largestAcknowledged, self.ackRangeCount, self.rangeBuffer⟩

/-- `AckRangesDecoder::decode`. The walk over the ranges runs on `buffer.peek()`; the decoder
keeps the bytes the walk consumed. -/
def decode (largestAcknowledged : VarInt) (buffer : DecoderBuffer) :
    Except DecoderError (AckRangesDecoder × DecoderBuffer) := do
  let (ackRangeCount, buffer) ← VarInt.decode buffer
  -- add one to the total, which includes the first ack range
  let some ackRangeCount := ackRangeCount.checkedAdd (VarInt.fromU8 1)
    | .error ACK_RANGE_DECODING_ERROR
  let some iter := Iterator.advanceBy AckRangesIter.next ackRangeCount.val
      ⟨largestAcknowledged, ackRangeCount, buffer⟩
    | .error ACK_RANGE_DECODING_ERROR
  let peekLen := iter.rangeBuffer.length
  let bufferLen := buffer.length
  let (rangeBuffer, remaining) ← decodeSlice buffer (bufferLen - peekLen)
  pure (⟨largestAcknowledged, ackRangeCount, rangeBuffer⟩, remaining)

end AckRangesDecoder

def Ack.decode (tag : UInt8) (buffer : DecoderBuffer) :
    Except DecoderError (Ack AckRangesDecoder × DecoderBuffer) := do
  let (largestAcknowledged, buffer) ← VarInt.decode buffer
  let (ackDelay, buffer) ← VarInt.decode buffer
  let (ackRanges, buffer) ← AckRangesDecoder.decode largestAcknowledged buffer
  let (ecnCounts, buffer) ← if tag = ACK_W_ECN_TAG then do
      let (ecnCounts, buffer) ← EcnCounts.decode buffer
      pure (some ecnCounts, buffer)
    else pure (none, buffer)
  pure (⟨ackDelay, ackRanges, ecnCounts⟩, buffer)

/-! ## Encoding -/

def Ack.tag {α : Type} (self : Ack α) : UInt8 :=
  if self.ecnCounts.isSome then ACK_W_ECN_TAG else ACK_TAG

/-- `encode_ack_range`: the gap below the previous smallest packet number and the length. -/
def encodeAckRange (range : RangeInclusive) (smallest : VarInt) (buffer : List UInt8) :
    Option (VarInt × List UInt8) := do
  let gap ← (smallest.checkedSub range.end).bind (·.checkedSub (VarInt.fromU8 2))
  let ackRange ← range.end.checkedSub range.start
  pure (range.start, buffer ++ encodeVarInt gap ++ encodeVarInt ackRange)

/-- `Ack::encode`, for an `AckRanges` whose iterator yields `ack_ranges`. -/
def Ack.encode (self : Ack (List RangeInclusive)) : Option (List UInt8) := do
  let buffer := [self.tag]
  let firstAckRange :: iter := self.ackRanges | none
  let smallest := firstAckRange.start
  let largestAcknowledged := firstAckRange.end
  let firstAckRange ← largestAcknowledged.checkedSub smallest
  let ackRangeCount ← VarInt.new iter.length
  let buffer := buffer ++ encodeVarInt largestAcknowledged ++ encodeVarInt self.ackDelay ++
    encodeVarInt ackRangeCount ++ encodeVarInt firstAckRange
  let (_, buffer) ← iter.foldlM (fun acc range => encodeAckRange range acc.1 acc.2)
    (smallest, buffer)
  pure (match self.ecnCounts with
    | some ecnCounts => buffer ++ ecnCounts.encode
    | none => buffer)

/-! ## Well-formed ranges -/

/-- Ranges as RFC 9000 Section 19.3.1 lays them out: each one nonempty, in descending order, with
at least one packet number missing between neighbours. -/
def Descending (ranges : List RangeInclusive) : Prop :=
  (∀ r ∈ ranges, r.start.val ≤ r.end.val) ∧
    ranges.IsChain (fun a b => b.end.val + 2 ≤ a.start.val)

instance : DecidablePred Descending := fun _ => inferInstanceAs (Decidable (_ ∧ _))

namespace Descending

variable {r r' : RangeInclusive} {rs : List RangeInclusive}

theorem tail (h : Descending (r :: rs)) : Descending rs :=
  ⟨fun x hx => h.1 x (List.mem_cons_of_mem r hx), h.2.tail⟩

theorem start_le (h : Descending (r :: rs)) : r.start.val ≤ r.end.val := h.1 r List.mem_cons_self

theorem gap (h : Descending (r :: r' :: rs)) : r'.end.val + 2 ≤ r.start.val :=
  (List.isChain_cons_cons.mp h.2).1

theorem two_mul_length_le (h : Descending (r :: rs)) : 2 * rs.length ≤ r.end.val := by
  induction rs generalizing r with
  | nil => simp
  | cons r' rs ih =>
    have := ih h.tail
    have := h.gap
    have := h.start_le
    simp only [List.length_cons]
    omega

end Descending

/-! ## One call of the iterator -/

namespace AckRangesIter

variable {self s' : AckRangesIter} {r : RangeInclusive} {a g : VarInt}
  {buffer : DecoderBuffer}

theorem next_of_count_zero (h : self.ackRangeCount.val = 0) : self.next = (none, self) := by
  rw [next, VarInt.checkedSub_of_lt (by simp [h])]

theorem next_eq_some_iff :
    self.next = (some r, s') ↔
      ∃ a buffer, s'.ackRangeCount.val + 1 = self.ackRangeCount.val ∧
        VarInt.decode self.rangeBuffer = .ok (a, buffer) ∧
        r.start.val + a.val = self.largestAcknowledged.val ∧ r.end = self.largestAcknowledged ∧
        (s'.ackRangeCount.val = 0 ∧ s'.largestAcknowledged = self.largestAcknowledged ∧
            s'.rangeBuffer = buffer ∨
          0 < s'.ackRangeCount.val ∧ ∃ g, VarInt.decode buffer = .ok (g, s'.rangeBuffer) ∧
            s'.largestAcknowledged.val + 2 + g.val = r.start.val) := by
  constructor
  · intro h
    unfold next at h
    rcases hc : self.ackRangeCount.checkedSub (VarInt.fromU8 1) with _ | c
    · rw [hc] at h
      simp at h
    rw [hc] at h
    obtain ⟨hc1, hcv⟩ := VarInt.checkedSub_eq_some.mp hc
    simp only [VarInt.fromU8_val, UInt8.toNat_one] at hc1 hcv
    dsimp only at h
    rcases hd : VarInt.decode self.rangeBuffer with e | ⟨a, buffer⟩
    · rw [hd] at h
      simp at h
    rw [hd] at h
    dsimp only at h
    rcases hs : self.largestAcknowledged.checkedSub a with _ | start
    · rw [hs] at h
      simp at h
    rw [hs] at h
    dsimp only at h
    obtain ⟨ha, hstart⟩ := VarInt.checkedSub_eq_some.mp hs
    split_ifs at h with hz
    · -- not the last range: a gap follows
      rcases hg : VarInt.decode buffer with e | ⟨g, buffer'⟩
      · rw [hg] at h
        simp at h
      rw [hg] at h
      simp only [Option.bind_some] at h
      rcases hL : (start.checkedSub g).bind (·.checkedSub (VarInt.fromU8 2)) with _ | largest
      · rw [hL] at h
        simp at h
      rw [hL] at h
      obtain ⟨m, hm, hl⟩ := Option.bind_eq_some_iff.mp hL
      obtain ⟨hgm, hmv⟩ := VarInt.checkedSub_eq_some.mp hm
      obtain ⟨h2, hlv⟩ := VarInt.checkedSub_eq_some.mp hl
      simp only [Prod.mk.injEq, Option.some.injEq] at h
      obtain ⟨rfl, rfl⟩ := h
      simp only [VarInt.ne_iff, VarInt.fromU8_val, UInt8.toNat_zero] at hz h2 hlv
      refine ⟨a, buffer, by simp; omega, rfl, by simp; omega, rfl,
        .inr ⟨by simp; omega, g, hg, ?_⟩⟩
      simp at h2 hlv ⊢
      omega
    · simp only [Prod.mk.injEq, Option.some.injEq] at h
      obtain ⟨rfl, rfl⟩ := h
      simp only [ne_eq, Decidable.not_not] at hz
      exact ⟨a, buffer, by simp; omega, rfl, by simp; omega, rfl, .inl ⟨by simp [hz], rfl, rfl⟩⟩
  · rintro ⟨a, buffer, hc, hd, hrs, hre, hlast | ⟨hpos, g, hg, hL⟩⟩
    · obtain ⟨hz, hL, hb⟩ := hlast
      rw [next, VarInt.checkedSub_of_le (show (VarInt.fromU8 1).val ≤ _ by simp; omega)]
      dsimp only
      rw [hd]
      dsimp only
      rw [VarInt.checkedSub_of_le (show a.val ≤ self.largestAcknowledged.val by omega)]
      dsimp only
      rw [if_neg (by simp [VarInt.ne_iff]; omega)]
      exact Prod.ext (congrArg some (RangeInclusive.ext (VarInt.ext (by simp; omega)) hre.symm))
        (AckRangesIter.ext hL.symm (VarInt.ext (by simp; omega)) hb.symm)
    · rw [next, VarInt.checkedSub_of_le (show (VarInt.fromU8 1).val ≤ _ by simp; omega)]
      dsimp only
      rw [hd]
      dsimp only
      rw [VarInt.checkedSub_of_le (show a.val ≤ self.largestAcknowledged.val by omega)]
      dsimp only
      rw [if_pos (by simp [VarInt.ne_iff]; omega), hg]
      dsimp only
      rw [Option.bind_some,
        VarInt.checkedSub_of_le (show g.val ≤ self.largestAcknowledged.val - a.val by omega),
        Option.bind_some, VarInt.checkedSub_of_le
          (show (VarInt.fromU8 2).val ≤ self.largestAcknowledged.val - a.val - g.val by
            simp; omega)]
      exact Prod.ext (congrArg some (RangeInclusive.ext (VarInt.ext (by simp; omega)) hre.symm))
        (AckRangesIter.ext (VarInt.ext (by simp; omega)) (VarInt.ext (by simp; omega)) rfl)

theorem next_count (h : self.next = (some r, s')) :
    s'.ackRangeCount.val + 1 = self.ackRangeCount.val := by
  obtain ⟨a, buffer, hc, -⟩ := next_eq_some_iff.mp h
  exact hc

theorem next_suffix (h : self.next = (some r, s')) : s'.rangeBuffer <:+ self.rangeBuffer := by
  obtain ⟨a, buffer, -, hd, -, -, ⟨-, -, hb⟩ | ⟨-, g, hg, -⟩⟩ := next_eq_some_iff.mp h
  · rw [hb]
    exact decode_suffix hd
  · exact (decode_suffix hg).trans (decode_suffix hd)

theorem next_of_append {xs t : List UInt8} (hb : self.rangeBuffer = xs ++ t)
    (h : self.next = (some r, s')) (ht : t.length ≤ s'.rangeBuffer.length) :
    ∃ ys, s'.rangeBuffer = ys ++ t ∧
      next { self with rangeBuffer := xs } = (some r, { s' with rangeBuffer := ys }) := by
  obtain ⟨a, buffer, hc, hd, hrs, hre, hlast | ⟨hpos, g, hg, hL⟩⟩ := next_eq_some_iff.mp h
  · obtain ⟨hz, hL, hbuf⟩ := hlast
    rw [hb] at hd
    obtain ⟨ys, rfl, hd'⟩ := decode_of_append hd (hbuf ▸ ht)
    exact ⟨ys, hbuf, next_eq_some_iff.mpr ⟨a, ys, hc, hd', hrs, hre, .inl ⟨hz, hL, rfl⟩⟩⟩
  · have hlen := (decode_suffix hg).length_le
    rw [hb] at hd
    obtain ⟨b1, rfl, hd'⟩ := decode_of_append hd (by omega)
    obtain ⟨ys, hys, hg'⟩ := decode_of_append hg ht
    exact ⟨ys, hys, next_eq_some_iff.mpr ⟨a, b1, hc, hd', hrs, hre, .inr ⟨hpos, g, hg', hL⟩⟩⟩

end AckRangesIter

/-! ## Runs of the iterator -/

namespace AckRangesIter

open Iterator

variable {self t : AckRangesIter} {l : List RangeInclusive}

theorem steps_count (h : Steps next self l t) :
    t.ackRangeCount.val + l.length = self.ackRangeCount.val := by
  induction h with
  | nil s => simp
  | cons hn _ ih =>
    have := next_count hn
    simp only [List.length_cons]
    omega

theorem steps_suffix (h : Steps next self l t) : t.rangeBuffer <:+ self.rangeBuffer := by
  induction h with
  | nil s => exact List.suffix_refl _
  | cons hn _ ih => exact ih.trans (next_suffix hn)

theorem steps_of_append (h : Steps next self l t) {xs tail : List UInt8}
    (hb : self.rangeBuffer = xs ++ tail) (ht : t.rangeBuffer = tail) :
    Steps next { self with rangeBuffer := xs } l { t with rangeBuffer := [] } := by
  induction h generalizing xs with
  | nil s =>
    obtain rfl : xs = [] := by
      have := congrArg List.length hb
      rw [ht, List.length_append] at this
      exact List.eq_nil_of_length_eq_zero (by omega)
    exact .nil _
  | @cons s s' t a l hn hrest ih =>
    have hlen : tail.length ≤ s'.rangeBuffer.length := ht ▸ (steps_suffix hrest).length_le
    obtain ⟨ys, hys, hn'⟩ := next_of_append hb hn hlen
    exact .cons hn' (ih hys ht)

theorem steps_descending (h : Steps next self l t) :
    Descending l ∧ ∀ r ∈ l.head?, r.end = self.largestAcknowledged := by
  induction h with
  | nil s => simp [Descending]
  | @cons s s' t a l hn hrest ih =>
    obtain ⟨⟨hvalid, hchain⟩, hhead⟩ := ih
    obtain ⟨x, buffer, -, -, hrs, hre, ⟨hz, -, -⟩ | ⟨-, g, -, hL⟩⟩ := next_eq_some_iff.mp hn
    · -- the count ran out, so nothing follows
      obtain rfl : l = [] := by
        cases hrest with
        | nil => rfl
        | cons hn' _ =>
          rw [next_of_count_zero hz] at hn'
          simp at hn'
      refine ⟨⟨?_, List.isChain_singleton a⟩, by simp [hre]⟩
      intro b hb
      rw [List.mem_singleton.mp hb, hre]
      omega
    · refine ⟨⟨?_, hchain.cons fun b hb => ?_⟩, by simp [hre]⟩
      · intro b hb
        rcases List.mem_cons.mp hb with rfl | hb
        · rw [hre]
          omega
        · exact hvalid b hb
      · rw [hhead b hb]
        omega

/-- The gap and length pairs that `encode_ack_range` writes for the ranges below a range that
starts at `smallest`. -/
def rangeBytes : Nat → List RangeInclusive → List UInt8
  | _, [] => []
  | smallest, r :: rs =>
    rfcEncoding (smallest - r.end.val - 2) ++ rfcEncoding (r.end.val - r.start.val) ++
      rangeBytes r.start.val rs

theorem decode_rfcEncoding_of_le {n : Nat} (h : n ≤ maxVarintValue) (rest : List UInt8) :
    VarInt.decode (rfcEncoding n ++ rest) = .ok (⟨n, h⟩, rest) :=
  decode_rfcEncoding ⟨n, h⟩ rest

theorem steps_rangeBytes (tail : List UInt8) (rs : List RangeInclusive) :
    ∀ (r : RangeInclusive) (c : VarInt), Descending (r :: rs) → c.val = rs.length + 1 →
      ∃ t, Steps next ⟨r.end, c,
          rfcEncoding (r.end.val - r.start.val) ++ rangeBytes r.start.val rs ++ tail⟩ (r :: rs) t ∧
        t.ackRangeCount.val = 0 ∧ t.rangeBuffer = tail := by
  induction rs with
  | nil =>
    intro r c hd hc
    have hle : r.end.val - r.start.val ≤ maxVarintValue := by have := r.end.le_max; omega
    refine ⟨⟨r.end, ⟨0, by decide⟩, tail⟩, .cons ?_ (.nil _), rfl, rfl⟩
    refine next_eq_some_iff.mpr ⟨⟨_, hle⟩, tail, by simp [hc], ?_, ?_, rfl, .inl ⟨rfl, rfl, rfl⟩⟩
    · simpa [rangeBytes] using decode_rfcEncoding_of_le hle tail
    · have := hd.start_le
      simp only
      omega
  | cons r' rs ih =>
    intro r c hd hc
    have hlen := hd.start_le
    have hgap := hd.gap
    have hle : r.end.val - r.start.val ≤ maxVarintValue := by have := r.end.le_max; omega
    have hgle : r.start.val - r'.end.val - 2 ≤ maxVarintValue := by have := r.end.le_max; omega
    have hc' : rs.length + 1 ≤ maxVarintValue := by have := c.le_max; simp at hc; omega
    obtain ⟨t, ht, htc, htb⟩ := ih r' ⟨rs.length + 1, hc'⟩ hd.tail rfl
    refine ⟨t, .cons ?_ ht, htc, htb⟩
    refine next_eq_some_iff.mpr ⟨⟨_, hle⟩, rfcEncoding (r.start.val - r'.end.val - 2) ++
      (rfcEncoding (r'.end.val - r'.start.val) ++ rangeBytes r'.start.val rs ++ tail),
      by simp [hc], ?_, ?_, rfl, .inr ⟨by simp, ⟨_, hgle⟩, ?_, ?_⟩⟩
    · simp only [rangeBytes, List.append_assoc]
      exact decode_rfcEncoding_of_le hle _
    · simp only
      omega
    · exact decode_rfcEncoding_of_le hgle _
    · simp only
      omega

end AckRangesIter

/-! ## The decoder -/

theorem EcnCounts.decode_encode (self : EcnCounts) (rest : List UInt8) :
    EcnCounts.decode (self.encode ++ rest) = .ok (self, rest) := by
  simp [EcnCounts.decode, EcnCounts.encode, encodeVarInt, List.append_assoc, decode_rfcEncoding]

namespace AckRangesDecoder

open Iterator AckRangesIter

theorem decode_yields {L : VarInt} {buffer remaining : DecoderBuffer} {d : AckRangesDecoder}
    (h : decode L buffer = .ok (d, remaining)) :
    ∃ ranges, Yields AckRangesIter.next d.ackRanges ranges ∧ ranges.length = d.ackRanges.len ∧
      Descending ranges := by
  unfold decode at h
  obtain ⟨⟨cnt, b1⟩, -, h⟩ := bind_eq_ok.mp h
  dsimp only at h
  rcases hadd : cnt.checkedAdd (VarInt.fromU8 1) with _ | c
  · rw [hadd] at h
    cases h
  rw [hadd] at h
  dsimp only at h
  rcases hadv : advanceBy AckRangesIter.next c.val ⟨L, c, b1⟩ with _ | iter
  · rw [hadv] at h
    cases h
  rw [hadv] at h
  dsimp only at h
  obtain ⟨⟨rb, rem⟩, hs, h⟩ := bind_eq_ok.mp h
  obtain ⟨rfl, rfl⟩ := Prod.mk.inj (Except.ok.inj h)
  obtain ⟨l, hl, hlen⟩ := steps_of_advanceBy hadv
  have hsuf := steps_suffix hl
  have hcount := steps_count hl
  rw [decodeSlice_long (Nat.sub_le _ _)] at hs
  obtain ⟨rfl, rfl⟩ := Prod.mk.inj (Except.ok.inj hs)
  have hb1 : b1 = b1.take (b1.length - iter.rangeBuffer.length) ++ iter.rangeBuffer := by
    conv_lhs => rw [← List.take_append_drop (b1.length - iter.rangeBuffer.length) b1]
    rw [← List.suffix_iff_eq_drop.mp hsuf]
  refine ⟨l, ⟨_, steps_of_append hl hb1 rfl, ?_⟩, by simp [ackRanges, len, hlen],
    (steps_descending hl).1⟩
  simp only at hcount
  rw [next_of_count_zero (by simp only; omega)]

theorem decode_encoded {r : RangeInclusive} {rs : List RangeInclusive} (hd : Descending (r :: rs))
    (tail : List UInt8) :
    ∃ c : VarInt, c.val = rs.length + 1 ∧
      decode r.end (rfcEncoding rs.length ++
          (rfcEncoding (r.end.val - r.start.val) ++ rangeBytes r.start.val rs) ++ tail) =
        .ok (⟨r.end, c, rfcEncoding (r.end.val - r.start.val) ++ rangeBytes r.start.val rs⟩,
          tail) := by
  have hbound : rs.length + 1 ≤ maxVarintValue := by
    have := hd.two_mul_length_le
    have := r.end.le_max
    unfold maxVarintValue at *
    omega
  obtain ⟨t, ht, htc, htb⟩ := steps_rangeBytes tail rs r ⟨rs.length + 1, hbound⟩ hd rfl
  have hadv : advanceBy AckRangesIter.next (rs.length + 1) ⟨r.end, ⟨rs.length + 1, hbound⟩,
      rfcEncoding (r.end.val - r.start.val) ++ rangeBytes r.start.val rs ++ tail⟩ = some t :=
    ht.advanceBy
  refine ⟨⟨rs.length + 1, hbound⟩, rfl, ?_⟩
  unfold decode
  rw [List.append_assoc, decode_rfcEncoding_of_le (by omega), ok_bind]
  dsimp only
  rw [VarInt.checkedAdd_of_le (show rs.length + (VarInt.fromU8 1).val ≤ maxVarintValue by
    simp only [VarInt.fromU8_val, UInt8.toNat_one]; exact hbound)]
  dsimp only
  simp only [VarInt.fromU8_val, UInt8.toNat_one]
  rw [hadv]
  dsimp only
  rw [htb, List.length_append, Nat.add_sub_cancel, decodeSlice_append]
  rfl

end AckRangesDecoder

theorem Ack.decode_yields {tag : UInt8} {buffer rest : DecoderBuffer} {frame : Ack AckRangesDecoder}
    (h : Ack.decode tag buffer = .ok (frame, rest)) :
    ∃ ranges, Iterator.Yields AckRangesIter.next frame.ackRanges.ackRanges ranges ∧
      ranges.length = frame.ackRanges.ackRanges.len ∧ Descending ranges := by
  unfold Ack.decode at h
  obtain ⟨⟨L, b1⟩, -, h⟩ := bind_eq_ok.mp h
  obtain ⟨⟨ackDelay, b2⟩, -, h⟩ := bind_eq_ok.mp h
  obtain ⟨⟨ackRanges, b3⟩, hr, h⟩ := bind_eq_ok.mp h
  have hframe : frame.ackRanges = ackRanges := by
    dsimp only at h
    split_ifs at h
    · obtain ⟨⟨e, b4⟩, -, h⟩ := bind_eq_ok.mp h
      obtain ⟨rfl, -⟩ := Prod.mk.inj (Except.ok.inj h)
      rfl
    · obtain ⟨rfl, -⟩ := Prod.mk.inj (Except.ok.inj h)
      rfl
  rw [hframe]
  exact AckRangesDecoder.decode_yields hr

/-! ## The encoder -/

theorem encodeAckRange_of_le {range : RangeInclusive} {smallest : VarInt}
    (hg : range.end.val + 2 ≤ smallest.val) (hr : range.start.val ≤ range.end.val)
    (buffer : List UInt8) :
    encodeAckRange range smallest buffer = some (range.start,
      buffer ++ rfcEncoding (smallest.val - range.end.val - 2) ++
        rfcEncoding (range.end.val - range.start.val)) := by
  rw [encodeAckRange, VarInt.checkedSub_of_le (show range.end.val ≤ smallest.val by omega),
    Option.bind_some, VarInt.checkedSub_of_le
      (show (VarInt.fromU8 2).val ≤ smallest.val - range.end.val by simp; omega),
    VarInt.checkedSub_of_le hr]
  rfl

theorem foldlM_encodeAckRange (rs : List RangeInclusive) :
    ∀ (prev : RangeInclusive) (buffer : List UInt8), Descending (prev :: rs) →
      ∃ smallest, rs.foldlM (fun acc range => encodeAckRange range acc.1 acc.2)
        (prev.start, buffer) = some (smallest, buffer ++ AckRangesIter.rangeBytes prev.start.val rs) := by
  induction rs with
  | nil =>
    intro prev buffer _
    exact ⟨prev.start, by simp [AckRangesIter.rangeBytes]⟩
  | cons r rs ih =>
    intro prev buffer hd
    obtain ⟨s, hs⟩ := ih r (buffer ++ rfcEncoding (prev.start.val - r.end.val - 2) ++
      rfcEncoding (r.end.val - r.start.val)) hd.tail
    refine ⟨s, ?_⟩
    rw [List.foldlM_cons, encodeAckRange_of_le hd.gap hd.tail.start_le]
    simp only [Option.bind_eq_bind, Option.bind_some]
    rw [hs]
    simp [AckRangesIter.rangeBytes, List.append_assoc]

/-- The bytes after the tag that `Ack::encode` writes for well-formed ranges `r :: rs`. -/
def frameBytes (ackDelay : VarInt) (r : RangeInclusive) (rs : List RangeInclusive)
    (ecnCounts : Option EcnCounts) : List UInt8 :=
  encodeVarInt r.end ++ encodeVarInt ackDelay ++ rfcEncoding rs.length ++
    (rfcEncoding (r.end.val - r.start.val) ++ AckRangesIter.rangeBytes r.start.val rs) ++
    (match ecnCounts with
      | some ecnCounts => ecnCounts.encode
      | none => [])

section Frame

variable (ackDelay : VarInt) {r : RangeInclusive} {rs : List RangeInclusive}
  (ecnCounts : Option EcnCounts)

theorem encode_eq (hd : Descending (r :: rs)) :
    (⟨ackDelay, r :: rs, ecnCounts⟩ : Ack (List RangeInclusive)).encode =
      some (Ack.tag ⟨ackDelay, r :: rs, ecnCounts⟩ :: frameBytes ackDelay r rs ecnCounts) := by
  have hn : rs.length ≤ maxVarintValue := by
    have := hd.two_mul_length_le
    have := r.end.le_max
    omega
  obtain ⟨s, hs⟩ := foldlM_encodeAckRange rs r ([Ack.tag ⟨ackDelay, r :: rs, ecnCounts⟩] ++
    encodeVarInt r.end ++ encodeVarInt ackDelay ++ encodeVarInt ⟨rs.length, hn⟩ ++
    encodeVarInt ⟨r.end.val - r.start.val, by have := r.end.le_max; omega⟩) hd
  simp only [Ack.encode, VarInt.checkedSub_of_le hd.start_le, VarInt.new, dif_pos hn,
    Option.bind_eq_bind, Option.bind_some]
  rw [hs]
  cases ecnCounts <;> simp [frameBytes, encodeVarInt, List.append_assoc]

theorem decode_frameBytes (hd : Descending (r :: rs)) (rest : List UInt8) :
    ∃ c : VarInt, c.val = rs.length + 1 ∧
      Ack.decode (Ack.tag ⟨ackDelay, r :: rs, ecnCounts⟩) (frameBytes ackDelay r rs ecnCounts ++ rest) =
        .ok (⟨ackDelay, ⟨r.end, c, rfcEncoding (r.end.val - r.start.val) ++
          AckRangesIter.rangeBytes r.start.val rs⟩, ecnCounts⟩, rest) := by
  obtain ⟨c, hc, hdec⟩ := AckRangesDecoder.decode_encoded hd
    ((match ecnCounts with
      | some ecnCounts => ecnCounts.encode
      | none => []) ++ rest)
  refine ⟨c, hc, ?_⟩
  simp only [List.append_assoc] at hdec
  simp only [Ack.decode, frameBytes, encodeVarInt, List.append_assoc, decode_rfcEncoding, ok_bind]
  rw [hdec, ok_bind]
  cases ecnCounts with
  | none => rfl
  | some e =>
    simp [Ack.tag, EcnCounts.decode_encode]

end Frame

/-! ## Round trip -/

/-- RFC 9000 Section 19.3: well-formed ranges that `Ack::encode` writes decode, with the frame's
tag and after exactly the written bytes, to a frame with the same ACK delay and ECN counts whose
iterator has length `n + 1` and yields exactly those ranges; and every frame that decodes yields
exactly `len()` well-formed ranges, so no call of its iterator fails before the count runs out. -/
theorem ack_frame_round_trip :
    (∀ (ackDelay : VarInt) (r : RangeInclusive) (rs : List RangeInclusive)
        (ecnCounts : Option EcnCounts) (rest : List UInt8), Descending (r :: rs) →
      let ack : Ack (List RangeInclusive) := ⟨ackDelay, r :: rs, ecnCounts⟩
      ∃ bytes frame, ack.encode = some (ack.tag :: bytes) ∧
        Ack.decode ack.tag (bytes ++ rest) = .ok (frame, rest) ∧
        frame.ackDelay = ackDelay ∧ frame.ecnCounts = ecnCounts ∧
        frame.ackRanges.ackRanges.len = (r :: rs).length ∧
        Iterator.Yields AckRangesIter.next frame.ackRanges.ackRanges (r :: rs)) ∧
    (∀ (tag : UInt8) (buffer rest : DecoderBuffer) (frame : Ack AckRangesDecoder),
      Ack.decode tag buffer = .ok (frame, rest) →
      ∃ ranges, Iterator.Yields AckRangesIter.next frame.ackRanges.ackRanges ranges ∧
        ranges.length = frame.ackRanges.ackRanges.len ∧ Descending ranges) := by
  refine ⟨fun ackDelay r rs ecnCounts rest hd => ?_,
    fun tag buffer rest frame h => Ack.decode_yields h⟩
  obtain ⟨c, hc, hdec⟩ := decode_frameBytes ackDelay ecnCounts hd rest
  obtain ⟨t, ht, htc, -⟩ := AckRangesIter.steps_rangeBytes [] rs r c hd hc
  rw [List.append_nil] at ht
  exact ⟨_, _, encode_eq ackDelay ecnCounts hd, hdec, rfl, rfl, hc, t, ht,
    by rw [AckRangesIter.next_of_count_zero htc]⟩

theorem ack_frame_round_trip_two_ranges :
    let r : RangeInclusive := ⟨⟨5, by decide⟩, ⟨7, by decide⟩⟩
    let rs : List RangeInclusive := [⟨⟨1, by decide⟩, ⟨2, by decide⟩⟩]
    let ack : Ack (List RangeInclusive) := ⟨⟨3, by decide⟩, r :: rs, none⟩
    Descending (r :: rs) ∧ ∃ bytes frame, ack.encode = some (ack.tag :: bytes) ∧
      Ack.decode ack.tag bytes = .ok (frame, []) ∧
      Iterator.Yields AckRangesIter.next frame.ackRanges.ackRanges (r :: rs) ∧
      ∃ ranges, Iterator.Yields AckRangesIter.next frame.ackRanges.ackRanges ranges ∧
        Descending ranges := by
  intro r rs ack
  have hd : Descending (r :: rs) := by decide
  obtain ⟨bytes, frame, he, hdec, -, -, -, hy⟩ := ack_frame_round_trip.1 ⟨3, by decide⟩ r rs none [] hd
  rw [List.append_nil] at hdec
  obtain ⟨ranges, hr, -, hrd⟩ := ack_frame_round_trip.2 _ _ _ _ hdec
  exact ⟨hd, bytes, frame, he, hdec, hy, ranges, hr, hrd⟩

end S2nQuic.Frame
