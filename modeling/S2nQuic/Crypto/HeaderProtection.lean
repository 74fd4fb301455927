import S2nQuic.Packet.Number

/-!
# Header protection

`protect` and `unprotect` (`s2n-quic-core/src/crypto/mod.rs`) and the masking they run
(`crypto/header_crypto.rs`), RFC 9001 section 5.4. A key turns a sample of the ciphertext,
taken four bytes past the start of the packet number whatever its length, into a five-byte
mask: the first byte masks the low bits of the packet's first byte (four for a long header,
five for a short one), and the other four mask the packet number's bytes. Both directions
mask the first byte first; `unprotect` then reads the packet number's length off the byte it
has just unmasked.

A `HeaderKey` is the trait's four methods. Buffers are byte lists. Byte 0 and the packet
number's range lie within the buffer whenever the sample was taken, so the list operations
below agree with the source's indexing on every call from `protect` and `unprotect`.
-/

namespace S2nQuic.Crypto
open ByteOrder Codec Packet

/-- `HeaderProtectionMask`, `[u8; HEADER_PROTECTION_MASK_LEN]`. -/
abbrev HeaderProtectionMask := Vector UInt8 5

structure HeaderKey where
  openingHeaderProtectionMask : List UInt8 → HeaderProtectionMask
  openingSampleLen : Nat
  sealingHeaderProtectionMask : List UInt8 → HeaderProtectionMask
  sealingSampleLen : Nat

def LONG_HEADER_TAG : UInt8 := 0x80

def LONG_HEADER_MASK : UInt8 := 0x0f

def SHORT_HEADER_MASK : UInt8 := 0x1f

/-- `PacketNumberLen::MAX_LEN`. -/
def PacketNumberLen.MAX_LEN : Nat := 4

def maskFromPacketTag (tag : UInt8) : UInt8 :=
  if tag &&& LONG_HEADER_TAG = LONG_HEADER_TAG then LONG_HEADER_MASK else SHORT_HEADER_MASK

/-- `xor_mask`: the bytes are paired with the mask's bytes, and those past it are left. -/
def xorMask : List UInt8 → List UInt8 → List UInt8
  | b :: bs, m :: ms => (b ^^^ m) :: xorMask bs ms
  | bs, _ => bs

structure EncryptedPayload where
  headerLen : Nat
  packetNumberLen : PacketNumberLen
  buffer : List UInt8

structure ProtectedPayload where
  headerLen : Nat
  buffer : List UInt8

/-- `header_protection_sample`: `sample_len` bytes, four past the packet number's start. -/
def headerProtectionSample (buffer : List UInt8) (headerLen sampleLen : Nat) :
    Except DecoderError (List UInt8) := do
  let buffer ← skip buffer headerLen
  let buffer ← skip buffer PacketNumberLen.MAX_LEN
  let (sample, _) ← decodeSlice buffer sampleLen
  pure sample

/-- `payload[0] ^= mask[0] & mask_from_packet_tag(payload[0])`. -/
def maskTag (mask : HeaderProtectionMask) (buffer : List UInt8) : List UInt8 :=
  buffer.modifyHead fun tag => tag ^^^ (mask[0] &&& maskFromPacketTag tag)

/-- `xor_mask(&mut payload[header_len..header_with_pn_len], &mask)`. -/
def maskPacketNumber (mask : HeaderProtectionMask) (headerLen packetNumberLen : Nat)
    (buffer : List UInt8) : List UInt8 :=
  buffer.take headerLen ++
    xorMask ((buffer.take (packetNumberLen + headerLen)).drop headerLen) (mask.toList.drop 1) ++
    buffer.drop (packetNumberLen + headerLen)

def applyHeaderProtection (mask : HeaderProtectionMask) (payload : EncryptedPayload) :
    ProtectedPayload :=
  let buffer := maskTag mask payload.buffer
  ⟨payload.headerLen,
    maskPacketNumber mask payload.headerLen payload.packetNumberLen.bytesize buffer⟩

def removeHeaderProtection (space : PacketNumberSpace) (mask : HeaderProtectionMask)
    (payload : ProtectedPayload) :
    Except DecoderError (TruncatedPacketNumber × EncryptedPayload) := do
  let buffer := maskTag mask payload.buffer
  -- the length is read off the first byte once it is unmasked
  let packetNumberLen := PacketNumberLen.fromPacketTag (buffer.headD 0) space
  let buffer := maskPacketNumber mask payload.headerLen packetNumberLen.bytesize buffer
  let packetNumberBytes :=
    (buffer.take (packetNumberLen.bytesize + payload.headerLen)).drop payload.headerLen
  let (packetNumber, _) ← packetNumberLen.decodeTruncatedPacketNumber packetNumberBytes
  pure (packetNumber, ⟨payload.headerLen, packetNumberLen, buffer⟩)

def protect (crypto : HeaderKey) (payload : EncryptedPayload) :
    Except DecoderError ProtectedPayload := do
  let sample ← headerProtectionSample payload.buffer payload.headerLen crypto.sealingSampleLen
  let mask := crypto.sealingHeaderProtectionMask sample
  pure (applyHeaderProtection mask payload)

def unprotect (crypto : HeaderKey) (space : PacketNumberSpace) (payload : ProtectedPayload) :
    Except DecoderError (TruncatedPacketNumber × EncryptedPayload) := do
  let sample ← headerProtectionSample payload.buffer payload.headerLen crypto.openingSampleLen
  let mask := crypto.openingHeaderProtectionMask sample
  removeHeaderProtection space mask payload

/-! ## Masks undo themselves -/

@[simp] theorem length_xorMask (bs ms : List UInt8) : (xorMask bs ms).length = bs.length := by
  induction bs generalizing ms with
  | nil => cases ms <;> rfl
  | cons b bs ih =>
    cases ms with
    | nil => rfl
    | cons m ms => simp [xorMask, ih]

theorem xorMask_xorMask (bs ms : List UInt8) : xorMask (xorMask bs ms) ms = bs := by
  induction bs generalizing ms with
  | nil => cases ms <;> rfl
  | cons b bs ih =>
    cases ms with
    | nil => rfl
    | cons m ms => simp [xorMask, ih]

theorem maskFromPacketTag_and_tag (tag : UInt8) : maskFromPacketTag tag &&& LONG_HEADER_TAG = 0 := by
  unfold maskFromPacketTag
  split_ifs <;> decide

theorem xor_masked_and_tag (tag m k : UInt8) (hk : k &&& LONG_HEADER_TAG = 0) :
    (tag ^^^ (m &&& k)) &&& LONG_HEADER_TAG = tag &&& LONG_HEADER_TAG := by
  apply UInt8.toBitVec_inj.1
  ext i hi
  -- bit by bit: the tag's bit is set only where the header-form mask is clear
  have hk' : (k.toBitVec[i] && LONG_HEADER_TAG.toBitVec[i]) = false := by
    simpa using congrArg (fun v => (UInt8.toBitVec v)[i]) hk
  simp only [UInt8.toBitVec_and, UInt8.toBitVec_xor, BitVec.getElem_and, BitVec.getElem_xor]
  generalize LONG_HEADER_TAG.toBitVec[i] = t at *
  generalize k.toBitVec[i] = c at *
  cases tag.toBitVec[i] <;> cases m.toBitVec[i] <;> cases c <;> cases t <;> simp_all

theorem maskFromPacketTag_masked (tag m : UInt8) :
    maskFromPacketTag (tag ^^^ (m &&& maskFromPacketTag tag)) = maskFromPacketTag tag := by
  have hform := xor_masked_and_tag tag m _ (maskFromPacketTag_and_tag tag)
  unfold maskFromPacketTag at hform ⊢
  rw [hform]

theorem getElem?_maskTag {i : Nat} (hi : i ≠ 0) (mask : HeaderProtectionMask)
    (buffer : List UInt8) : (maskTag mask buffer)[i]? = buffer[i]? := by
  cases buffer with
  | nil => rfl
  | cons tag rest =>
    obtain ⟨i, rfl⟩ := Nat.exists_eq_succ_of_ne_zero hi
    rfl

theorem maskPacketNumber_append (mask : HeaderProtectionMask) {header pn rest : List UInt8}
    {headerLen packetNumberLen : Nat} (hheader : header.length = headerLen)
    (hpn : pn.length = packetNumberLen) :
    maskPacketNumber mask headerLen packetNumberLen (header ++ pn ++ rest) =
      header ++ xorMask pn (mask.toList.drop 1) ++ rest := by
  subst hheader hpn
  simp [maskPacketNumber, List.take_append, List.drop_append, Nat.add_comm pn.length]

theorem headerProtectionSample_eq {buffer : List UInt8} {headerLen sampleLen : Nat}
    (hlen : headerLen + PacketNumberLen.MAX_LEN + sampleLen ≤ buffer.length) :
    headerProtectionSample buffer headerLen sampleLen =
      .ok ((buffer.drop (headerLen + PacketNumberLen.MAX_LEN)).take sampleLen) := by
  simp only [PacketNumberLen.MAX_LEN] at hlen ⊢
  have h1 : ¬ buffer.length < headerLen := by omega
  have h2 : ¬ buffer.length - headerLen < 4 := by omega
  have h3 : ¬ buffer.length - (headerLen + 4) < sampleLen := by omega
  simp [headerProtectionSample, skip, decodeSlice, h1, h2, h3, PacketNumberLen.MAX_LEN,
    Except.map]

theorem bytesize_le_MAX_LEN (len : PacketNumberLen) :
    len.bytesize ≤ PacketNumberLen.MAX_LEN := by
  obtain ⟨space, value⟩ := len
  cases value <;> exact Nat.le_of_ble_eq_true rfl

theorem drop_masked {header header' pn pn' rest : List UInt8}
    (hheader : header'.length = header.length) (hpn : pn'.length = pn.length)
    (hpn4 : pn.length ≤ PacketNumberLen.MAX_LEN) :
    (header' ++ pn' ++ rest).drop (header.length + PacketNumberLen.MAX_LEN) =
      (header ++ pn ++ rest).drop (header.length + PacketNumberLen.MAX_LEN) := by
  simp only [List.append_assoc, List.drop_append, hheader, Nat.add_sub_cancel_left,
    List.drop_eq_nil_of_le (show header'.length ≤ header.length + PacketNumberLen.MAX_LEN by omega),
    List.drop_eq_nil_of_le (show header.length ≤ header.length + PacketNumberLen.MAX_LEN by omega),
    List.drop_eq_nil_of_le (show pn'.length ≤ PacketNumberLen.MAX_LEN by omega),
    List.drop_eq_nil_of_le hpn4, List.nil_append, hpn]

theorem getElem?_append_masked {header pn pn' rest : List UInt8} {i : Nat}
    (hpn : pn'.length = pn.length) (hi : i < header.length ∨ header.length + pn.length ≤ i) :
    (header ++ pn' ++ rest)[i]? = (header ++ pn ++ rest)[i]? := by
  rcases hi with hi | hi
  · simp [List.getElem?_append_left, hi]
  · rw [List.append_assoc, List.append_assoc, List.getElem?_append_right (by omega),
      List.getElem?_append_right (by omega), List.getElem?_append_right (by omega),
      List.getElem?_append_right (by omega), hpn]

theorem fromPacketTag_len_intoPacketTagMask (t : TruncatedPacketNumber) :
    PacketNumberLen.fromPacketTag t.len.intoPacketTagMask t.space = t.len := by
  simp only [PacketNumberLen.fromPacketTag, PacketNumberLen.intoPacketTagMask,
    fromPacketTag_intoPacketTagMask, TruncatedPacketNumber.len]

/-! ## Unprotecting a protected packet -/

theorem protect_eq {crypto : HeaderKey} {payload : EncryptedPayload} {sample : List UInt8}
    (hsample : headerProtectionSample payload.buffer payload.headerLen crypto.sealingSampleLen =
      .ok sample) :
    protect crypto payload =
      .ok (applyHeaderProtection (crypto.sealingHeaderProtectionMask sample) payload) := by
  simp only [protect, hsample]
  rfl

theorem unprotect_eq {crypto : HeaderKey} {space : PacketNumberSpace}
    {payload : ProtectedPayload} {sample : List UInt8}
    (hsample : headerProtectionSample payload.buffer payload.headerLen crypto.openingSampleLen =
      .ok sample) :
    unprotect crypto space payload =
      removeHeaderProtection space (crypto.openingHeaderProtectionMask sample) payload := by
  simp only [unprotect, hsample]
  rfl

theorem removeHeaderProtection_eq {space : PacketNumberSpace} {mask : HeaderProtectionMask}
    {payload : ProtectedPayload} {len : PacketNumberLen} {buffer rest : List UInt8}
    {packetNumber : TruncatedPacketNumber}
    (hlen : PacketNumberLen.fromPacketTag ((maskTag mask payload.buffer).headD 0) space = len)
    (hbuffer : maskPacketNumber mask payload.headerLen len.bytesize (maskTag mask payload.buffer) =
      buffer)
    (hdecode : len.decodeTruncatedPacketNumber
      ((buffer.take (len.bytesize + payload.headerLen)).drop payload.headerLen) =
        .ok (packetNumber, rest)) :
    removeHeaderProtection space mask payload =
      .ok (packetNumber, ⟨payload.headerLen, len, buffer⟩) := by
  simp only [removeHeaderProtection, hlen, hbuffer, hdecode]
  rfl

theorem unprotect_protect (crypto : HeaderKey) (payload : EncryptedPayload)
    (header rest : List UInt8) (t : TruncatedPacketNumber)
    (hbuffer : payload.buffer = header ++ beBytes t.len.bytesize t.intoU64 ++ rest)
    (hheaderLen : payload.headerLen = header.length) (hpnLen : payload.packetNumberLen = t.len)
    (hheader : header ≠ [])
    (htag : PacketNumberLen.fromPacketTag (header.headD 0) t.space = t.len)
    (hrest : PacketNumberLen.MAX_LEN - t.len.bytesize + crypto.sealingSampleLen ≤ rest.length)
    (hsampleLen : crypto.openingSampleLen = crypto.sealingSampleLen)
    (hmask : ∀ sample, crypto.openingHeaderProtectionMask sample =
      crypto.sealingHeaderProtectionMask sample) :
    ∃ sealedPayload, protect crypto payload = .ok sealedPayload ∧
      unprotect crypto t.space sealedPayload = .ok (t, payload) ∧
      sealedPayload.headerLen = payload.headerLen ∧
      sealedPayload.buffer.length = payload.buffer.length ∧
      (∀ i, i ≠ 0 → i < header.length ∨ header.length + t.len.bytesize ≤ i →
        sealedPayload.buffer[i]? = payload.buffer[i]?) ∧
      (∃ m : UInt8, sealedPayload.buffer.headD 0 =
        header.headD 0 ^^^ (m &&& maskFromPacketTag (header.headD 0))) ∧
      headerProtectionSample payload.buffer payload.headerLen crypto.sealingSampleLen =
        .ok ((payload.buffer.drop (payload.headerLen + PacketNumberLen.MAX_LEN)).take
          crypto.sealingSampleLen) ∧
      headerProtectionSample sealedPayload.buffer sealedPayload.headerLen crypto.sealingSampleLen =
        headerProtectionSample payload.buffer payload.headerLen crypto.sealingSampleLen := by
  obtain ⟨headerLen, packetNumberLen, buffer⟩ := payload
  simp only at hbuffer hheaderLen hpnLen ⊢
  subst hbuffer hheaderLen hpnLen
  obtain ⟨tag, headerRest, rfl⟩ := List.exists_cons_of_ne_nil hheader
  set pn := beBytes t.len.bytesize t.intoU64 with hpnDef
  have hpn : pn.length = t.len.bytesize := length_beBytes _ _
  have hpn4 : pn.length ≤ PacketNumberLen.MAX_LEN := hpn ▸ bytesize_le_MAX_LEN t.len
  have hlen : (tag :: headerRest).length + PacketNumberLen.MAX_LEN + crypto.sealingSampleLen ≤
      (tag :: headerRest ++ pn ++ rest).length := by
    simp only [List.length_append, List.length_cons] at hrest hpn4 ⊢
    omega
  have hsample := headerProtectionSample_eq hlen
  set sample := ((tag :: headerRest ++ pn ++ rest).drop
    ((tag :: headerRest).length + PacketNumberLen.MAX_LEN)).take crypto.sealingSampleLen
  set mask := crypto.sealingHeaderProtectionMask sample
  set maskedTag := tag ^^^ (mask[0] &&& maskFromPacketTag tag)
  set sealedBuffer := maskedTag :: headerRest ++ xorMask pn (mask.toList.drop 1) ++ rest
  have hsealedLen : sealedBuffer.length = (tag :: headerRest ++ pn ++ rest).length := by
    simp [sealedBuffer]
  have hsealed : protect crypto ⟨(tag :: headerRest).length, t.len, tag :: headerRest ++ pn ++ rest⟩ =
      .ok ⟨(tag :: headerRest).length, sealedBuffer⟩ := by
    rw [protect_eq hsample]
    show Except.ok (⟨_, maskPacketNumber mask (maskedTag :: headerRest).length t.len.bytesize
      (maskedTag :: headerRest ++ pn ++ rest)⟩ : ProtectedPayload) = _
    rw [maskPacketNumber_append mask rfl hpn]
  have hsampleSealed : headerProtectionSample sealedBuffer (tag :: headerRest).length
      crypto.sealingSampleLen = .ok sample := by
    rw [headerProtectionSample_eq (hsealedLen ▸ hlen)]
    exact congrArg (fun l => Except.ok (List.take crypto.sealingSampleLen l))
      (drop_masked (rfl : (maskedTag :: headerRest).length = _) (length_xorMask _ _) hpn4)
  have hunmaskTag : maskTag mask sealedBuffer =
      tag :: headerRest ++ xorMask pn (mask.toList.drop 1) ++ rest := by
    simp only [sealedBuffer, List.cons_append, maskTag, List.modifyHead_cons, maskedTag,
      maskFromPacketTag_masked, UInt8.xor_assoc, UInt8.xor_self, UInt8.xor_zero]
  have hdecode : t.len.decodeTruncatedPacketNumber pn = .ok (t, []) := by
    have := decodeTruncatedPacketNumber_encode t []
    rwa [fromPacketTag_len_intoPacketTagMask, List.append_nil] at this
  have hopened : unprotect crypto t.space ⟨(tag :: headerRest).length, sealedBuffer⟩ =
      .ok (t, ⟨(tag :: headerRest).length, t.len, tag :: headerRest ++ pn ++ rest⟩) := by
    rw [unprotect_eq (hsampleLen ▸ hsampleSealed), hmask]
    apply removeHeaderProtection_eq (by rw [hunmaskTag]; exact htag)
    · rw [hunmaskTag, maskPacketNumber_append mask rfl (by rw [length_xorMask, hpn]),
        xorMask_xorMask]
    · rw [← hpn, List.append_assoc, Nat.add_comm, List.take_length_add_append, List.take_left',
        List.drop_left]
      · exact hdecode
      · rfl
  refine ⟨_, hsealed, hopened, rfl, hsealedLen, ?_, ⟨mask[0], rfl⟩, hsample, hsampleSealed.trans hsample.symm⟩
  intro i hi0 hi
  have hmid : sealedBuffer[i]? = (maskedTag :: headerRest ++ pn ++ rest)[i]? :=
    getElem?_append_masked (length_xorMask _ _) (by simpa [hpn] using hi)
  rw [hmid]
  exact getElem?_maskTag hi0 mask (tag :: headerRest ++ pn ++ rest)

theorem unprotect_protect_u16 :
    PacketNumberLen.fromPacketTag 0xc1 .initial = ⟨.initial, .u16⟩ ∧
      ∃ sealedPayload, protect ⟨fun _ => #v[0x1f, 1, 2, 3, 4], 2, fun _ => #v[0x1f, 1, 2, 3, 4], 2⟩
          ⟨1, ⟨.initial, .u16⟩, [0xc1, 0x12, 0x34, 9, 9, 9, 9]⟩ = .ok sealedPayload ∧
        unprotect ⟨fun _ => #v[0x1f, 1, 2, 3, 4], 2, fun _ => #v[0x1f, 1, 2, 3, 4], 2⟩ .initial
          sealedPayload =
            .ok (⟨.initial, .u16 0x1234⟩, ⟨1, ⟨.initial, .u16⟩, [0xc1, 0x12, 0x34, 9, 9, 9, 9]⟩) := by
  refine ⟨rfl, ?_⟩
  obtain ⟨sealedPayload, hsealed, hopened, -⟩ :=
    unprotect_protect ⟨fun _ => #v[0x1f, 1, 2, 3, 4], 2, fun _ => #v[0x1f, 1, 2, 3, 4], 2⟩
      ⟨1, ⟨.initial, .u16⟩, [0xc1, 0x12, 0x34, 9, 9, 9, 9]⟩ [0xc1] [9, 9, 9, 9]
      ⟨.initial, .u16 0x1234⟩ rfl rfl rfl (List.cons_ne_nil _ _) rfl (by decide) rfl
      (fun _ => rfl)
  exact ⟨sealedPayload, hsealed, hopened⟩

end S2nQuic.Crypto
