import S2nQuic.Packet.Number
import S2nQuic.Time

/-!
# 1-RTT key sets and key updates

A `KeySet` holds two limited keys in slots indexed by the key phase bit: the active key
under `keyPhase` and, in the other slot, either the next key (derived from the active one)
or, while the derivation timer is armed after a key update, the previous key kept for
delayed packets. `decryptPacket` opens a short packet with the slot its phase bit names and
rotates the phase when the packet's phase differs from `keyPhase`; `onTimeout` derives the
next key into the other slot once the timer fires; `encryptPacket` uses the active key, or
the other slot once the active key is within `keyUpdateWindow` packets of its
confidentiality limit, and refuses an expired key.

The AEAD itself is the `OneRttKey` class: the key set only derives keys, reads their limits
and opens packets with them.
-/

namespace S2nQuic.Crypto
open Packet

inductive KeyPhase
  | zero
  | one
  deriving DecidableEq, Repr

namespace KeyPhase

def toU8 : KeyPhase → UInt8
  | zero => 0
  | one => 1

/-- `From<u8>`: only the low bit counts. -/
def ofU8 (v : UInt8) : KeyPhase := if v &&& 0x01 = 0 then zero else one

def nextPhase : KeyPhase → KeyPhase
  | zero => one
  | one => zero

@[simp] theorem nextPhase_ne (p : KeyPhase) : p.nextPhase ≠ p := by
  cases p <;> decide

theorem eq_or_eq_nextPhase (p q : KeyPhase) : q = p ∨ q = p.nextPhase := by
  cases p <;> cases q <;> decide

theorem ofU8_phaseToUse (c : Bool) (p q : KeyPhase) :
    ofU8 (if c then q.toU8 else p.toU8 ^^^ (if (p.toU8 != q.toU8) = true then 1 else 0)) = q := by
  cases c <;> cases p <;> cases q <;> decide

end KeyPhase

def PROTOCOL_VIOLATION : Nat := 0xa

def AEAD_LIMIT_REACHED : Nat := 0xf

/-- `connection::ProcessingError`; a connection error is named by its transport error code. -/
inductive ProcessingError
  | connectionError (code : Nat)
  | decryptError
  | other
  deriving DecidableEq, Repr

inductive PacketEncodingError
  | packetNumberTruncationError
  | insufficientSpace
  | emptyPayload
  | aeadLimitReached
  deriving DecidableEq, Repr

/-- What the key set and short packets use of a 1-RTT key. `decrypt` opens `payload` in
place under the nonce `packetNumber` with `header` as associated data, and fails when the
packet was not sealed with this key. -/
class OneRttKey (K : Type) where
  decrypt : K → Nat → List UInt8 → List UInt8 → Option (List UInt8)
  tagLen : K → Nat
  deriveNextKey : K → K
  aeadConfidentialityLimit : K → Nat
  aeadIntegrityLimit : K → Nat

variable {K : Type} [OneRttKey K]

/-- A short header packet after header protection is removed. -/
structure EncryptedShort where
  keyPhase : KeyPhase
  packetNumber : PacketNumber
  header : List UInt8
  payload : List UInt8

structure CleartextShort where
  keyPhase : KeyPhase
  packetNumber : PacketNumber
  header : List UInt8
  payload : List UInt8

/-- `crypto::decrypt`: open the payload, then drop the tag. -/
def cryptoDecrypt (key : K) (packetNumber : PacketNumber) (header payload : List UInt8) :
    Option (List UInt8) :=
  (OneRttKey.decrypt key packetNumber.asU64 header payload).map
    fun payload => payload.take (payload.length - OneRttKey.tagLen key)

def RESERVED_BITS_MASK : UInt8 := 0x18

/-- `EncryptedShort::decrypt`. -/
def EncryptedShort.decrypt (packet : EncryptedShort) (crypto : K) :
    Except ProcessingError CleartextShort :=
  match cryptoDecrypt crypto packet.packetNumber packet.header packet.payload with
  | none => .error .decryptError
  | some payload =>
    if packet.header.headD 0 &&& RESERVED_BITS_MASK ≠ 0 then
      .error (.connectionError PROTOCOL_VIOLATION)
    else .ok ⟨packet.keyPhase, packet.packetNumber, packet.header, payload⟩

/-! ## Limited keys -/

structure Limits where
  keyUpdateWindow : Nat

def KEY_UPDATE_WINDOW : Nat := 10000

def Limits.default : Limits := ⟨KEY_UPDATE_WINDOW⟩

/-- `limited::Key`: a key with its packet counters. -/
structure Key (K : Type) where
  key : K
  encryptedPackets : Nat
  decryptedPackets : Nat
  confidentialityLimit : Nat

namespace Key

def new (key : K) : Key K := ⟨key, 0, 0, OneRttKey.aeadConfidentialityLimit key⟩

/-- Keys used up to the confidentiality limit are expired. -/
def expired (k : Key K) : Bool := decide (k.confidentialityLimit ≤ k.encryptedPackets)

/-- Within the update window of the limit (`saturating_sub`), an update should start. -/
def needsUpdate (k : Key K) (limits : Limits) : Bool :=
  decide (k.confidentialityLimit - limits.keyUpdateWindow < k.encryptedPackets)

def deriveNextKey (k : Key K) : K := OneRttKey.deriveNextKey k.key

def onPacketEncryption (k : Key K) : Key K := { k with encryptedPackets := k.encryptedPackets + 1 }

def onPacketDecryption (k : Key K) : Key K := { k with decryptedPackets := k.decryptedPackets + 1 }

@[simp] theorem key_onPacketEncryption (k : Key K) : k.onPacketEncryption.key = k.key := rfl

@[simp] theorem key_onPacketDecryption (k : Key K) : k.onPacketDecryption.key = k.key := rfl

@[simp] theorem key_new (key : K) : (Key.new key).key = key := rfl

end Key

/-- `KeyArray`: the two slots, indexed by the phase bit. -/
structure KeyArray (K : Type) where
  zero : Key K
  one : Key K

namespace KeyArray

def get (a : KeyArray K) : KeyPhase → Key K
  | .zero => a.zero
  | .one => a.one

def set (a : KeyArray K) (phase : KeyPhase) (k : Key K) : KeyArray K :=
  match phase with
  | .zero => { a with zero := k }
  | .one => { a with one := k }

@[simp] theorem get_set_self (a : KeyArray K) (p : KeyPhase) (k : Key K) :
    (a.set p k).get p = k := by
  cases p <;> rfl

@[simp] theorem get_nextPhase_set (a : KeyArray K) (p : KeyPhase) (k : Key K) :
    (a.set p.nextPhase k).get p = a.get p := by
  cases p <;> rfl

def SameSealing (a b : KeyArray K) : Prop :=
  ∀ q, (a.get q).key = (b.get q).key ∧ (a.get q).encryptedPackets = (b.get q).encryptedPackets ∧
    (a.get q).confidentialityLimit = (b.get q).confidentialityLimit

theorem sameSealing_onPacketDecryption (a : KeyArray K) (p : KeyPhase) :
    SameSealing (a.set p (a.get p).onPacketDecryption) a := by
  intro q
  cases p <;> cases q <;> exact ⟨rfl, rfl, rfl⟩

theorem get_set_onPacketEncryption (a : KeyArray K) (p q : KeyPhase) :
    ((a.set p (a.get p).onPacketEncryption).get q).key = (a.get q).key ∧
      ((a.set p (a.get p).onPacketEncryption).get q).confidentialityLimit =
        (a.get q).confidentialityLimit ∧
      ((a.set p (a.get p).onPacketEncryption).get q).encryptedPackets =
        (a.get q).encryptedPackets + (if q = p then 1 else 0) := by
  cases p <;> cases q <;> simp [get, set, Key.onPacketEncryption]

end KeyArray

/-! ## The key set -/

structure KeySet (K : Type) where
  keyPhase : KeyPhase
  keyDerivationTimer : Timer
  packetDecryptionFailures : Nat
  aeadIntegrityLimit : Nat
  /-- The number of times the key has been rotated (a `u16`). -/
  generation : UInt16
  crypto : KeyArray K
  limits : Limits

namespace KeySet

/-- The pre-generated next key sits in phase one, so that a key update is answered without a
timing side channel. -/
def new (crypto : K) (limits : Limits) : KeySet K where
  keyPhase := .zero
  keyDerivationTimer := {}
  packetDecryptionFailures := 0
  aeadIntegrityLimit := OneRttKey.aeadIntegrityLimit crypto
  generation := 0
  crypto := ⟨Key.new crypto, Key.new (OneRttKey.deriveNextKey crypto)⟩
  limits := limits

def activeKey (ks : KeySet K) : Key K := ks.crypto.get ks.keyPhase

def rotatePhase (ks : KeySet K) : KeySet K :=
  { ks with generation := ks.generation + 1, keyPhase := ks.keyPhase.nextPhase }

/-- Derive a key from the active one into the other slot. -/
def deriveAndStoreNextKey (ks : KeySet K) : KeySet K :=
  let nextKey := ks.activeKey.deriveNextKey
  let nextPhase := ks.keyPhase.nextPhase
  { ks with crypto := ks.crypto.set nextPhase (Key.new nextKey) }

def setDerivationTimer (ks : KeySet K) (timestamp : Timestamp) : KeySet K :=
  { ks with keyDerivationTimer := ks.keyDerivationTimer.set timestamp }

def keyUpdateInProgress (ks : KeySet K) : Bool := ks.keyDerivationTimer.isArmed

def decryptionErrorCount (ks : KeySet K) : Nat := ks.packetDecryptionFailures

/-- `decrypt_packet`: the decrypted packet and the new generation if the phase was rotated.
`phaseToUse` starts at the key phase and is flipped when the packet's phase differs; during a
key update a delayed packet (below the largest acknowledged number) of the other phase is
opened with its own phase's slot. -/
def decryptPacket (ks : KeySet K) (packet : EncryptedShort)
    (largestAcknowledgedPacketNumber : PacketNumber) (pto : Timestamp) :
    Except ProcessingError (CleartextShort × Option UInt16) × KeySet K :=
  let phaseToUse := ks.keyPhase.toU8
  let packetPhase := packet.keyPhase
  let phaseSwitch := phaseToUse != packetPhase.toU8
  let phaseToUse := phaseToUse ^^^ (if phaseSwitch then 1 else 0)
  let phaseToUse :=
    if ks.keyUpdateInProgress && phaseSwitch &&
        packet.packetNumber.lt largestAcknowledgedPacketNumber then
      packet.keyPhase.toU8
    else phaseToUse
  let key := ks.crypto.get (KeyPhase.ofU8 phaseToUse)
  let result := packet.decrypt key.key
  let ks := { ks with crypto := ks.crypto.set (KeyPhase.ofU8 phaseToUse) key.onPacketDecryption }
  match result with
  | .ok packet =>
    if packetPhase ≠ ks.keyPhase then
      let ks := ks.rotatePhase.setDerivationTimer pto
      (.ok (packet, some ks.generation), ks)
    else (.ok (packet, none), ks)
  | .error err =>
    let ks := { ks with packetDecryptionFailures := ks.packetDecryptionFailures + 1 }
    if ks.decryptionErrorCount > ks.aeadIntegrityLimit then
      (.error (.connectionError AEAD_LIMIT_REACHED), ks)
    else (.error err, ks)

/-- The phase whose key protects the next packet. -/
def encryptionPhase (ks : KeySet K) : KeyPhase :=
  if ks.activeKey.needsUpdate ks.limits then ks.keyPhase.nextPhase else ks.keyPhase

/-- `encrypt_packet`: `f` protects the packet with the key and phase it is handed. -/
def encryptPacket {ρ : Type} (ks : KeySet K) (f : K → KeyPhase → Except PacketEncodingError ρ) :
    Except PacketEncodingError ρ × KeySet K :=
  let phase := ks.encryptionPhase
  if (ks.crypto.get phase).expired then (.error .aeadLimitReached, ks)
  else
    match f (ks.crypto.get phase).key phase with
    | .error e => (.error e, ks)
    | .ok r => (.ok r, { ks with crypto := ks.crypto.set phase (ks.crypto.get phase).onPacketEncryption })

def onTimeout (ks : KeySet K) (timestamp : Timestamp) : KeySet K :=
  let (ready, timer) := ks.keyDerivationTimer.pollExpiration timestamp
  let ks := { ks with keyDerivationTimer := timer }
  if ready then ks.deriveAndStoreNextKey else ks

/-! ### One lemma per operation -/

section Operations

variable (ks : KeySet K)

@[simp] theorem keyPhase_rotatePhase : ks.rotatePhase.keyPhase = ks.keyPhase.nextPhase := rfl

@[simp] theorem generation_rotatePhase : ks.rotatePhase.generation = ks.generation + 1 := rfl

@[simp] theorem crypto_rotatePhase : ks.rotatePhase.crypto = ks.crypto := rfl

@[simp] theorem crypto_setDerivationTimer (t : Timestamp) :
    (ks.setDerivationTimer t).crypto = ks.crypto := rfl

@[simp] theorem keyPhase_setDerivationTimer (t : Timestamp) :
    (ks.setDerivationTimer t).keyPhase = ks.keyPhase := rfl

@[simp] theorem generation_setDerivationTimer (t : Timestamp) :
    (ks.setDerivationTimer t).generation = ks.generation := rfl

@[simp] theorem keyUpdateInProgress_setDerivationTimer (t : Timestamp) :
    (ks.setDerivationTimer t).keyUpdateInProgress = true := rfl

theorem decryptPacket_eq (packet : EncryptedShort) (largest : PacketNumber) (pto : Timestamp) :
    ks.decryptPacket packet largest pto =
      let key := ks.crypto.get packet.keyPhase
      let ks₁ := { ks with crypto := ks.crypto.set packet.keyPhase key.onPacketDecryption }
      match packet.decrypt key.key with
      | .ok c =>
        if packet.keyPhase ≠ ks.keyPhase then
          (.ok (c, some (ks.generation + 1)), ks₁.rotatePhase.setDerivationTimer pto)
        else (.ok (c, none), ks₁)
      | .error err =>
        (if ks.aeadIntegrityLimit < ks.packetDecryptionFailures + 1 then
            .error (.connectionError AEAD_LIMIT_REACHED)
          else .error err,
          { ks₁ with packetDecryptionFailures := ks.packetDecryptionFailures + 1 }) := by
  simp only [decryptPacket, KeyPhase.ofU8_phaseToUse]
  cases packet.decrypt (ks.crypto.get packet.keyPhase).key with
  | ok c => rfl
  | error err =>
    simp only [decryptionErrorCount, gt_iff_lt]
    split <;> rfl

theorem decryptPacket_cases (packet : EncryptedShort) (largest : PacketNumber) (pto : Timestamp) :
    let key := ks.crypto.get packet.keyPhase
    let ks₁ : KeySet K :=
      { ks with crypto := ks.crypto.set packet.keyPhase key.onPacketDecryption }
    (∃ c, packet.decrypt key.key = .ok c ∧ packet.keyPhase ≠ ks.keyPhase ∧
      ks.decryptPacket packet largest pto =
        (.ok (c, some (ks.generation + 1)), ks₁.rotatePhase.setDerivationTimer pto)) ∨
    (∃ c, packet.decrypt key.key = .ok c ∧ packet.keyPhase = ks.keyPhase ∧
      ks.decryptPacket packet largest pto = (.ok (c, none), ks₁)) ∨
    (∃ err, packet.decrypt key.key = .error err ∧
      ks.decryptPacket packet largest pto =
        (if ks.aeadIntegrityLimit < ks.packetDecryptionFailures + 1 then
            .error (.connectionError AEAD_LIMIT_REACHED)
          else .error err,
          { ks₁ with packetDecryptionFailures := ks.packetDecryptionFailures + 1 })) := by
  intro key ks₁
  simp only [key, ks₁, decryptPacket_eq]
  cases packet.decrypt (ks.crypto.get packet.keyPhase).key with
  | ok c =>
    dsimp only
    by_cases hrot : packet.keyPhase = ks.keyPhase
    · exact .inr (.inl ⟨c, rfl, hrot, by rw [if_neg (not_not_intro hrot)]⟩)
    · exact .inl ⟨c, rfl, hrot, by rw [if_pos hrot]⟩
  | error err => exact .inr (.inr ⟨err, rfl, rfl⟩)

end Operations

/-! ### The invariant of reachable key sets -/

/-- What every key set reached from `KeySet.new` satisfies. -/
structure Invariant (ks : KeySet K) : Prop where
  /-- The two slots hold consecutive generations. -/
  consecutive : (ks.crypto.get .one).key = OneRttKey.deriveNextKey (ks.crypto.get .zero).key ∨
    (ks.crypto.get .zero).key = OneRttKey.deriveNextKey (ks.crypto.get .one).key
  /-- Outside a key update the other slot holds the key derived from the active one. -/
  next_of_idle : ks.keyUpdateInProgress = false →
    (ks.crypto.get ks.keyPhase.nextPhase).key = ks.activeKey.deriveNextKey
  within_limit : ∀ p, (ks.crypto.get p).encryptedPackets ≤ (ks.crypto.get p).confidentialityLimit
  limit_eq : ∀ p, (ks.crypto.get p).confidentialityLimit =
    OneRttKey.aeadConfidentialityLimit (ks.crypto.get p).key

theorem invariant_new (key : K) (limits : Limits) : (KeySet.new key limits).Invariant where
  consecutive := .inl rfl
  next_of_idle _ := rfl
  within_limit p := by cases p <;> exact Nat.zero_le _
  limit_eq p := by cases p <;> rfl

theorem Invariant.of_keys {ks ks' : KeySet K} (hinv : ks.Invariant)
    (hkey : ∀ q, (ks'.crypto.get q).key = (ks.crypto.get q).key)
    (hlimit : ∀ q, (ks'.crypto.get q).confidentialityLimit = (ks.crypto.get q).confidentialityLimit)
    (hwithin : ∀ q, (ks'.crypto.get q).encryptedPackets ≤ (ks'.crypto.get q).confidentialityLimit)
    (hidle : ks'.keyUpdateInProgress = false →
      ks'.keyPhase = ks.keyPhase ∧ ks.keyUpdateInProgress = false) :
    ks'.Invariant where
  consecutive := by
    rw [hkey .one, hkey .zero]
    exact hinv.consecutive
  next_of_idle h := by
    obtain ⟨hphase, hks⟩ := hidle h
    simp only [activeKey, Key.deriveNextKey, hphase, hkey]
    exact hinv.next_of_idle hks
  within_limit := hwithin
  limit_eq p := by
    rw [hlimit p, hkey p]
    exact hinv.limit_eq p

theorem Invariant.of_sameSealing {ks ks' : KeySet K} (hinv : ks.Invariant)
    (hsame : ks'.crypto.SameSealing ks.crypto)
    (hidle : ks'.keyUpdateInProgress = false →
      ks'.keyPhase = ks.keyPhase ∧ ks.keyUpdateInProgress = false) :
    ks'.Invariant :=
  hinv.of_keys (fun q => (hsame q).1) (fun q => (hsame q).2.2)
    (fun q => by rw [(hsame q).2.1, (hsame q).2.2]; exact hinv.within_limit q) hidle

/-! Each operation keeps the invariant. -/

theorem Invariant.decryptPacket {ks : KeySet K} (hinv : ks.Invariant) (packet : EncryptedShort)
    (largest : PacketNumber) (pto : Timestamp) :
    (ks.decryptPacket packet largest pto).2.Invariant := by
  have hsame := KeyArray.sameSealing_onPacketDecryption ks.crypto packet.keyPhase
  rcases decryptPacket_cases ks packet largest pto with
    ⟨c, -, -, h⟩ | ⟨c, -, -, h⟩ | ⟨err, -, h⟩ <;> rw [h]
  · -- a rotation arms the derivation timer, so the idle clause holds vacuously
    exact hinv.of_sameSealing hsame (fun h => by simp at h)
  · exact hinv.of_sameSealing hsame (fun h => ⟨rfl, h⟩)
  · exact hinv.of_sameSealing hsame (fun h => ⟨rfl, h⟩)

theorem Invariant.encryptPacket {ρ : Type} {ks : KeySet K} (hinv : ks.Invariant)
    (f : K → KeyPhase → Except PacketEncodingError ρ) : (ks.encryptPacket f).2.Invariant := by
  unfold KeySet.encryptPacket
  dsimp only
  split
  · exact hinv
  · rename_i hexp
    split
    · exact hinv
    · -- the slot that was counted was below its limit
      have hlt : (ks.crypto.get ks.encryptionPhase).encryptedPackets <
          (ks.crypto.get ks.encryptionPhase).confidentialityLimit := by
        simpa [Key.expired] using hexp
      have hslot := KeyArray.get_set_onPacketEncryption ks.crypto ks.encryptionPhase
      refine hinv.of_keys (fun q => (hslot q).1) (fun q => (hslot q).2.1) (fun q => ?_)
        (fun h => ⟨rfl, h⟩)
      rw [(hslot q).2.1, (hslot q).2.2]
      by_cases hq : q = ks.encryptionPhase
      · subst hq; simp only [if_true]; omega
      · simp only [hq, if_false, Nat.add_zero]; exact hinv.within_limit q

theorem Invariant.deriveAndStoreNextKey {ks : KeySet K} (hinv : ks.Invariant) (timer : Timer) :
    ({ ks with keyDerivationTimer := timer } : KeySet K).deriveAndStoreNextKey.Invariant where
  consecutive := by
    cases h : ks.keyPhase <;>
      simp [KeySet.deriveAndStoreNextKey, activeKey, Key.deriveNextKey, h, KeyArray.get, KeyArray.set,
        KeyPhase.nextPhase]
  next_of_idle _ := by
    simp [KeySet.deriveAndStoreNextKey, activeKey, Key.deriveNextKey]
  within_limit p := by
    rcases KeyPhase.eq_or_eq_nextPhase ks.keyPhase p with rfl | rfl
    · simpa [KeySet.deriveAndStoreNextKey] using hinv.within_limit ks.keyPhase
    · simp [KeySet.deriveAndStoreNextKey, Key.new]
  limit_eq p := by
    rcases KeyPhase.eq_or_eq_nextPhase ks.keyPhase p with rfl | rfl
    · simpa [KeySet.deriveAndStoreNextKey] using hinv.limit_eq ks.keyPhase
    · simp [KeySet.deriveAndStoreNextKey, Key.new]

theorem Invariant.onTimeout {ks : KeySet K} (hinv : ks.Invariant) (t : Timestamp) :
    (ks.onTimeout t).Invariant := by
  unfold KeySet.onTimeout
  rcases Timer.pollExpiration_cases ks.keyDerivationTimer t with ⟨-, hpoll⟩ | ⟨-, hpoll⟩
  · -- the timer fires: the next key is derived whatever the timer now says
    simp only [hpoll, if_true]
    exact hinv.deriveAndStoreNextKey _
  · simp only [hpoll]
    exact hinv

/-! ### Runs -/

/-- What the connection does with its key set: open a received packet, protect a packet with
the encoder `f`, or let time pass. -/
inductive Event (K : Type)
  | decrypt (packet : EncryptedShort) (largestAcknowledgedPacketNumber : PacketNumber)
      (pto : Timestamp)
  | encrypt (f : K → KeyPhase → Except PacketEncodingError Unit)
  | timeout (timestamp : Timestamp)

def Event.apply (ks : KeySet K) : Event K → KeySet K
  | .decrypt packet largest pto => (ks.decryptPacket packet largest pto).2
  | .encrypt f => (ks.encryptPacket f).2
  | .timeout timestamp => ks.onTimeout timestamp

def run (ks : KeySet K) : List (Event K) → KeySet K
  | [] => ks
  | e :: events => run (e.apply ks) events

theorem Invariant.apply {ks : KeySet K} (hinv : ks.Invariant) (e : Event K) :
    (e.apply ks).Invariant := by
  cases e with
  | decrypt packet largest pto => exact hinv.decryptPacket packet largest pto
  | encrypt f => exact hinv.encryptPacket f
  | timeout timestamp => exact hinv.onTimeout timestamp

theorem Invariant.run {ks : KeySet K} (hinv : ks.Invariant) (events : List (Event K)) :
    (ks.run events).Invariant := by
  induction events generalizing ks with
  | nil => exact hinv
  | cons e events ih => exact ih (hinv.apply e)

/-- Along every run no slot's key has protected more packets than its confidentiality limit,
and outside a key update the other slot holds the key derived from the active one. -/
theorem run_new_invariant (key : K) (limits : Limits) (events : List (Event K)) :
    let ks : KeySet K := (KeySet.new key limits).run events
    (∀ p, (ks.crypto.get p).encryptedPackets ≤
      OneRttKey.aeadConfidentialityLimit (ks.crypto.get p).key) ∧
    (ks.keyUpdateInProgress = false →
      (ks.crypto.get ks.keyPhase.nextPhase).key = OneRttKey.deriveNextKey ks.activeKey.key) := by
  intro ks
  have hinv : ks.Invariant := (invariant_new key limits).run events
  refine ⟨fun p => ?_, hinv.next_of_idle⟩
  rw [← hinv.limit_eq p]
  exact hinv.within_limit p

/-! ### Encryption and decryption limits -/

section Limits

variable (ks : KeySet K)

theorem decrypt_error_ne_aeadLimitReached {packet : EncryptedShort} {key : K}
    {err : ProcessingError} (h : packet.decrypt key = .error err) :
    err ≠ .connectionError AEAD_LIMIT_REACHED := by
  unfold EncryptedShort.decrypt at h
  split at h
  · cases h; exact ProcessingError.noConfusion
  · split at h
    · cases h
      intro heq
      cases heq
    · cases h

end Limits

/-! ### Key updates -/

end KeySet

/-! ## A key update followed by a delayed packet -/

/-- A key that seals a packet by appending its generation as a one-byte tag and opens only
packets that carry its tag: an AEAD, as far as which key opens which packet. Its limits are
those of AES-128-GCM. -/
structure GenerationKey where
  generation : Nat
  deriving DecidableEq, Repr

instance : OneRttKey GenerationKey where
  decrypt key _ _ payload :=
    if payload.getLast? = some (UInt8.ofNat key.generation) then some payload else none
  tagLen _ := 1
  deriveNextKey key := ⟨key.generation + 1⟩
  aeadConfidentialityLimit _ := 2 ^ 23
  aeadIntegrityLimit _ := 2 ^ 52

/-- The peer updates its keys between its packets 5 and 10, and packet 10 arrives first.
Packet 10 opens under the next key and rotates the phase; a packet is then sent under
generation 1. The delayed packet 5 opens under the generation 0 key still kept in the other
slot, and is taken as one more key update: the phase rotates back and the next packet is
protected with generation 0. -/
theorem delayed_packet_rotates_back :
    let ks₀ : KeySet GenerationKey := KeySet.new ⟨0⟩ Limits.default
    let protect : GenerationKey → KeyPhase → Except PacketEncodingError (GenerationKey × KeyPhase) :=
      fun key phase => .ok (key, phase)
    let update : EncryptedShort := ⟨.one, ⟨.applicationData, ⟨10, by decide⟩⟩, [0x40], [0x01, 1]⟩
    let delayed : EncryptedShort := ⟨.zero, ⟨.applicationData, ⟨5, by decide⟩⟩, [0x40], [0x02, 0]⟩
    let r₁ := ks₀.decryptPacket update ⟨.applicationData, ⟨9, by decide⟩⟩ 100000
    let e₁ := r₁.2.encryptPacket protect
    let r₂ := e₁.2.decryptPacket delayed ⟨.applicationData, ⟨10, by decide⟩⟩ 200000
    let e₂ := r₂.2.encryptPacket protect
    r₁.1.map Prod.snd = .ok (some 1) ∧ e₁.1 = .ok (⟨1⟩, .one) ∧
      r₂.2.keyUpdateInProgress = true ∧ r₂.1.map Prod.snd = .ok (some 2) ∧
      r₂.2.keyPhase = .zero ∧ e₂.1 = .ok (⟨0⟩, .zero) := by
  decide

end S2nQuic.Crypto
