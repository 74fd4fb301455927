import S2nQuic.Path.Ecn
import S2nQuic.Packet.Number

/-!
# Path MTU discovery

`path::mtu::Controller` (`path/mtu.rs`), DPLPMTUD after RFC 8899. The controller searches for
the largest datagram the path carries: it probes with `probed_size`, raises `plpmtu` to it when
the probe is acknowledged, and after `MAX_PROBES` lost probes lowers `max_probe_size` to it; the
next size is halfway between the two, and the search completes when that step would be below
`PROBE_THRESHOLD`. A burst of lost packets larger than the base size is a black hole and drops
`plpmtu` back to `base_plpmtu`.

The publisher events and the congestion controller's `on_mtu_update` are left out. The sizes are
`u16`s kept as `Nat`s: `Inv` orders them, which is what keeps the `u16` subtractions of
`next_probe_size`, `is_next_probe_size_above_threshold` and `new` from going below zero.
`on_transmit` reads from its context the transmission mode, the header and tag lengths, the
remaining capacity and what writing the padding frame returned; a `usize` subtraction below zero
there panics, and it returns `none`.
-/

namespace S2nQuic

namespace Transmission

def Mode.isMtuProbing : Mode → Bool
  | .mtuProbing => true
  | _ => false

end Transmission

namespace Path.Mtu
open Packet Transmission

def MAX_PROBES : Nat := 3

def ETHERNET_MTU : Nat := 1500

def PROBE_THRESHOLD : Nat := 20

def BLACK_HOLE_THRESHOLD : Nat := 3

/-- Sixty seconds, in nanoseconds. -/
def BLACK_HOLE_COOL_OFF_DURATION : Duration := 60 * 1000000000

/-- Six hundred seconds, in nanoseconds. -/
def PMTU_RAISE_TIMER_DURATION : Duration := 600 * 1000000000

def MINIMUM_MAX_DATAGRAM_SIZE : Nat := 1200

def UDP_HEADER_LEN : Nat := 8

def IPV4_MIN_HEADER_LEN : Nat := 20

def IPV6_MIN_HEADER_LEN : Nat := 40

def MINIMUM_MTU : Nat :=
  MINIMUM_MAX_DATAGRAM_SIZE + UDP_HEADER_LEN + min IPV4_MIN_HEADER_LEN IPV6_MIN_HEADER_LEN

/-- `inet::SocketAddress`, by the address family the controller reads. -/
inductive SocketAddress
  | ipV4
  | ipV6
  deriving DecidableEq

def SocketAddress.minIpHeaderLen : SocketAddress → Nat
  | .ipV4 => IPV4_MIN_HEADER_LEN
  | .ipV6 => IPV6_MIN_HEADER_LEN

/-- `MaxMtu`, `InitialMtu` and `BaseMtu` (`impl_mtu!`): a `u16` of at least `MINIMUM_MTU`. -/
structure Mtu where
  val : Nat
  min_le : MINIMUM_MTU ≤ val
  lt : val < 2 ^ 16

/-- The largest QUIC datagram a path with this MTU carries, without the UDP and IP headers. -/
def Mtu.maxDatagramSize (self : Mtu) (peerSocketAddress : SocketAddress) : Nat :=
  max (self.val - UDP_HEADER_LEN - peerSocketAddress.minIpHeaderLen) MINIMUM_MAX_DATAGRAM_SIZE

structure Config where
  initialMtu : Mtu
  baseMtu : Mtu
  maxMtu : Mtu

def Config.isValid (self : Config) : Bool :=
  self.baseMtu.val ≤ self.initialMtu.val && self.initialMtu.val ≤ self.maxMtu.val

inductive State
  | earlySearchRequested
  | disabled
  | searchRequested
  | searching (probePacketNumber : PacketNumber) (transmitTime : Timestamp)
  | searchComplete
  deriving DecidableEq

inductive MtuResult
  | noChange
  | mtuUpdated (mtu : Nat)
  deriving DecidableEq

def MtuResult.Reports : MtuResult → Nat → Prop
  | .noChange, _ => True
  | .mtuUpdated mtu, plpmtu => mtu = plpmtu

structure Controller where
  state : State
  basePlpmtu : Nat
  plpmtu : Nat
  maxUdpPayload : Nat
  probedSize : Nat
  maxProbeSize : Nat
  probeCount : Nat
  blackHoleCounter : Nat
  largestAckedMtuSizedPacket : Option PacketNumber
  pmtuRaiseTimer : Timer

/-- What `on_transmit` reads from its `transmission::Writer`. -/
structure TransmitContext where
  transmissionMode : Mode
  headerLen : Nat
  tagLen : Nat
  remainingCapacity : Nat
  /-- What `write_frame` returned for the padding frame: the probe's packet number if written. -/
  paddingPacketNumber : Option PacketNumber
  currentTime : Timestamp

namespace Controller

/-- Halfway from the current to the max size. -/
def nextProbeSize (current max : Nat) : Nat := current + (max - current) / 2

/-- `Controller::new`; `none` is its `debug_assert!` that the configuration is valid. -/
def new (config : Config) (peerSocketAddress : SocketAddress) : Option Controller :=
  if !config.isValid then none else
  let basePlpmtu := config.baseMtu.maxDatagramSize peerSocketAddress
  let maxUdpPayload := config.maxMtu.maxDatagramSize peerSocketAddress
  let plpmtu := config.initialMtu.maxDatagramSize peerSocketAddress
  let initialProbedSize := min
    (if config.initialMtu.val > ETHERNET_MTU - PROBE_THRESHOLD then
      nextProbeSize plpmtu maxUdpPayload
    else ETHERNET_MTU - UDP_HEADER_LEN - peerSocketAddress.minIpHeaderLen)
    maxUdpPayload
  let state :=
    if plpmtu > basePlpmtu then .earlySearchRequested
    else if initialProbedSize - basePlpmtu < PROBE_THRESHOLD then .searchComplete
    else .disabled
  some {
    state, basePlpmtu, plpmtu, probedSize := initialProbedSize, maxUdpPayload,
    maxProbeSize := maxUdpPayload, probeCount := 0, blackHoleCounter := 0,
    largestAckedMtuSizedPacket := none, pmtuRaiseTimer := {} }

def isNextProbeSizeAboveThreshold (self : Controller) : Bool :=
  self.probedSize - self.plpmtu ≥ PROBE_THRESHOLD

def updateProbedSize (self : Controller) : Controller :=
  { self with probedSize := nextProbeSize self.plpmtu self.maxProbeSize }

def armPmtuRaiseTimer (self : Controller) (timestamp : Timestamp) : Controller :=
  let self := { self with maxProbeSize := self.maxUdpPayload }.updateProbedSize
  if self.isNextProbeSizeAboveThreshold then
    { self with pmtuRaiseTimer := self.pmtuRaiseTimer.set timestamp }
  else self

def requestNewSearch (self : Controller) (lastProbeTime : Option Timestamp) : Controller :=
  if self.isNextProbeSizeAboveThreshold then
    { self with probeCount := 0, state := .searchRequested }
  else
    let self := { self with state := .searchComplete }
    match lastProbeTime with
    | some lastProbeTime =>
      self.armPmtuRaiseTimer (lastProbeTime.addDuration PMTU_RAISE_TIMER_DURATION)
    | none => self

def enable (self : Controller) : Controller :=
  if self.state = .disabled ∨ self.state = .earlySearchRequested then self.requestNewSearch none
  else self

def onTimeout (self : Controller) (now : Timestamp) : Controller :=
  let (ready, pmtuRaiseTimer) := self.pmtuRaiseTimer.pollExpiration now
  let self := { self with pmtuRaiseTimer }
  if ready then self.requestNewSearch none else self

/-- The first block of `on_packet_ack`: a packet larger than the base size acknowledged during the
early search ends it. -/
def onEarlySearchAck (self : Controller) (sentBytes : Nat) : Controller :=
  if self.state = .earlySearchRequested ∧ sentBytes > self.basePlpmtu then
    { self with state :=
      if self.isNextProbeSizeAboveThreshold then .disabled else .searchComplete }
  else self

/-- A packet of the current size acknowledged after the largest one so far resets the black hole
counter. -/
def onMtuSizedAck (self : Controller) (packetNumber : PacketNumber) (sentBytes : Nat) :
    Controller :=
  if sentBytes ≥ self.plpmtu ∧ self.largestAckedMtuSizedPacket.all (·.lt packetNumber) then
    { self with blackHoleCounter := 0, largestAckedMtuSizedPacket := some packetNumber }
  else self

/-- The `State::Searching` block of `on_packet_ack`: the probe is acknowledged. -/
def onProbeAck (self : Controller) (packetNumber : PacketNumber) : Controller × MtuResult :=
  match self.state with
  | .searching probePacketNumber transmitTime =>
    if packetNumber = probePacketNumber then
      let self :=
        ({ self with plpmtu := self.probedSize }.updateProbedSize).requestNewSearch
          (some transmitTime)
      (self, .mtuUpdated self.plpmtu)
    else (self, .noChange)
  | _ => (self, .noChange)

def onPacketAck (self : Controller) (packetNumber : PacketNumber) (sentBytes : Nat) :
    Controller × MtuResult :=
  let self := self.onEarlySearchAck sentBytes
  if self.state = .disabled then (self, .noChange) else
  if packetNumber.space ≠ .applicationData then (self, .noChange) else
  (self.onMtuSizedAck packetNumber sentBytes).onProbeAck packetNumber

/-- The black hole counter after `on_packet_loss` counts a lost packet: one larger than the base
size and at most the current one, sent after the largest acknowledged MTU-sized packet, that
starts a loss burst (`Counter<u8, Saturating>`). -/
def blackHoleCounterAfterLoss (self : Controller) (packetNumber : PacketNumber) (lostBytes : Nat)
    (newLossBurst : Bool) : Nat :=
  if self.basePlpmtu + 1 ≤ lostBytes ∧ lostBytes ≤ self.plpmtu ∧
      self.largestAckedMtuSizedPacket.all (·.lt packetNumber) ∧ newLossBurst then
    min (self.blackHoleCounter + 1) 255
  else self.blackHoleCounter

def onBlackHoleDetected (self : Controller) (now : Timestamp) : Controller × MtuResult :=
  let self := { self with
    blackHoleCounter := 0, largestAckedMtuSizedPacket := none, plpmtu := self.basePlpmtu,
    state := .searchComplete }
  let self := self.armPmtuRaiseTimer (now.addDuration BLACK_HOLE_COOL_OFF_DURATION)
  (self, .mtuUpdated self.plpmtu)

/-- The last arm of `on_packet_loss`: a lost packet that is not the outstanding probe. -/
def onNonProbeLoss (self : Controller) (packetNumber : PacketNumber) (lostBytes : Nat)
    (newLossBurst : Bool) (now : Timestamp) : Controller × MtuResult :=
  let self := { self with
    blackHoleCounter := self.blackHoleCounterAfterLoss packetNumber lostBytes newLossBurst }
  if self.blackHoleCounter > BLACK_HOLE_THRESHOLD then self.onBlackHoleDetected now
  else (self, .noChange)

def onPacketLoss (self : Controller) (packetNumber : PacketNumber) (lostBytes : Nat)
    (newLossBurst : Bool) (now : Timestamp) : Controller × MtuResult :=
  if ¬(self.state = .earlySearchRequested ∨ packetNumber.space = .applicationData) then
    (self, .noChange) else
  match self.state with
  | .disabled => (self, .noChange)
  | .earlySearchRequested =>
    let self := { self with plpmtu := self.basePlpmtu }
    let self := { self with state :=
      if self.isNextProbeSizeAboveThreshold then .disabled else .searchComplete }
    (self, .mtuUpdated self.plpmtu)
  | .searching probePacketNumber _ =>
    if probePacketNumber = packetNumber then
      if self.probeCount = MAX_PROBES then
        (({ self with maxProbeSize := self.probedSize }.updateProbedSize).requestNewSearch none,
          .noChange)
      else ({ self with state := .searchRequested }, .noChange)
    else self.onNonProbeLoss packetNumber lostBytes newLossBurst now
  | .searchComplete | .searchRequested =>
    self.onNonProbeLoss packetNumber lostBytes newLossBurst now

/-- `on_transmit`: the probe's packet number when a probe was written. -/
def onTransmit (self : Controller) (context : TransmitContext) :
    Option (Controller × Option PacketNumber) :=
  if self.state ≠ .searchRequested then some (self, none) else
  if !context.transmissionMode.isMtuProbing then some (self, none) else
  if self.probedSize < context.headerLen + context.tagLen then none else
  let probePayloadSize := self.probedSize - context.headerLen - context.tagLen
  if context.remainingCapacity < probePayloadSize then
    some ({ self with state := .searchComplete }, none) else
  -- the padding fills what the one-byte PING frame leaves
  if probePayloadSize < 1 then none else
  match context.paddingPacketNumber with
  | some packetNumber =>
    some ({ self with
      probeCount := self.probeCount + 1, state := .searching packetNumber context.currentTime },
      some packetNumber)
  | none => some (self, none)

end Controller

/-- The calls a path makes on its controller. -/
inductive Call
  | enable
  | onTimeout (now : Timestamp)
  | onPacketAck (packetNumber : PacketNumber) (sentBytes : Nat)
  | onPacketLoss (packetNumber : PacketNumber) (lostBytes : Nat) (newLossBurst : Bool)
      (now : Timestamp)
  | onTransmit (context : TransmitContext)

/-- What a call returns: an `MtuResult`, or the probe `on_transmit` wrote. -/
inductive Output
  | result (result : MtuResult)
  | transmitted (probe : Option PacketNumber)
  | done

namespace Controller

def step (self : Controller) : Call → Option (Controller × Output)
  | .enable => some (self.enable, .done)
  | .onTimeout now => some (self.onTimeout now, .done)
  | .onPacketAck packetNumber sentBytes =>
    let (self, result) := self.onPacketAck packetNumber sentBytes
    some (self, .result result)
  | .onPacketLoss packetNumber lostBytes newLossBurst now =>
    let (self, result) := self.onPacketLoss packetNumber lostBytes newLossBurst now
    some (self, .result result)
  | .onTransmit context =>
    (self.onTransmit context).map fun (self, probe) => (self, .transmitted probe)

def run (self : Controller) : List Call → Option (Controller × List Output)
  | [] => some (self, [])
  | call :: calls => (self.step call).bind fun (self', out) =>
    (self'.run calls).map fun (final, outs) => (final, out :: outs)

/-- The size ordering of RFC 8899 and the probe count bounds: at most `MAX_PROBES` probes, and
a requested search has one left. -/
structure Inv (controller : Controller) : Prop where
  base_le : controller.basePlpmtu ≤ controller.plpmtu
  plpmtu_le : controller.plpmtu ≤ controller.probedSize
  probed_le : controller.probedSize ≤ controller.maxProbeSize
  maxProbe_le : controller.maxProbeSize ≤ controller.maxUdpPayload
  probeCount_le : controller.probeCount ≤ MAX_PROBES
  requested_lt : controller.state = .searchRequested → controller.probeCount < MAX_PROBES

section Helpers

variable {self : Controller}

theorem maxDatagramSize_mono {a b : Mtu} (h : a.val ≤ b.val) (peerSocketAddress : SocketAddress) :
    a.maxDatagramSize peerSocketAddress ≤ b.maxDatagramSize peerSocketAddress :=
  max_le_max (Nat.sub_le_sub_right (Nat.sub_le_sub_right h _) _) le_rfl

theorem maxDatagramSize_le_ethernet {initialMtu : Mtu} (peerSocketAddress : SocketAddress)
    (h : ¬initialMtu.val > ETHERNET_MTU - PROBE_THRESHOLD) :
    initialMtu.maxDatagramSize peerSocketAddress ≤
      ETHERNET_MTU - UDP_HEADER_LEN - peerSocketAddress.minIpHeaderLen := by
  unfold Mtu.maxDatagramSize
  cases peerSocketAddress <;>
    simp only [SocketAddress.minIpHeaderLen, ETHERNET_MTU, PROBE_THRESHOLD, UDP_HEADER_LEN,
      IPV4_MIN_HEADER_LEN, IPV6_MIN_HEADER_LEN, MINIMUM_MAX_DATAGRAM_SIZE] at h ⊢ <;>
    omega

theorem le_nextProbeSize (current max : Nat) : current ≤ nextProbeSize current max :=
  Nat.le_add_right _ _

theorem nextProbeSize_le {current max : Nat} (h : current ≤ max) :
    nextProbeSize current max ≤ max := by
  unfold nextProbeSize
  omega

theorem isNextProbeSizeAboveThreshold_iff :
    self.isNextProbeSizeAboveThreshold = true ↔ PROBE_THRESHOLD ≤ self.probedSize - self.plpmtu := by
  simp [isNextProbeSizeAboveThreshold]

theorem armPmtuRaiseTimer_eq (self : Controller) (timestamp : Timestamp) :
    ∃ timer, self.armPmtuRaiseTimer timestamp = { self with
      maxProbeSize := self.maxUdpPayload,
      probedSize := nextProbeSize self.plpmtu self.maxUdpPayload, pmtuRaiseTimer := timer } := by
  unfold armPmtuRaiseTimer
  dsimp only
  split_ifs
  · exact ⟨_, rfl⟩
  · exact ⟨self.pmtuRaiseTimer, rfl⟩

theorem onBlackHoleDetected_eq (self : Controller) (now : Timestamp) :
    ∃ timer, (self.onBlackHoleDetected now).1 = { self with
      blackHoleCounter := 0, largestAckedMtuSizedPacket := none, plpmtu := self.basePlpmtu,
      state := .searchComplete, maxProbeSize := self.maxUdpPayload,
      probedSize := nextProbeSize self.basePlpmtu self.maxUdpPayload, pmtuRaiseTimer := timer } := by
  obtain ⟨timer, heq⟩ := armPmtuRaiseTimer_eq { self with
    blackHoleCounter := 0, largestAckedMtuSizedPacket := none, plpmtu := self.basePlpmtu,
    state := .searchComplete } (now.addDuration BLACK_HOLE_COOL_OFF_DURATION)
  exact ⟨timer, by simp only [onBlackHoleDetected, heq]⟩

theorem onBlackHoleDetected_state (self : Controller) (now : Timestamp) :
    (self.onBlackHoleDetected now).1.state = .searchComplete := by
  obtain ⟨timer, heq⟩ := onBlackHoleDetected_eq self now
  rw [heq]

theorem requestNewSearch_cases (self : Controller) (lastProbeTime : Option Timestamp) :
    (self.isNextProbeSizeAboveThreshold = true ∧
      self.requestNewSearch lastProbeTime = { self with probeCount := 0, state := .searchRequested }) ∨
    (self.isNextProbeSizeAboveThreshold = false ∧
      (self.requestNewSearch lastProbeTime = { self with state := .searchComplete } ∨
        ∃ timer, self.requestNewSearch lastProbeTime = { self with
          state := .searchComplete, maxProbeSize := self.maxUdpPayload,
          probedSize := nextProbeSize self.plpmtu self.maxUdpPayload, pmtuRaiseTimer := timer })) := by
  unfold requestNewSearch
  split_ifs with habove
  · exact .inl ⟨habove, rfl⟩
  refine .inr ⟨Bool.eq_false_iff.mpr habove, ?_⟩
  cases lastProbeTime with
  | none => exact .inl rfl
  | some t =>
    obtain ⟨timer, htimer⟩ := armPmtuRaiseTimer_eq { self with state := .searchComplete }
      (t.addDuration PMTU_RAISE_TIMER_DURATION)
    exact .inr ⟨timer, htimer⟩

end Helpers

namespace Inv

variable {self : Controller}

theorem requestNewSearch (h : self.Inv) (lastProbeTime : Option Timestamp) :
    (self.requestNewSearch lastProbeTime).Inv := by
  have hnext := nextProbeSize_le (h.plpmtu_le.trans (h.probed_le.trans h.maxProbe_le))
  rcases requestNewSearch_cases self lastProbeTime with ⟨-, heq⟩ | ⟨-, heq | ⟨timer, heq⟩⟩ <;>
    rw [heq]
  · exact ⟨h.base_le, h.plpmtu_le, h.probed_le, h.maxProbe_le, Nat.zero_le _,
      fun _ => Nat.zero_lt_succ _⟩
  · exact ⟨h.base_le, h.plpmtu_le, h.probed_le, h.maxProbe_le, h.probeCount_le,
      fun hs => State.noConfusion hs⟩
  · exact ⟨h.base_le, le_nextProbeSize _ _, hnext, le_rfl, h.probeCount_le,
      fun hs => State.noConfusion hs⟩

theorem of_eq {w : Controller} (h : self.Inv) (hbase : w.basePlpmtu = self.basePlpmtu)
    (hplpmtu : w.plpmtu = self.plpmtu) (hprobed : w.probedSize = self.probedSize)
    (hmax : w.maxProbeSize = self.maxProbeSize) (hudp : w.maxUdpPayload = self.maxUdpPayload)
    (hcount : w.probeCount = self.probeCount)
    (hstate : w.state = .searchRequested → self.state = .searchRequested) : w.Inv := by
  refine ⟨?_, ?_, ?_, ?_, ?_, fun hs => ?_⟩
  · rw [hbase, hplpmtu]; exact h.base_le
  · rw [hplpmtu, hprobed]; exact h.plpmtu_le
  · rw [hprobed, hmax]; exact h.probed_le
  · rw [hmax, hudp]; exact h.maxProbe_le
  · rw [hcount]; exact h.probeCount_le
  · rw [hcount]; exact h.requested_lt (hstate hs)

theorem enable (h : self.Inv) : self.enable.Inv := by
  unfold Controller.enable
  split_ifs
  · exact h.requestNewSearch none
  · exact h

theorem onTimeout (h : self.Inv) (now : Timestamp) : (self.onTimeout now).Inv := by
  unfold Controller.onTimeout
  rcases Timer.pollExpiration_cases self.pmtuRaiseTimer now with ⟨-, hpoll⟩ | ⟨-, hpoll⟩ <;>
    simp only [hpoll, if_true, Bool.false_eq_true, if_false]
  · refine Inv.requestNewSearch ?_ none
    exact h.of_eq rfl rfl rfl rfl rfl rfl id
  · exact h.of_eq rfl rfl rfl rfl rfl rfl id

theorem raise (h : self.Inv) (hstate : self.state ≠ .searchRequested) :
    ({ self with plpmtu := self.probedSize }.updateProbedSize).Inv :=
  ⟨h.base_le.trans h.plpmtu_le, le_nextProbeSize _ _, nextProbeSize_le h.probed_le, h.maxProbe_le,
    h.probeCount_le, fun hs => absurd hs hstate⟩

theorem lower (h : self.Inv) (hstate : self.state ≠ .searchRequested) :
    ({ self with maxProbeSize := self.probedSize }.updateProbedSize).Inv :=
  ⟨h.base_le, le_nextProbeSize _ _, nextProbeSize_le h.plpmtu_le,
    h.probed_le.trans h.maxProbe_le, h.probeCount_le, fun hs => absurd hs hstate⟩

theorem onBlackHoleDetected (h : self.Inv) (now : Timestamp) :
    (self.onBlackHoleDetected now).1.Inv := by
  obtain ⟨timer, heq⟩ := Controller.onBlackHoleDetected_eq self now
  have hbase_udp : self.basePlpmtu ≤ self.maxUdpPayload :=
    h.base_le.trans (h.plpmtu_le.trans (h.probed_le.trans h.maxProbe_le))
  rw [heq]
  exact ⟨le_rfl, le_nextProbeSize _ _, nextProbeSize_le hbase_udp, le_rfl, h.probeCount_le,
    fun hs => State.noConfusion hs⟩

theorem onNonProbeLoss (h : self.Inv) (packetNumber : PacketNumber) (lostBytes : Nat)
    (newLossBurst : Bool) (now : Timestamp) :
    (self.onNonProbeLoss packetNumber lostBytes newLossBurst now).1.Inv := by
  have hcounted : ({ self with blackHoleCounter :=
      self.blackHoleCounterAfterLoss packetNumber lostBytes newLossBurst }).Inv :=
    h.of_eq rfl rfl rfl rfl rfl rfl id
  unfold Controller.onNonProbeLoss
  dsimp only
  split_ifs
  · exact hcounted.onBlackHoleDetected now
  · exact hcounted

theorem onPacketLoss (h : self.Inv) (packetNumber : PacketNumber) (lostBytes : Nat)
    (newLossBurst : Bool) (now : Timestamp) :
    (self.onPacketLoss packetNumber lostBytes newLossBurst now).1.Inv := by
  unfold Controller.onPacketLoss
  by_cases hguard : self.state = .earlySearchRequested ∨ packetNumber.space = .applicationData
  swap
  · rw [if_pos hguard]
    exact h
  rw [if_neg (not_not.mpr hguard)]
  split
  · exact h
  · -- an early search lost: back to the base size
    dsimp only
    refine ⟨le_rfl, h.base_le.trans h.plpmtu_le, h.probed_le, h.maxProbe_le, h.probeCount_le,
      fun hs => ?_⟩
    split_ifs at hs
  · rename_i probePacketNumber _ hstate
    have hne : self.state ≠ .searchRequested := by rw [hstate]; exact State.noConfusion
    by_cases hprobe : probePacketNumber = packetNumber
    · rw [if_pos hprobe]
      by_cases hcount : self.probeCount = MAX_PROBES
      · rw [if_pos hcount]
        exact (h.lower hne).requestNewSearch none
      · rw [if_neg hcount]
        exact ⟨h.base_le, h.plpmtu_le, h.probed_le, h.maxProbe_le, h.probeCount_le,
          fun _ => lt_of_le_of_ne h.probeCount_le hcount⟩
    · rw [if_neg hprobe]
      exact h.onNonProbeLoss packetNumber lostBytes newLossBurst now
  · exact h.onNonProbeLoss packetNumber lostBytes newLossBurst now
  · exact h.onNonProbeLoss packetNumber lostBytes newLossBurst now

theorem onEarlySearchAck (h : self.Inv) (sentBytes : Nat) : (self.onEarlySearchAck sentBytes).Inv := by
  unfold Controller.onEarlySearchAck
  split_ifs
  · exact h.of_eq rfl rfl rfl rfl rfl rfl fun hs => State.noConfusion hs
  · exact h.of_eq rfl rfl rfl rfl rfl rfl fun hs => State.noConfusion hs
  · exact h

theorem onMtuSizedAck (h : self.Inv) (packetNumber : PacketNumber) (sentBytes : Nat) :
    (self.onMtuSizedAck packetNumber sentBytes).Inv := by
  unfold Controller.onMtuSizedAck
  split_ifs
  · exact h.of_eq rfl rfl rfl rfl rfl rfl id
  · exact h

theorem onProbeAck (h : self.Inv) (packetNumber : PacketNumber) :
    (self.onProbeAck packetNumber).1.Inv := by
  unfold Controller.onProbeAck
  split
  · rename_i hstate
    have hne : self.state ≠ .searchRequested := by rw [hstate]; exact State.noConfusion
    split_ifs
    · dsimp only
      exact (h.raise hne).requestNewSearch _
    · exact h
  · exact h

theorem onPacketAck (h : self.Inv) (packetNumber : PacketNumber) (sentBytes : Nat) :
    (self.onPacketAck packetNumber sentBytes).1.Inv := by
  have h₁ := h.onEarlySearchAck sentBytes
  unfold Controller.onPacketAck
  dsimp only
  split_ifs
  · exact h₁
  · exact h₁
  · exact (h₁.onMtuSizedAck packetNumber sentBytes).onProbeAck packetNumber

theorem onTransmit (h : self.Inv) {context : TransmitContext} {w : Controller}
    {probe : Option PacketNumber} (ht : self.onTransmit context = some (w, probe)) : w.Inv := by
  unfold Controller.onTransmit at ht
  dsimp only at ht
  split_ifs at ht with hstate
  · cases ht; exact h
  · cases ht; exact h
  · cases ht
    exact h.of_eq rfl rfl rfl rfl rfl rfl fun hs => State.noConfusion hs
  · split at ht
    · -- a probe is written: the requested search had one left
      cases ht
      exact ⟨h.base_le, h.plpmtu_le, h.probed_le, h.maxProbe_le,
        h.requested_lt (not_not.mp hstate), fun hs => State.noConfusion hs⟩
    · cases ht; exact h

theorem new {config : Config} {peerSocketAddress : SocketAddress} {controller : Controller}
    (h : Controller.new config peerSocketAddress = some controller) : controller.Inv := by
  have hvalid : config.isValid = true := by
    by_contra hinvalid
    simp [Controller.new, hinvalid] at h
  unfold Controller.new at h
  rw [if_neg (by simp [hvalid])] at h
  cases h
  have hsizes : config.baseMtu.val ≤ config.initialMtu.val ∧
      config.initialMtu.val ≤ config.maxMtu.val := by
    simpa [Config.isValid] using hvalid
  have hinit := maxDatagramSize_mono hsizes.2 peerSocketAddress
  refine ⟨maxDatagramSize_mono hsizes.1 peerSocketAddress, le_min ?_ hinit, min_le_right _ _,
    le_rfl, Nat.zero_le _, fun hs => ?_⟩
  · -- the initial probe is halfway to the largest size, or the Ethernet size
    dsimp only
    split_ifs with hethernet
    · exact le_nextProbeSize _ _
    · exact maxDatagramSize_le_ethernet peerSocketAddress hethernet
  · dsimp only at hs
    split_ifs at hs

theorem step (h : self.Inv) {call : Call} {w : Controller} {out : Output}
    (hstep : self.step call = some (w, out)) : w.Inv := by
  cases call with
  | enable =>
    cases hstep
    exact h.enable
  | onTimeout now =>
    cases hstep
    exact h.onTimeout now
  | onPacketAck packetNumber sentBytes =>
    cases hstep
    exact h.onPacketAck packetNumber sentBytes
  | onPacketLoss packetNumber lostBytes newLossBurst now =>
    cases hstep
    exact h.onPacketLoss packetNumber lostBytes newLossBurst now
  | onTransmit context =>
    obtain ⟨⟨w', probe⟩, ht, heq⟩ := Option.map_eq_some_iff.mp hstep
    cases heq
    exact h.onTransmit ht

end Inv

section Sizes

/-- The sizes a call leaves alone: the base and largest sizes, which no call changes, and the
PLPMTU, which only an acknowledged probe, an early loss and a black hole change. -/
structure Keeps (controller w : Controller) : Prop where
  base_eq : w.basePlpmtu = controller.basePlpmtu
  plpmtu_eq : w.plpmtu = controller.plpmtu
  maxUdp_eq : w.maxUdpPayload = controller.maxUdpPayload

/-- What one call does to the sizes: the base and largest sizes stay, and the PLPMTU stays, drops
to the base size, or rises to the probed size when the call acknowledges the probe the controller
is searching with. -/
structure Moves (controller : Controller) (call : Call) (w : Controller) : Prop where
  base_eq : w.basePlpmtu = controller.basePlpmtu
  maxUdp_eq : w.maxUdpPayload = controller.maxUdpPayload
  plpmtu_eq : w.plpmtu = controller.plpmtu ∨ w.plpmtu = controller.basePlpmtu ∨
    ∃ packetNumber sentBytes transmitTime, call = .onPacketAck packetNumber sentBytes ∧
      controller.state = .searching packetNumber transmitTime ∧ w.plpmtu = controller.probedSize

variable {self : Controller}

theorem Keeps.trans {u v w : Controller} (h₁ : Keeps u v) (h₂ : Keeps v w) : Keeps u w :=
  ⟨h₂.base_eq.trans h₁.base_eq, h₂.plpmtu_eq.trans h₁.plpmtu_eq, h₂.maxUdp_eq.trans h₁.maxUdp_eq⟩

theorem Keeps.moves {w : Controller} (h : Keeps self w) (call : Call) : Moves self call w :=
  ⟨h.base_eq, h.maxUdp_eq, .inl h.plpmtu_eq⟩

theorem keeps_requestNewSearch (self : Controller) (lastProbeTime : Option Timestamp) :
    Keeps self (self.requestNewSearch lastProbeTime) := by
  rcases requestNewSearch_cases self lastProbeTime with ⟨-, heq⟩ | ⟨-, heq | ⟨timer, heq⟩⟩ <;>
    rw [heq] <;> exact ⟨rfl, rfl, rfl⟩

theorem keeps_enable (self : Controller) : Keeps self self.enable := by
  unfold enable
  split_ifs
  · exact keeps_requestNewSearch self none
  · exact ⟨rfl, rfl, rfl⟩

theorem keeps_onTimeout (self : Controller) (now : Timestamp) : Keeps self (self.onTimeout now) := by
  unfold onTimeout
  rcases Timer.pollExpiration_cases self.pmtuRaiseTimer now with ⟨-, hpoll⟩ | ⟨-, hpoll⟩ <;>
    simp only [hpoll, if_true, Bool.false_eq_true, if_false]
  · have hk := keeps_requestNewSearch { self with pmtuRaiseTimer := self.pmtuRaiseTimer.cancel } none
    exact ⟨hk.base_eq, hk.plpmtu_eq, hk.maxUdp_eq⟩
  · exact ⟨rfl, rfl, rfl⟩

theorem keeps_onEarlySearchAck (self : Controller) (sentBytes : Nat) :
    Keeps self (self.onEarlySearchAck sentBytes) := by
  unfold onEarlySearchAck
  split_ifs <;> exact ⟨rfl, rfl, rfl⟩

theorem keeps_onMtuSizedAck (self : Controller) (packetNumber : PacketNumber) (sentBytes : Nat) :
    Keeps self (self.onMtuSizedAck packetNumber sentBytes) := by
  unfold onMtuSizedAck
  split_ifs <;> exact ⟨rfl, rfl, rfl⟩

theorem keeps_onTransmit {context : TransmitContext} {w : Controller} {probe : Option PacketNumber}
    (ht : self.onTransmit context = some (w, probe)) : Keeps self w := by
  unfold onTransmit at ht
  dsimp only at ht
  split_ifs at ht
  · cases ht; exact ⟨rfl, rfl, rfl⟩
  · cases ht; exact ⟨rfl, rfl, rfl⟩
  · cases ht; exact ⟨rfl, rfl, rfl⟩
  · split at ht <;> cases ht <;> exact ⟨rfl, rfl, rfl⟩

theorem onMtuSizedAck_state (packetNumber : PacketNumber) (sentBytes : Nat) :
    (self.onMtuSizedAck packetNumber sentBytes).state = self.state := by
  unfold onMtuSizedAck
  split_ifs <;> rfl

theorem onMtuSizedAck_probedSize (packetNumber : PacketNumber) (sentBytes : Nat) :
    (self.onMtuSizedAck packetNumber sentBytes).probedSize = self.probedSize := by
  unfold onMtuSizedAck
  split_ifs <;> rfl

theorem onEarlySearchAck_of_searching {sentBytes : Nat} {packetNumber : PacketNumber}
    {transmitTime : Timestamp}
    (h : (self.onEarlySearchAck sentBytes).state = .searching packetNumber transmitTime) :
    self.onEarlySearchAck sentBytes = self := by
  unfold onEarlySearchAck at h ⊢
  -- an early search the block ends is disabled or complete, never searching
  split_ifs at h ⊢
  rfl

theorem moves_onBlackHoleDetected (self : Controller) (call : Call) (now : Timestamp) :
    Moves self call (self.onBlackHoleDetected now).1 := by
  obtain ⟨timer, heq⟩ := onBlackHoleDetected_eq self now
  rw [heq]
  exact ⟨rfl, rfl, .inr (.inl rfl)⟩

theorem moves_onNonProbeLoss (call : Call) (packetNumber : PacketNumber) (lostBytes : Nat)
    (newLossBurst : Bool) (now : Timestamp) :
    Moves self call (self.onNonProbeLoss packetNumber lostBytes newLossBurst now).1 := by
  unfold onNonProbeLoss
  dsimp only
  split_ifs
  · exact moves_onBlackHoleDetected _ call now
  · exact ⟨rfl, rfl, .inl rfl⟩

theorem moves_onPacketLoss (packetNumber : PacketNumber) (lostBytes : Nat) (newLossBurst : Bool)
    (now : Timestamp) :
    Moves self (.onPacketLoss packetNumber lostBytes newLossBurst now)
      (self.onPacketLoss packetNumber lostBytes newLossBurst now).1 := by
  unfold onPacketLoss
  by_cases hguard : self.state = .earlySearchRequested ∨ packetNumber.space = .applicationData
  swap
  · rw [if_pos hguard]
    exact ⟨rfl, rfl, .inl rfl⟩
  rw [if_neg (not_not.mpr hguard)]
  split
  · exact ⟨rfl, rfl, .inl rfl⟩
  · -- an early search lost: back to the base size
    exact ⟨rfl, rfl, .inr (.inl rfl)⟩
  · split_ifs
    · have hk := keeps_requestNewSearch
        ({ self with maxProbeSize := self.probedSize }.updateProbedSize) none
      exact ⟨hk.base_eq, hk.maxUdp_eq, .inl hk.plpmtu_eq⟩
    · exact ⟨rfl, rfl, .inl rfl⟩
    · exact moves_onNonProbeLoss _ packetNumber lostBytes newLossBurst now
  · exact moves_onNonProbeLoss _ packetNumber lostBytes newLossBurst now
  · exact moves_onNonProbeLoss _ packetNumber lostBytes newLossBurst now

theorem moves_onProbeAck (self : Controller) (packetNumber : PacketNumber) (sentBytes : Nat) :
    Moves self (.onPacketAck packetNumber sentBytes) (self.onProbeAck packetNumber).1 := by
  unfold onProbeAck
  split
  · rename_i probePacketNumber transmitTime hstate
    split_ifs with hprobe
    · dsimp only
      have hk := keeps_requestNewSearch
        ({ self with plpmtu := self.probedSize }.updateProbedSize) (some transmitTime)
      refine ⟨hk.base_eq, hk.maxUdp_eq, .inr (.inr ⟨packetNumber, sentBytes, transmitTime, rfl, ?_,
        hk.plpmtu_eq⟩)⟩
      rw [hprobe]
      exact hstate
    · exact ⟨rfl, rfl, .inl rfl⟩
  · exact ⟨rfl, rfl, .inl rfl⟩

theorem moves_onPacketAck (packetNumber : PacketNumber) (sentBytes : Nat) :
    Moves self (.onPacketAck packetNumber sentBytes) (self.onPacketAck packetNumber sentBytes).1 := by
  have hearly := keeps_onEarlySearchAck self sentBytes
  unfold onPacketAck
  dsimp only
  split_ifs
  · exact hearly.moves _
  · exact hearly.moves _
  · have hkeeps := hearly.trans
      (keeps_onMtuSizedAck (self.onEarlySearchAck sentBytes) packetNumber sentBytes)
    obtain ⟨hbase, hmax, hplpmtu⟩ := moves_onProbeAck
      ((self.onEarlySearchAck sentBytes).onMtuSizedAck packetNumber sentBytes) packetNumber sentBytes
    refine ⟨hbase.trans hkeeps.base_eq, hmax.trans hkeeps.maxUdp_eq, ?_⟩
    rcases hplpmtu with h | h | ⟨packetNumber', sentBytes', transmitTime, hcall, hstate, h⟩
    · exact .inl (h.trans hkeeps.plpmtu_eq)
    · exact .inr (.inl (h.trans hkeeps.base_eq))
    · -- the probe was outstanding before the first two blocks, which left it alone
      rw [onMtuSizedAck_state] at hstate
      have hself := onEarlySearchAck_of_searching hstate
      have hprobed : ((self.onEarlySearchAck sentBytes).onMtuSizedAck packetNumber
          sentBytes).probedSize = self.probedSize := by
        rw [onMtuSizedAck_probedSize, hself]
      rw [hself] at hstate
      exact .inr (.inr ⟨packetNumber', sentBytes', transmitTime, hcall, hstate, h.trans hprobed⟩)

theorem moves_step {call : Call} {w : Controller} {out : Output}
    (h : self.step call = some (w, out)) : Moves self call w := by
  cases call with
  | enable =>
    cases h
    exact (keeps_enable self).moves _
  | onTimeout now =>
    cases h
    exact (keeps_onTimeout self now).moves _
  | onPacketAck packetNumber sentBytes =>
    cases h
    exact moves_onPacketAck packetNumber sentBytes
  | onPacketLoss packetNumber lostBytes newLossBurst now =>
    cases h
    exact moves_onPacketLoss packetNumber lostBytes newLossBurst now
  | onTransmit context =>
    obtain ⟨⟨w', probe⟩, ht, heq⟩ := Option.map_eq_some_iff.mp h
    cases heq
    exact (keeps_onTransmit ht).moves _

end Sizes

section Reports

variable {self : Controller}

theorem reports_onBlackHoleDetected (self : Controller) (now : Timestamp) :
    (self.onBlackHoleDetected now).2.Reports (self.onBlackHoleDetected now).1.plpmtu :=
  rfl

theorem reports_onNonProbeLoss (self : Controller) (packetNumber : PacketNumber) (lostBytes : Nat)
    (newLossBurst : Bool) (now : Timestamp) :
    (self.onNonProbeLoss packetNumber lostBytes newLossBurst now).2.Reports
      (self.onNonProbeLoss packetNumber lostBytes newLossBurst now).1.plpmtu := by
  unfold onNonProbeLoss
  dsimp only
  split_ifs
  · exact reports_onBlackHoleDetected _ now
  · trivial

theorem reports_onPacketLoss (self : Controller) (packetNumber : PacketNumber) (lostBytes : Nat)
    (newLossBurst : Bool) (now : Timestamp) :
    (self.onPacketLoss packetNumber lostBytes newLossBurst now).2.Reports
      (self.onPacketLoss packetNumber lostBytes newLossBurst now).1.plpmtu := by
  unfold onPacketLoss
  by_cases hguard : self.state = .earlySearchRequested ∨ packetNumber.space = .applicationData
  swap
  · rw [if_pos hguard]
    trivial
  rw [if_neg (not_not.mpr hguard)]
  split
  · trivial
  · rfl
  · split_ifs
    · trivial
    · trivial
    · exact reports_onNonProbeLoss _ packetNumber lostBytes newLossBurst now
  · exact reports_onNonProbeLoss _ packetNumber lostBytes newLossBurst now
  · exact reports_onNonProbeLoss _ packetNumber lostBytes newLossBurst now

theorem reports_onProbeAck (self : Controller) (packetNumber : PacketNumber) :
    (self.onProbeAck packetNumber).2.Reports (self.onProbeAck packetNumber).1.plpmtu := by
  unfold onProbeAck
  split
  · split_ifs
    · rfl
    · trivial
  · trivial

theorem reports_onPacketAck (self : Controller) (packetNumber : PacketNumber) (sentBytes : Nat) :
    (self.onPacketAck packetNumber sentBytes).2.Reports
      (self.onPacketAck packetNumber sentBytes).1.plpmtu := by
  unfold onPacketAck
  dsimp only
  split_ifs
  · trivial
  · trivial
  · exact reports_onProbeAck _ packetNumber

theorem step_reports {call : Call} {w : Controller} {mtu : Nat}
    (h : self.step call = some (w, .result (.mtuUpdated mtu))) : mtu = w.plpmtu := by
  cases call with
  | enable => cases h
  | onTimeout now => cases h
  | onPacketAck packetNumber sentBytes =>
    have hr := reports_onPacketAck self packetNumber sentBytes
    simp only [step, Option.some.injEq, Prod.mk.injEq, Output.result.injEq] at h
    rw [h.2, h.1] at hr
    exact hr
  | onPacketLoss packetNumber lostBytes newLossBurst now =>
    have hr := reports_onPacketLoss self packetNumber lostBytes newLossBurst now
    simp only [step, Option.some.injEq, Prod.mk.injEq, Output.result.injEq] at h
    rw [h.2, h.1] at hr
    exact hr
  | onTransmit context =>
    obtain ⟨⟨w', probe⟩, -, heq⟩ := Option.map_eq_some_iff.mp h
    cases heq

end Reports

section Runs

variable {self : Controller}

theorem run_cons {call : Call} {calls : List Call} {w : Controller} {outs : List Output}
    (h : self.run (call :: calls) = some (w, outs)) :
    ∃ s out outs', self.step call = some (s, out) ∧ s.run calls = some (w, outs') ∧
      outs = out :: outs' := by
  simp only [run, Option.bind_eq_some_iff, Option.map_eq_some_iff] at h
  obtain ⟨⟨s, out⟩, hs, ⟨w', outs'⟩, hrun, heq⟩ := h
  cases heq
  exact ⟨s, out, outs', hs, hrun, rfl⟩

theorem run_cons_of {call : Call} {calls : List Call} {s w : Controller} {out : Output}
    {outs : List Output} (hs : self.step call = some (s, out)) (hrun : s.run calls = some (w, outs)) :
    self.run (call :: calls) = some (w, out :: outs) := by
  simp [run, hs, hrun]

theorem Inv.run (h : self.Inv) {calls : List Call} {w : Controller} {outs : List Output}
    (hrun : self.run calls = some (w, outs)) : w.Inv := by
  induction calls generalizing self outs with
  | nil =>
    cases hrun
    exact h
  | cons call calls ih =>
    obtain ⟨s, out, outs', hs, hrest, -⟩ := run_cons hrun
    exact ih (h.step hs) hrest

theorem bounds_run {calls : List Call} {w : Controller} {outs : List Output}
    (hrun : self.run calls = some (w, outs)) :
    w.basePlpmtu = self.basePlpmtu ∧ w.maxUdpPayload = self.maxUdpPayload := by
  induction calls generalizing self outs with
  | nil =>
    cases hrun
    exact ⟨rfl, rfl⟩
  | cons call calls ih =>
    obtain ⟨s, out, outs', hs, hrest, -⟩ := run_cons hrun
    have hmoves := moves_step hs
    obtain ⟨hbase, hmax⟩ := ih hrest
    exact ⟨hbase.trans hmoves.base_eq, hmax.trans hmoves.maxUdp_eq⟩

/-- Where the PLPMTU after the calls from `controller` comes from: the base size, the
controller's own, or the probed size of a controller the calls reach searching with the probe the
next call acknowledges. -/
def PlpmtuSource (controller : Controller) (calls : List Call) (plpmtu : Nat) : Prop :=
  plpmtu = controller.basePlpmtu ∨ plpmtu = controller.plpmtu ∨
    ∃ calls₁ calls₂ s outs packetNumber sentBytes transmitTime,
      calls = calls₁ ++ .onPacketAck packetNumber sentBytes :: calls₂ ∧
      controller.run calls₁ = some (s, outs) ∧ s.state = .searching packetNumber transmitTime ∧
      plpmtu = s.probedSize

theorem plpmtuSource_run {calls : List Call} {w : Controller} {outs : List Output}
    (hrun : self.run calls = some (w, outs)) : self.PlpmtuSource calls w.plpmtu := by
  induction calls generalizing self outs with
  | nil =>
    cases hrun
    exact .inr (.inl rfl)
  | cons call calls ih =>
    obtain ⟨s, out, outs', hs, hrest, -⟩ := run_cons hrun
    have hmoves := moves_step hs
    rcases ih hrest with hv | hv | ⟨calls₁, calls₂, s', outs₁, packetNumber, sentBytes,
      transmitTime, hcalls, hrun₁, hstate, hv⟩
    · exact .inl (hv.trans hmoves.base_eq)
    · rcases hmoves.plpmtu_eq with h | h | ⟨packetNumber, sentBytes, transmitTime, hcall, hstate, h⟩
      · exact .inr (.inl (hv.trans h))
      · exact .inl (hv.trans h)
      · -- the first call acknowledges the probe
        refine .inr (.inr ⟨[], calls, self, [], packetNumber, sentBytes, transmitTime, ?_, rfl,
          hstate, hv.trans h⟩)
        rw [hcall]
        rfl
    · refine .inr (.inr ⟨call :: calls₁, calls₂, s', out :: outs₁, packetNumber, sentBytes,
        transmitTime, ?_, run_cons_of hs hrun₁, hstate, hv⟩)
      rw [hcalls]
      rfl

theorem new_of_isValid {config : Config} (hvalid : config.isValid = true)
    (peerSocketAddress : SocketAddress) :
    ∃ controller, Controller.new config peerSocketAddress = some controller ∧
      controller.plpmtu = config.initialMtu.maxDatagramSize peerSocketAddress := by
  unfold Controller.new
  rw [if_neg (by simp [hvalid])]
  exact ⟨_, rfl, rfl⟩

end Runs

/-- For every valid configuration and either address family, along every run of calls: the size
ordering `base_plpmtu ≤ plpmtu ≤ probed_size ≤ max_probe_size ≤ max_udp_payload` of RFC 8899 and
`probe_count ≤ MAX_PROBES` hold, so no `u16` subtraction goes below zero; the base size stays; the
PLPMTU is the base size, the initial MTU's datagram size or the size of a probe acknowledged while
searching; and a call that reports an updated MTU reports the new PLPMTU. -/
theorem mtu_controller_invariants (config : Config) (peerSocketAddress : SocketAddress)
    (hvalid : config.isValid = true) :
    ∃ controller, Controller.new config peerSocketAddress = some controller ∧
      controller.plpmtu = config.initialMtu.maxDatagramSize peerSocketAddress ∧
      ∀ calls w outs, controller.run calls = some (w, outs) →
        w.Inv ∧ w.basePlpmtu = controller.basePlpmtu ∧ controller.PlpmtuSource calls w.plpmtu ∧
        ∀ call w' mtu, w.step call = some (w', .result (.mtuUpdated mtu)) → mtu = w'.plpmtu := by
  obtain ⟨controller, hnew, hplpmtu⟩ := new_of_isValid hvalid peerSocketAddress
  refine ⟨controller, hnew, hplpmtu, fun calls w outs hrun => ⟨?_, ?_, ?_, ?_⟩⟩
  · exact (Inv.new hnew).run hrun
  · exact (bounds_run hrun).1
  · exact plpmtuSource_run hrun
  · intro call w' mtu h
    exact step_reports h

private def ethernetMtu : Mtu := ⟨1500, by decide, by decide⟩

private def jumboMtu : Mtu := ⟨9001, by decide, by decide⟩

private def probePacketNumber : PacketNumber := ⟨.applicationData, ⟨7, by decide⟩⟩

private def probeCalls : List Call :=
  [.enable, .onTransmit ⟨.mtuProbing, 20, 16, 10000, some probePacketNumber, 0⟩,
    .onPacketAck probePacketNumber 5222]

theorem mtu_controller_invariants_probe :
    ∃ controller w outs, Controller.new ⟨ethernetMtu, ethernetMtu, jumboMtu⟩ .ipV4 = some controller ∧
      controller.plpmtu = 1472 ∧ controller.run probeCalls = some (w, outs) ∧ w.plpmtu = 5222 ∧
      w.Inv ∧ controller.PlpmtuSource probeCalls w.plpmtu := by
  obtain ⟨controller, hnew, hplpmtu, hruns⟩ :=
    mtu_controller_invariants ⟨ethernetMtu, ethernetMtu, jumboMtu⟩ .ipV4 rfl
  have hcontroller : Controller.new ⟨ethernetMtu, ethernetMtu, jumboMtu⟩ .ipV4 =
      some ⟨.disabled, 1472, 1472, 8973, 5222, 8973, 0, 0, none, {}⟩ := rfl
  rw [hcontroller, Option.some.injEq] at hnew
  subst hnew
  obtain ⟨hinv, -, hsource, -⟩ := hruns probeCalls _ _ rfl
  exact ⟨_, _, _, hcontroller, hplpmtu, rfl, rfl, hinv, hsource⟩

end Controller

end Path.Mtu

end S2nQuic
