import S2nQuic.Packet.SlidingWindow
import S2nQuic.Time

/-!
# Persistent congestion

`persistent_congestion::Calculator` (`s2n-quic-core/src/recovery/persistent_congestion.rs`)
reads the lost packets one by one, in packet number order, and keeps one running period: the
time from its first ack-eliciting packet to its latest, while the packets stay contiguous. A
packet sent before the first RTT sample, on another path or as an MTU probe is skipped, and the
gap it leaves ends the period. The longest period is the persistent congestion duration that
`Manager::remove_lost_packets` (`s2n-quic-transport/src/recovery/manager.rs`) compares with each
path's threshold.

RFC 9002 section 7.6.2 states it over pairs: the longest time between two lost ack-eliciting
packets with every packet between them lost. The two agree when packets are sent in packet
number order. A packet sent before the period's start trips `extend`'s `debug_assert!`, and one
that ends the period before its start underflows the `Duration` subtraction; the model returns
`none` at either.

Packet numbers of one calculator are of one space, so the model reads their values only.
`SentPacketInfo` keeps the fields loss recovery reads here.
-/

namespace S2nQuic.Recovery
open Packet

inductive AckElicitation
  | nonEliciting
  | eliciting
  deriving DecidableEq, Repr

def AckElicitation.isAckEliciting : AckElicitation → Bool
  | .eliciting => true
  | .nonEliciting => false

/-- `transmission::Mode`. -/
inductive TransmissionMode
  | lossRecoveryProbing
  | mtuProbing
  | pathValidationOnly
  | normal
  deriving DecidableEq, Repr

def TransmissionMode.isMtuProbing : TransmissionMode → Bool
  | .mtuProbing => true
  | _ => false

structure SentPacketInfo where
  sentBytes : Nat
  timeSent : Timestamp
  ackElicitation : AckElicitation
  pathId : Nat
  transmissionMode : TransmissionMode
  deriving DecidableEq, Repr

namespace PersistentCongestion

structure Period where
  start : Timestamp
  «end» : Timestamp
  prevPacket : PacketNumber

namespace Period

def new (start : Timestamp) (packetNumber : PacketNumber) : Period :=
  ⟨start, start, packetNumber⟩

def isContiguous (self : Period) (packetNumber : PacketNumber) : Bool :=
  packetNumber.checkedDistance self.prevPacket = some 1

/-- `extend`: the `end` moves only on an ack-eliciting packet. `none` is one of its two
`debug_assert!`s. -/
def extend (self : Period) (packetNumber : PacketNumber) (packetInfo : SentPacketInfo) :
    Option Period :=
  if self.isContiguous packetNumber ∧ self.start ≤ packetInfo.timeSent then
    some { self with
      «end» := if packetInfo.ackElicitation.isAckEliciting then packetInfo.timeSent else self.end
      prevPacket := packetNumber }
  else none

def duration (self : Period) : Option Duration := self.end.sub self.start

theorem isContiguous_iff {self : Period} {packetNumber : PacketNumber} :
    self.isContiguous packetNumber = true ↔ self.prevPacket.asU64 + 1 = packetNumber.asU64 := by
  unfold isContiguous PacketNumber.checkedDistance
  split_ifs with h <;> simp <;> omega

theorem extend_eq_some {self p : Period} {packetNumber : PacketNumber}
    {packetInfo : SentPacketInfo} (h : self.extend packetNumber packetInfo = some p) :
    self.prevPacket.asU64 + 1 = packetNumber.asU64 ∧ self.start ≤ packetInfo.timeSent ∧
      p = { self with
        «end» := if packetInfo.ackElicitation.isAckEliciting then packetInfo.timeSent else self.end
        prevPacket := packetNumber } := by
  unfold extend at h
  by_cases hc : self.isContiguous packetNumber ∧ self.start ≤ packetInfo.timeSent
  · rw [if_pos hc, Option.some.injEq] at h
    exact ⟨isContiguous_iff.mp hc.1, hc.2, h.symm⟩
  · rw [if_neg hc] at h
    cases h

theorem extend_of_contiguous {self : Period} {packetNumber : PacketNumber}
    {packetInfo : SentPacketInfo} (hc : self.prevPacket.asU64 + 1 = packetNumber.asU64)
    (hstart : self.start ≤ packetInfo.timeSent) :
    self.extend packetNumber packetInfo = some { self with
      «end» := if packetInfo.ackElicitation.isAckEliciting then packetInfo.timeSent else self.end
      prevPacket := packetNumber } :=
  if_pos ⟨isContiguous_iff.mpr hc, hstart⟩

end Period

structure Calculator where
  currentPeriod : Option Period
  maxDuration : Duration
  firstRttSample : Option Timestamp
  pathId : Nat

namespace Calculator

def new (firstRttSample : Option Timestamp) (pathId : Nat) : Calculator :=
  ⟨none, 0, firstRttSample, pathId⟩

def persistentCongestionDuration (self : Calculator) : Duration := self.maxDuration

/-- The three `ensure!`s that open `on_lost_packet`: the packet was sent at or after the first
RTT sample, on the calculator's path, and not as an MTU probe. -/
def counts (self : Calculator) (packetInfo : SentPacketInfo) : Bool :=
  self.firstRttSample.any (fun ts => decide (ts ≤ packetInfo.timeSent)) &&
    decide (packetInfo.pathId = self.pathId) && !packetInfo.transmissionMode.isMtuProbing

/-- The first `if let` of `on_lost_packet`: a contiguous packet extends the period and the
longest duration with it; any other ends the period. -/
def extendPeriod (self : Calculator) (packetNumber : PacketNumber) (packetInfo : SentPacketInfo) :
    Option Calculator :=
  match self.currentPeriod with
  | some currentPeriod =>
    if currentPeriod.isContiguous packetNumber then
      (currentPeriod.extend packetNumber packetInfo).bind fun currentPeriod =>
        currentPeriod.duration.map fun duration =>
          { self with
            currentPeriod := some currentPeriod
            maxDuration := max self.maxDuration duration }
    else some { self with currentPeriod := none }
  | none => some self

/-- The second `if` of `on_lost_packet`: with no period running, an ack-eliciting packet
starts one. -/
def startPeriod (self : Calculator) (packetNumber : PacketNumber) (packetInfo : SentPacketInfo) :
    Calculator :=
  if self.currentPeriod.isNone && packetInfo.ackElicitation.isAckEliciting then
    { self with currentPeriod := some (Period.new packetInfo.timeSent packetNumber) }
  else self

def onLostPacket (self : Calculator) (packetNumber : PacketNumber)
    (packetInfo : SentPacketInfo) : Option Calculator :=
  if !self.counts packetInfo then some self
  else (self.extendPeriod packetNumber packetInfo).map (·.startPeriod packetNumber packetInfo)

def onLostPackets (self : Calculator) : List (PacketNumber × SentPacketInfo) → Option Calculator
  | [] => some self
  | (packetNumber, packetInfo) :: lost =>
    (self.onLostPacket packetNumber packetInfo).bind fun self => self.onLostPackets lost

section Cases

variable {self : Calculator} {packetNumber : PacketNumber} {packetInfo : SentPacketInfo}

theorem counts_congr {config : Calculator} (hfirst : self.firstRttSample = config.firstRttSample)
    (hpath : self.pathId = config.pathId) : self.counts = config.counts := by
  funext packetInfo
  rw [counts, counts, hfirst, hpath]

theorem startPeriod_of_none (h : self.currentPeriod = none) :
    self.startPeriod packetNumber packetInfo =
      if packetInfo.ackElicitation.isAckEliciting then
        { self with currentPeriod := some (Period.new packetInfo.timeSent packetNumber) }
      else self := by
  simp [startPeriod, h]

theorem onLostPacket_of_not_counts (h : self.counts packetInfo = false) :
    self.onLostPacket packetNumber packetInfo = some self := by
  simp [onLostPacket, h]

theorem onLostPacket_of_none (h : self.counts packetInfo = true)
    (hp : self.currentPeriod = none) :
    self.onLostPacket packetNumber packetInfo = some (self.startPeriod packetNumber packetInfo) := by
  simp [onLostPacket, extendPeriod, h, hp]

theorem onLostPacket_of_gap {p : Period} (h : self.counts packetInfo = true)
    (hp : self.currentPeriod = some p)
    (hgap : ¬p.prevPacket.asU64 + 1 = packetNumber.asU64) :
    self.onLostPacket packetNumber packetInfo =
      some ({ self with currentPeriod := none }.startPeriod packetNumber packetInfo) := by
  have hc : p.isContiguous packetNumber = false :=
    Bool.eq_false_iff.mpr fun hc => hgap (Period.isContiguous_iff.mp hc)
  simp [onLostPacket, extendPeriod, h, hp, hc]

theorem onLostPacket_of_extend {p p' : Period} (h : self.counts packetInfo = true)
    (hp : self.currentPeriod = some p) (hext : p.extend packetNumber packetInfo = some p')
    (hle : p'.start ≤ p'.end) :
    self.onLostPacket packetNumber packetInfo = some { self with
      currentPeriod := some p'
      maxDuration := max self.maxDuration (p'.end.asDurationImpl - p'.start.asDurationImpl) } := by
  have hc : p.isContiguous packetNumber = true :=
    Period.isContiguous_iff.mpr (Period.extend_eq_some hext).1
  simp [onLostPacket, extendPeriod, h, hp, hc, hext, Period.duration, Timestamp.sub_of_le hle,
    startPeriod]

end Cases

theorem onLostPackets_append (self : Calculator) (lost : List (PacketNumber × SentPacketInfo))
    (x : PacketNumber × SentPacketInfo) :
    self.onLostPackets (lost ++ [x]) = (self.onLostPackets lost).bind (·.onLostPacket x.1 x.2) := by
  induction lost generalizing self with
  | nil => simp [onLostPackets]
  | cons y lost ih => simp [onLostPackets, ih, Option.bind_assoc]

end Calculator

/-! ## Congestion periods among the lost packets -/

section Spec

variable (config : Calculator) (lost : List (PacketNumber × SentPacketInfo))

/-- Every packet number from `lo` to `hi` is among the lost packets, and every lost packet in
that range counts for the calculator. -/
def Covered (lo hi : Nat) : Prop :=
  (∀ n, lo ≤ n → n ≤ hi → ∃ x ∈ lost, x.1.asU64 = n) ∧
    ∀ x ∈ lost, lo ≤ x.1.asU64 → x.1.asU64 ≤ hi → config.counts x.2 = true

/-- RFC 9002 section 7.6.2: two lost ack-eliciting packets `a ≤ b` with every packet number
between them lost, each of those counting for the calculator. -/
def IsCongestionPair (a b : PacketNumber × SentPacketInfo) : Prop :=
  a ∈ lost ∧ b ∈ lost ∧ a.1.asU64 ≤ b.1.asU64 ∧
    a.2.ackElicitation.isAckEliciting = true ∧ b.2.ackElicitation.isAckEliciting = true ∧
    Covered config lost a.1.asU64 b.1.asU64

def span (a b : PacketNumber × SentPacketInfo) : Duration :=
  b.2.timeSent.asDurationImpl - a.2.timeSent.asDurationImpl

/-- The longest span of a congestion pair, or `0` when there is none. -/
def IsLongestPeriod (d : Duration) : Prop :=
  (∀ a b, IsCongestionPair config lost a b → span a b ≤ d) ∧
    (d = 0 ∨ ∃ a b, IsCongestionPair config lost a b ∧ span a b = d)

def InSendOrder : Prop :=
  lost.Pairwise fun x y => x.1.asU64 < y.1.asU64 ∧ x.2.timeSent ≤ y.2.timeSent

instance : Decidable (InSendOrder lost) := inferInstanceAs (Decidable (List.Pairwise _ lost))

end Spec

/-! ## One more lost packet -/

section Append

variable {config : Calculator} {lost : List (PacketNumber × SentPacketInfo)}
  {x : PacketNumber × SentPacketInfo}

def Later (lost : List (PacketNumber × SentPacketInfo)) (x : PacketNumber × SentPacketInfo) :
    Prop :=
  ∀ y ∈ lost, y.1.asU64 < x.1.asU64 ∧ y.2.timeSent ≤ x.2.timeSent

theorem covered_append_of_lt {lo hi : Nat} (hhi : hi < x.1.asU64) :
    Covered config (lost ++ [x]) lo hi ↔ Covered config lost lo hi := by
  constructor
  · rintro ⟨hall, hcount⟩
    refine ⟨fun n hlo hn => ?_, fun y hy => hcount y (List.mem_append_left _ hy)⟩
    obtain ⟨y, hy, rfl⟩ := hall n hlo hn
    rcases List.mem_append.mp hy with hy | hy
    · exact ⟨y, hy, rfl⟩
    · rw [List.mem_singleton.mp hy] at hn
      omega
  · rintro ⟨hall, hcount⟩
    refine ⟨fun n hlo hn => ?_, fun y hy hlo hyhi => ?_⟩
    · obtain ⟨y, hy, rfl⟩ := hall n hlo hn
      exact ⟨y, List.mem_append_left _ hy, rfl⟩
    · rcases List.mem_append.mp hy with hy | hy
      · exact hcount y hy hlo hyhi
      · rw [List.mem_singleton.mp hy] at hyhi
        omega

theorem covered_append_last {lo : Nat} (hlo : lo < x.1.asU64)
    (h : Covered config (lost ++ [x]) lo x.1.asU64) :
    ∃ z ∈ lost, z.1.asU64 + 1 = x.1.asU64 ∧ Covered config lost lo z.1.asU64 := by
  obtain ⟨z, hz, hzx⟩ := h.1 (x.1.asU64 - 1) (by omega) (by omega)
  have hzlost : z ∈ lost := by
    rcases List.mem_append.mp hz with hz | hz
    · exact hz
    · rw [List.mem_singleton.mp hz] at hzx
      omega
  refine ⟨z, hzlost, by omega, ?_⟩
  exact (covered_append_of_lt (by omega)).mp ⟨fun n hn hn' => h.1 n hn (by omega),
    fun y hy hy' hy'' => h.2 y hy hy' (by omega)⟩

theorem covered_append_extend (hx : Later lost x) {lo : Nat} {l : PacketNumber × SentPacketInfo}
    (h : Covered config lost lo l.1.asU64) (hl : l.1.asU64 + 1 = x.1.asU64)
    (hcount : config.counts x.2 = true) : Covered config (lost ++ [x]) lo x.1.asU64 := by
  refine ⟨fun n hlo hn => ?_, fun y hy hylo hyhi => ?_⟩
  · by_cases hnx : n = x.1.asU64
    · exact ⟨x, List.mem_append_right _ (List.mem_singleton_self _), hnx.symm⟩
    · obtain ⟨y, hy, rfl⟩ := h.1 n hlo (by omega)
      exact ⟨y, List.mem_append_left _ hy, rfl⟩
  · rcases List.mem_append.mp hy with hy | hy
    · exact h.2 y hy hylo (by have := (hx y hy).1; omega)
    · rw [List.mem_singleton.mp hy]
      exact hcount

theorem covered_append_self (hx : Later lost x) (hcount : config.counts x.2 = true) :
    Covered config (lost ++ [x]) x.1.asU64 x.1.asU64 := by
  refine ⟨fun n hlo hn => ⟨x, List.mem_append_right _ (List.mem_singleton_self _), by omega⟩,
    fun y hy hylo hyhi => ?_⟩
  rcases List.mem_append.mp hy with hy | hy
  · have := (hx y hy).1
    omega
  · rw [List.mem_singleton.mp hy]
    exact hcount

theorem mem_of_mem_append_of_lt {y : PacketNumber × SentPacketInfo} (hy : y ∈ lost ++ [x])
    (hlt : y.1.asU64 < x.1.asU64) : y ∈ lost := by
  rcases List.mem_append.mp hy with hy | hy
  · exact hy
  · rw [List.mem_singleton.mp hy] at hlt
    omega

theorem isCongestionPair_append_of_lt {a b : PacketNumber × SentPacketInfo}
    (hb : b.1.asU64 < x.1.asU64) :
    IsCongestionPair config (lost ++ [x]) a b ↔ IsCongestionPair config lost a b := by
  constructor
  · rintro ⟨ha, hb', hab, hea, heb, hcov⟩
    exact ⟨mem_of_mem_append_of_lt ha (by omega), mem_of_mem_append_of_lt hb' hb, hab, hea, heb,
      (covered_append_of_lt hb).mp hcov⟩
  · rintro ⟨ha, hb', hab, hea, heb, hcov⟩
    exact ⟨List.mem_append_left _ ha, List.mem_append_left _ hb', hab, hea, heb,
      (covered_append_of_lt hb).mpr hcov⟩

theorem isCongestionPair_append_last (hx : Later lost x) {a : PacketNumber × SentPacketInfo}
    (h : IsCongestionPair config (lost ++ [x]) a x) :
    a = x ∨ a ∈ lost ∧ a.2.ackElicitation.isAckEliciting = true ∧
      ∃ z ∈ lost, z.1.asU64 + 1 = x.1.asU64 ∧ Covered config lost a.1.asU64 z.1.asU64 := by
  obtain ⟨ha, -, -, hea, -, hcov⟩ := h
  rcases List.mem_append.mp ha with ha | ha
  · exact .inr ⟨ha, hea, covered_append_last (hx a ha).1 hcov⟩
  · exact .inl (List.mem_singleton.mp ha)

theorem isLongestPeriod_append_of_only_self (hx : Later lost x) {d : Duration}
    (honly : ∀ a, IsCongestionPair config (lost ++ [x]) a x → a = x)
    (h : IsLongestPeriod config lost d) : IsLongestPeriod config (lost ++ [x]) d := by
  refine ⟨fun a b hab => ?_, ?_⟩
  · rcases List.mem_append.mp hab.2.1 with hb | hb
    · exact h.1 a b ((isCongestionPair_append_of_lt (hx b hb).1).mp hab)
    · rw [List.mem_singleton.mp hb] at hab ⊢
      rw [honly a hab]
      simp [span]
  · rcases h.2 with h0 | ⟨a, b, hab, hspan⟩
    · exact .inl h0
    · exact .inr ⟨a, b, (isCongestionPair_append_of_lt (hx b hab.2.1).1).mpr hab, hspan⟩

theorem le_of_mem_append (hx : Later lost x) {y : PacketNumber × SentPacketInfo}
    (hy : y ∈ lost ++ [x]) : y.1.asU64 ≤ x.1.asU64 := by
  rcases List.mem_append.mp hy with hy | hy
  · exact (hx y hy).1.le
  · rw [List.mem_singleton.mp hy]

theorem IsCongestionPair.counts_right {a b : PacketNumber × SentPacketInfo}
    (h : IsCongestionPair config lost a b) : config.counts b.2 = true :=
  h.2.2.2.2.2.2 b h.2.1 h.2.2.1 le_rfl

theorem span_le_span_of_le {a a' b : PacketNumber × SentPacketInfo}
    (h : a.2.timeSent ≤ a'.2.timeSent) : span a' b ≤ span a b :=
  Nat.sub_le_sub_left (Nat.mul_le_mul_right 1000 h) _

theorem isLongestPeriod_append_max (hx : Later lost x) {d : Duration}
    {a : PacketNumber × SentPacketInfo} (h : IsLongestPeriod config lost d)
    (hpair : IsCongestionPair config (lost ++ [x]) a x)
    (hmax : ∀ a', IsCongestionPair config (lost ++ [x]) a' x → span a' x ≤ span a x) :
    IsLongestPeriod config (lost ++ [x]) (max d (span a x)) := by
  refine ⟨fun a' b hab => ?_, ?_⟩
  · rcases List.mem_append.mp hab.2.1 with hb | hb
    · exact le_max_of_le_left (h.1 a' b ((isCongestionPair_append_of_lt (hx b hb).1).mp hab))
    · rw [List.mem_singleton.mp hb] at hab ⊢
      exact le_max_of_le_right (hmax a' hab)
  · rcases le_total d (span a x) with hle | hle
    · exact .inr ⟨a, x, hpair, (max_eq_right hle).symm⟩
    · rw [max_eq_left hle]
      rcases h.2 with h0 | ⟨a', b, hab, hspan⟩
      · exact .inl h0
      · exact .inr ⟨a', b, (isCongestionPair_append_of_lt (hx b hab.2.1).1).mpr hab, hspan⟩

end Append

/-! ## What the calculator keeps -/

theorem InSendOrder.timeSent_le {lost : List (PacketNumber × SentPacketInfo)}
    (h : InSendOrder lost) {a b : PacketNumber × SentPacketInfo} (ha : a ∈ lost) (hb : b ∈ lost)
    (hle : a.1.asU64 ≤ b.1.asU64) : a.2.timeSent ≤ b.2.timeSent := by
  induction lost with
  | nil => cases ha
  | cons y ys ih =>
    obtain ⟨hy, hys⟩ := List.pairwise_cons.mp h
    rcases List.mem_cons.mp ha with rfl | ha'
    · rcases List.mem_cons.mp hb with rfl | hb'
      · exact le_rfl
      · exact (hy b hb').2
    · rcases List.mem_cons.mp hb with rfl | hb'
      · have := (hy a ha').1
        omega
      · exact ih hys ha' hb'

theorem InSendOrder.append_singleton' {lost : List (PacketNumber × SentPacketInfo)}
    {x : PacketNumber × SentPacketInfo} (h : InSendOrder lost) (hx : Later lost x) :
    InSendOrder (lost ++ [x]) :=
  List.pairwise_append.mpr ⟨h, List.pairwise_singleton _ x,
    fun y hy z hz => by rw [List.mem_singleton.mp hz]; exact hx y hy⟩

theorem InSendOrder.append_singleton {lost : List (PacketNumber × SentPacketInfo)}
    {x : PacketNumber × SentPacketInfo} (h : InSendOrder (lost ++ [x])) :
    InSendOrder lost ∧ Later lost x := by
  obtain ⟨hlost, -, hx⟩ := List.pairwise_append.mp h
  exact ⟨hlost, fun y hy => hx y hy x (List.mem_singleton_self x)⟩

/-- The period running after `lost`: it starts at `a`, the first ack-eliciting packet of the
block of contiguous counting packets that ends at `l`, the last packet to count, and ends at
`b`, the block's latest ack-eliciting packet. -/
structure Runs (config : Calculator) (lost : List (PacketNumber × SentPacketInfo)) (p : Period)
    (a b l : PacketNumber × SentPacketInfo) : Prop where
  pair : IsCongestionPair config lost a b
  last_mem : l ∈ lost
  le_last : b.1.asU64 ≤ l.1.asU64
  covered : Covered config lost a.1.asU64 l.1.asU64
  start_eq : p.start = a.2.timeSent
  end_eq : p.end = b.2.timeSent
  prevPacket_eq : p.prevPacket = l.1
  last : ∀ y ∈ lost, l.1.asU64 < y.1.asU64 → config.counts y.2 = false
  first : ∀ a' ∈ lost, a'.2.ackElicitation.isAckEliciting = true →
    Covered config lost a'.1.asU64 l.1.asU64 → a.1.asU64 ≤ a'.1.asU64

/-- What a calculator built as `config` keeps after reading `lost`: the longest period so far,
and the period that runs, if any; with none running, every block of contiguous counting packets
from an ack-eliciting one has been broken by a later packet. -/
structure Tracks (config calculator : Calculator) (lost : List (PacketNumber × SentPacketInfo)) :
    Prop where
  firstRttSample_eq : calculator.firstRttSample = config.firstRttSample
  pathId_eq : calculator.pathId = config.pathId
  longest : IsLongestPeriod config lost calculator.maxDuration
  running : ∀ p, calculator.currentPeriod = some p → ∃ a b l, Runs config lost p a b l
  idle : calculator.currentPeriod = none → ∀ a ∈ lost, a.2.ackElicitation.isAckEliciting = true →
    ∀ l ∈ lost, Covered config lost a.1.asU64 l.1.asU64 → ∃ y ∈ lost, l.1.asU64 < y.1.asU64

theorem Tracks.new (firstRttSample : Option Timestamp) (pathId : Nat) :
    Tracks (Calculator.new firstRttSample pathId) (Calculator.new firstRttSample pathId) [] where
  firstRttSample_eq := rfl
  pathId_eq := rfl
  longest := ⟨fun _ _ hab => absurd hab.1 List.not_mem_nil, .inl rfl⟩
  running _ hp := by cases hp
  idle _ _ ha := absurd ha List.not_mem_nil

section Step

variable {config self : Calculator} {lost : List (PacketNumber × SentPacketInfo)}
  {x a b l : PacketNumber × SentPacketInfo} {p : Period}

/-- No block of contiguous counting packets from an ack-eliciting one reaches the packet just
before `x`. -/
def Detached (config : Calculator) (lost : List (PacketNumber × SentPacketInfo))
    (x : PacketNumber × SentPacketInfo) : Prop :=
  ∀ a ∈ lost, a.2.ackElicitation.isAckEliciting = true → ∀ z ∈ lost,
    z.1.asU64 + 1 = x.1.asU64 → a.1.asU64 ≤ z.1.asU64 →
      Covered config lost a.1.asU64 z.1.asU64 → False

theorem eq_of_isCongestionPair_of_detached (hx : Later lost x) (hd : Detached config lost x)
    (h : IsCongestionPair config (lost ++ [x]) a x) : a = x := by
  rcases isCongestionPair_append_last hx h with rfl | ⟨ha, hea, z, hz, hzx, hcov⟩
  · rfl
  · have := (hx a ha).1
    exact (hd a ha hea z hz hzx (by omega) hcov).elim

theorem detached_of_idle (hx : Later lost x)
    (hidle : ∀ a ∈ lost, a.2.ackElicitation.isAckEliciting = true →
      ∀ l ∈ lost, Covered config lost a.1.asU64 l.1.asU64 → ∃ y ∈ lost, l.1.asU64 < y.1.asU64) :
    Detached config lost x := by
  intro a ha hea z hz hzx _ hcov
  obtain ⟨y, hy, hzy⟩ := hidle a ha hea z hz hcov
  have := (hx y hy).1
  omega

theorem Runs.detached (hr : Runs config lost p a b l) (hx : Later lost x)
    (hgap : ¬l.1.asU64 + 1 = x.1.asU64) : Detached config lost x := by
  intro a' _ _ z hz hzx hle hcov
  have hzcount : config.counts z.2 = true := hcov.2 z hz hle le_rfl
  have hzl : z.1.asU64 ≤ l.1.asU64 := by
    by_contra hlt
    rw [hr.last z hz (by omega)] at hzcount
    cases hzcount
  have := (hx l hr.last_mem).1
  omega

theorem Runs.append_of_not_counts (hr : Runs config lost p a b l) (hx : Later lost x)
    (hc : config.counts x.2 = false) : Runs config (lost ++ [x]) p a b l := by
  have hl : l.1.asU64 < x.1.asU64 := (hx l hr.last_mem).1
  have hab : a.1.asU64 ≤ b.1.asU64 := hr.pair.2.2.1
  refine ⟨(isCongestionPair_append_of_lt (by have := hr.le_last; omega)).mpr hr.pair,
    List.mem_append_left _ hr.last_mem, hr.le_last, (covered_append_of_lt hl).mpr hr.covered,
    hr.start_eq, hr.end_eq, hr.prevPacket_eq, fun y hy hly => ?_, fun a' ha' hea' hcov => ?_⟩
  · rcases List.mem_append.mp hy with hy | hy
    · exact hr.last y hy hly
    · rw [List.mem_singleton.mp hy]
      exact hc
  · rcases List.mem_append.mp ha' with ha' | ha'
    · exact hr.first a' ha' hea' ((covered_append_of_lt hl).mp hcov)
    · rw [List.mem_singleton.mp ha']
      have := hr.le_last
      omega

theorem Runs.start (hx : Later lost x) (hcount : config.counts x.2 = true)
    (hel : x.2.ackElicitation.isAckEliciting = true)
    (honly : ∀ a, IsCongestionPair config (lost ++ [x]) a x → a = x) :
    Runs config (lost ++ [x]) (Period.new x.2.timeSent x.1) x x x := by
  have hxmem : x ∈ lost ++ [x] := List.mem_append_right _ (List.mem_singleton_self x)
  have hcov := covered_append_self hx hcount
  refine ⟨⟨hxmem, hxmem, le_rfl, hel, hel, hcov⟩, hxmem, le_rfl, hcov, rfl, rfl, rfl,
    fun y hy hlt => absurd (le_of_mem_append hx hy) (not_le.mpr hlt),
    fun a' ha' hea' hcov' => ?_⟩
  by_contra hlt
  have := honly a' ⟨ha', hxmem, le_of_mem_append hx ha', hea', hel, hcov'⟩
  rw [this] at hlt
  exact hlt le_rfl

theorem Runs.extend (hr : Runs config lost p a b l) (hx : Later lost x)
    (hcount : config.counts x.2 = true) (hcont : l.1.asU64 + 1 = x.1.asU64) {p' : Period}
    {b' : PacketNumber × SentPacketInfo} (hpair : IsCongestionPair config (lost ++ [x]) a b')
    (hb' : b'.1.asU64 ≤ x.1.asU64) (hstart : p'.start = p.start) (hend : p'.end = b'.2.timeSent)
    (hprev : p'.prevPacket = x.1) : Runs config (lost ++ [x]) p' a b' x := by
  refine ⟨hpair, List.mem_append_right _ (List.mem_singleton_self x), hb',
    covered_append_extend hx hr.covered hcont hcount, hstart.trans hr.start_eq, hend, hprev,
    fun y hy hlt => absurd (le_of_mem_append hx hy) (not_le.mpr hlt),
    fun a' ha' hea' hcov => ?_⟩
  rcases List.mem_append.mp ha' with ha' | ha'
  · obtain ⟨z, -, hzx, hcov'⟩ := covered_append_last (hx a' ha').1 hcov
    have hzl : z.1.asU64 = l.1.asU64 := by omega
    rw [hzl] at hcov'
    exact hr.first a' ha' hea' hcov'
  · rw [List.mem_singleton.mp ha']
    exact (hx a hr.pair.1).1.le

theorem Tracks.append_of_not_counts (ht : Tracks config self lost) (hx : Later lost x)
    (hc : config.counts x.2 = false) : Tracks config self (lost ++ [x]) := by
  have honly : ∀ a, IsCongestionPair config (lost ++ [x]) a x → a = x := fun _ h => by
    rw [h.counts_right] at hc
    cases hc
  refine ⟨ht.firstRttSample_eq, ht.pathId_eq, isLongestPeriod_append_of_only_self hx honly ht.longest,
    fun p hp => ?_, fun hp a ha hea l hl hcov => ?_⟩
  · obtain ⟨a, b, l, hr⟩ := ht.running p hp
    exact ⟨a, b, l, hr.append_of_not_counts hx hc⟩
  · rcases List.mem_append.mp hl with hl | hl
    · exact ⟨x, List.mem_append_right _ (List.mem_singleton_self x), (hx l hl).1⟩
    · rw [List.mem_singleton.mp hl] at hcov
      rw [hcov.2 x (List.mem_append_right _ (List.mem_singleton_self x)) (le_of_mem_append hx ha)
        le_rfl] at hc
      cases hc

theorem Tracks.restart {s : Calculator} (hfirst : s.firstRttSample = config.firstRttSample)
    (hpath : s.pathId = config.pathId) (hnone : s.currentPeriod = none)
    (hlongest : IsLongestPeriod config lost s.maxDuration) (hx : Later lost x)
    (hd : Detached config lost x) (hcount : config.counts x.2 = true) :
    Tracks config (s.startPeriod x.1 x.2) (lost ++ [x]) := by
  have honly : ∀ a, IsCongestionPair config (lost ++ [x]) a x → a = x :=
    fun _ h => eq_of_isCongestionPair_of_detached hx hd h
  have hlongest' := isLongestPeriod_append_of_only_self hx honly hlongest
  rw [Calculator.startPeriod_of_none hnone]
  by_cases hel : x.2.ackElicitation.isAckEliciting = true
  · rw [if_pos hel]
    refine ⟨hfirst, hpath, hlongest', fun p hp => ?_, fun hp => by cases hp⟩
    cases hp
    exact ⟨x, x, x, Runs.start hx hcount hel honly⟩
  · rw [if_neg hel]
    refine ⟨hfirst, hpath, hlongest', fun p hp => ?_, fun _ a ha hea l hl hcov => ?_⟩
    · rw [hnone] at hp
      cases hp
    rcases List.mem_append.mp hl with hl | hl
    · exact ⟨x, List.mem_append_right _ (List.mem_singleton_self x), (hx l hl).1⟩
    rw [List.mem_singleton.mp hl] at hcov
    have ha' : a ∈ lost := by
      rcases List.mem_append.mp ha with ha | ha
      · exact ha
      · rw [List.mem_singleton.mp ha] at hea
        exact absurd hea hel
    obtain ⟨z, hz, hzx, hcov'⟩ := covered_append_last (hx a ha').1 hcov
    have := (hx a ha').1
    exact (hd a ha' hea z hz hzx (by omega) hcov').elim

theorem Tracks.extend (ht : Tracks config self lost) (hsorted : InSendOrder lost)
    (hx : Later lost x) (hc : self.counts x.2 = true) (hcount : config.counts x.2 = true)
    (hp : self.currentPeriod = some p) (hr : Runs config lost p a b l)
    (hcont : l.1.asU64 + 1 = x.1.asU64) :
    ∃ self', self.onLostPacket x.1 x.2 = some self' ∧ Tracks config self' (lost ++ [x]) := by
  have hxmem : x ∈ lost ++ [x] := List.mem_append_right _ (List.mem_singleton_self x)
  have hta : a.2.timeSent ≤ x.2.timeSent := (hx a hr.pair.1).2
  have hprev : p.prevPacket.asU64 + 1 = x.1.asU64 := by rw [hr.prevPacket_eq]; exact hcont
  have hstart : p.start ≤ x.2.timeSent := by rw [hr.start_eq]; exact hta
  have hext := Period.extend_of_contiguous hprev hstart
  by_cases hel : x.2.ackElicitation.isAckEliciting = true
  · -- the period now ends at `x`
    rw [if_pos hel] at hext
    have hpair : IsCongestionPair config (lost ++ [x]) a x :=
      ⟨List.mem_append_left _ hr.pair.1, hxmem, (hx a hr.pair.1).1.le, hr.pair.2.2.2.1, hel,
        covered_append_extend hx hr.covered hcont hcount⟩
    have hr' : Runs config (lost ++ [x]) { p with «end» := x.2.timeSent, prevPacket := x.1 } a x x :=
      hr.extend hx hcount hcont hpair le_rfl rfl rfl rfl
    have hmax : ∀ a', IsCongestionPair config (lost ++ [x]) a' x → span a' x ≤ span a x :=
      fun a' h => span_le_span_of_le
        ((hsorted.append_singleton' hx).timeSent_le hpair.1 h.1 (hr'.first a' h.1 h.2.2.2.1 h.2.2.2.2.2))
    refine ⟨_, Calculator.onLostPacket_of_extend hc hp hext hstart, ht.firstRttSample_eq,
      ht.pathId_eq, ?_, fun p' hp' => ⟨a, x, x, ?_⟩, fun hp' => by cases hp'⟩
    · rw [hr.start_eq]
      exact isLongestPeriod_append_max hx ht.longest hpair hmax
    · cases hp'
      exact hr'
  · -- the end stays; the pair `(a, b)` already bounds the longest period
    rw [if_neg hel] at hext
    have hab : a.2.timeSent ≤ b.2.timeSent :=
      hsorted.timeSent_le hr.pair.1 hr.pair.2.1 hr.pair.2.2.1
    have hle : p.start ≤ p.end := by rw [hr.start_eq, hr.end_eq]; exact hab
    have hspan : p.end.asDurationImpl - p.start.asDurationImpl ≤ self.maxDuration := by
      rw [hr.start_eq, hr.end_eq]
      exact ht.longest.1 a b hr.pair
    have honly : ∀ a', IsCongestionPair config (lost ++ [x]) a' x → a' = x :=
      fun _ h => absurd h.2.2.2.2.1 hel
    refine ⟨_, Calculator.onLostPacket_of_extend hc hp hext hle, ht.firstRttSample_eq,
      ht.pathId_eq, ?_, fun p' hp' => ⟨a, b, x, ?_⟩, fun hp' => by cases hp'⟩
    · rw [max_eq_left hspan]
      exact isLongestPeriod_append_of_only_self hx honly ht.longest
    · cases hp'
      exact hr.extend hx hcount hcont
        ((isCongestionPair_append_of_lt (by have := hr.le_last; have := (hx l hr.last_mem).1; omega)).mpr hr.pair)
        (by have := hr.le_last; omega) rfl hr.end_eq rfl

theorem Tracks.onLostPacket (ht : Tracks config self lost) (hsorted : InSendOrder (lost ++ [x])) :
    ∃ self', self.onLostPacket x.1 x.2 = some self' ∧ Tracks config self' (lost ++ [x]) := by
  obtain ⟨hsorted, hx⟩ := hsorted.append_singleton
  have hcounts : self.counts = config.counts :=
    Calculator.counts_congr ht.firstRttSample_eq ht.pathId_eq
  cases hc : config.counts x.2 with
  | false =>
    exact ⟨self, Calculator.onLostPacket_of_not_counts (by rw [hcounts, hc]),
      ht.append_of_not_counts hx hc⟩
  | true =>
    have hc' : self.counts x.2 = true := by rw [hcounts, hc]
    cases hp : self.currentPeriod with
    | none =>
      exact ⟨_, Calculator.onLostPacket_of_none hc' hp, Tracks.restart ht.firstRttSample_eq
        ht.pathId_eq hp ht.longest hx (detached_of_idle hx (ht.idle hp)) hc⟩
    | some p =>
      obtain ⟨a, b, l, hr⟩ := ht.running p hp
      by_cases hcont : l.1.asU64 + 1 = x.1.asU64
      · exact ht.extend hsorted hx hc' hc hp hr hcont
      · refine ⟨_, Calculator.onLostPacket_of_gap hc' hp (by rw [hr.prevPacket_eq]; exact hcont), ?_⟩
        exact Tracks.restart ht.firstRttSample_eq ht.pathId_eq rfl ht.longest hx
          (hr.detached hx hcont) hc

end Step

theorem tracks_onLostPackets (firstRttSample : Option Timestamp) (pathId : Nat)
    {lost : List (PacketNumber × SentPacketInfo)} (hsorted : InSendOrder lost) :
    ∃ self, (Calculator.new firstRttSample pathId).onLostPackets lost = some self ∧
      Tracks (Calculator.new firstRttSample pathId) self lost := by
  induction lost using List.reverseRecOn with
  | nil => exact ⟨_, rfl, Tracks.new firstRttSample pathId⟩
  | append_singleton lost x ih =>
    obtain ⟨self, hrun, ht⟩ := ih hsorted.append_singleton.1
    obtain ⟨self', hstep, ht'⟩ := ht.onLostPacket hsorted
    refine ⟨self', ?_, ht'⟩
    rw [Calculator.onLostPackets_append, hrun]
    exact hstep

end PersistentCongestion

end S2nQuic.Recovery
