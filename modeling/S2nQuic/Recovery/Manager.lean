import S2nQuic.Recovery.PersistentCongestion
import S2nQuic.Recovery.RttEstimator

/-!
# Detecting and removing lost packets

`Manager::detect_lost_packets` (`s2n-quic-transport/src/recovery/manager.rs`) walks
`sent_packets` in packet number order up to the largest acknowledged packet. Each packet that
`loss::detect` finds lost goes to `context.on_packet_loss` and to the persistent congestion
calculator; the first that is not lost yet arms the loss timer at its loss time, cancels the PTO
timer and ends the walk. `detect_and_remove_lost_packets` then removes the range from the first
to the last lost packet.

`Manager::remove_lost_packets` walks the removed packets in order. Each one is reported to its
path's congestion controller: an MTU probe as discarded, any other packet that carried bytes as
lost, with the persistent congestion flag set when the longest period of the persistent
congestion calculator exceeds the path's threshold and the packet was sent on the current path.
Persistent congestion also resets the path's RTT estimator.

The walk ends at the first packet that is not lost because the packets after it were sent later.
That makes it find every lost packet only when the packets share their loss time threshold
(`detectAndRemoveLostPackets_of_same_threshold`); a later packet on a path with a shorter
threshold stays behind (`detectAndRemoveLostPackets_of_not_lost`).

The model keeps, of each path, the RTT estimator, and returns the congestion controller calls
in order; the event publisher, the ECN and MTU controllers receive notifications that change
nothing here. Packet numbers are of one space.
-/

namespace S2nQuic.Recovery
open Packet PersistentCongestion

/-- The calls `remove_lost_packets` makes on a path's congestion controller. -/
inductive PathCall
  | onPacketDiscarded (pathId bytes : Nat)
  | onPacketLost (pathId bytes : Nat) (persistentCongestion newLossBurst : Bool)
  deriving DecidableEq, Repr

/-- The path, the bytes and the persistent congestion flag of an `on_packet_lost` call. -/
def PathCall.onPacketLostArgs : PathCall → Option (Nat × Nat × Bool)
  | .onPacketLost pathId bytes persistentCongestion _ => some (pathId, bytes, persistentCongestion)
  | .onPacketDiscarded _ _ => none

/-- The path and the bytes of an `on_packet_discarded` call. -/
def PathCall.onPacketDiscardedArgs : PathCall → Option (Nat × Nat)
  | .onPacketDiscarded pathId bytes => some (pathId, bytes)
  | .onPacketLost .. => none

namespace Loss

def K_PACKET_THRESHOLD : Nat := 3

inductive Outcome
  | notLostYet (lostTime : Timestamp)
  | lost
  deriving DecidableEq, Repr

/-- `loss::detect`. `none` is its `debug_assert!` that the packet is older than the largest
acknowledged one. -/
def detect (timeThreshold : Duration) (timeSent : Timestamp) (packetNumberThreshold : Nat)
    (packetNumber largestAckedPacketNumber : PacketNumber) (now : Timestamp) : Option Outcome :=
  if packetNumber.asU64 < largestAckedPacketNumber.asU64 then
    let packetLostTime := timeSent.addDuration timeThreshold
    let timeThresholdExceeded := packetLostTime.hasElapsed now
    (largestAckedPacketNumber.checkedDistance packetNumber).map fun distance =>
      if timeThresholdExceeded || decide (packetNumberThreshold ≤ distance) then .lost
      else .notLostYet packetLostTime
  else none

end Loss

namespace Manager

/-- The loop of `remove_lost_packets` from the previous lost packet number: the congestion
controller calls in order, and the paths' RTT estimators after it. -/
def removeLostPackets (currentPathId : Nat) (persistentCongestionDuration : Duration) :
    (Nat → RttEstimator) → Option PacketNumber → List (PacketNumber × SentPacketInfo) →
      List PathCall × (Nat → RttEstimator)
  | rttEstimator, _, [] => ([], rttEstimator)
  | rttEstimator, prevLostPacketNumber, (packetNumber, sentInfo) :: lost =>
    let persistentCongestion :=
      decide ((rttEstimator sentInfo.pathId).persistentCongestionThreshold <
          persistentCongestionDuration) &&
        decide (sentInfo.pathId = currentPathId)
    let newLossBurst :=
      prevLostPacketNumber.all fun prev => packetNumber.checkedDistance prev != some 1
    let calls :=
      if sentInfo.transmissionMode.isMtuProbing then
        [PathCall.onPacketDiscarded sentInfo.pathId sentInfo.sentBytes]
      else if 0 < sentInfo.sentBytes then
        [PathCall.onPacketLost sentInfo.pathId sentInfo.sentBytes persistentCongestion newLossBurst]
      else []
    let rttEstimator :=
      if persistentCongestion then
        Function.update rttEstimator sentInfo.pathId
          (rttEstimator sentInfo.pathId).onPersistentCongestion
      else rttEstimator
    let rest :=
      removeLostPackets currentPathId persistentCongestionDuration rttEstimator (some packetNumber)
        lost
    (calls ++ rest.1, rest.2)

/-- The packets `remove_lost_packets` reports as lost to their congestion controller. -/
def ReportsLost (x : PacketNumber × SentPacketInfo) : Bool :=
  !x.2.transmissionMode.isMtuProbing && decide (0 < x.2.sentBytes)

theorem persistentCongestionThreshold_update (rttEstimator : Nat → RttEstimator) (pathId j : Nat) :
    (Function.update rttEstimator pathId (rttEstimator pathId).onPersistentCongestion j
      ).persistentCongestionThreshold = (rttEstimator j).persistentCongestionThreshold := by
  by_cases hj : j = pathId
  · subst hj
    rw [Function.update_self, RttEstimator.persistentCongestionThreshold_onPersistentCongestion]
  · rw [Function.update_of_ne hj]

theorem removeLostPackets_onPacketLostArgs (currentPathId : Nat) (duration : Duration)
    (threshold : Nat → Duration) (lost : List (PacketNumber × SentPacketInfo)) :
    ∀ (rttEstimator : Nat → RttEstimator) (prev : Option PacketNumber),
      (∀ j, (rttEstimator j).persistentCongestionThreshold = threshold j) →
      (removeLostPackets currentPathId duration rttEstimator prev lost).1.filterMap
          PathCall.onPacketLostArgs =
        (lost.filter ReportsLost).map fun x =>
          (x.2.pathId, x.2.sentBytes,
            decide (threshold x.2.pathId < duration) && decide (x.2.pathId = currentPathId)) := by
  induction lost with
  | nil => intro _ _ _; rfl
  | cons x lost ih =>
    intro rttEstimator prev hthreshold
    obtain ⟨packetNumber, sentInfo⟩ := x
    -- the estimators the rest of the loop reads keep their thresholds
    have hnext : ∀ pc : Bool, ∀ j, ((if pc then Function.update rttEstimator sentInfo.pathId
        (rttEstimator sentInfo.pathId).onPersistentCongestion else rttEstimator) j
          ).persistentCongestionThreshold = threshold j := by
      intro pc j
      cases pc
      · exact hthreshold j
      · rw [if_pos rfl, persistentCongestionThreshold_update, hthreshold]
    simp only [removeLostPackets, List.filterMap_append, ih _ _ (hnext _), hthreshold]
    by_cases hmtu : sentInfo.transmissionMode.isMtuProbing = true
    · simp [hmtu, ReportsLost, PathCall.onPacketLostArgs]
    · by_cases hbytes : 0 < sentInfo.sentBytes
      · simp [hmtu, hbytes, ReportsLost, PathCall.onPacketLostArgs]
      · simp [hmtu, hbytes, ReportsLost]

theorem removeLostPackets_onPacketDiscardedArgs (currentPathId : Nat) (duration : Duration)
    (lost : List (PacketNumber × SentPacketInfo)) :
    ∀ (rttEstimator : Nat → RttEstimator) (prev : Option PacketNumber),
      (removeLostPackets currentPathId duration rttEstimator prev lost).1.filterMap
          PathCall.onPacketDiscardedArgs =
        (lost.filter (·.2.transmissionMode.isMtuProbing)).map fun x => (x.2.pathId, x.2.sentBytes) := by
  induction lost with
  | nil => intro _ _; rfl
  | cons x lost ih =>
    intro rttEstimator prev
    obtain ⟨packetNumber, sentInfo⟩ := x
    simp only [removeLostPackets, List.filterMap_append, ih]
    by_cases hmtu : sentInfo.transmissionMode.isMtuProbing = true
    · simp [hmtu, PathCall.onPacketDiscardedArgs]
    · by_cases hbytes : 0 < sentInfo.sentBytes
      · simp [hmtu, hbytes, PathCall.onPacketDiscardedArgs]
      · simp [hmtu, hbytes]

/-- Over lost packets sent in packet number order, the calculator's duration is the longest
period of RFC 9002 section 7.6.2, and `remove_lost_packets` given that duration reports each
non-probe packet that carried bytes as lost, with persistent congestion exactly when the
duration exceeds its path's threshold and it was sent on the current path, and hands the MTU
probes, and only them, to `on_packet_discarded`. -/
theorem persistentCongestion_of_lost_packets (firstRttSample : Option Timestamp)
    (pathId currentPathId : Nat) (rttEstimator : Nat → RttEstimator)
    (lost : List (PacketNumber × SentPacketInfo)) (hsorted : InSendOrder lost) :
    ∃ calculator, (Calculator.new firstRttSample pathId).onLostPackets lost = some calculator ∧
      IsLongestPeriod (Calculator.new firstRttSample pathId) lost
        calculator.persistentCongestionDuration ∧
      (removeLostPackets currentPathId calculator.persistentCongestionDuration rttEstimator none
          lost).1.filterMap PathCall.onPacketLostArgs =
        (lost.filter ReportsLost).map (fun x =>
          (x.2.pathId, x.2.sentBytes,
            decide ((rttEstimator x.2.pathId).persistentCongestionThreshold <
                calculator.persistentCongestionDuration) &&
              decide (x.2.pathId = currentPathId))) ∧
      (removeLostPackets currentPathId calculator.persistentCongestionDuration rttEstimator none
          lost).1.filterMap PathCall.onPacketDiscardedArgs =
        (lost.filter (·.2.transmissionMode.isMtuProbing)).map fun x => (x.2.pathId, x.2.sentBytes) := by
  obtain ⟨calculator, hrun, ht⟩ := tracks_onLostPackets firstRttSample pathId hsorted
  exact ⟨calculator, hrun, ht.longest,
    removeLostPackets_onPacketLostArgs _ _ _ lost rttEstimator none fun _ => rfl,
    removeLostPackets_onPacketDiscardedArgs _ _ lost rttEstimator none⟩

/-- The first packet number of the Application space at `n`. -/
private def pn (n : Nat) (h : n ≤ Varint.maxVarintValue := by decide) : PacketNumber :=
  PacketNumberSpace.applicationData.newPacketNumber ⟨n, h⟩

private def elicitingAt (timeSent : Timestamp) : SentPacketInfo :=
  ⟨1200, timeSent, .eliciting, 0, .normal⟩

private def probeAndEmpty : List (PacketNumber × SentPacketInfo) :=
  [(pn 1, elicitingAt 10), (pn 2, ⟨1500, 20, .eliciting, 0, .mtuProbing⟩),
    (pn 3, ⟨0, 30, .nonEliciting, 0, .normal⟩), (pn 4, elicitingAt 40)]

theorem persistentCongestion_of_lost_packets_one :
    InSendOrder probeAndEmpty ∧
      ∃ calculator, (Calculator.new (some 1) 0).onLostPackets probeAndEmpty = some calculator ∧
        IsLongestPeriod (Calculator.new (some 1) 0) probeAndEmpty
          calculator.persistentCongestionDuration ∧
        (removeLostPackets 0 calculator.persistentCongestionDuration (fun _ => RttEstimator.default)
            none probeAndEmpty).1.filterMap PathCall.onPacketLostArgs =
          (probeAndEmpty.filter ReportsLost).map (fun x =>
            (x.2.pathId, x.2.sentBytes,
              decide (RttEstimator.default.persistentCongestionThreshold <
                  calculator.persistentCongestionDuration) &&
                decide (x.2.pathId = 0))) ∧
        (removeLostPackets 0 calculator.persistentCongestionDuration (fun _ => RttEstimator.default)
            none probeAndEmpty).1.filterMap PathCall.onPacketDiscardedArgs =
          (probeAndEmpty.filter (·.2.transmissionMode.isMtuProbing)).map fun x =>
            (x.2.pathId, x.2.sentBytes) :=
  have hsorted : InSendOrder probeAndEmpty := by decide
  ⟨hsorted, persistentCongestion_of_lost_packets (some 1) 0 0 (fun _ => RttEstimator.default) _
    hsorted⟩

/-- A packet sent before the one the period starts at trips `extend`'s `debug_assert!`; without
it, the `Duration` subtraction in `duration` underflows. -/
theorem onLostPackets_unordered :
    (Calculator.new (some 1) 0).onLostPackets [(pn 1, elicitingAt 10), (pn 2, elicitingAt 5)] =
      none := rfl

/-! ## Detecting lost packets -/

/-- What `detect_lost_packets` builds as it walks `sent_packets`. -/
structure Detection where
  calculator : Calculator
  smallestLostPacket : Option PacketNumber
  largestLostPacket : Option PacketNumber
  /-- The packets reported to `context.on_packet_loss`, each as a range of one. -/
  onPacketLoss : List PacketNumber
  lossTimer : Timer
  ptoTimer : Timer

/-- A lost packet: the range to remove grows to it, and `context.on_packet_loss` hears of it. -/
def Detection.recordLost (d : Detection) (packetNumber : PacketNumber) (calculator : Calculator) :
    Detection :=
  { d with
    calculator := calculator
    smallestLostPacket := d.smallestLostPacket.or (some packetNumber)
    largestLostPacket := some packetNumber
    onPacketLoss := d.onPacketLoss ++ [packetNumber] }

/-- The loop of `detect_lost_packets` over `sent_packets` in packet number order. It stops at the
first packet past the largest acknowledged one, or at the first that is not lost yet, which arms
the loss timer. `none` is a `debug_assert!` or a panic. -/
def detectLostPacketsLoop (largestAckedPacket : PacketNumber) (lossTimeThreshold : Nat → Duration)
    (now : Timestamp) : Detection → List (PacketNumber × SentPacketInfo) → Option Detection
  | d, [] => some d
  | d, (packetNumber, sentInfo) :: sentPackets =>
    if largestAckedPacket.asU64 < packetNumber.asU64 then some d
    else
      match Loss.detect (lossTimeThreshold sentInfo.pathId) sentInfo.timeSent
          Loss.K_PACKET_THRESHOLD packetNumber largestAckedPacket now with
      | none => none
      | some .lost =>
        (d.calculator.onLostPacket packetNumber sentInfo).bind fun calculator =>
          detectLostPacketsLoop largestAckedPacket lossTimeThreshold now
            (d.recordLost packetNumber calculator) sentPackets
      | some (.notLostYet lostTime) =>
        let lossTimer := d.lossTimer.set lostTime
        if lossTimer.isExpired now then none
        else some { d with lossTimer := lossTimer, ptoTimer := d.ptoTimer.cancel }

/-- The part of the recovery `Manager` that loss detection reads and writes; `sent_packets` in
packet number order. -/
structure LossState where
  sentPackets : List (PacketNumber × SentPacketInfo)
  lossTimer : Timer
  ptoTimer : Timer

/-- `SentPackets::remove_range`: the entries in the range, in order, and those left. -/
def removeRange (sentPackets : List (PacketNumber × SentPacketInfo)) (start «end» : PacketNumber) :
    List (PacketNumber × SentPacketInfo) × List (PacketNumber × SentPacketInfo) :=
  sentPackets.partition fun x => decide (start.asU64 ≤ x.1.asU64 ∧ x.1.asU64 ≤ «end».asU64)

/-- `detect_and_remove_lost_packets`, once an ack has set the largest acknowledged packet: the
state after it, the packets reported to `context.on_packet_loss`, the congestion controller
calls and the paths' RTT estimators. -/
def detectAndRemoveLostPackets (self : LossState) (largestAckedPacket : PacketNumber)
    (currentPathId : Nat) (rttEstimator : Nat → RttEstimator) (now : Timestamp) :
    Option (LossState × List PacketNumber × List PathCall × (Nat → RttEstimator)) :=
  let lossTimer := self.lossTimer.cancel
  let calculator := Calculator.new (rttEstimator currentPathId).firstRttSample currentPathId
  (detectLostPacketsLoop largestAckedPacket (fun pathId => (rttEstimator pathId).lossTimeThreshold)
      now ⟨calculator, none, none, [], lossTimer, self.ptoTimer⟩ self.sentPackets).map fun d =>
    match d.smallestLostPacket, d.largestLostPacket with
    | some start, some «end» =>
      let (lostPackets, sentPackets) := removeRange self.sentPackets start «end»
      let (calls, rttEstimator) :=
        removeLostPackets currentPathId d.calculator.persistentCongestionDuration rttEstimator none
          lostPackets
      (⟨sentPackets, d.lossTimer, d.ptoTimer⟩, d.onPacketLoss, calls, rttEstimator)
    | _, _ => (⟨self.sentPackets, d.lossTimer, d.ptoTimer⟩, d.onPacketLoss, [], rttEstimator)

section Walk

variable {largestAckedPacket : PacketNumber} {lossTimeThreshold : Nat → Duration}
  {now : Timestamp} {d : Detection} {x : PacketNumber × SentPacketInfo}
  {sentPackets : List (PacketNumber × SentPacketInfo)}

/-- `loss::detect` finds the packet lost: it is older than the largest acknowledged one, and its
loss time has elapsed or it is `K_PACKET_THRESHOLD` packets behind. -/
def declaresLost (largestAckedPacket : PacketNumber) (lossTimeThreshold : Nat → Duration)
    (now : Timestamp) (x : PacketNumber × SentPacketInfo) : Bool :=
  decide (x.1.asU64 < largestAckedPacket.asU64) &&
    ((x.2.timeSent.addDuration (lossTimeThreshold x.2.pathId)).hasElapsed now ||
      decide (Loss.K_PACKET_THRESHOLD ≤ largestAckedPacket.asU64 - x.1.asU64))

/-- The time at which the loss timer fires for `x`. -/
def lostTime (lossTimeThreshold : Nat → Duration) (x : PacketNumber × SentPacketInfo) :
    Timestamp :=
  x.2.timeSent.addDuration (lossTimeThreshold x.2.pathId)

theorem detectLostPacketsLoop_of_gt (h : largestAckedPacket.asU64 < x.1.asU64) :
    detectLostPacketsLoop largestAckedPacket lossTimeThreshold now d (x :: sentPackets) =
      some d := by
  simp [detectLostPacketsLoop, h]

theorem detectLostPacketsLoop_of_lost
    (h : declaresLost largestAckedPacket lossTimeThreshold now x = true) :
    detectLostPacketsLoop largestAckedPacket lossTimeThreshold now d (x :: sentPackets) =
      (d.calculator.onLostPacket x.1 x.2).bind fun calculator =>
        detectLostPacketsLoop largestAckedPacket lossTimeThreshold now
          (d.recordLost x.1 calculator) sentPackets := by
  simp only [declaresLost, Bool.and_eq_true, decide_eq_true_eq, Bool.or_eq_true] at h
  simp [detectLostPacketsLoop, Loss.detect, PacketNumber.checkedDistance, h.1, h.1.le,
    not_lt.mpr h.1.le, h.2]

theorem detectLostPacketsLoop_of_not_lost (hlt : x.1.asU64 < largestAckedPacket.asU64)
    (h : declaresLost largestAckedPacket lossTimeThreshold now x = false) :
    detectLostPacketsLoop largestAckedPacket lossTimeThreshold now d (x :: sentPackets) =
      some { d with
        lossTimer := d.lossTimer.set (lostTime lossTimeThreshold x)
        ptoTimer := d.ptoTimer.cancel } := by
  simp only [declaresLost, hlt, decide_true, Bool.true_and, Bool.or_eq_false_iff,
    decide_eq_false_iff_not] at h
  simp [detectLostPacketsLoop, Loss.detect, PacketNumber.checkedDistance, hlt, hlt.le,
    not_lt.mpr hlt.le, h.1, h.2, Timer.set, Timer.isExpired, lostTime]

/-- The walk over the lost packets `lost`: the calculator reads each, and each is recorded. -/
def Detection.recordLostPackets (d : Detection) (lost : List (PacketNumber × SentPacketInfo))
    (calculator : Calculator) : Detection :=
  { d with
    calculator := calculator
    smallestLostPacket := d.smallestLostPacket.or (lost.head?.map Prod.fst)
    largestLostPacket := (lost.getLast?.map Prod.fst).or d.largestLostPacket
    onPacketLoss := d.onPacketLoss ++ lost.map Prod.fst }

/-- Where the walk stops, at the first packet it does not find lost, if there is one: the loss
timer is armed at that packet's loss time when the packet is older than the largest
acknowledged one. -/
def Detection.stopAt (d : Detection) (largestAckedPacket : PacketNumber)
    (lossTimeThreshold : Nat → Duration) : Option (PacketNumber × SentPacketInfo) → Detection
  | some y =>
    if y.1.asU64 < largestAckedPacket.asU64 then
      { d with
        lossTimer := d.lossTimer.set (lostTime lossTimeThreshold y)
        ptoTimer := d.ptoTimer.cancel }
    else d
  | none => d

theorem recordLostPackets_nil (d : Detection) : d.recordLostPackets [] d.calculator = d := by
  cases d
  simp [Detection.recordLostPackets]

theorem recordLost_recordLostPackets (d : Detection) (packetNumber : PacketNumber)
    (sentInfo : SentPacketInfo) (lost : List (PacketNumber × SentPacketInfo))
    (calculator calculator' : Calculator) :
    (d.recordLost packetNumber calculator).recordLostPackets lost calculator' =
      d.recordLostPackets ((packetNumber, sentInfo) :: lost) calculator' := by
  cases hlast : lost.getLast? <;>
    simp [Detection.recordLost, Detection.recordLostPackets, List.getLast?_cons, hlast]

theorem detectLostPacketsLoop_append {lost : List (PacketNumber × SentPacketInfo)}
    (rest : List (PacketNumber × SentPacketInfo))
    (hlost : ∀ x ∈ lost, declaresLost largestAckedPacket lossTimeThreshold now x = true) :
    detectLostPacketsLoop largestAckedPacket lossTimeThreshold now d (lost ++ rest) =
      (d.calculator.onLostPackets lost).bind fun calculator =>
        detectLostPacketsLoop largestAckedPacket lossTimeThreshold now
          (d.recordLostPackets lost calculator) rest := by
  induction lost generalizing d with
  | nil => simp [Calculator.onLostPackets, recordLostPackets_nil]
  | cons x lost ih =>
    rw [List.cons_append, detectLostPacketsLoop_of_lost (hlost x List.mem_cons_self)]
    obtain ⟨packetNumber, sentInfo⟩ := x
    simp only [Calculator.onLostPackets, Option.bind_assoc]
    congr 1
    funext calculator
    rw [ih fun y hy => hlost y (List.mem_cons_of_mem _ hy)]
    simp only [recordLost_recordLostPackets d packetNumber sentInfo]
    rfl

theorem detectLostPacketsLoop_stop {rest : List (PacketNumber × SentPacketInfo)}
    (hne : ∀ y ∈ rest, y.1.asU64 ≠ largestAckedPacket.asU64)
    (hhead : ∀ y ∈ rest.head?, declaresLost largestAckedPacket lossTimeThreshold now y = false) :
    detectLostPacketsLoop largestAckedPacket lossTimeThreshold now d rest =
      some (d.stopAt largestAckedPacket lossTimeThreshold rest.head?) := by
  cases rest with
  | nil => rfl
  | cons y rest =>
    have hy := hhead y rfl
    rcases Nat.lt_or_gt_of_ne (hne y List.mem_cons_self) with hlt | hgt
    · rw [detectLostPacketsLoop_of_not_lost hlt hy]
      simp [Detection.stopAt, hlt]
    · rw [detectLostPacketsLoop_of_gt hgt]
      simp [Detection.stopAt, not_lt.mpr hgt.le]

/-- The packets `detect_lost_packets` finds lost: those before the first it does not. -/
def lostPrefix (largestAckedPacket : PacketNumber) (lossTimeThreshold : Nat → Duration)
    (now : Timestamp) (sentPackets : List (PacketNumber × SentPacketInfo)) :
    List (PacketNumber × SentPacketInfo) :=
  sentPackets.takeWhile (declaresLost largestAckedPacket lossTimeThreshold now)

theorem detectLostPacketsLoop_eq
    (hne : ∀ y ∈ sentPackets, y.1.asU64 ≠ largestAckedPacket.asU64) :
    detectLostPacketsLoop largestAckedPacket lossTimeThreshold now d sentPackets =
      (d.calculator.onLostPackets
          (lostPrefix largestAckedPacket lossTimeThreshold now sentPackets)).map fun calculator =>
        (d.recordLostPackets (lostPrefix largestAckedPacket lossTimeThreshold now sentPackets)
            calculator).stopAt largestAckedPacket lossTimeThreshold
          (sentPackets.dropWhile (declaresLost largestAckedPacket lossTimeThreshold now)).head? := by
  conv_lhs =>
    rw [← @List.takeWhile_append_dropWhile _ (declaresLost largestAckedPacket lossTimeThreshold now)
      sentPackets]
  rw [detectLostPacketsLoop_append _ fun x hx => List.mem_takeWhile_imp hx]
  have hstop := fun d => detectLostPacketsLoop_stop (d := d)
    (fun y hy => hne y ((List.dropWhile_sublist _).subset hy)) fun y hy => by
      have := List.head?_dropWhile_not (declaresLost largestAckedPacket lossTimeThreshold now)
        sentPackets
      rw [hy] at this
      exact this
  simp only [hstop]
  rw [Option.map_eq_bind]
  rfl

end Walk

section Removal

variable {sentPackets : List (PacketNumber × SentPacketInfo)} {x y z : PacketNumber × SentPacketInfo}

theorem InSendOrder.lt {sentPackets : List (PacketNumber × SentPacketInfo)}
    (h : InSendOrder sentPackets) : sentPackets.Pairwise fun x y => x.1.asU64 < y.1.asU64 :=
  h.imp fun hxy => hxy.1

theorem le_of_head?_eq (hsorted : sentPackets.Pairwise fun x y => x.1.asU64 < y.1.asU64)
    (hhead : sentPackets.head? = some x) (hz : z ∈ sentPackets) : x.1.asU64 ≤ z.1.asU64 := by
  obtain ⟨t, rfl⟩ := List.head?_eq_some_iff.mp hhead
  rcases List.mem_cons.mp hz with rfl | hz
  · exact le_rfl
  · exact (List.rel_of_pairwise_cons hsorted hz).le

theorem le_of_getLast?_eq (hsorted : sentPackets.Pairwise fun x y => x.1.asU64 < y.1.asU64)
    (hlast : sentPackets.getLast? = some y) (hz : z ∈ sentPackets) : z.1.asU64 ≤ y.1.asU64 := by
  obtain ⟨ys, rfl⟩ := List.getLast?_eq_some_iff.mp hlast
  rcases List.mem_append.mp hz with hz | hz
  · exact ((List.pairwise_append.mp hsorted).2.2 z hz y (List.mem_singleton_self y)).le
  · rw [List.mem_singleton.mp hz]

theorem removeRange_append {pre rest : List (PacketNumber × SentPacketInfo)}
    (hsorted : (pre ++ rest).Pairwise fun x y => x.1.asU64 < y.1.asU64)
    (hhead : pre.head? = some x) (hlast : pre.getLast? = some y) :
    removeRange (pre ++ rest) x.1 y.1 = (pre, rest) := by
  have hpre := (List.pairwise_append.mp hsorted).1
  have hrest : ∀ z ∈ rest, y.1.asU64 < z.1.asU64 :=
    fun z hz => (List.pairwise_append.mp hsorted).2.2 y (List.mem_of_getLast? hlast) z hz
  have hin : ∀ z ∈ pre, x.1.asU64 ≤ z.1.asU64 ∧ z.1.asU64 ≤ y.1.asU64 :=
    fun z hz => ⟨le_of_head?_eq hpre hhead hz, le_of_getLast?_eq hpre hlast hz⟩
  rw [removeRange, List.partition_eq_filter_filter, List.filter_append, List.filter_append]
  congr 1
  · rw [List.filter_eq_self.mpr (fun z hz => by simpa using hin z hz),
      List.filter_eq_nil_iff.mpr (fun z hz => by have := hrest z hz; simp; omega), List.append_nil]
  · rw [List.filter_eq_nil_iff.mpr (fun z hz => by simpa using hin z hz),
      List.filter_eq_self.mpr (fun z hz => by have := hrest z hz; simp; omega), List.nil_append]

end Removal

theorem detectAndRemoveLostPackets_of_walk (self : LossState) (largestAckedPacket : PacketNumber)
    (currentPathId : Nat) (rttEstimator : Nat → RttEstimator) (now : Timestamp)
    {pre rest : List (PacketNumber × SentPacketInfo)} {d : Detection}
    (hsent : self.sentPackets = pre ++ rest)
    (hsorted : (pre ++ rest).Pairwise fun x y => x.1.asU64 < y.1.asU64)
    (hwalk : detectLostPacketsLoop largestAckedPacket
        (fun pathId => (rttEstimator pathId).lossTimeThreshold) now
        ⟨Calculator.new (rttEstimator currentPathId).firstRttSample currentPathId, none, none, [],
          self.lossTimer.cancel, self.ptoTimer⟩ self.sentPackets = some d)
    (hsmallest : d.smallestLostPacket = pre.head?.map Prod.fst)
    (hlargest : d.largestLostPacket = pre.getLast?.map Prod.fst)
    (hreported : d.onPacketLoss = pre.map Prod.fst) :
    detectAndRemoveLostPackets self largestAckedPacket currentPathId rttEstimator now =
      some (⟨rest, d.lossTimer, d.ptoTimer⟩, pre.map Prod.fst,
        removeLostPackets currentPathId d.calculator.persistentCongestionDuration rttEstimator none
          pre) := by
  unfold detectAndRemoveLostPackets
  dsimp only
  rw [hwalk, Option.map_some, hsmallest, hlargest, hreported]
  cases hhead : pre.head? with
  | none =>
    -- nothing was lost: `remove_lost_packets` is not called
    rw [List.head?_eq_none_iff.mp hhead] at hsent ⊢
    simp [hsent, removeLostPackets]
  | some x =>
    obtain ⟨y, hlast⟩ : ∃ y, pre.getLast? = some y := by
      cases hl : pre.getLast? with
      | none => simp_all
      | some y => exact ⟨y, rfl⟩
    simp only [hlast, Option.map_some, hsent, removeRange_append hsorted hhead hlast]

theorem stopAt_fields (d : Detection) (largestAckedPacket : PacketNumber)
    (lossTimeThreshold : Nat → Duration) (next : Option (PacketNumber × SentPacketInfo)) :
    (d.stopAt largestAckedPacket lossTimeThreshold next).calculator = d.calculator ∧
      (d.stopAt largestAckedPacket lossTimeThreshold next).smallestLostPacket =
        d.smallestLostPacket ∧
      (d.stopAt largestAckedPacket lossTimeThreshold next).largestLostPacket =
        d.largestLostPacket ∧
      (d.stopAt largestAckedPacket lossTimeThreshold next).onPacketLoss = d.onPacketLoss := by
  cases next with
  | none => exact ⟨rfl, rfl, rfl, rfl⟩
  | some y =>
    by_cases h : y.1.asU64 < largestAckedPacket.asU64 <;> simp [Detection.stopAt, h]

/-- When a packet `q` older than the largest acknowledged one is not lost yet, and every packet
before it is, `detect_and_remove_lost_packets` removes and reports those before it, arms the loss
timer at `q`'s loss time, cancels the PTO timer, and keeps `q` and every packet after it. -/
theorem detectAndRemoveLostPackets_of_not_lost (self : LossState)
    (largestAckedPacket : PacketNumber) (currentPathId : Nat) (rttEstimator : Nat → RttEstimator)
    (now : Timestamp) {pre post : List (PacketNumber × SentPacketInfo)}
    {q : PacketNumber × SentPacketInfo} (hsent : self.sentPackets = pre ++ q :: post)
    (hsorted : InSendOrder self.sentPackets)
    (hpre : ∀ x ∈ pre, declaresLost largestAckedPacket
      (fun pathId => (rttEstimator pathId).lossTimeThreshold) now x = true)
    (hq : q.1.asU64 < largestAckedPacket.asU64)
    (hnot : declaresLost largestAckedPacket
      (fun pathId => (rttEstimator pathId).lossTimeThreshold) now q = false) :
    ∃ calls rttEstimator', detectAndRemoveLostPackets self largestAckedPacket currentPathId
        rttEstimator now =
      some (⟨q :: post,
        self.lossTimer.cancel.set (lostTime (fun pathId => (rttEstimator pathId).lossTimeThreshold) q),
        self.ptoTimer.cancel⟩, pre.map Prod.fst, calls, rttEstimator') := by
  rw [hsent] at hsorted
  obtain ⟨calculator, hrun, -⟩ := tracks_onLostPackets (rttEstimator currentPathId).firstRttSample
    currentPathId (List.pairwise_append.mp hsorted).1
  have hwalk := detectLostPacketsLoop_append
    (d := ⟨Calculator.new (rttEstimator currentPathId).firstRttSample currentPathId, none, none, [],
      self.lossTimer.cancel, self.ptoTimer⟩) (q :: post) hpre
  rw [hrun, Option.bind_some, detectLostPacketsLoop_of_not_lost hq hnot, ← hsent] at hwalk
  exact ⟨_, _, detectAndRemoveLostPackets_of_walk self largestAckedPacket currentPathId
    rttEstimator now hsent (InSendOrder.lt hsorted) hwalk rfl Option.or_none rfl⟩

private def sentOn (pathId : Nat) (timeSent : Timestamp) : SentPacketInfo :=
  ⟨1200, timeSent, .eliciting, pathId, .normal⟩

private def twoPaths (pathId : Nat) : RttEstimator :=
  if pathId = 0 then (RttEstimator.new 100000000).get rfl else (RttEstimator.new 8000000).get rfl

theorem detectAndRemoveLostPackets_of_not_lost_two_paths :
    declaresLost (pn 13) (fun pathId => (twoPaths pathId).lossTimeThreshold) 20000
        (pn 12, sentOn 1 2000) = true ∧
      lostTime (fun pathId => (twoPaths pathId).lossTimeThreshold) (pn 12, sentOn 1 2000) <
        lostTime (fun pathId => (twoPaths pathId).lossTimeThreshold) (pn 11, sentOn 0 1000) ∧
      ∃ calls rttEstimator', detectAndRemoveLostPackets
          ⟨[(pn 11, sentOn 0 1000), (pn 12, sentOn 1 2000)], {}, {}⟩ (pn 13) 0 twoPaths 20000 =
        some (⟨[(pn 11, sentOn 0 1000), (pn 12, sentOn 1 2000)],
          Timer.set {} (lostTime (fun pathId => (twoPaths pathId).lossTimeThreshold)
            (pn 11, sentOn 0 1000)), Timer.cancel {}⟩, [], calls, rttEstimator') :=
  ⟨by decide, by decide,
    detectAndRemoveLostPackets_of_not_lost ⟨[(pn 11, sentOn 0 1000), (pn 12, sentOn 1 2000)], {}, {}⟩
      (pn 13) 0 twoPaths 20000
      (show [(pn 11, sentOn 0 1000), (pn 12, sentOn 1 2000)] =
        [] ++ (pn 11, sentOn 0 1000) :: [(pn 12, sentOn 1 2000)] from rfl)
      (by decide) (fun _ h => by cases h) (by decide) (by decide)⟩

/-! ## One loss time threshold -/

theorem filter_eq_takeWhile {α : Type*} {p : α → Bool} {l : List α}
    (h : l.Pairwise fun a b => p b = true → p a = true) : l.filter p = l.takeWhile p := by
  induction l with
  | nil => rfl
  | cons a l ih =>
    obtain ⟨ha, hl⟩ := List.pairwise_cons.mp h
    cases hpa : p a with
    | true => rw [List.filter_cons, List.takeWhile_cons, if_pos hpa, if_pos hpa, ih hl]
    | false =>
      rw [List.filter_cons, List.takeWhile_cons, if_neg (by simp [hpa]), if_neg (by simp [hpa])]
      exact List.filter_eq_nil_iff.mpr fun b hb hpb => by rw [ha b hb hpb] at hpa; cases hpa

theorem filter_not_eq_dropWhile {α : Type*} {p : α → Bool} {l : List α}
    (h : l.Pairwise fun a b => p b = true → p a = true) :
    l.filter (fun a => !p a) = l.dropWhile p := by
  induction l with
  | nil => rfl
  | cons a l ih =>
    obtain ⟨ha, hl⟩ := List.pairwise_cons.mp h
    cases hpa : p a with
    | true =>
      rw [List.filter_cons, List.dropWhile_cons, if_neg (by simp [hpa]), if_pos hpa, ih hl]
    | false =>
      rw [List.filter_cons, List.dropWhile_cons, if_pos (by simp [hpa]), if_neg (by simp [hpa])]
      refine congrArg (a :: ·) (List.filter_eq_self.mpr fun b hb => ?_)
      cases hpb : p b with
      | false => rfl
      | true =>
        rw [ha b hb hpb] at hpa
        cases hpa

section SameThreshold

variable {largestAckedPacket : PacketNumber} {lossTimeThreshold : Nat → Duration}
  {now : Timestamp} {sentPackets : List (PacketNumber × SentPacketInfo)}
  {x y : PacketNumber × SentPacketInfo}

theorem lt_of_declaresLost (h : declaresLost largestAckedPacket lossTimeThreshold now y = true) :
    y.1.asU64 < largestAckedPacket.asU64 := by
  simp only [declaresLost, Bool.and_eq_true, decide_eq_true_eq] at h
  exact h.1

theorem lostTime_of_not_declaresLost (hlt : y.1.asU64 < largestAckedPacket.asU64)
    (h : declaresLost largestAckedPacket lossTimeThreshold now y = false) :
    now + kGranularity ≤ lostTime lossTimeThreshold y := by
  simp only [declaresLost, hlt, decide_true, Bool.true_and, Bool.or_eq_false_iff,
    Timestamp.hasElapsed, decide_eq_false_iff_not] at h
  exact Nat.not_lt.mp h.1

theorem declaresLost_of_before (hthr : lossTimeThreshold x.2.pathId = lossTimeThreshold y.2.pathId)
    (hxy : x.1.asU64 < y.1.asU64 ∧ x.2.timeSent ≤ y.2.timeSent)
    (hy : declaresLost largestAckedPacket lossTimeThreshold now y = true) :
    declaresLost largestAckedPacket lossTimeThreshold now x = true := by
  simp only [declaresLost, Bool.and_eq_true, decide_eq_true_eq, Bool.or_eq_true] at hy ⊢
  refine ⟨by omega, ?_⟩
  rcases hy.2 with helapsed | hdistance
  · left
    rw [hthr]
    exact Timestamp.hasElapsed_of_le (Timestamp.addDuration_le_addDuration hxy.2 _) helapsed
  · right
    omega

theorem stopAt_of_same_threshold (d : Detection) (hsorted : InSendOrder sentPackets)
    (hne : ∀ y ∈ sentPackets, y.1.asU64 ≠ largestAckedPacket.asU64)
    (hsame : ∀ x ∈ sentPackets, ∀ y ∈ sentPackets, x.1.asU64 < largestAckedPacket.asU64 →
      y.1.asU64 < largestAckedPacket.asU64 → lossTimeThreshold x.2.pathId = lossTimeThreshold y.2.pathId) :
    (∀ q ∈ sentPackets, q.1.asU64 < largestAckedPacket.asU64 →
        declaresLost largestAckedPacket lossTimeThreshold now q = true) ∧
      (d.stopAt largestAckedPacket lossTimeThreshold
        (sentPackets.dropWhile (declaresLost largestAckedPacket lossTimeThreshold now)).head?
          ).lossTimer = d.lossTimer ∧
      (d.stopAt largestAckedPacket lossTimeThreshold
        (sentPackets.dropWhile (declaresLost largestAckedPacket lossTimeThreshold now)).head?
          ).ptoTimer = d.ptoTimer ∨
    ∃ q ∈ sentPackets, q.1.asU64 < largestAckedPacket.asU64 ∧
      declaresLost largestAckedPacket lossTimeThreshold now q = false ∧
      (d.stopAt largestAckedPacket lossTimeThreshold
        (sentPackets.dropWhile (declaresLost largestAckedPacket lossTimeThreshold now)).head?
          ).lossTimer = d.lossTimer.set (lostTime lossTimeThreshold q) ∧
      now + kGranularity ≤ lostTime lossTimeThreshold q ∧
      (∀ q' ∈ sentPackets, q'.1.asU64 < largestAckedPacket.asU64 →
        declaresLost largestAckedPacket lossTimeThreshold now q' = false →
          lostTime lossTimeThreshold q ≤ lostTime lossTimeThreshold q') ∧
      (d.stopAt largestAckedPacket lossTimeThreshold
        (sentPackets.dropWhile (declaresLost largestAckedPacket lossTimeThreshold now)).head?
          ).ptoTimer = d.ptoTimer.cancel := by
  have hmem : ∀ q ∈ sentPackets, declaresLost largestAckedPacket lossTimeThreshold now q = false →
      q ∈ sentPackets.dropWhile (declaresLost largestAckedPacket lossTimeThreshold now) := by
    intro q hq hq'
    rw [← @List.takeWhile_append_dropWhile _
      (declaresLost largestAckedPacket lossTimeThreshold now) sentPackets] at hq
    rcases List.mem_append.mp hq with hq | hq
    · rw [List.mem_takeWhile_imp hq] at hq'
      cases hq'
    · exact hq
  have hdrop : InSendOrder (sentPackets.dropWhile
      (declaresLost largestAckedPacket lossTimeThreshold now)) :=
    List.Pairwise.sublist (List.dropWhile_sublist _) hsorted
  cases hnext : (sentPackets.dropWhile
      (declaresLost largestAckedPacket lossTimeThreshold now)).head? with
  | none =>
    refine .inl ⟨fun q hq _ => ?_, rfl, rfl⟩
    cases hq' : declaresLost largestAckedPacket lossTimeThreshold now q with
    | true => rfl
    | false =>
      have := hmem q hq hq'
      rw [List.head?_eq_none_iff.mp hnext] at this
      cases this
  | some y =>
    have hyd := List.mem_of_mem_head? hnext
    have hy : y ∈ sentPackets := (List.dropWhile_sublist _).subset hyd
    have hy' : declaresLost largestAckedPacket lossTimeThreshold now y = false := by
      have := List.head?_dropWhile_not (declaresLost largestAckedPacket lossTimeThreshold now)
        sentPackets
      rw [hnext] at this
      exact this
    -- `y`, where the walk stops, comes before every other packet it does not find lost
    have hafter : ∀ q ∈ sentPackets, declaresLost largestAckedPacket lossTimeThreshold now q = false →
        y.1.asU64 ≤ q.1.asU64 ∧ y.2.timeSent ≤ q.2.timeSent := by
      intro q hq hq'
      have hle := le_of_head?_eq (InSendOrder.lt hdrop) hnext (hmem q hq hq')
      exact ⟨hle, hdrop.timeSent_le hyd (hmem q hq hq') hle⟩
    by_cases hlt : y.1.asU64 < largestAckedPacket.asU64
    · refine .inr ⟨y, hy, hlt, hy', by simp [Detection.stopAt, hlt],
        lostTime_of_not_declaresLost hlt hy', fun q' hq' hlt' hq'' => ?_,
        by simp [Detection.stopAt, hlt]⟩
      unfold lostTime
      rw [hsame y hy q' hq' hlt hlt']
      exact Timestamp.addDuration_le_addDuration (hafter q' hq' hq'').2 _
    · refine .inl ⟨fun q hq hltq => ?_, by simp [Detection.stopAt, hlt],
        by simp [Detection.stopAt, hlt]⟩
      cases hq' : declaresLost largestAckedPacket lossTimeThreshold now q with
      | true => rfl
      | false =>
        have := (hafter q hq hq').1
        have := hne y hy
        omega

end SameThreshold

/-- When the packets older than the largest acknowledged one share their loss time threshold
(all sent on one path, say), `detect_and_remove_lost_packets` removes and reports exactly the
packets `loss::detect` finds lost, hands them to `remove_lost_packets` with the duration of the
calculator that read them, keeps every other packet, and arms the loss timer at the earliest loss
time of those older than the largest acknowledged one, if any, cancelling the PTO timer. -/
theorem detectAndRemoveLostPackets_of_same_threshold (self : LossState)
    (largestAckedPacket : PacketNumber) (currentPathId : Nat) (rttEstimator : Nat → RttEstimator)
    (now : Timestamp) (hsorted : InSendOrder self.sentPackets)
    (hne : ∀ y ∈ self.sentPackets, y.1.asU64 ≠ largestAckedPacket.asU64)
    (hsame : ∀ x ∈ self.sentPackets, ∀ y ∈ self.sentPackets,
      x.1.asU64 < largestAckedPacket.asU64 → y.1.asU64 < largestAckedPacket.asU64 →
        (rttEstimator x.2.pathId).lossTimeThreshold = (rttEstimator y.2.pathId).lossTimeThreshold) :
    ∃ calculator lossTimer ptoTimer,
      (Calculator.new (rttEstimator currentPathId).firstRttSample currentPathId).onLostPackets
          (self.sentPackets.filter (declaresLost largestAckedPacket
            (fun pathId => (rttEstimator pathId).lossTimeThreshold) now)) = some calculator ∧
      detectAndRemoveLostPackets self largestAckedPacket currentPathId rttEstimator now =
        some (⟨self.sentPackets.filter fun x => !declaresLost largestAckedPacket
            (fun pathId => (rttEstimator pathId).lossTimeThreshold) now x, lossTimer, ptoTimer⟩,
          (self.sentPackets.filter (declaresLost largestAckedPacket
            (fun pathId => (rttEstimator pathId).lossTimeThreshold) now)).map Prod.fst,
          removeLostPackets currentPathId calculator.persistentCongestionDuration rttEstimator none
            (self.sentPackets.filter (declaresLost largestAckedPacket
              (fun pathId => (rttEstimator pathId).lossTimeThreshold) now))) ∧
      ((∀ q ∈ self.sentPackets, q.1.asU64 < largestAckedPacket.asU64 →
          declaresLost largestAckedPacket
            (fun pathId => (rttEstimator pathId).lossTimeThreshold) now q = true) ∧
        lossTimer = self.lossTimer.cancel ∧ ptoTimer = self.ptoTimer ∨
      ∃ q ∈ self.sentPackets, q.1.asU64 < largestAckedPacket.asU64 ∧
        declaresLost largestAckedPacket
          (fun pathId => (rttEstimator pathId).lossTimeThreshold) now q = false ∧
        lossTimer = self.lossTimer.cancel.set
          (lostTime (fun pathId => (rttEstimator pathId).lossTimeThreshold) q) ∧
        now + kGranularity ≤ lostTime (fun pathId => (rttEstimator pathId).lossTimeThreshold) q ∧
        (∀ q' ∈ self.sentPackets, q'.1.asU64 < largestAckedPacket.asU64 →
          declaresLost largestAckedPacket
            (fun pathId => (rttEstimator pathId).lossTimeThreshold) now q' = false →
          lostTime (fun pathId => (rttEstimator pathId).lossTimeThreshold) q ≤
            lostTime (fun pathId => (rttEstimator pathId).lossTimeThreshold) q') ∧
        ptoTimer = self.ptoTimer.cancel) := by
  -- with one threshold, being lost passes from a packet to every packet before it
  have hanti : self.sentPackets.Pairwise fun a b =>
      declaresLost largestAckedPacket (fun pathId => (rttEstimator pathId).lossTimeThreshold) now b =
        true →
      declaresLost largestAckedPacket (fun pathId => (rttEstimator pathId).lossTimeThreshold) now a =
        true :=
    List.Pairwise.imp_of_mem (fun ha hb hab hlost => declaresLost_of_before
      (hsame _ ha _ hb (lt_trans hab.1 (lt_of_declaresLost hlost)) (lt_of_declaresLost hlost))
      hab hlost) hsorted
  rw [filter_eq_takeWhile hanti, filter_not_eq_dropWhile hanti]
  obtain ⟨calculator, hrun, -⟩ := tracks_onLostPackets (rttEstimator currentPathId).firstRttSample
    currentPathId (List.Pairwise.sublist (List.takeWhile_sublist _) hsorted)
  have hwalk : detectLostPacketsLoop largestAckedPacket
      (fun pathId => (rttEstimator pathId).lossTimeThreshold) now
      ⟨Calculator.new (rttEstimator currentPathId).firstRttSample currentPathId, none, none, [],
        self.lossTimer.cancel, self.ptoTimer⟩ self.sentPackets = _ := detectLostPacketsLoop_eq hne
  rw [lostPrefix, hrun, Option.map_some] at hwalk
  have hsplit := (@List.takeWhile_append_dropWhile _ (declaresLost largestAckedPacket
    (fun pathId => (rttEstimator pathId).lossTimeThreshold) now) self.sentPackets).symm
  obtain ⟨hcalculator, hsmallest, hlargest, hreported⟩ := stopAt_fields _ _ _ _
  have hresult := detectAndRemoveLostPackets_of_walk self largestAckedPacket currentPathId
    rttEstimator now hsplit (by rw [← hsplit]; exact InSendOrder.lt hsorted) hwalk
    (by rw [hsmallest]; rfl) (by rw [hlargest]; exact Option.or_none) (by rw [hreported]; rfl)
  rw [hcalculator] at hresult
  exact ⟨calculator, _, _, hrun, hresult, stopAt_of_same_threshold _ hsorted hne hsame⟩

theorem detectAndRemoveLostPackets_of_same_threshold_one_path :
    ∃ r, detectAndRemoveLostPackets ⟨[(pn 11, sentOn 0 1000), (pn 12, sentOn 0 2000)], {}, {}⟩
      (pn 13) 0 twoPaths 20000 = some r := by
  obtain ⟨_, _, _, -, hres, -⟩ := detectAndRemoveLostPackets_of_same_threshold
    ⟨[(pn 11, sentOn 0 1000), (pn 12, sentOn 0 2000)], {}, {}⟩ (pn 13) 0 twoPaths 20000
    (by decide) (by decide) (by decide)
  exact ⟨_, hres⟩

end Manager

end S2nQuic.Recovery
