import S2nQuic.Packet.Number
import S2nQuic.Time

/-!
# The RTT estimator

`RttEstimator` (`s2n-quic-core/src/recovery/rtt_estimator.rs`) and its update on each RTT
sample, beside the update RFC 9002 section 5.3 prescribes (with errata 7539: the variance
sample is taken against the smoothed RTT before it moves). Durations are whole nanoseconds;
`weighted_average` divides before it multiplies, as the source does.

The two differ at one boundary. The RFC subtracts the acknowledgment delay when
`latest_rtt >= min_rtt + ack_delay`, and before the handshake is confirmed may ignore a sample
only when subtracting would take it below `min_rtt`. The source tests
`min_rtt + ack_delay < latest_rtt`, so at equality it keeps the delay in the sample once the
handshake is confirmed, and ignores the sample before: a sample with no acknowledgment delay
that sets a new `min_rtt` is dropped.
-/

namespace S2nQuic.Recovery
open Packet

/-- `DEFAULT_INITIAL_RTT`, 333 milliseconds. -/
def DEFAULT_INITIAL_RTT : Duration := 333000000

/-- `MIN_RTT`, one microsecond. -/
def MIN_RTT : Duration := 1000

structure RttEstimator where
  latestRtt : Duration
  minRtt : Duration
  smoothedRtt : Duration
  rttvar : Duration
  maxAckDelay : Duration
  firstRttSample : Option Timestamp
  deriving DecidableEq, Repr

/-- `weighted_average`: `a` weighs `weight - 1` parts in `weight`, each term divided first. -/
def weightedAverage (a b : Duration) (weight : Nat) : Duration :=
  a / weight * (weight - 1) + b / weight

namespace RttEstimator

/-- `new_with_max_ack_delay`; `none` is its `debug_assert!` that the initial RTT is at least
`MIN_RTT`. -/
def newWithMaxAckDelay (maxAckDelay initialRtt : Duration) : Option RttEstimator :=
  if initialRtt < MIN_RTT then none else
  let initialRtt := max initialRtt MIN_RTT
  some ⟨initialRtt, initialRtt, initialRtt, initialRtt / 2, maxAckDelay, none⟩

def new (initialRtt : Duration) : Option RttEstimator := newWithMaxAckDelay 0 initialRtt

/-- `RttEstimator::default`, `new(DEFAULT_INITIAL_RTT)`. -/
def default : RttEstimator := (new DEFAULT_INITIAL_RTT).get rfl

/-- `update_rtt`. -/
def updateRtt (self : RttEstimator) (ackDelay rttSample : Duration) (timestamp : Timestamp)
    (isHandshakeConfirmed : Bool) (space : PacketNumberSpace) : RttEstimator :=
  let self := { self with latestRtt := max rttSample MIN_RTT }
  if self.firstRttSample.isNone then
    { self with
      firstRttSample := some timestamp
      minRtt := self.latestRtt
      smoothedRtt := self.latestRtt
      rttvar := self.latestRtt / 2 }
  else
    let self := { self with minRtt := min self.minRtt self.latestRtt }
    let ackDelay := if space = .initial then 0 else ackDelay
    let ackDelay := if isHandshakeConfirmed then min ackDelay self.maxAckDelay else ackDelay
    -- `None` is the early `return` that ignores the sample
    let adjustedRtt : Option Duration :=
      if self.minRtt + ackDelay < self.latestRtt then some (self.latestRtt - ackDelay)
      else if !isHandshakeConfirmed then none
      else some self.latestRtt
    match adjustedRtt with
    | none => self
    | some adjustedRtt =>
      let rttvarSample := Nat.dist self.smoothedRtt adjustedRtt
      { self with
        rttvar := weightedAverage self.rttvar rttvarSample 4
        smoothedRtt := weightedAverage self.smoothedRtt adjustedRtt 8 }

/-! ## The update of RFC 9002 -/

/-- The acknowledgment delay the RFC lets a sample carry: none for Initial packets, and at most
the peer's `max_ack_delay` once the handshake is confirmed. -/
def effectiveAckDelay (self : RttEstimator) (ackDelay : Duration) (isHandshakeConfirmed : Bool)
    (space : PacketNumberSpace) : Duration :=
  let ackDelay := if space = .initial then 0 else ackDelay
  if isHandshakeConfirmed then min ackDelay self.maxAckDelay else ackDelay

/-- The RTT update of RFC 9002 section 5.3 with errata 7539: the acknowledgment delay is
subtracted when `latest_rtt >= min_rtt + ack_delay`, and before the handshake is confirmed a
sample is ignored only when subtracting would take it below `min_rtt`. -/
def rfc9002UpdateRtt (self : RttEstimator) (ackDelay rttSample : Duration)
    (timestamp : Timestamp) (isHandshakeConfirmed : Bool) (space : PacketNumberSpace) :
    RttEstimator :=
  let latestRtt := max rttSample MIN_RTT
  if self.firstRttSample.isNone then
    { self with
      latestRtt, firstRttSample := some timestamp, minRtt := latestRtt, smoothedRtt := latestRtt,
      rttvar := latestRtt / 2 }
  else
    let minRtt := min self.minRtt latestRtt
    let ackDelay := self.effectiveAckDelay ackDelay isHandshakeConfirmed space
    if !isHandshakeConfirmed ∧ latestRtt < minRtt + ackDelay then
      { self with latestRtt, minRtt }
    else
      let adjustedRtt := if minRtt + ackDelay ≤ latestRtt then latestRtt - ackDelay else latestRtt
      { self with
        latestRtt, minRtt
        rttvar := weightedAverage self.rttvar (Nat.dist self.smoothedRtt adjustedRtt) 4
        smoothedRtt := weightedAverage self.smoothedRtt adjustedRtt 8 }

/-! ## Where the two agree -/

theorem updateRtt_of_prior (self : RttEstimator) (ackDelay rttSample : Duration)
    (timestamp : Timestamp) (isHandshakeConfirmed : Bool) (space : PacketNumberSpace)
    {first : Timestamp} (hprior : self.firstRttSample = some first) :
    self.updateRtt ackDelay rttSample timestamp isHandshakeConfirmed space =
      let latestRtt := max rttSample MIN_RTT
      let minRtt := min self.minRtt latestRtt
      let ackDelay := self.effectiveAckDelay ackDelay isHandshakeConfirmed space
      let sampled (adjustedRtt : Duration) : RttEstimator :=
        { self with
          latestRtt, minRtt
          rttvar := weightedAverage self.rttvar (Nat.dist self.smoothedRtt adjustedRtt) 4
          smoothedRtt := weightedAverage self.smoothedRtt adjustedRtt 8 }
      if minRtt + ackDelay < latestRtt then sampled (latestRtt - ackDelay)
      else if isHandshakeConfirmed then sampled latestRtt
      else { self with latestRtt, minRtt } := by
  simp only [updateRtt, hprior, effectiveAckDelay, Option.isNone_some]
  split_ifs <;> simp_all

/-- Away from `latest_rtt = min_rtt + ack_delay`, `update_rtt` is the RFC's update. -/
theorem updateRtt_eq_rfc9002UpdateRtt (self : RttEstimator) (ackDelay rttSample : Duration)
    (timestamp : Timestamp) (isHandshakeConfirmed : Bool) (space : PacketNumberSpace)
    (hne : max rttSample MIN_RTT ≠ min self.minRtt (max rttSample MIN_RTT) +
      self.effectiveAckDelay ackDelay isHandshakeConfirmed space) :
    self.updateRtt ackDelay rttSample timestamp isHandshakeConfirmed space =
      self.rfc9002UpdateRtt ackDelay rttSample timestamp isHandshakeConfirmed space := by
  cases hfirst : self.firstRttSample with
  | none => simp [updateRtt, rfc9002UpdateRtt, hfirst]
  | some first =>
    rw [updateRtt_of_prior self ackDelay rttSample timestamp isHandshakeConfirmed space hfirst]
    simp only [rfc9002UpdateRtt, hfirst, Option.isNone_some, Bool.false_eq_true, if_false]
    generalize max rttSample MIN_RTT = latestRtt at hne ⊢
    generalize self.effectiveAckDelay ackDelay isHandshakeConfirmed space = d at hne ⊢
    rcases Nat.lt_or_gt_of_ne hne with hlt | hgt
    · -- the delay would take the sample below `min_rtt`: neither subtracts it
      cases isHandshakeConfirmed <;> simp [lt_asymm hlt, not_le.mpr hlt, hlt]
    · -- both subtract it
      simp [hgt, hgt.le, lt_asymm hgt]

theorem updateRtt_eq_rfc9002UpdateRtt_confirmed :
    max 600000000 MIN_RTT ≠ min 500000000 (max 600000000 MIN_RTT) +
        (⟨333000000, 500000000, 700000000, 100000000, 25000000, some 1⟩ : RttEstimator).effectiveAckDelay
          10000000 true .applicationData ∧
      (⟨333000000, 500000000, 700000000, 100000000, 25000000, some 1⟩ : RttEstimator).updateRtt
          10000000 600000000 2 true .applicationData =
        (⟨333000000, 500000000, 700000000, 100000000, 25000000, some 1⟩ :
          RttEstimator).rfc9002UpdateRtt 10000000 600000000 2 true .applicationData :=
  have hne : max 600000000 MIN_RTT ≠ min 500000000 (max 600000000 MIN_RTT) +
      (⟨333000000, 500000000, 700000000, 100000000, 25000000, some 1⟩ : RttEstimator).effectiveAckDelay
        10000000 true .applicationData := by decide
  ⟨hne, updateRtt_eq_rfc9002UpdateRtt _ 10000000 600000000 2 true .applicationData hne⟩

/-! ## Where they part -/

/-- At `latest_rtt = min_rtt + ack_delay` before the handshake is confirmed, `update_rtt`
drops the sample, where the RFC takes it with the delay subtracted, which leaves it at
`min_rtt`. A sample with no acknowledgment delay (an Initial packet's) that sets a new
`min_rtt` is such a sample. -/
theorem updateRtt_ignores_sample_at_min_rtt (self : RttEstimator) (ackDelay rttSample : Duration)
    (timestamp : Timestamp) (space : PacketNumberSpace) {first : Timestamp}
    (hprior : self.firstRttSample = some first)
    (hedge : max rttSample MIN_RTT =
      min self.minRtt (max rttSample MIN_RTT) + self.effectiveAckDelay ackDelay false space) :
    (self.updateRtt ackDelay rttSample timestamp false space).smoothedRtt = self.smoothedRtt ∧
      (self.updateRtt ackDelay rttSample timestamp false space).rttvar = self.rttvar ∧
      (self.rfc9002UpdateRtt ackDelay rttSample timestamp false space).smoothedRtt =
        weightedAverage self.smoothedRtt (min self.minRtt (max rttSample MIN_RTT)) 8 := by
  rw [updateRtt_of_prior self ackDelay rttSample timestamp false space hprior]
  simp only [rfc9002UpdateRtt, hprior, Option.isNone_some, Bool.false_eq_true, if_false]
  generalize max rttSample MIN_RTT = latestRtt at hedge ⊢
  generalize self.effectiveAckDelay ackDelay false space = d at hedge ⊢
  -- the source's strict test fails at the edge; the RFC's test holds there
  have hnlt : ¬ min self.minRtt latestRtt + d < latestRtt := by
    rw [← hedge]
    exact lt_irrefl _
  have hnlt' : ¬ latestRtt < min self.minRtt latestRtt + d := by
    rw [← hedge]
    exact lt_irrefl _
  have hsub : latestRtt - d = min self.minRtt latestRtt := Nat.sub_eq_of_eq_add hedge
  simp [hnlt, hnlt', hedge.symm.le, hsub]

theorem updateRtt_ignores_sample_at_min_rtt_initial :
    (⟨333000000, 500000000, 700000000, 100000000, 25000000, some 1⟩ : RttEstimator).firstRttSample =
        some 1 ∧
      max 400000000 MIN_RTT = min 500000000 (max 400000000 MIN_RTT) +
        (⟨333000000, 500000000, 700000000, 100000000, 25000000, some 1⟩ : RttEstimator).effectiveAckDelay
          0 false .initial ∧
      (((⟨333000000, 500000000, 700000000, 100000000, 25000000, some 1⟩ : RttEstimator).updateRtt
          0 400000000 2 false .initial).smoothedRtt = 700000000 ∧
        ((⟨333000000, 500000000, 700000000, 100000000, 25000000, some 1⟩ : RttEstimator).updateRtt
          0 400000000 2 false .initial).rttvar = 100000000 ∧
        ((⟨333000000, 500000000, 700000000, 100000000, 25000000, some 1⟩ :
          RttEstimator).rfc9002UpdateRtt 0 400000000 2 false .initial).smoothedRtt =
            weightedAverage 700000000 (min 500000000 (max 400000000 MIN_RTT)) 8) ∧
      weightedAverage 700000000 (min 500000000 (max 400000000 MIN_RTT)) 8 = 662500000 :=
  have hedge : max 400000000 MIN_RTT = min 500000000 (max 400000000 MIN_RTT) +
      (⟨333000000, 500000000, 700000000, 100000000, 25000000, some 1⟩ : RttEstimator).effectiveAckDelay
        0 false .initial := by decide
  ⟨rfl, hedge, updateRtt_ignores_sample_at_min_rtt
    ⟨333000000, 500000000, 700000000, 100000000, 25000000, some 1⟩ 0 400000000 2 .initial rfl hedge,
    by decide⟩

def K_PERSISTENT_CONGESTION_THRESHOLD : Nat := 3

/-- `rttvar_4x`: four times the variance, in whole microseconds. -/
def rttvar4x (self : RttEstimator) : Duration := 4 * (self.rttvar / 1000) * 1000

/-- `persistent_congestion_threshold`, computed in whole milliseconds. -/
def persistentCongestionThreshold (self : RttEstimator) : Duration :=
  (self.smoothedRtt / 1000000 + max (self.rttvar4x / 1000000) (kGranularity / 1000) +
      self.maxAckDelay / 1000000) * K_PERSISTENT_CONGESTION_THRESHOLD * 1000000

/-- `loss_time_threshold`: nine eighths of the larger of the smoothed and the latest RTT, and at
least `K_GRANULARITY`. -/
def lossTimeThreshold (self : RttEstimator) : Duration :=
  let timeThreshold := max self.smoothedRtt self.latestRtt
  let timeThreshold := timeThreshold + timeThreshold / 8
  max timeThreshold (kGranularity * 1000)

/-- `on_persistent_congestion`: the next sample starts the estimate over. -/
def onPersistentCongestion (self : RttEstimator) : RttEstimator :=
  { self with firstRttSample := none }

theorem persistentCongestionThreshold_onPersistentCongestion (self : RttEstimator) :
    self.onPersistentCongestion.persistentCongestionThreshold =
      self.persistentCongestionThreshold := rfl

end RttEstimator

end S2nQuic.Recovery
