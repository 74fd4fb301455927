import S2nQuic.Frame.Ack
import S2nQuic.Time

/-!
# ECN validation

`path::ecn::Controller` (`path/ecn.rs`). A path tests ECN by marking its first packets ECT(0);
after `TESTING_PACKET_THRESHOLD` of them it waits, `Unknown`, for an ACK frame whose ECN counts
pass the RFC 9000 Section 13.4.2.1 checks and then becomes `Capable`; any failed check, or a run
of lost marked packets, makes it `Failed` until a retest timer. A capable path marks a packet CE
when its CE-suppression timer has expired, to detect a peer that hides CE reports.

The publisher events are left out. The random generator is the `u16` it fills. The `u8`
counters are `Nat`s: the testing count stays below the threshold (`Inv`) and the saturating
black hole counter at most one above it. A `debug_assert!` and a `VarInt` subtraction below
zero panic, and the calls return `none` there.
-/

namespace S2nQuic

namespace Inet

inductive ExplicitCongestionNotification
  | notEct
  | ect1
  | ect0
  | ce
  deriving DecidableEq, Repr

def ExplicitCongestionNotification.usingEcn (self : ExplicitCongestionNotification) : Bool :=
  self != .notEct

end Inet

namespace Transmission

/-- `transmission::Mode`. -/
inductive Mode
  | lossRecoveryProbing
  | mtuProbing
  | pathValidationOnly
  | normal
  deriving DecidableEq, Repr

def Mode.isLossRecoveryProbing : Mode → Bool
  | .lossRecoveryProbing => true
  | _ => false

end Transmission

namespace Frame.EcnCounts
open Varint

def default : EcnCounts := ⟨⟨0, Nat.zero_le _⟩, ⟨0, Nat.zero_le _⟩, ⟨0, Nat.zero_le _⟩⟩

def asOption (self : EcnCounts) : Option EcnCounts :=
  if self = default then none else some self

def checkedSub (self rhs : EcnCounts) : Option EcnCounts := do
  let ect0Count ← self.ect0Count.checkedSub rhs.ect0Count
  let ect1Count ← self.ect1Count.checkedSub rhs.ect1Count
  let ceCount ← self.ceCount.checkedSub rhs.ceCount
  pure ⟨ect0Count, ect1Count, ceCount⟩

theorem checkedSub_eq_some {self rhs c : EcnCounts} :
    self.checkedSub rhs = some c ↔
      rhs.ect0Count.val ≤ self.ect0Count.val ∧ rhs.ect1Count.val ≤ self.ect1Count.val ∧
        rhs.ceCount.val ≤ self.ceCount.val ∧ c.ect0Count.val = self.ect0Count.val - rhs.ect0Count.val ∧
        c.ect1Count.val = self.ect1Count.val - rhs.ect1Count.val ∧
        c.ceCount.val = self.ceCount.val - rhs.ceCount.val := by
  obtain ⟨a0, a1, ac⟩ := self
  obtain ⟨b0, b1, bc⟩ := rhs
  obtain ⟨c0, c1, cc⟩ := c
  simp only [checkedSub, Option.bind_eq_bind, Option.bind_eq_some_iff, Option.pure_def,
    Option.some.injEq, VarInt.checkedSub_eq_some, mk.injEq]
  constructor
  · rintro ⟨x0, ⟨h0, hx0⟩, x1, ⟨h1, hx1⟩, xc, ⟨hc, hxc⟩, rfl, rfl, rfl⟩
    exact ⟨h0, h1, hc, hx0, hx1, hxc⟩
  · rintro ⟨h0, h1, hc, hx0, hx1, hxc⟩
    exact ⟨c0, ⟨h0, hx0⟩, c1, ⟨h1, hx1⟩, cc, ⟨hc, hxc⟩, rfl, rfl, rfl⟩

end Frame.EcnCounts

namespace Path.Ecn
open Varint Inet Transmission
open S2nQuic.Frame (EcnCounts)

def TESTING_PACKET_THRESHOLD : Nat := 10

/-- Sixty seconds, in nanoseconds. -/
def RETEST_COOL_OFF_DURATION : Duration := 60 * 1000000000

/-- `CE_SUPPRESSION_TESTING_RTT_MULTIPLIER`, the range `10..=100`. -/
def CE_SUPPRESSION_TESTING_RTT_MULTIPLIER_START : Nat := 10

def CE_SUPPRESSION_TESTING_RTT_MULTIPLIER_END : Nat := 100

inductive ValidationOutcome
  | congestionExperienced (count : VarInt)
  | failed
  | passed
  | skipped
  deriving DecidableEq

inductive State
  | testing (packetCount : Nat)
  | unknown
  | failed (retestTimer : Timer)
  | capable (ceSuppressionTimer : Timer)
  deriving DecidableEq, Repr

def State.isFailed : State → Bool
  | .failed _ => true
  | _ => false

structure Controller where
  state : State := .testing 0
  blackHoleCounter : Nat := 0
  lastAckedEcnPacketTimestamp : Option Timestamp := none
  deriving DecidableEq, Repr

namespace Controller

/-- `change_state`; `none` is its `debug_assert_ne!` on the two states. -/
def changeState (self : Controller) (state : State) : Option Controller :=
  if self.state = state then none else some { self with state }

def restart (self : Controller) : Option Controller := do
  let self ← if self.state ≠ .testing 0 then self.changeState (.testing 0) else pure self
  pure { self with blackHoleCounter := 0 }

/-- `next_ce_packet_duration` for the `u16` the generator filled. -/
def nextCePacketDuration (random : UInt16) (rtt : Duration) : Duration :=
  let maxVariance := CE_SUPPRESSION_TESTING_RTT_MULTIPLIER_END -
    CE_SUPPRESSION_TESTING_RTT_MULTIPLIER_START + 1
  (CE_SUPPRESSION_TESTING_RTT_MULTIPLIER_START + random.toNat % maxVariance) * rtt

def onTimeout (self : Controller) (now : Timestamp) (random : UInt16) (rtt : Duration) :
    Option Controller :=
  match self.state with
  | .failed retestTimer =>
    let (ready, retestTimer) := retestTimer.pollExpiration now
    let self := { self with state := .failed retestTimer }
    if ready then self.restart else some self
  | .capable ceSuppressionTimer =>
    if !ceSuppressionTimer.isArmed then
      let ceSuppressionTimer :=
        ceSuppressionTimer.set (now.addDuration (nextCePacketDuration random rtt))
      some { self with state := .capable ceSuppressionTimer }
    else some self
  | .testing _ | .unknown => some self

def ecn (self : Controller) (transmissionMode : Mode) (now : Timestamp) :
    ExplicitCongestionNotification × Controller :=
  if transmissionMode.isLossRecoveryProbing then (.notEct, self) else
  match self.state with
  | .testing _ => (.ect0, self)
  | .capable ceSuppressionTimer =>
    let (ready, ceSuppressionTimer) := ceSuppressionTimer.pollExpiration now
    let self := { self with state := .capable ceSuppressionTimer }
    if ready then (.ce, self) else (.ect0, self)
  | .failed _ | .unknown => (.notEct, self)

def isCapable (self : Controller) : Bool :=
  match self.state with
  | .capable _ => true
  | _ => false

def ceRemarking (incrementalEcnCounts newlyAckedEcnCounts : EcnCounts) : Bool :=
  let ect0Increase := incrementalEcnCounts.ect0Count.saturatingAdd incrementalEcnCounts.ceCount
  ect0Increase.val < newlyAckedEcnCounts.ect0Count.val

def remarkedToEct0OrEct1 (incrementalEcnCounts sentPacketEcnCounts : EcnCounts) : Bool :=
  incrementalEcnCounts.ect0Count.val > sentPacketEcnCounts.ect0Count.val ||
    incrementalEcnCounts.ect1Count.val > sentPacketEcnCounts.ect1Count.val

def ceSuppression (incrementalEcnCounts newlyAckedEcnCounts : EcnCounts) : Bool :=
  incrementalEcnCounts.ceCount.val < newlyAckedEcnCounts.ceCount.val

def fail (self : Controller) (now : Timestamp) : Option Controller := do
  let retestTimer := ({} : Timer).set (now.addDuration RETEST_COOL_OFF_DURATION)
  let self ← self.changeState (.failed retestTimer)
  pure { self with blackHoleCounter := 0 }

def validate (self : Controller)
    (newlyAckedEcnCounts sentPacketEcnCounts baselineEcnCounts : EcnCounts)
    (ackFrameEcnCounts : Option EcnCounts) (now : Timestamp) (rtt : Duration) :
    Option (Controller × ValidationOutcome) :=
  if self.state.isFailed then some (self, .skipped) else
  -- the two early returns of the source's `if ack_frame_ecn_counts.is_none()` block
  if ackFrameEcnCounts.isNone ∧ newlyAckedEcnCounts.asOption.isSome then
    (self.fail now).map (·, .failed) else
  if ackFrameEcnCounts.isNone ∧ baselineEcnCounts = EcnCounts.default then
    some (self, .skipped) else
  match (ackFrameEcnCounts.getD EcnCounts.default).checkedSub baselineEcnCounts with
  | none => (self.fail now).map (·, .failed)
  | some incrementalEcnCounts =>
    if ceRemarking incrementalEcnCounts newlyAckedEcnCounts ||
        remarkedToEct0OrEct1 incrementalEcnCounts sentPacketEcnCounts ||
        ceSuppression incrementalEcnCounts newlyAckedEcnCounts then
      (self.fail now).map (·, .failed)
    else do
      let congestionExperiencedCount ←
        incrementalEcnCounts.ceCount.checkedSub newlyAckedEcnCounts.ceCount
      let self ←
        if self.state = .unknown ∧ 0 < newlyAckedEcnCounts.ect0Count.val then
          self.changeState (.capable (({} : Timer).set
            (now.addDuration (CE_SUPPRESSION_TESTING_RTT_MULTIPLIER_START * rtt))))
        else pure self
      if self.isCapable ∧ 0 < congestionExperiencedCount.val then
        pure (self, .congestionExperienced congestionExperiencedCount)
      else pure (self, .passed)

/-- `on_packet_sent`; `none` is its `debug_assert!` that ECT(1) is not used. -/
def onPacketSent (self : Controller) (ecn : ExplicitCongestionNotification) :
    Option Controller :=
  if ecn = .ect1 then none else
  match ecn.usingEcn, self.state with
  | true, .testing packetCount =>
    let self := { self with state := .testing (packetCount + 1) }
    if packetCount + 1 ≥ TESTING_PACKET_THRESHOLD then self.changeState .unknown else some self
  | _, _ => some self

def ecnPacketSentAfterLastAckedEcnPacket (self : Controller) (timeSent : Timestamp)
    (ecn : ExplicitCongestionNotification) : Bool :=
  ecn.usingEcn && self.lastAckedEcnPacketTimestamp.all (· < timeSent)

def onPacketAck (self : Controller) (timeSent : Timestamp) (ecn : ExplicitCongestionNotification) :
    Controller :=
  if self.ecnPacketSentAfterLastAckedEcnPacket timeSent ecn then
    { self with blackHoleCounter := 0, lastAckedEcnPacketTimestamp := some timeSent }
  else self

def onPacketLoss (self : Controller) (timeSent : Timestamp) (ecn : ExplicitCongestionNotification)
    (now : Timestamp) : Option Controller :=
  if self.state.isFailed then some self else
  -- `Counter<u8, Saturating>`
  let self := if self.ecnPacketSentAfterLastAckedEcnPacket timeSent ecn then
    { self with blackHoleCounter := min (self.blackHoleCounter + 1) 255 } else self
  if self.blackHoleCounter > TESTING_PACKET_THRESHOLD then self.fail now else some self

section Transitions

variable {self w : Controller}

theorem changeState_of_ne {state : State} (h : self.state ≠ state) :
    self.changeState state = some { self with state } := by
  simp [changeState, h]

theorem restart_eq (self : Controller) :
    self.restart = some { self with state := .testing 0, blackHoleCounter := 0 } := by
  by_cases h : self.state = .testing 0
  · simp [restart, h]
  · simp [restart, changeState_of_ne h]

theorem fail_of_not_isFailed (h : self.state.isFailed = false) (now : Timestamp) :
    self.fail now = some { self with
      state := .failed (({} : Timer).set (now.addDuration RETEST_COOL_OFF_DURATION)),
      blackHoleCounter := 0 } := by
  have hne : self.state ≠ .failed (({} : Timer).set (now.addDuration RETEST_COOL_OFF_DURATION)) := by
    intro heq
    rw [heq] at h
    cases h
  simp [fail, changeState_of_ne hne]

end Transitions

section Validate

/-- The RFC 9000 Section 13.4.2.1 checks of an ACK frame's ECN counts against the counts last
processed, absent counts read as zero: the counts are present when packets sent with ECT(0) or
ECT(1) are newly acknowledged; no count decreased; the ECT(0) and CE increase covers the newly
acknowledged ECT(0) packets; the ECT(0) and ECT(1) increases are at most the packets sent so; and
the CE increase covers the newly acknowledged CE-marked packets. -/
def Rfc9000Checks (newly sent baseline : EcnCounts) (ackFrame : Option EcnCounts) : Prop :=
  (0 < newly.ect0Count.val ∨ 0 < newly.ect1Count.val → ackFrame.isSome = true) ∧
    baseline.ect0Count.val ≤ (ackFrame.getD EcnCounts.default).ect0Count.val ∧
    baseline.ect1Count.val ≤ (ackFrame.getD EcnCounts.default).ect1Count.val ∧
    baseline.ceCount.val ≤ (ackFrame.getD EcnCounts.default).ceCount.val ∧
    newly.ect0Count.val ≤ (ackFrame.getD EcnCounts.default).ect0Count.val -
      baseline.ect0Count.val + ((ackFrame.getD EcnCounts.default).ceCount.val - baseline.ceCount.val) ∧
    (ackFrame.getD EcnCounts.default).ect0Count.val - baseline.ect0Count.val ≤ sent.ect0Count.val ∧
    (ackFrame.getD EcnCounts.default).ect1Count.val - baseline.ect1Count.val ≤ sent.ect1Count.val ∧
    newly.ceCount.val ≤ (ackFrame.getD EcnCounts.default).ceCount.val - baseline.ceCount.val

variable {self w : Controller} {newly sent baseline : EcnCounts} {ackFrame : Option EcnCounts}
  {now : Timestamp} {rtt : Duration} {o : ValidationOutcome}

theorem eq_default_of_asOption {counts : EcnCounts} (h : counts.asOption.isSome = false) :
    counts = EcnCounts.default := by
  unfold EcnCounts.asOption at h
  split_ifs at h with hd
  · exact hd
  · cases h

theorem rfc9000Checks_of_skip (hack : ackFrame = none) (hnewly : newly = EcnCounts.default)
    (hbaseline : baseline = EcnCounts.default) : Rfc9000Checks newly sent baseline ackFrame := by
  subst hack hnewly hbaseline
  simp [Rfc9000Checks, EcnCounts.default]

theorem rfc9000Checks_of_accept {incremental : EcnCounts}
    (hsub : (ackFrame.getD EcnCounts.default).checkedSub baseline = some incremental)
    (hremark : ceRemarking incremental newly = false)
    (hsent : remarkedToEct0OrEct1 incremental sent = false)
    (hsuppress : ceSuppression incremental newly = false)
    (hpresent : ackFrame = none → newly = EcnCounts.default) :
    Rfc9000Checks newly sent baseline ackFrame := by
  obtain ⟨h0, h1, hc, hi0, hi1, hic⟩ := EcnCounts.checkedSub_eq_some.mp hsub
  have hremark : newly.ect0Count.val ≤
      min (incremental.ect0Count.val + incremental.ceCount.val) maxVarintValue :=
    Nat.not_lt.mp (of_decide_eq_false hremark)
  simp only [remarkedToEct0OrEct1, Bool.or_eq_false_iff, decide_eq_false_iff_not,
    Nat.not_lt] at hsent
  simp only [ceSuppression, decide_eq_false_iff_not, Nat.not_lt] at hsuppress
  refine ⟨fun hmarked => ?_, h0, h1, hc, ?_, hi0 ▸ hsent.1, hi1 ▸ hsent.2, hic ▸ hsuppress⟩
  · -- absent counts with ECT-marked packets newly acknowledged were rejected before
    cases hack : ackFrame with
    | none => rw [hpresent hack] at hmarked; simp [EcnCounts.default] at hmarked
    | some _ => rfl
  · calc newly.ect0Count.val
        ≤ min (incremental.ect0Count.val + incremental.ceCount.val) maxVarintValue := hremark
      _ ≤ incremental.ect0Count.val + incremental.ceCount.val := Nat.min_le_left _ _
      _ = _ := by rw [hi0, hic]

theorem validate_cases (h : self.validate newly sent baseline ackFrame now rtt = some (w, o)) :
    (self.state.isFailed = true ∧ w = self ∧ o = .skipped) ∨
    (o = .failed ∧ w.state.isFailed = true ∧ w.blackHoleCounter = 0) ∨
    (o = .skipped ∧ w = self ∧ Rfc9000Checks newly sent baseline ackFrame) ∨
    (Rfc9000Checks newly sent baseline ackFrame ∧ w.blackHoleCounter = self.blackHoleCounter ∧
      (w.state = self.state ∨ ∃ t, w.state = .capable t) ∧
      (o = .passed ∨ ∃ n : VarInt, o = .congestionExperienced n ∧ w.isCapable = true ∧ 0 < n.val ∧
        n.val + newly.ceCount.val =
          (ackFrame.getD EcnCounts.default).ceCount.val - baseline.ceCount.val)) := by
  unfold validate at h
  by_cases hf : self.state.isFailed = true
  · rw [if_pos hf, Option.some.injEq, Prod.mk.injEq] at h
    exact .inl ⟨hf, h.1.symm, h.2.symm⟩
  rw [if_neg hf] at h
  have hfail := fail_of_not_isFailed (Bool.eq_false_iff.mpr hf) now
  -- every rejection goes through `fail`
  have hfailed : (self.fail now).map (·, ValidationOutcome.failed) = some (w, o) →
      o = .failed ∧ w.state.isFailed = true ∧ w.blackHoleCounter = 0 := by
    rw [hfail, Option.map_some, Option.some.injEq, Prod.mk.injEq]
    rintro ⟨rfl, rfl⟩
    exact ⟨rfl, rfl, rfl⟩
  by_cases habsent : ackFrame.isNone = true ∧ newly.asOption.isSome = true
  · rw [if_pos habsent] at h
    exact .inr (.inl (hfailed h))
  rw [if_neg habsent] at h
  have hpresent : ackFrame = none → newly = EcnCounts.default := fun hack =>
    eq_default_of_asOption (Bool.eq_false_iff.mpr fun hsome => habsent ⟨by simp [hack], hsome⟩)
  by_cases hskip : ackFrame.isNone = true ∧ baseline = EcnCounts.default
  · rw [if_pos hskip, Option.some.injEq, Prod.mk.injEq] at h
    obtain ⟨rfl, rfl⟩ := h
    have hack : ackFrame = none := Option.isNone_iff_eq_none.mp hskip.1
    exact .inr (.inr (.inl ⟨rfl, rfl, rfc9000Checks_of_skip hack (hpresent hack) hskip.2⟩))
  rw [if_neg hskip] at h
  split at h
  · exact .inr (.inl (hfailed h))
  rename_i incremental hsub
  by_cases hreject : (ceRemarking incremental newly || remarkedToEct0OrEct1 incremental sent ||
      ceSuppression incremental newly) = true
  · rw [if_pos hreject] at h
    exact .inr (.inl (hfailed h))
  rw [if_neg hreject] at h
  simp only [Bool.or_eq_true, not_or, Bool.not_eq_true] at hreject
  obtain ⟨⟨hremark, hsent⟩, hsuppress⟩ := hreject
  have hchecks := rfc9000Checks_of_accept hsub hremark hsent hsuppress hpresent
  -- the `ce_suppression` test keeps the VarInt subtraction from panicking
  have hce_le : newly.ceCount.val ≤ incremental.ceCount.val :=
    Nat.not_lt.mp (of_decide_eq_false hsuppress)
  have hnval : incremental.ceCount.val - newly.ceCount.val + newly.ceCount.val =
      (ackFrame.getD EcnCounts.default).ceCount.val - baseline.ceCount.val := by
    obtain ⟨-, -, -, -, -, hic⟩ := EcnCounts.checkedSub_eq_some.mp hsub
    omega
  rw [VarInt.checkedSub_of_le hce_le] at h
  simp only [Option.bind_eq_bind, Option.bind_some, Option.pure_def] at h
  have hfinish : ∀ w₁ : Controller, w₁.blackHoleCounter = self.blackHoleCounter →
      (w₁.state = self.state ∨ ∃ t, w₁.state = .capable t) →
      (if w₁.isCapable = true ∧ 0 < incremental.ceCount.val - newly.ceCount.val then
          some (w₁, ValidationOutcome.congestionExperienced
            ⟨incremental.ceCount.val - newly.ceCount.val, by have := incremental.ceCount.le_max; omega⟩)
        else some (w₁, ValidationOutcome.passed)) = some (w, o) →
      Rfc9000Checks newly sent baseline ackFrame ∧ w.blackHoleCounter = self.blackHoleCounter ∧
        (w.state = self.state ∨ ∃ t, w.state = .capable t) ∧
        (o = .passed ∨ ∃ n : VarInt, o = .congestionExperienced n ∧ w.isCapable = true ∧
          0 < n.val ∧ n.val + newly.ceCount.val =
            (ackFrame.getD EcnCounts.default).ceCount.val - baseline.ceCount.val) := by
    intro w₁ hcounter hstate hw
    split_ifs at hw with hce <;> rw [Option.some.injEq, Prod.mk.injEq] at hw <;>
      obtain ⟨rfl, rfl⟩ := hw
    · exact ⟨hchecks, hcounter, hstate, .inr ⟨_, rfl, hce.1, hce.2, hnval⟩⟩
    · exact ⟨hchecks, hcounter, hstate, .inl rfl⟩
  refine .inr (.inr (.inr ?_))
  by_cases hcap : self.state = State.unknown ∧ 0 < newly.ect0Count.val
  · -- an unknown path that sees marked packets acknowledged becomes capable
    have hne : self.state ≠ .capable (({} : Timer).set
        (now.addDuration (CE_SUPPRESSION_TESTING_RTT_MULTIPLIER_START * rtt))) := by
      rw [hcap.1]
      exact State.noConfusion
    rw [if_pos hcap, changeState_of_ne hne, Option.bind_some] at h
    refine hfinish _ ?_ (.inr ⟨_, rfl⟩) h
    rfl
  · rw [if_neg hcap] at h
    exact hfinish _ rfl (.inl rfl) h

end Validate

section Calls

variable {self w : Controller}

theorem ecn_cases {transmissionMode : Mode} {now : Timestamp} {m : ExplicitCongestionNotification}
    (h : self.ecn transmissionMode now = (m, w)) :
    (m = .notEct ∧ w = self) ∨
    (m = .ect0 ∧ transmissionMode.isLossRecoveryProbing = false ∧ (∃ c, self.state = .testing c) ∧
      w = self) ∨
    (m = .ect0 ∧ transmissionMode.isLossRecoveryProbing = false ∧
      ∃ t, self.state = .capable t ∧ t.isExpired now = false ∧ w = self) ∨
    (m = .ce ∧ transmissionMode.isLossRecoveryProbing = false ∧
      ∃ t, self.state = .capable t ∧ t.isExpired now = true ∧
        w = { self with state := .capable t.cancel }) := by
  unfold ecn at h
  split_ifs at h with hprobe
  · rw [Prod.mk.injEq] at h
    exact .inl ⟨h.1.symm, h.2.symm⟩
  have hprobe : transmissionMode.isLossRecoveryProbing = false := Bool.eq_false_iff.mpr hprobe
  split at h
  · rename_i c hstate
    rw [Prod.mk.injEq] at h
    exact .inr (.inl ⟨h.1.symm, hprobe, ⟨c, hstate⟩, h.2.symm⟩)
  · rename_i t hstate
    rcases Timer.pollExpiration_cases t now with ⟨hexp, hpoll⟩ | ⟨hexp, hpoll⟩
    · simp only [hpoll, if_true, Prod.mk.injEq] at h
      obtain ⟨rfl, rfl⟩ := h
      exact .inr (.inr (.inr ⟨rfl, hprobe, t, hstate, hexp, rfl⟩))
    · simp only [hpoll, Bool.false_eq_true, if_false, Prod.mk.injEq] at h
      obtain ⟨rfl, rfl⟩ := h
      refine .inr (.inr (.inl ⟨rfl, hprobe, t, hstate, hexp, ?_⟩))
      rw [← hstate]
  · rw [Prod.mk.injEq] at h
    exact .inl ⟨h.1.symm, h.2.symm⟩
  · rw [Prod.mk.injEq] at h
    exact .inl ⟨h.1.symm, h.2.symm⟩

theorem onPacketSent_of_testing {ecn : ExplicitCongestionNotification} {c : Nat}
    (hecn : ecn ≠ .ect1) (husing : ecn.usingEcn = true) (hstate : self.state = .testing c) :
    self.onPacketSent ecn = some { self with state :=
      if c + 1 < TESTING_PACKET_THRESHOLD then .testing (c + 1) else .unknown } := by
  unfold onPacketSent
  rw [if_neg hecn]
  split
  · rename_i c' hc'
    rw [hstate, State.testing.injEq] at hc'
    subst hc'
    by_cases hlt : c + 1 < TESTING_PACKET_THRESHOLD
    · simp [hlt, Nat.not_le.mpr hlt]
    · simp [hlt, Nat.le_of_not_lt hlt, changeState]
  · rename_i hne
    exact (hne c husing hstate).elim

theorem onPacketSent_of_not_testing {ecn : ExplicitCongestionNotification} (hecn : ecn ≠ .ect1)
    (h : ecn.usingEcn = false ∨ ∀ c, self.state ≠ .testing c) : self.onPacketSent ecn = some self := by
  unfold onPacketSent
  rw [if_neg hecn]
  split
  · rename_i c husing hstate
    rcases h with h | h
    · rw [husing] at h
      cases h
    · exact absurd hstate (h c)
  · rfl

theorem onPacketAck_cases (self : Controller) (timeSent : Timestamp)
    (ecn : ExplicitCongestionNotification) :
    (self.onPacketAck timeSent ecn).state = self.state ∧
      ((self.onPacketAck timeSent ecn).blackHoleCounter = 0 ∨
        (self.onPacketAck timeSent ecn).blackHoleCounter = self.blackHoleCounter) := by
  unfold onPacketAck
  split_ifs
  · exact ⟨rfl, .inl rfl⟩
  · exact ⟨rfl, .inr rfl⟩

theorem onPacketLoss_cases {timeSent now : Timestamp} {ecn : ExplicitCongestionNotification}
    (h : self.onPacketLoss timeSent ecn now = some w) :
    w = self ∨ (w.state = self.state ∧ w.blackHoleCounter ≤ self.blackHoleCounter + 1 ∧
      w.blackHoleCounter ≤ TESTING_PACKET_THRESHOLD) ∨
    (w.state.isFailed = true ∧ w.blackHoleCounter = 0) := by
  unfold onPacketLoss at h
  by_cases hf : self.state.isFailed = true
  · rw [if_pos hf] at h
    exact .inl (Option.some.inj h).symm
  rw [if_neg hf] at h
  generalize hw₁ : (if self.ecnPacketSentAfterLastAckedEcnPacket timeSent ecn then
    { self with blackHoleCounter := min (self.blackHoleCounter + 1) 255 } else self) = w₁ at h
  have hcounted : w₁.state = self.state ∧ w₁.blackHoleCounter ≤ self.blackHoleCounter + 1 := by
    split_ifs at hw₁ <;> subst hw₁
    · exact ⟨rfl, Nat.min_le_left _ _⟩
    · exact ⟨rfl, Nat.le_succ _⟩
  dsimp only at h
  split_ifs at h with hcount
  · rw [fail_of_not_isFailed (by rw [hcounted.1]; exact Bool.eq_false_iff.mpr hf),
      Option.some.injEq] at h
    subst h
    exact .inr (.inr ⟨rfl, rfl⟩)
  · rw [Option.some.injEq] at h
    subst h
    exact .inr (.inl ⟨hcounted.1, hcounted.2, Nat.le_of_not_lt hcount⟩)

theorem onTimeout_cases {now : Timestamp} {random : UInt16} {rtt : Duration}
    (h : self.onTimeout now random rtt = some w) :
    w.blackHoleCounter = self.blackHoleCounter ∧
      (w.state = self.state ∨ (∃ t, w.state = .failed t) ∨ (∃ t, w.state = .capable t)) ∨
    w = { self with state := .testing 0, blackHoleCounter := 0 } := by
  unfold onTimeout at h
  split at h
  · rename_i t hstate
    rcases Timer.pollExpiration_cases t now with ⟨-, hpoll⟩ | ⟨-, hpoll⟩
    · simp only [hpoll, if_true, restart_eq, Option.some.injEq] at h
      exact .inr h.symm
    · simp only [hpoll, Bool.false_eq_true, if_false, Option.some.injEq] at h
      subst h
      exact .inl ⟨rfl, .inr (.inl ⟨t, rfl⟩)⟩
  · split_ifs at h
    · rw [Option.some.injEq] at h
      subst h
      exact .inl ⟨rfl, .inr (.inr ⟨_, rfl⟩)⟩
    · exact .inl ⟨by rw [(Option.some.inj h).symm], .inl (by rw [(Option.some.inj h).symm])⟩
  · exact .inl ⟨by rw [(Option.some.inj h).symm], .inl (by rw [(Option.some.inj h).symm])⟩
  · exact .inl ⟨by rw [(Option.some.inj h).symm], .inl (by rw [(Option.some.inj h).symm])⟩

end Calls

end Controller

/-- The calls a path makes on its controller. -/
inductive Call
  | ecn (transmissionMode : Mode) (now : Timestamp)
  | onPacketSent (ecn : ExplicitCongestionNotification)
  | onPacketAck (timeSent : Timestamp) (ecn : ExplicitCongestionNotification)
  | onPacketLoss (timeSent : Timestamp) (ecn : ExplicitCongestionNotification) (now : Timestamp)
  | validate (newlyAckedEcnCounts sentPacketEcnCounts baselineEcnCounts : EcnCounts)
      (ackFrameEcnCounts : Option EcnCounts) (now : Timestamp) (rtt : Duration)
  | restart
  | onTimeout (now : Timestamp) (random : UInt16) (rtt : Duration)

/-- What a call returns. -/
inductive Output
  | marking (ecn : ExplicitCongestionNotification)
  | outcome (outcome : ValidationOutcome)
  | done

namespace Controller

def step (self : Controller) : Call → Option (Controller × Output)
  | .ecn transmissionMode now =>
    let (ecn, self) := self.ecn transmissionMode now
    some (self, .marking ecn)
  | .onPacketSent ecn => (self.onPacketSent ecn).map (·, .done)
  | .onPacketAck timeSent ecn => some (self.onPacketAck timeSent ecn, .done)
  | .onPacketLoss timeSent ecn now => (self.onPacketLoss timeSent ecn now).map (·, .done)
  | .validate newly sent baseline ackFrame now rtt =>
    (self.validate newly sent baseline ackFrame now rtt).map fun (self, o) => (self, .outcome o)
  | .restart => self.restart.map (·, .done)
  | .onTimeout now random rtt => (self.onTimeout now random rtt).map (·, .done)

def run (self : Controller) : List Call → Option Controller
  | [] => some self
  | call :: calls => (self.step call).bind fun r => r.1.run calls

/-- What every controller a run reaches keeps: the testing count stays below the threshold and
the black hole counter at most at it, so neither `u8` counter overflows. -/
structure Inv (controller : Controller) : Prop where
  testing_lt : ∀ c, controller.state = .testing c → c < TESTING_PACKET_THRESHOLD
  blackHoleCounter_le : controller.blackHoleCounter ≤ TESTING_PACKET_THRESHOLD

theorem inv_default : Inv {} := by
  refine ⟨fun c hc => ?_, Nat.zero_le _⟩
  cases hc
  decide

namespace Inv

variable {self w : Controller}

theorem of_state (hinv : self.Inv) (hstate : w.state = self.state ∨ ∀ c, w.state ≠ .testing c)
    (hcounter : w.blackHoleCounter ≤ TESTING_PACKET_THRESHOLD) : w.Inv := by
  rcases hstate with hstate | hstate
  · exact ⟨fun c hc => hinv.testing_lt c (hstate ▸ hc), hcounter⟩
  · exact ⟨fun c hc => absurd hc (hstate c), hcounter⟩

theorem testing_zero (hstate : w.state = .testing 0) (hcounter : w.blackHoleCounter = 0) : w.Inv := by
  refine ⟨fun c hc => ?_, hcounter ▸ Nat.zero_le _⟩
  rw [hstate, State.testing.injEq] at hc
  subst hc
  decide

theorem ecn (hinv : self.Inv) {transmissionMode : Mode} {now : Timestamp}
    {m : ExplicitCongestionNotification} (h : self.ecn transmissionMode now = (m, w)) : w.Inv := by
  rcases ecn_cases h with ⟨-, rfl⟩ | ⟨-, -, -, rfl⟩ | ⟨-, -, t, -, -, rfl⟩ | ⟨-, -, t, -, -, rfl⟩
  · exact hinv
  · exact hinv
  · exact hinv
  · exact hinv.of_state (.inr fun c => State.noConfusion) hinv.blackHoleCounter_le

theorem onPacketSent (hinv : self.Inv) {ecn : ExplicitCongestionNotification}
    (h : self.onPacketSent ecn = some w) : w.Inv := by
  by_cases hecn : ecn = .ect1
  · subst hecn
    cases h
  by_cases htesting : ecn.usingEcn = true ∧ ∃ c, self.state = .testing c
  · obtain ⟨husing, c, hstate⟩ := htesting
    rw [onPacketSent_of_testing hecn husing hstate, Option.some.injEq] at h
    subst h
    by_cases hlt : c + 1 < TESTING_PACKET_THRESHOLD
    · refine ⟨fun c' hc' => ?_, hinv.blackHoleCounter_le⟩
      simp only [hlt, if_true, State.testing.injEq] at hc'
      omega
    · simp only [hlt, if_false]
      exact hinv.of_state (.inr fun c => State.noConfusion) hinv.blackHoleCounter_le
  · rw [not_and_or, Bool.not_eq_true, not_exists] at htesting
    rw [onPacketSent_of_not_testing hecn htesting, Option.some.injEq] at h
    exact h ▸ hinv

theorem onPacketAck (hinv : self.Inv) (timeSent : Timestamp) (ecn : ExplicitCongestionNotification) :
    (self.onPacketAck timeSent ecn).Inv := by
  obtain ⟨hstate, hcounter⟩ := onPacketAck_cases self timeSent ecn
  refine hinv.of_state (.inl hstate) ?_
  rcases hcounter with h | h <;> rw [h]
  · exact Nat.zero_le _
  · exact hinv.blackHoleCounter_le

theorem onPacketLoss (hinv : self.Inv) {timeSent now : Timestamp}
    {ecn : ExplicitCongestionNotification} (h : self.onPacketLoss timeSent ecn now = some w) :
    w.Inv := by
  rcases onPacketLoss_cases h with rfl | ⟨hstate, -, hcounter⟩ | ⟨hfailed, hcounter⟩
  · exact hinv
  · exact hinv.of_state (.inl hstate) hcounter
  · refine hinv.of_state (.inr fun c hc => ?_) (hcounter ▸ Nat.zero_le _)
    rw [hc] at hfailed
    cases hfailed

theorem validate (hinv : self.Inv) {newly sent baseline : EcnCounts}
    {ackFrame : Option EcnCounts} {now : Timestamp} {rtt : Duration} {o : ValidationOutcome}
    (h : self.validate newly sent baseline ackFrame now rtt = some (w, o)) : w.Inv := by
  rcases validate_cases h with ⟨-, rfl, -⟩ | ⟨-, hfailed, hcounter⟩ | ⟨-, rfl, -⟩ |
    ⟨-, hcounter, hstate, -⟩
  · exact hinv
  · refine hinv.of_state (.inr fun c hc => ?_) (hcounter ▸ Nat.zero_le _)
    rw [hc] at hfailed
    cases hfailed
  · exact hinv
  · refine hinv.of_state ?_ (hcounter ▸ hinv.blackHoleCounter_le)
    rcases hstate with hstate | ⟨t, hstate⟩
    · exact .inl hstate
    · exact .inr fun c => hstate ▸ State.noConfusion

theorem onTimeout (hinv : self.Inv) {now : Timestamp} {random : UInt16} {rtt : Duration}
    (h : self.onTimeout now random rtt = some w) : w.Inv := by
  rcases onTimeout_cases h with ⟨hcounter, hstate⟩ | rfl
  · refine hinv.of_state ?_ (hcounter ▸ hinv.blackHoleCounter_le)
    rcases hstate with hstate | ⟨t, hstate⟩ | ⟨t, hstate⟩
    · exact .inl hstate
    · exact .inr fun c => hstate ▸ State.noConfusion
    · exact .inr fun c => hstate ▸ State.noConfusion
  · exact testing_zero rfl rfl

theorem step (hinv : self.Inv) {call : Call} {r : Controller × Output}
    (h : self.step call = some r) : r.1.Inv := by
  cases call with
  | ecn transmissionMode now =>
    simp only [Controller.step, Option.some.injEq] at h
    subst h
    exact hinv.ecn rfl
  | onPacketSent ecn =>
    obtain ⟨w, hw, rfl⟩ := Option.map_eq_some_iff.mp h
    exact hinv.onPacketSent hw
  | onPacketAck timeSent ecn =>
    cases h
    exact hinv.onPacketAck timeSent ecn
  | onPacketLoss timeSent ecn now =>
    obtain ⟨w, hw, rfl⟩ := Option.map_eq_some_iff.mp h
    exact hinv.onPacketLoss hw
  | validate newly sent baseline ackFrame now rtt =>
    obtain ⟨⟨w, o⟩, hw, rfl⟩ := Option.map_eq_some_iff.mp h
    exact hinv.validate hw
  | restart =>
    obtain ⟨w, hw, rfl⟩ := Option.map_eq_some_iff.mp h
    rw [restart_eq, Option.some.injEq] at hw
    subst hw
    exact testing_zero rfl rfl
  | onTimeout now random rtt =>
    obtain ⟨w, hw, rfl⟩ := Option.map_eq_some_iff.mp h
    exact hinv.onTimeout hw

theorem run (hinv : self.Inv) {calls : List Call} (h : self.run calls = some w) : w.Inv := by
  induction calls generalizing self with
  | nil =>
    cases h
    exact hinv
  | cons call calls ih =>
    obtain ⟨r, hr, hrest⟩ := Option.bind_eq_some_iff.mp h
    exact ih (hinv.step hr) hrest

end Inv

/-- Along every run from the default controller: fewer marked packets are counted in testing
than the threshold, the one that reaches it moving the path to `Unknown`; `ecn` returns ECT(0)
or CE only on a testing or capable path and never for a loss recovery probe, and CE only on a
capable path whose CE-suppression timer has expired; `validate` passes an ACK frame or reports
congestion only when every RFC 9000 Section 13.4.2.1 check holds, and otherwise leaves the path
`Failed`; and it reports congestion only on a capable path, counting the CE increase beyond the
newly acknowledged CE-marked packets. -/
theorem ecn_controller_rules (calls : List Call) {w : Controller}
    (hrun : ({} : Controller).run calls = some w) :
    (∀ c, w.state = .testing c → c < TESTING_PACKET_THRESHOLD) ∧
    (∀ ecn c w', w.state = .testing c → ecn.usingEcn = true → w.onPacketSent ecn = some w' →
      w'.state = if c + 1 < TESTING_PACKET_THRESHOLD then .testing (c + 1) else .unknown) ∧
    (∀ transmissionMode now m w', w.ecn transmissionMode now = (m, w') →
      (m = .ect0 ∨ m = .ce) → transmissionMode.isLossRecoveryProbing = false ∧
        ((∃ c, w.state = .testing c) ∨ ∃ t, w.state = .capable t)) ∧
    (∀ transmissionMode now w', w.ecn transmissionMode now = (.ce, w') →
      ∃ t, w.state = .capable t ∧ t.isExpired now = true) ∧
    (∀ newly sent baseline ackFrame now rtt w' o,
      w.validate newly sent baseline ackFrame now rtt = some (w', o) →
      ((o = .passed ∨ ∃ n, o = .congestionExperienced n) →
        Rfc9000Checks newly sent baseline ackFrame) ∧
      (¬Rfc9000Checks newly sent baseline ackFrame → w'.state.isFailed = true) ∧
      (∀ n, o = .congestionExperienced n → w'.isCapable = true ∧ 0 < n.val ∧
        n.val + newly.ceCount.val =
          (ackFrame.getD EcnCounts.default).ceCount.val - baseline.ceCount.val)) := by
  have hinv := inv_default.run hrun
  refine ⟨hinv.testing_lt, fun ecn c w' hstate husing h => ?_, fun transmissionMode now m w' h hm => ?_,
    fun transmissionMode now w' h => ?_, fun newly sent baseline ackFrame now rtt w' o h => ?_⟩
  · have hecn : ecn ≠ .ect1 := by
      rintro rfl
      cases h
    rw [onPacketSent_of_testing hecn husing hstate, Option.some.injEq] at h
    rw [← h]
  · rcases ecn_cases h with ⟨rfl, -⟩ | ⟨-, hprobe, htesting, -⟩ | ⟨-, hprobe, t, hcapable, -⟩ |
      ⟨-, hprobe, t, hcapable, -⟩
    · simp at hm
    · exact ⟨hprobe, .inl htesting⟩
    · exact ⟨hprobe, .inr ⟨t, hcapable⟩⟩
    · exact ⟨hprobe, .inr ⟨t, hcapable⟩⟩
  · rcases ecn_cases h with ⟨hm, -⟩ | ⟨hm, -⟩ | ⟨hm, -⟩ | ⟨-, -, t, hcapable, hexp, -⟩
    · cases hm
    · cases hm
    · cases hm
    · exact ⟨t, hcapable, hexp⟩
  · rcases validate_cases h with ⟨hf, rfl, rfl⟩ | ⟨rfl, hfailed, -⟩ | ⟨rfl, -, hchecks⟩ |
      ⟨hchecks, -, -, houtcome⟩
    · refine ⟨fun ho => ?_, fun _ => hf, fun n ho => ?_⟩
      · rcases ho with ho | ⟨n, ho⟩ <;> cases ho
      · cases ho
    · refine ⟨fun ho => ?_, fun _ => hfailed, fun n ho => ?_⟩
      · rcases ho with ho | ⟨n, ho⟩ <;> cases ho
      · cases ho
    · refine ⟨fun _ => hchecks, fun hnot => absurd hchecks hnot, fun n ho => ?_⟩
      cases ho
    · refine ⟨fun _ => hchecks, fun hnot => absurd hchecks hnot, fun n ho => ?_⟩
      rcases houtcome with rfl | ⟨n', ho', hcapable, hpos, hval⟩
      · cases ho
      · rw [ho', ValidationOutcome.congestionExperienced.injEq] at ho
        subst ho
        exact ⟨hcapable, hpos, hval⟩

theorem ecn_controller_rules_nine :
    ∃ w, ({} : Controller).run (List.replicate 9 (.onPacketSent .ect0)) = some w ∧
      w.state = .testing 9 ∧ ∀ w', w.onPacketSent .ect0 = some w' → w'.state = .unknown :=
  ⟨{ state := .testing 9 }, rfl, rfl, fun w' h =>
    (ecn_controller_rules (List.replicate 9 (.onPacketSent .ect0)) rfl).2.1 .ect0 9 w' rfl rfl h⟩

end Controller

end Path.Ecn

end S2nQuic
