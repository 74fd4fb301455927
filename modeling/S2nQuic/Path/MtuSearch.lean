import S2nQuic.Path.Mtu

/-!
# The probe bound of the PLPMTU search

RFC 8899 section 5.3: a round of the search probes one size until the probe is acknowledged or
lost `MAX_PROBES` times, the next round probes halfway into the part the outcome leaves, and no
round starts once half of that part is below `PROBE_THRESHOLD`. With no raise timer expiration
and no black hole, `probePotential` bounds the probes a controller still sends: a probe lowers it
by one, no other call raises it, and it is at most `MAX_PROBES` times one more than the binary
logarithm of the distance from the base size to the largest UDP payload.
-/

namespace S2nQuic.Path.Mtu
open Packet

/-- Whether `on_transmit` wrote a probe. -/
def Output.isProbe : Output → Bool
  | .transmitted (some _) => true
  | _ => false

def State.isSearching : State → Bool
  | .searching .. => true
  | _ => false

/-- The rounds a search still starts once its sizes are `gap` apart with the probe halfway: a
round starts while half the gap reaches the threshold, and leaves at most the upper half. -/
def searchRounds (gap : Nat) : Nat :=
  if h : gap < 2 * PROBE_THRESHOLD then 0 else searchRounds (gap - gap / 2) + 1
termination_by gap
decreasing_by
  unfold PROBE_THRESHOLD at h
  omega

theorem searchRounds_of_lt {gap : Nat} (h : gap < 2 * PROBE_THRESHOLD) : searchRounds gap = 0 := by
  rw [searchRounds, dif_pos h]

theorem searchRounds_of_le {gap : Nat} (h : 2 * PROBE_THRESHOLD ≤ gap) :
    searchRounds gap = searchRounds (gap - gap / 2) + 1 := by
  rw [searchRounds, dif_neg (Nat.not_lt.mpr h)]

theorem searchRounds_mono {a b : Nat} (h : a ≤ b) : searchRounds a ≤ searchRounds b := by
  induction b using Nat.strong_induction_on generalizing a with
  | h b ih =>
    by_cases ha : a < 2 * PROBE_THRESHOLD
    · rw [searchRounds_of_lt ha]
      exact Nat.zero_le _
    have hb : 2 * PROBE_THRESHOLD ≤ b := by omega
    rw [searchRounds_of_le (Nat.not_lt.mp ha), searchRounds_of_le hb]
    have hhalf : b - b / 2 < b := by unfold PROBE_THRESHOLD at hb; omega
    exact Nat.succ_le_succ (ih _ hhalf (by omega))

theorem two_pow_searchRounds_le (gap : Nat) : 2 ^ searchRounds gap ≤ max 1 (gap - 1) := by
  induction gap using Nat.strong_induction_on with
  | h gap ih =>
    by_cases hgap : gap < 2 * PROBE_THRESHOLD
    · rw [searchRounds_of_lt hgap]
      exact le_max_left _ _
    have hround : 2 * PROBE_THRESHOLD ≤ gap := Nat.not_lt.mp hgap
    unfold PROBE_THRESHOLD at hgap
    have hhalf := ih (gap - gap / 2) (by omega)
    rw [max_eq_right (by omega)] at hhalf
    rw [searchRounds_of_le hround, pow_succ]
    -- the upper half of an odd gap is one more than the lower: `2 * (⌈gap / 2⌉ - 1) ≤ gap - 1`
    calc 2 ^ searchRounds (gap - gap / 2) * 2 ≤ (gap - gap / 2 - 1) * 2 :=
          Nat.mul_le_mul_right 2 hhalf
      _ ≤ max 1 (gap - 1) := le_max_of_le_right (by omega)

theorem searchRounds_le_log (gap : Nat) : searchRounds gap ≤ Nat.log 2 (max 1 gap) :=
  Nat.le_log_of_pow_le (by norm_num)
    ((two_pow_searchRounds_le gap).trans (max_le_max le_rfl (Nat.sub_le _ _)))

namespace Controller

def nextGap (self : Controller) : Nat :=
  max (self.probedSize - self.plpmtu) (self.maxProbeSize - self.probedSize)

/-- The probes a controller may still send with no raise timer expiration and no black hole: what
is left of the probe count in this round, and `MAX_PROBES` in each round after it. A disabled or
early search has a whole round ahead, and losing the early search's packet first lowers the PLPMTU
to the base size. -/
def probePotential (self : Controller) : Nat :=
  match self.state with
  | .searchComplete => 0
  | .searchRequested | .searching .. =>
    MAX_PROBES - self.probeCount + MAX_PROBES * searchRounds self.nextGap
  | .disabled => MAX_PROBES + MAX_PROBES * searchRounds self.nextGap
  | .earlySearchRequested =>
    MAX_PROBES + MAX_PROBES * searchRounds { self with plpmtu := self.basePlpmtu }.nextGap

def firesRaiseTimer (self : Controller) : Call → Bool
  | .onTimeout now => (self.pmtuRaiseTimer.pollExpiration now).1
  | _ => false

/-- `on_packet_loss` detects a black hole on this call. -/
def detectsBlackHole (self : Controller) : Call → Bool
  | .onPacketLoss packetNumber lostBytes newLossBurst _ =>
    decide (self.state = .earlySearchRequested ∨ packetNumber.space = .applicationData) &&
      (match self.state with
        | .searching probePacketNumber _ => decide (probePacketNumber ≠ packetNumber)
        | .searchComplete | .searchRequested => true
        | _ => false) &&
      decide (self.blackHoleCounterAfterLoss packetNumber lostBytes newLossBurst >
        BLACK_HOLE_THRESHOLD)
  | _ => false

def quiet (self : Controller) (call : Call) : Bool :=
  !self.firesRaiseTimer call && !self.detectsBlackHole call

/-- Every call of the run satisfies `p` in the state it is made in. -/
def runAll (p : Controller → Call → Bool) (self : Controller) : List Call → Bool
  | [] => true
  | call :: calls => p self call &&
    match self.step call with
    | some (w, _) => w.runAll p calls
    | none => true

section Potential

variable {self : Controller}

theorem nextGap_le_base (h : self.Inv) :
    self.nextGap ≤ { self with plpmtu := self.basePlpmtu }.nextGap :=
  max_le_max (Nat.sub_le_sub_left h.base_le _) le_rfl

theorem potential_of_searching {packetNumber : PacketNumber} {transmitTime : Timestamp}
    (hstate : self.state = .searching packetNumber transmitTime) :
    MAX_PROBES * searchRounds self.nextGap ≤ self.probePotential := by
  simp only [probePotential, hstate]
  omega

theorem potential_requestNewSearch (self : Controller) (lastProbeTime : Option Timestamp) :
    (self.requestNewSearch lastProbeTime).probePotential ≤
      MAX_PROBES + MAX_PROBES * searchRounds self.nextGap := by
  rcases requestNewSearch_cases self lastProbeTime with ⟨-, heq⟩ | ⟨-, heq | ⟨timer, heq⟩⟩ <;>
    rw [heq]
  · exact le_of_eq rfl
  · exact Nat.zero_le _
  · exact Nat.zero_le _

theorem potential_requestNewSearch_updateProbedSize (x : Controller) (hx : x.plpmtu ≤ x.maxProbeSize)
    (lastProbeTime : Option Timestamp) :
    (x.updateProbedSize.requestNewSearch lastProbeTime).probePotential ≤
      MAX_PROBES * searchRounds (x.maxProbeSize - x.plpmtu) := by
  rcases requestNewSearch_cases x.updateProbedSize lastProbeTime with
    ⟨habove, heq⟩ | ⟨-, heq | ⟨timer, heq⟩⟩ <;> rw [heq]
  · rw [isNextProbeSizeAboveThreshold_iff] at habove
    simp only [updateProbedSize, nextProbeSize] at habove
    have hround : 2 * PROBE_THRESHOLD ≤ x.maxProbeSize - x.plpmtu := by
      unfold PROBE_THRESHOLD at habove ⊢
      omega
    have hgap : x.updateProbedSize.nextGap =
        x.maxProbeSize - x.plpmtu - (x.maxProbeSize - x.plpmtu) / 2 := by
      simp only [nextGap, updateProbedSize, nextProbeSize]
      omega
    show MAX_PROBES - 0 + MAX_PROBES * searchRounds x.updateProbedSize.nextGap ≤ _
    rw [hgap, searchRounds_of_le hround, MAX_PROBES]
    omega
  · exact Nat.zero_le _
  · exact Nat.zero_le _

theorem potential_enable (h : self.Inv) : self.enable.probePotential ≤ self.probePotential := by
  unfold enable
  split_ifs with hstate
  · refine (potential_requestNewSearch self none).trans ?_
    rcases hstate with hs | hs <;> simp only [probePotential, hs]
    · exact le_rfl
    · exact Nat.add_le_add_left (Nat.mul_le_mul_left _ (searchRounds_mono (nextGap_le_base h))) _
  · exact le_rfl

theorem potential_onTimeout {now : Timestamp}
    (hfire : (self.pmtuRaiseTimer.pollExpiration now).1 = false) :
    (self.onTimeout now).probePotential = self.probePotential := by
  unfold onTimeout
  rcases Timer.pollExpiration_cases self.pmtuRaiseTimer now with ⟨-, hpoll⟩ | ⟨-, hpoll⟩ <;>
    rw [hpoll] at hfire ⊢
  · cases hfire
  · rfl

theorem potential_onEarlySearchAck (h : self.Inv) (sentBytes : Nat) :
    (self.onEarlySearchAck sentBytes).probePotential ≤ self.probePotential := by
  unfold onEarlySearchAck
  split_ifs with hearly habove
  · -- the early search ends disabled, with a round still ahead
    simp only [probePotential, hearly.1]
    exact Nat.add_le_add_left (Nat.mul_le_mul_left _ (searchRounds_mono (nextGap_le_base h))) _
  · exact Nat.zero_le _
  · exact le_rfl

theorem potential_onMtuSizedAck (packetNumber : PacketNumber) (sentBytes : Nat) :
    (self.onMtuSizedAck packetNumber sentBytes).probePotential = self.probePotential := by
  unfold onMtuSizedAck
  split_ifs <;> rfl

theorem potential_onProbeAck (h : self.Inv) (packetNumber : PacketNumber) :
    (self.onProbeAck packetNumber).1.probePotential ≤ self.probePotential := by
  unfold onProbeAck
  split
  · rename_i probePacketNumber transmitTime hstate
    split_ifs
    · dsimp only
      calc _ ≤ MAX_PROBES * searchRounds (self.maxProbeSize - self.probedSize) :=
            potential_requestNewSearch_updateProbedSize { self with plpmtu := self.probedSize }
              h.probed_le (some transmitTime)
        _ ≤ MAX_PROBES * searchRounds self.nextGap :=
            Nat.mul_le_mul_left _ (searchRounds_mono (le_max_right _ _))
        _ ≤ self.probePotential := potential_of_searching hstate
    · exact le_rfl
  · exact le_rfl

theorem potential_onPacketAck (h : self.Inv) (packetNumber : PacketNumber) (sentBytes : Nat) :
    (self.onPacketAck packetNumber sentBytes).1.probePotential ≤ self.probePotential := by
  have hearly := potential_onEarlySearchAck h sentBytes
  have h₁ := (h.onEarlySearchAck sentBytes).onMtuSizedAck packetNumber sentBytes
  unfold onPacketAck
  dsimp only
  split_ifs
  · exact hearly
  · exact hearly
  · calc _ ≤ ((self.onEarlySearchAck sentBytes).onMtuSizedAck packetNumber sentBytes).probePotential :=
          potential_onProbeAck h₁ packetNumber
      _ = (self.onEarlySearchAck sentBytes).probePotential := potential_onMtuSizedAck _ _
      _ ≤ self.probePotential := hearly

theorem potential_onNonProbeLoss {packetNumber : PacketNumber} {lostBytes : Nat}
    {newLossBurst : Bool} (now : Timestamp)
    (h : ¬self.blackHoleCounterAfterLoss packetNumber lostBytes newLossBurst > BLACK_HOLE_THRESHOLD) :
    (self.onNonProbeLoss packetNumber lostBytes newLossBurst now).1.probePotential =
      self.probePotential := by
  unfold onNonProbeLoss
  dsimp only
  rw [if_neg h]
  rfl

theorem potential_onPacketLoss (h : self.Inv) {packetNumber : PacketNumber} {lostBytes : Nat}
    {newLossBurst : Bool} {now : Timestamp}
    (hquiet : self.detectsBlackHole (.onPacketLoss packetNumber lostBytes newLossBurst now) = false) :
    (self.onPacketLoss packetNumber lostBytes newLossBurst now).1.probePotential ≤
      self.probePotential := by
  unfold onPacketLoss
  by_cases hguard : self.state = .earlySearchRequested ∨ packetNumber.space = .applicationData
  swap
  · rw [if_pos hguard]
  rw [if_neg (not_not.mpr hguard)]
  split
  · exact le_rfl
  · -- an early search lost: its round is still ahead, from the base size
    rename_i hstate
    dsimp only
    split_ifs
    · simp only [probePotential, hstate]
      exact le_rfl
    · exact Nat.zero_le _
  · rename_i probePacketNumber transmitTime hstate
    split_ifs with hprobe hcount
    · -- the probe lost `MAX_PROBES` times: the next round searches the lower half
      calc _ ≤ MAX_PROBES * searchRounds (self.probedSize - self.plpmtu) :=
            potential_requestNewSearch_updateProbedSize { self with maxProbeSize := self.probedSize }
              h.plpmtu_le none
        _ ≤ MAX_PROBES * searchRounds self.nextGap :=
            Nat.mul_le_mul_left _ (searchRounds_mono (le_max_left _ _))
        _ ≤ self.probePotential := potential_of_searching hstate
    · simp only [probePotential, hstate]
      exact le_rfl
    · have hspace := hguard.resolve_left (by rw [hstate]; exact State.noConfusion)
      simp [detectsBlackHole, hstate, hprobe, hspace] at hquiet
      exact (potential_onNonProbeLoss now (Nat.not_lt.mpr hquiet)).le
  · rename_i hstate
    have hspace := hguard.resolve_left (by rw [hstate]; exact State.noConfusion)
    simp [detectsBlackHole, hstate, hspace] at hquiet
    exact (potential_onNonProbeLoss now (Nat.not_lt.mpr hquiet)).le
  · rename_i hstate
    have hspace := hguard.resolve_left (by rw [hstate]; exact State.noConfusion)
    simp [detectsBlackHole, hstate, hspace] at hquiet
    exact (potential_onNonProbeLoss now (Nat.not_lt.mpr hquiet)).le

theorem potential_onTransmit (h : self.Inv) {context : TransmitContext} {w : Controller}
    {probe : Option PacketNumber} (ht : self.onTransmit context = some (w, probe)) :
    (if probe.isSome then 1 else 0) + w.probePotential ≤ self.probePotential := by
  unfold onTransmit at ht
  dsimp only at ht
  split_ifs at ht with hstate
  · cases ht
    simp
  · cases ht
    simp
  · cases ht
    simp [probePotential]
  · split at ht
    · cases ht
      have hlt := h.requested_lt (not_not.mp hstate)
      simp only [probePotential, not_not.mp hstate, nextGap, Option.isSome_some, if_true]
      unfold MAX_PROBES at hlt ⊢
      omega
    · cases ht
      simp

theorem potential_step (h : self.Inv) {call : Call} {w : Controller} {out : Output}
    (hquiet : self.quiet call = true) (hstep : self.step call = some (w, out)) :
    (if out.isProbe then 1 else 0) + w.probePotential ≤ self.probePotential := by
  simp only [quiet, Bool.and_eq_true, Bool.not_eq_true'] at hquiet
  cases call with
  | enable =>
    cases hstep
    simpa [Output.isProbe] using potential_enable h
  | onTimeout now =>
    cases hstep
    simpa [Output.isProbe] using (potential_onTimeout hquiet.1).le
  | onPacketAck packetNumber sentBytes =>
    simp only [step, Option.some.injEq, Prod.mk.injEq] at hstep
    obtain ⟨rfl, rfl⟩ := hstep
    simpa [Output.isProbe] using potential_onPacketAck h packetNumber sentBytes
  | onPacketLoss packetNumber lostBytes newLossBurst now =>
    simp only [step, Option.some.injEq, Prod.mk.injEq] at hstep
    obtain ⟨rfl, rfl⟩ := hstep
    simpa [Output.isProbe] using potential_onPacketLoss h hquiet.2
  | onTransmit context =>
    obtain ⟨⟨w', probe⟩, ht, heq⟩ := Option.map_eq_some_iff.mp hstep
    cases heq
    have hprobe := potential_onTransmit h ht
    cases probe <;> simpa [Output.isProbe] using hprobe

theorem potential_run (h : self.Inv) {calls : List Call} {w : Controller} {outs : List Output}
    (hquiet : self.runAll quiet calls = true) (hrun : self.run calls = some (w, outs)) :
    outs.countP Output.isProbe + w.probePotential ≤ self.probePotential := by
  induction calls generalizing self outs with
  | nil =>
    cases hrun
    simp
  | cons call calls ih =>
    obtain ⟨s, out, outs', hs, hrest, rfl⟩ := run_cons hrun
    simp only [runAll, hs, Bool.and_eq_true] at hquiet
    have hstep := potential_step h hquiet.1 hs
    have hcalls := ih (h.step hs) hquiet.2 hrest
    rw [List.countP_cons]
    omega

theorem potential_le (h : self.Inv) :
    self.probePotential ≤ MAX_PROBES * (searchRounds (self.maxUdpPayload - self.basePlpmtu) + 1) := by
  obtain ⟨hbase, hplpmtu, hprobed, hmax, -, -⟩ := h
  have hgap := searchRounds_mono (show self.nextGap ≤ self.maxUdpPayload - self.basePlpmtu by
    dsimp only [nextGap]; omega)
  have hearly := searchRounds_mono
    (show { self with plpmtu := self.basePlpmtu }.nextGap ≤ self.maxUdpPayload - self.basePlpmtu by
      dsimp only [nextGap]; omega)
  unfold probePotential
  split <;> unfold MAX_PROBES at * <;> omega

theorem state_of_potential_eq_zero (h : self.Inv) (hzero : self.probePotential = 0)
    (hsearching : self.state.isSearching = false) : self.state = .searchComplete := by
  cases hs : self.state with
  | searchComplete => rfl
  | searching packetNumber transmitTime =>
    rw [hs] at hsearching
    cases hsearching
  | searchRequested =>
    have hlt := h.requested_lt hs
    simp only [probePotential, hs, MAX_PROBES] at hzero hlt
    omega
  | disabled => simp [probePotential, hs, MAX_PROBES] at hzero
  | earlySearchRequested => simp [probePotential, hs, MAX_PROBES] at hzero

end Potential

section Complete

variable {self : Controller}

theorem onEarlySearchAck_of_ne (h : self.state ≠ .earlySearchRequested) (sentBytes : Nat) :
    self.onEarlySearchAck sentBytes = self := by
  unfold onEarlySearchAck
  rw [if_neg fun hearly => h hearly.1]

theorem onProbeAck_of_complete (h : self.state = .searchComplete) (packetNumber : PacketNumber) :
    self.onProbeAck packetNumber = (self, .noChange) := by
  unfold onProbeAck
  rw [h]

theorem onNonProbeLoss_of_complete (h : self.state = .searchComplete) (packetNumber : PacketNumber)
    (lostBytes : Nat) (newLossBurst : Bool) (now : Timestamp) :
    (self.onNonProbeLoss packetNumber lostBytes newLossBurst now).1.state = .searchComplete := by
  unfold onNonProbeLoss
  dsimp only
  split_ifs
  · -- a black hole completes the search again, arming the raise timer
    exact onBlackHoleDetected_state _ now
  · exact h

theorem complete_step (h : self.state = .searchComplete) {call : Call} {w : Controller}
    {out : Output} (hfire : self.firesRaiseTimer call = false)
    (hstep : self.step call = some (w, out)) : w.state = .searchComplete ∧ out.isProbe = false := by
  cases call with
  | enable =>
    cases hstep
    simp [enable, h, Output.isProbe]
  | onTimeout now =>
    cases hstep
    refine ⟨?_, rfl⟩
    unfold onTimeout
    simp only [firesRaiseTimer] at hfire
    rcases Timer.pollExpiration_cases self.pmtuRaiseTimer now with ⟨-, hpoll⟩ | ⟨-, hpoll⟩ <;>
      rw [hpoll] at hfire ⊢
    · cases hfire
    · exact h
  | onPacketAck packetNumber sentBytes =>
    simp only [step, Option.some.injEq, Prod.mk.injEq] at hstep
    obtain ⟨rfl, rfl⟩ := hstep
    refine ⟨?_, rfl⟩
    unfold onPacketAck
    rw [onEarlySearchAck_of_ne (by rw [h]; exact State.noConfusion)]
    dsimp only
    split_ifs
    · exact h
    · exact h
    · have hsized : (self.onMtuSizedAck packetNumber sentBytes).state = .searchComplete := by
        rw [onMtuSizedAck_state, h]
      rw [onProbeAck_of_complete hsized]
      exact hsized
  | onPacketLoss packetNumber lostBytes newLossBurst now =>
    simp only [step, Option.some.injEq, Prod.mk.injEq] at hstep
    obtain ⟨rfl, rfl⟩ := hstep
    refine ⟨?_, rfl⟩
    unfold onPacketLoss
    by_cases hguard : self.state = .earlySearchRequested ∨ packetNumber.space = .applicationData
    swap
    · rw [if_pos hguard]
      exact h
    rw [if_neg (not_not.mpr hguard)]
    simp only [h]
    exact onNonProbeLoss_of_complete h packetNumber lostBytes newLossBurst now
  | onTransmit context =>
    obtain ⟨⟨w', probe⟩, ht, heq⟩ := Option.map_eq_some_iff.mp hstep
    cases heq
    simp [onTransmit, h] at ht
    obtain ⟨rfl, rfl⟩ := ht
    exact ⟨h, rfl⟩

theorem complete_run (h : self.state = .searchComplete) {calls : List Call} {w : Controller}
    {outs : List Output} (hfire : self.runAll (fun s call => !s.firesRaiseTimer call) calls = true)
    (hrun : self.run calls = some (w, outs)) :
    w.state = .searchComplete ∧ outs.countP Output.isProbe = 0 := by
  induction calls generalizing self outs with
  | nil =>
    cases hrun
    exact ⟨h, rfl⟩
  | cons call calls ih =>
    obtain ⟨s, out, outs', hs, hrest, rfl⟩ := run_cons hrun
    simp only [runAll, hs, Bool.and_eq_true, Bool.not_eq_true'] at hfire
    obtain ⟨hcomplete, hout⟩ := complete_step h hfire.1 hs
    obtain ⟨hw, hcount⟩ := ih hcomplete hfire.2 hrest
    refine ⟨hw, ?_⟩
    rw [List.countP_cons, hcount, hout]
    rfl

end Complete

/-- From every controller state that keeps the size ordering and the probe count bounds, with no
raise timer expiration and no black hole detected: at most
`MAX_PROBES * (⌊log₂ (max 1 (max_udp_payload - base_plpmtu))⌋ + 1)` probes are sent, and a
controller with no probe out that has not completed the search has sent fewer; a completed search
stays complete and sends no probe until the raise timer expires. -/
theorem mtu_search_bounded (controller : Controller) (hinv : controller.Inv) (calls : List Call)
    {w : Controller} {outs : List Output} (hrun : controller.run calls = some (w, outs)) :
    (controller.runAll quiet calls = true →
      outs.countP Output.isProbe ≤
          MAX_PROBES * (Nat.log 2 (max 1 (controller.maxUdpPayload - controller.basePlpmtu)) + 1) ∧
        (w.state ≠ .searchComplete → w.state.isSearching = false →
          outs.countP Output.isProbe <
            MAX_PROBES * (Nat.log 2 (max 1 (controller.maxUdpPayload - controller.basePlpmtu)) + 1))) ∧
    (controller.state = .searchComplete →
      controller.runAll (fun s call => !s.firesRaiseTimer call) calls = true →
      w.state = .searchComplete ∧ outs.countP Output.isProbe = 0) := by
  refine ⟨fun hquiet => ?_, fun hcomplete hfire => complete_run hcomplete hfire hrun⟩
  have hpotential := potential_run hinv hquiet hrun
  have hbound : controller.probePotential ≤
      MAX_PROBES * (Nat.log 2 (max 1 (controller.maxUdpPayload - controller.basePlpmtu)) + 1) :=
    (potential_le hinv).trans
      (Nat.mul_le_mul_left _ (Nat.succ_le_succ (searchRounds_le_log _)))
  refine ⟨by omega, fun hincomplete hsearching => ?_⟩
  have hleft : w.probePotential ≠ 0 := fun hzero =>
    hincomplete (state_of_potential_eq_zero (hinv.run hrun) hzero hsearching)
  omega

private def searchEthernetMtu : Mtu := ⟨1500, Nat.le_of_ble_eq_true rfl, Nat.le_of_ble_eq_true rfl⟩

private def searchJumboMtu : Mtu := ⟨9001, Nat.le_of_ble_eq_true rfl, Nat.le_of_ble_eq_true rfl⟩

private def firstProbe : PacketNumber := ⟨.applicationData, ⟨7, Nat.le_of_ble_eq_true rfl⟩⟩

private def searchCalls : List Call :=
  [.enable, .onTransmit ⟨.mtuProbing, 20, 16, 10000, some firstProbe, 0⟩,
    .onPacketAck firstProbe 5222]

theorem mtu_search_bounded_first_probe :
    ∃ controller w outs, Controller.new ⟨searchEthernetMtu, searchEthernetMtu, searchJumboMtu⟩ .ipV4 = some controller ∧
      controller.run searchCalls = some (w, outs) ∧ controller.runAll quiet searchCalls = true ∧
      outs.countP Output.isProbe = 1 ∧
      outs.countP Output.isProbe ≤
        MAX_PROBES * (Nat.log 2 (max 1 (controller.maxUdpPayload - controller.basePlpmtu)) + 1) := by
  have hnew : Controller.new ⟨searchEthernetMtu, searchEthernetMtu, searchJumboMtu⟩ .ipV4 =
      some ⟨.disabled, 1472, 1472, 8973, 5222, 8973, 0, 0, none, {}⟩ := rfl
  have hbound := (mtu_search_bounded _ (Inv.new hnew) searchCalls rfl).1 rfl
  exact ⟨_, _, _, hnew, rfl, rfl, rfl, hbound.1⟩

end Controller

end S2nQuic.Path.Mtu
