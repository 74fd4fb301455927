import S2nQuic.Sync.DataSender.Transmissions

/-!
# The data sender of a stream or of the crypto stream

`DataSender` (`sync/data_sender.rs`) buffers the data pushed on a stream and sends it in STREAM or
CRYPTO frames. Every range not yet acknowledged is `pending`, the ranges declared lost are `lost`,
and the data from `transmission_offset` on has never been sent. `on_transmit` retransmits lost
ranges first, then sends new data, then the FIN, and in a loss recovery probe resends data sent
before; acknowledgements release the buffer up to the lowest pending offset.

`check_integrity` is not a step of the model: its assertions, and the `lost ⊆ pending` it leaves
as a TODO, are what `Inv` proves of every reachable sender. The interval sets' `expect`s and the
`debug_assert!`s return `none`.
-/

-- the structure keeps the source's name inside the namespace of its module
set_option linter.dupNamespace false

namespace S2nQuic.Sync.DataSender
open IntervalSet Varint Packet Transmission OutgoingDataFlowController FrameWriter

/-- `IntervalSet::clear`. -/
def clearSet (set : IntervalSet) : IntervalSet := { set with intervals := [] }

/-- `remove` of each range, which the source `expect`s to succeed. -/
def removeRanges (set : IntervalSet) : List Interval → Option IntervalSet
  | [] => some set
  | range :: rest =>
    match set.remove maxVarintValue (.included range.start) (.included range.«end») with
    | (set, .ok ()) => removeRanges set rest
    | (_, .error _) => none

/-- `insert` of each range, which the source `expect`s to succeed. -/
def insertRanges (set : IntervalSet) : List Interval → Option IntervalSet
  | [] => some set
  | range :: rest =>
    match set.insert maxVarintValue (.included range.start) (.included range.«end») with
    | (set, .ok ()) => insertRanges set rest
    | (_, .error _) => none

/-- `intersection`, which the source `expect`s to succeed. -/
def intersect (set other : IntervalSet) : Option IntervalSet :=
  match set.intersection maxVarintValue other with
  | (set, .ok ()) => some set
  | (_, .error _) => none

/-- `DataSender`; the frame writer `W` gives the constants and the frames. -/
structure DataSender (F W : Type) where
  buffer : Buffer
  transmissions : Transmissions F
  transmissionOffset : Nat
  pending : IntervalSet
  lost : IntervalSet
  maxBufferCapacity : Nat
  state : State

namespace DataSender

variable {F W : Type} [OutgoingDataFlowController F] [FrameWriter W]

def new (flowController : F) (maxBufferCapacity : Nat) : DataSender F W :=
  ⟨{}, .new flowController, 0, .new, .new, maxBufferCapacity, .sending⟩

def totalEnqueuedLen (self : DataSender F W) : Nat := self.buffer.totalLen

def isIdle (self : DataSender F W) : Bool :=
  self.transmissions.isEmpty && self.pending.isEmpty && self.lost.isEmpty

/-- `stop_sending`: everything pending is dropped and the transmissions forgotten. -/
def stopSending (self : DataSender F W) : DataSender F W :=
  if self.state = .finished then self else
  { self with
    state := .cancelled, buffer := self.buffer.clear, pending := clearSet self.pending,
    lost := clearSet self.lost, transmissions := self.transmissions.finish,
    transmissionOffset := 0 }

/-- `push`, which asserts that the stream is still sending and the chunk fits a `u32`. -/
def push (self : DataSender F W) (data : List UInt8) : Option (DataSender F W) :=
  if self.state ≠ .sending then none else
  if 2 ^ 32 - 1 < data.length then none else
  if data.length = 0 then some self else
  (self.buffer.push data).bind fun (buffer, interval) =>
  match self.pending.insert maxVarintValue (.included interval.start) (.included interval.«end») with
  | (pending, .ok ()) => some { self with buffer, pending }
  | (_, .error _) => none

def finish (self : DataSender F W) : DataSender F W :=
  if self.state ≠ .sending then self
  else { self with state := .finishing (if WRITES_FIN W then .pending else .acknowledged) }

/-- What `on_packet_ack` does once a range was acknowledged: lost drops what was acknowledged, and
the buffer is released up to the lowest pending offset, or all of it with the transmissions. -/
def onRangesAcked (self : DataSender F W) : Option (DataSender F W) :=
  (intersect self.lost self.pending).bind fun lost =>
  match self.pending.minValue with
  | some first => (self.buffer.release first).map fun buffer => { self with lost, buffer }
  | none =>
    some { self with
      lost, buffer := self.buffer.releaseAll, transmissions := self.transmissions.clear }

def onPacketAck (self : DataSender F W) (ackSet : PacketNumberRange) : Option (DataSender F W) :=
  let (transmissions, acked) := self.transmissions.onAckSignal ackSet
  (removeRanges self.pending acked).bind fun pending =>
  let state := if WRITES_FIN W then self.state.mapFin (·.onPacketAck ackSet) else self.state
  let self := { self with transmissions, pending, state }
  (if acked.isEmpty then some self else self.onRangesAcked).bind fun self =>
  -- all data and the FIN acknowledged: the stream is finished
  if self.state = .finishing .acknowledged ∧ self.isIdle then
    some { self with
      state := .finished, buffer := self.buffer.releaseAll,
      transmissions := { self.transmissions with
        flowController := OutgoingDataFlowController.finish self.transmissions.flowController } }
  else some self

/-- `fin_state_mut` and `FinState::on_packet_loss`: the state, and whether the FIN was lost. -/
def State.onFinLoss (state : State) (ackSet : PacketNumberRange) : State × Bool :=
  match state with
  | .finishing finState =>
    let (finState, lost) := finState.onPacketLoss ackSet
    (.finishing finState, lost)
  | state => (state, false)

def onPacketLoss (self : DataSender F W) (ackSet : PacketNumberRange) : Option (DataSender F W) :=
  let (transmissions, lostRanges) := self.transmissions.onAckSignal ackSet
  (insertRanges self.lost lostRanges).bind fun lost =>
  let (state, finLost) := if WRITES_FIN W then State.onFinLoss self.state ackSet else (self.state, false)
  let self := { self with transmissions, lost, state }
  if lostRanges.isEmpty && !finLost then some self else
  -- a retransmission is no longer blocked on flow control, and what was acknowledged in
  -- another packet is not lost
  (intersect self.lost self.pending).map fun lost =>
    { self with lost, transmissions := { self.transmissions with
      flowController := clearBlocked self.transmissions.flowController } }

/-- The first block of `on_transmit_impl`: lost ranges are retransmitted first. -/
def retransmitLost (self : DataSender F W) (writerContext : Context W) (context : WriteContext) :
    Option (DataSender F W × WriteContext × Except OnTransmitError Bool) :=
  if context.transmissionConstraint.canRetransmit then
    (self.transmissions.transmitSet self.buffer self.lost self.state writerContext context).map
      fun (transmissions, lost, state, context, result) =>
        ({ self with transmissions, lost, state }, context, result)
  else some (self, context, .ok false)

/-- The second block: data never sent, unless flow control was blocked. -/
def transmitNew (self : DataSender F W) (isBlocked : Bool) (writerContext : Context W)
    (context : WriteContext) : Option (DataSender F W × WriteContext × Except OnTransmitError Unit) :=
  if !isBlocked && context.transmissionConstraint.canTransmit &&
      self.transmissionOffset < self.buffer.totalLen then
    (self.transmissions.transmitInterval self.buffer.viewer self.buffer
        ⟨self.transmissionOffset, self.buffer.totalLen - 1⟩ self.state writerContext context).map
      fun (transmissions, _, state, context, result) =>
        match result with
        | .ok interval =>
          ({ self with transmissions, state, transmissionOffset := interval.endExclusive maxVarintValue },
            context, .ok ())
        | .error e => ({ self with transmissions, state }, context, .error e)
  else some (self, context, .ok ())

/-- The third block: the FIN, if it is due and flow control was not blocked. -/
def transmitFinBlock (self : DataSender F W) (isBlocked : Bool) (writerContext : Context W)
    (context : WriteContext) : DataSender F W × WriteContext × Except OnTransmitError Unit :=
  if WRITES_FIN W && self.state.canTransmitFin context.transmissionConstraint isBlocked then
    let (state, context, result) :=
      self.transmissions.transmitFin self.buffer self.state writerContext context
    ({ self with state }, context, result)
  else (self, context, .ok ())

/-- The loop of the last block over the pending intervals that start below the offset new data
started from: each is resent up to that offset. -/
def retransmitInProbeLoop (buffer : Buffer) (startingTransmissionOffset : Nat)
    (writerContext : Context W) :
    Transmissions F → Viewer → State → WriteContext → List Interval →
      Option (Transmissions F × State × WriteContext × Except OnTransmitError Unit)
  | transmissions, _, state, context, [] => some (transmissions, state, context, .ok ())
  | transmissions, viewer, state, context, interval :: rest =>
    if startingTransmissionOffset ≤ interval.start then
      some (transmissions, state, context, .ok ())
    else
      let intervalEnd := min (interval.endExclusive maxVarintValue) startingTransmissionOffset
      match transmissions.transmitInterval (W := W) viewer buffer ⟨interval.start, intervalEnd - 1⟩
          state writerContext context with
      | none => none
      | some (transmissions, viewer, state, context, .ok _) =>
        retransmitInProbeLoop buffer startingTransmissionOffset writerContext transmissions viewer
          state context rest
      | some (transmissions, _, state, context, .error e) =>
        some (transmissions, state, context, .error e)

/-- The last block: a loss recovery probe resends data already sent. -/
def retransmitInProbe (self : DataSender F W) (startingTransmissionOffset : Nat)
    (writerContext : Context W) (context : WriteContext) :
    Option (DataSender F W × WriteContext × Except OnTransmitError Unit) :=
  (retransmitInProbeLoop self.buffer startingTransmissionOffset writerContext self.transmissions
      self.buffer.viewer self.state context self.pending.intervals).map
    fun (transmissions, state, context, result) => ({ self with transmissions, state }, context, result)

def onTransmitImpl (self : DataSender F W) (writerContext : Context W) (context : WriteContext) :
    Option (DataSender F W × WriteContext × Except OnTransmitError Unit) :=
  (self.retransmitLost writerContext context).bind fun (self, context, result) =>
  match result with
  | .error e => some (self, context, .error e)
  | .ok transmittedLost =>
  let isBlocked := isBlocked self.transmissions.flowController
  let startingTransmissionOffset := self.transmissionOffset
  (self.transmitNew isBlocked writerContext context).bind fun (self, context, result) =>
  match result with
  | .error e => some (self, context, .error e)
  | .ok () =>
  match self.transmitFinBlock isBlocked writerContext context with
  | (self, context, .error e) => some (self, context, .error e)
  | (self, context, .ok ()) =>
  if RETRANSMIT_IN_PROBE W && context.transmissionMode.isLossRecoveryProbing && !transmittedLost then
    self.retransmitInProbe startingTransmissionOffset writerContext context
  else some (self, context, .ok ())

/-- `on_transmit`: an error is only reported if nothing was written. -/
def onTransmit (self : DataSender F W) (writerContext : Context W) (context : WriteContext) :
    Option (DataSender F W × WriteContext × Except OnTransmitError Unit) :=
  (self.onTransmitImpl writerContext context).map fun (self, context', result) =>
    match result with
    | .error _ =>
      if context'.remainingCapacity < context.remainingCapacity then (self, context', .ok ())
      else (self, context', result)
    | .ok () => (self, context', result)

end DataSender

/-- The calls a stream makes on its data sender. -/
inductive Call (W : Type) [FrameWriter W]
  | push (data : List UInt8)
  | finish
  | onTransmit (writerContext : Context W) (context : WriteContext)
  | onPacketAck (ackSet : PacketNumberRange)
  | onPacketLoss (ackSet : PacketNumberRange)
  | stopSending

namespace DataSender

variable {F W : Type} [OutgoingDataFlowController F] [FrameWriter W]

def step (self : DataSender F W) : Call W → Option (DataSender F W)
  | .push data => self.push data
  | .finish => some self.finish
  | .onTransmit writerContext context => (self.onTransmit writerContext context).map (·.1)
  | .onPacketAck ackSet => self.onPacketAck ackSet
  | .onPacketLoss ackSet => self.onPacketLoss ackSet
  | .stopSending => some self.stopSending

def run (self : DataSender F W) : List (Call W) → Option (DataSender F W)
  | [] => some self
  | call :: calls => (self.step call).bind fun self => self.run calls

theorem run_append (self : DataSender F W) (calls calls' : List (Call W)) :
    self.run (calls ++ calls') = (self.run calls).bind (·.run calls') := by
  induction calls generalizing self with
  | nil => rfl
  | cons call calls ih => simp only [List.cons_append, run, ih, Option.bind_assoc]

end DataSender

/-! ## The invariant of a reachable sender -/

section Sets

open IntervalList

theorem refines_toSet {set : IntervalSet} {S : Set Nat} (h : set.Refines maxVarintValue S) :
    set.Refines maxVarintValue (toSet set.intervals) ∧ toSet set.intervals = S := by
  obtain ⟨hw, hl, rfl⟩ := h
  exact ⟨⟨hw, hl, rfl⟩, rfl⟩

theorem intervals_eq_nil {set : IntervalSet} (h : set.Refines maxVarintValue (toSet set.intervals))
    (hempty : toSet set.intervals = ∅) : set.intervals = [] := by
  obtain ⟨⟨hc, -⟩, -, -⟩ := h
  cases hl : set.intervals with
  | nil => rfl
  | cons i l =>
    rw [hl] at hc hempty
    have hmem : i.start ∈ toSet (i :: l) := .inl ⟨le_rfl, (canonical_cons.mp hc).1⟩
    rw [hempty] at hmem
    exact absurd hmem (Set.notMem_empty _)

theorem mem_toSet_of_mem {l : List Interval} {i : Interval} (hi : i ∈ l) :
    Set.Icc i.start i.«end» ⊆ toSet l :=
  fun _ hv => mem_toSet.mpr ⟨i, hi, hv⟩

theorem removeRanges_spec {ranges : List Interval} :
    ∀ {set set' : IntervalSet} {S : Set Nat}, set.Refines maxVarintValue S →
      (∀ r ∈ ranges, r.start ≤ r.«end» ∧ r.«end» ≤ maxVarintValue) →
      removeRanges set ranges = some set' → set'.Refines maxVarintValue (S \ toSet ranges) := by
  induction ranges with
  | nil =>
    intro set set' S hset _ h
    cases h
    simpa using hset
  | cons r rest ih =>
    intro set set' S hset hr h
    obtain ⟨hv, hM⟩ := hr r List.mem_cons_self
    unfold removeRanges at h
    split at h
    · rename_i set₁ hrem
      have h₁ := hset.remove Ack.Ranges.maxVarintValue_le_usize
        (a := .included r.start) (b := .included r.«end») ⟨hv.trans hM, hM⟩
      rw [hrem, rangeSet_included hM] at h₁
      have := ih h₁ (fun x hx => hr x (List.mem_cons_of_mem _ hx)) h
      simpa only [toSet_cons, lo_eq, hi_eq, Set.sdiff_sdiff] using this
    · cases h

theorem insertRanges_spec {ranges : List Interval} :
    ∀ {set set' : IntervalSet} {S : Set Nat}, set.Refines maxVarintValue S →
      (∀ r ∈ ranges, r.start ≤ r.«end» ∧ r.«end» ≤ maxVarintValue) →
      insertRanges set ranges = some set' → set'.Refines maxVarintValue (S ∪ toSet ranges) := by
  induction ranges with
  | nil =>
    intro set set' S hset _ h
    cases h
    simpa using hset
  | cons r rest ih =>
    intro set set' S hset hr h
    obtain ⟨hv, hM⟩ := hr r List.mem_cons_self
    unfold insertRanges at h
    split at h
    · rename_i set₁ hins
      have h₁ := hset.insert Ack.Ranges.maxVarintValue_le_usize
        (a := .included r.start) (b := .included r.«end») ⟨hv.trans hM, hM⟩
      rw [hins, rangeSet_included hM] at h₁
      have := ih h₁ (fun x hx => hr x (List.mem_cons_of_mem _ hx)) h
      simpa only [toSet_cons, lo_eq, hi_eq, Set.union_assoc] using this
    · cases h

theorem intersect_spec {set other set' : IntervalSet} {S : Set Nat}
    (hset : set.Refines maxVarintValue S) (ho : other.WellFormed maxVarintValue)
    (h : intersect set other = some set') : set'.Refines maxVarintValue (S ∩ toSet other.intervals) := by
  unfold intersect at h
  split at h
  · rename_i set₁ hint
    cases h
    have := hset.intersection ho
    rwa [hint] at this
  · cases h

theorem intersect_self {set : IntervalSet} (h : set.WellFormed maxVarintValue) :
    intersect set set = some set := by
  obtain ⟨hc, hb⟩ := h
  simp only [intersect, IntervalSet.intersection, applyIntersection_eq _ hc hc hb hb, inter_self hc]

theorem minValue_eq_some {set : IntervalSet} {first : Nat} (hc : Canonical set.intervals)
    (h : set.minValue = some first) :
    first ∈ toSet set.intervals ∧ ∀ v ∈ toSet set.intervals, first ≤ v := by
  unfold IntervalSet.minValue at h
  cases hl : set.intervals with
  | nil =>
    rw [hl] at h
    cases h
  | cons i rest =>
    rw [hl] at h hc
    simp only [List.head?_cons, Option.map_some, Option.some.injEq] at h
    subst h
    exact ⟨.inl ⟨le_rfl, (canonical_cons.mp hc).1⟩, fun v hv => lo_le_of_mem_toSet hc hv⟩

theorem minValue_eq_none {set : IntervalSet} (h : set.minValue = none) : set.intervals = [] := by
  unfold IntervalSet.minValue at h
  simpa using h

end Sets

namespace DataSender

open IntervalList

variable {F W : Type} [OutgoingDataFlowController F] [FrameWriter W] {self self' : DataSender F W}

/-- The facts about the sets that also hold halfway through `on_packet_ack`, before the buffer is
released. -/
structure Sets (sender : DataSender F W) : Prop where
  pending : sender.pending.Refines maxVarintValue (toSet sender.pending.intervals)
  lost : sender.lost.Refines maxVarintValue (toSet sender.lost.intervals)
  total_le : sender.buffer.totalLen ≤ maxVarintValue
  offset_le : sender.transmissionOffset ≤ sender.buffer.totalLen
  pending_sub : toSet sender.pending.intervals ⊆ Set.Ico sender.buffer.head sender.buffer.totalLen
  unsent_sub : Set.Ico sender.transmissionOffset sender.buffer.totalLen ⊆ toSet sender.pending.intervals
  lost_lt : ∀ v ∈ toSet sender.lost.intervals, v < sender.transmissionOffset
  inFlight_lt : ∀ p ∈ sender.transmissions.inFlight, p.2.start ≤ p.2.«end» ∧ p.2.«end» < sender.transmissionOffset

/-- What every reachable sender satisfies: the assertions of `check_integrity`, and the
`lost ⊆ pending` it leaves as a TODO. -/
structure Inv (sender : DataSender F W) : Prop extends Sets sender where
  lost_sub : toSet sender.lost.intervals ⊆ toSet sender.pending.intervals
  head_mem : sender.pending.intervals ≠ [] → sender.buffer.head ∈ toSet sender.pending.intervals
  empty : sender.pending.intervals = [] →
    sender.lost.intervals = [] ∧ sender.transmissions.inFlight = [] ∧
      sender.buffer.head = sender.buffer.totalLen

omit [OutgoingDataFlowController F] [FrameWriter W] in
theorem Inv.of_eq (h : self.Inv) (hp : self'.pending = self.pending) (hl : self'.lost = self.lost)
    (hf : ∀ p ∈ self'.transmissions.inFlight, p ∈ self.transmissions.inFlight)
    (ho : self'.transmissionOffset = self.transmissionOffset)
    (hh : self'.buffer.head = self.buffer.head) (ht : self'.buffer.totalLen = self.buffer.totalLen) :
    self'.Inv := by
  obtain ⟨⟨h₁, h₂, h₃, h₄, h₅, h₆, h₇, h₈⟩, h₉, h₁₀, h₁₁⟩ := h
  refine ⟨⟨?_, ?_, ?_, ?_, ?_, ?_, ?_, fun p hp' => ?_⟩, ?_, ?_, fun hnil => ?_⟩ <;>
    simp only [hp, hl, ho, hh, ht] at * <;> try assumption
  · exact h₈ p (hf p hp')
  · obtain ⟨hlost, hflight, hhead⟩ := h₁₁ hnil
    refine ⟨hlost, List.eq_nil_iff_forall_not_mem.mpr fun p hp' => ?_, hhead⟩
    exact List.not_mem_nil (hflight ▸ hf p hp')

omit [OutgoingDataFlowController F] [FrameWriter W] in
theorem Inv.new (flowController : F) (maxBufferCapacity : Nat) :
    (DataSender.new (W := W) flowController maxBufferCapacity).Inv := by
  refine ⟨⟨IntervalSet.refines_new, IntervalSet.refines_new, ?_, ?_, ?_, ?_, ?_, ?_⟩, ?_, ?_, ?_⟩ <;>
    simp [DataSender.new, Buffer.totalLen, Buffer.enqueuedLen, Transmissions.new, IntervalSet.new]

omit [OutgoingDataFlowController F] in
theorem Inv.finish (h : self.Inv) : self.finish.Inv := by
  unfold DataSender.finish
  split_ifs
  · exact h
  all_goals exact h.of_eq rfl rfl (fun _ hp => hp) rfl rfl rfl

omit [FrameWriter W] in
theorem Inv.stopSending (h : self.Inv) : self.stopSending.Inv := by
  unfold DataSender.stopSending
  split_ifs
  · exact h
  obtain ⟨⟨⟨⟨-, -⟩, hlim, -⟩, ⟨⟨-, -⟩, hlim', -⟩, -⟩, -⟩ := h
  refine ⟨⟨⟨⟨canonical_nil, bounded_nil _⟩, hlim, rfl⟩, ⟨⟨canonical_nil, bounded_nil _⟩, hlim', rfl⟩,
    ?_, ?_, ?_, ?_, ?_, ?_⟩, ?_, ?_, ?_⟩ <;>
    simp [clearSet, Transmissions.finish, Transmissions.clear]

omit [OutgoingDataFlowController F] [FrameWriter W] in
theorem Inv.push (h : self.Inv) {data : List UInt8} (hpush : self.push data = some self') :
    self'.Inv := by
  unfold DataSender.push at hpush
  split_ifs at hpush with hstate hlong hempty
  · cases hpush
    exact h
  obtain ⟨⟨buffer, interval⟩, hbuffer, hpush⟩ := Option.bind_eq_some_iff.mp hpush
  dsimp only at hpush
  obtain ⟨htotal, hstart, hend, hhead, hle⟩ := Buffer.totalLen_push hbuffer
  split at hpush
  · rename_i pending hins
    cases hpush
    have hP := h.pending.insert Ack.Ranges.maxVarintValue_le_usize
      (a := .included interval.start) (b := .included interval.«end») ⟨by omega, by omega⟩
    rw [hins, rangeSet_included (by omega)] at hP
    obtain ⟨hP, hPeq⟩ := refines_toSet hP
    have hchunk : Set.Icc interval.start interval.«end» =
        Set.Ico self.buffer.totalLen buffer.totalLen := by
      ext v
      simp only [Set.mem_Icc, Set.mem_Ico]
      omega
    have hhead_le : self.buffer.head ≤ self.buffer.totalLen := Nat.le_add_right _ _
    have hnew : self.buffer.totalLen ∈ toSet pending.intervals := by
      rw [hPeq, hchunk]
      exact .inr ⟨le_rfl, by omega⟩
    refine ⟨⟨hP, h.lost, hle, ?_, ?_, ?_, h.lost_lt, h.inFlight_lt⟩, ?_, ?_, ?_⟩ <;> dsimp only
    · exact h.offset_le.trans (by omega)
    · rw [hPeq, hchunk, hhead]
      exact Set.union_subset (h.pending_sub.trans (Set.Ico_subset_Ico le_rfl (by omega)))
        (Set.Ico_subset_Ico hhead_le le_rfl)
    · rw [hPeq, hchunk, ← Set.Ico_union_Ico_eq_Ico h.offset_le (by omega)]
      exact Set.union_subset_union h.unsent_sub le_rfl
    · rw [hPeq]
      exact h.lost_sub.trans Set.subset_union_left
    · intro _
      rw [hhead]
      by_cases hold : self.pending.intervals = []
      · rw [(h.empty hold).2.2]
        exact hnew
      · rw [hPeq]
        exact .inl (h.head_mem hold)
    · intro hnil
      rw [hnil] at hnew
      exact absurd hnew (Set.notMem_empty _)
  · cases hpush

omit [OutgoingDataFlowController F] [FrameWriter W] in
theorem Inv.onRangesAcked (h : self.Sets) (hacked : self.onRangesAcked = some self') : self'.Inv := by
  unfold DataSender.onRangesAcked at hacked
  obtain ⟨lost, hlost, hacked⟩ := Option.bind_eq_some_iff.mp hacked
  obtain ⟨⟨hPc, hPb⟩, hPl, -⟩ := h.pending
  obtain ⟨hL, hLeq⟩ := refines_toSet (intersect_spec h.lost ⟨hPc, hPb⟩ hlost)
  split at hacked
  · rename_i first hmin
    obtain ⟨buffer, hrelease, rfl⟩ := Option.map_eq_some_iff.mp hacked
    obtain ⟨hhead, htotal⟩ := Buffer.release_spec hrelease
    obtain ⟨hmem, hleast⟩ := minValue_eq_some hPc hmin
    have hfirst : buffer.head = first := by
      rw [hhead]
      exact max_eq_right (h.pending_sub hmem).1
    refine ⟨⟨h.pending, hL, htotal ▸ h.total_le, htotal ▸ h.offset_le, ?_, htotal ▸ h.unsent_sub,
      fun v hv => h.lost_lt v (hLeq ▸ hv).1, h.inFlight_lt⟩, ?_, ?_, ?_⟩ <;> dsimp only
    · intro v hv
      exact ⟨hfirst ▸ hleast v hv, htotal ▸ (h.pending_sub hv).2⟩
    · rw [hLeq]
      exact Set.inter_subset_right
    · intro _
      rw [hfirst]
      exact hmem
    · intro hnil
      rw [hnil] at hmem
      exact absurd hmem (Set.notMem_empty _)
  · -- nothing is pending: the whole buffer is released and no transmission is tracked
    rename_i hmin
    cases hacked
    have hnil := minValue_eq_none hmin
    have hunsent := h.unsent_sub
    rw [hnil, toSet_nil, Set.subset_empty_iff, Set.Ico_eq_empty_iff, not_lt] at hunsent
    refine ⟨⟨h.pending, hL, h.total_le, h.offset_le, ?_, ?_, fun v hv => h.lost_lt v (hLeq ▸ hv).1,
      by simp [Transmissions.clear]⟩, ?_, ?_, ?_⟩ <;> dsimp only
    · rw [hnil]
      exact Set.empty_subset _
    · rw [hnil, toSet_nil, Buffer.totalLen_releaseAll]
      exact (Set.Ico_eq_empty_iff.mpr (not_lt.mpr hunsent)).subset
    · rw [hLeq, hnil, toSet_nil]
      exact Set.inter_subset_right
    · intro hne
      exact absurd hnil hne
    · intro _
      refine ⟨intervals_eq_nil hL ?_, rfl, by simp⟩
      rw [hLeq, hnil, toSet_nil, Set.inter_empty]

theorem Inv.onPacketAck (h : self.Inv) {ackSet : PacketNumberRange}
    (hack : self.onPacketAck ackSet = some self') : self'.Inv := by
  unfold DataSender.onPacketAck at hack
  generalize hsignal : self.transmissions.onAckSignal ackSet = signal at hack
  obtain ⟨transmissions, acked⟩ := signal
  dsimp only at hack
  have hflight : ∀ p ∈ transmissions.inFlight, p ∈ self.transmissions.inFlight := fun p hp =>
    Transmissions.mem_onAckSignal_fst (by rw [hsignal]; exact hp)
  have hacked : ∀ r ∈ acked, r.start ≤ r.«end» ∧ r.«end» < self.transmissionOffset := by
    intro r hr
    obtain ⟨packetNumber, hmem⟩ := Transmissions.mem_onAckSignal_snd (by rw [hsignal]; exact hr)
    exact h.inFlight_lt _ hmem
  obtain ⟨pending, hremove, hack⟩ := Option.bind_eq_some_iff.mp hack
  obtain ⟨hP, hPeq⟩ := refines_toSet (removeRanges_spec h.pending (fun r hr =>
    ⟨(hacked r hr).1, by have := (hacked r hr).2; have := h.offset_le; have := h.total_le; omega⟩)
    hremove)
  obtain ⟨self₂, hself₂, hack⟩ := Option.bind_eq_some_iff.mp hack
  have hinv₂ : self₂.Inv := by
    by_cases hempty : acked.isEmpty = true
    · -- nothing was acknowledged: pending stays as it was
      rw [if_pos hempty] at hself₂
      obtain rfl : acked = [] := List.isEmpty_iff.mp hempty
      cases hremove
      cases hself₂
      exact h.of_eq rfl rfl hflight rfl rfl rfl
    · rw [if_neg hempty] at hself₂
      refine Inv.onRangesAcked ?_ hself₂
      refine ⟨hP, h.lost, h.total_le, h.offset_le, ?_, ?_, h.lost_lt,
        fun p hp => h.inFlight_lt p (hflight p hp)⟩ <;> dsimp only <;> rw [hPeq]
      · exact Set.sdiff_subset.trans h.pending_sub
      · -- data never sent was never acknowledged
        intro v hv
        refine ⟨h.unsent_sub hv, fun hmem => ?_⟩
        obtain ⟨r, hr, -, hle⟩ := mem_toSet.mp hmem
        have := (hacked r hr).2
        simp only [hi_eq] at hle
        exact absurd hv.1 (by omega)
  split_ifs at hack with hdone
  · -- all data and the FIN acknowledged: the stream is finished
    cases hack
    have hidle := hdone.2
    simp only [isIdle, IntervalSet.isEmpty, Bool.and_eq_true, List.isEmpty_iff] at hidle
    have hnil : self₂.pending.intervals = [] := hidle.1.2
    exact hinv₂.of_eq rfl rfl (fun _ hp => hp) rfl
      (by rw [Buffer.head_releaseAll, (hinv₂.empty hnil).2.2]) (Buffer.totalLen_releaseAll _)
  · cases hack
    exact hinv₂

theorem Inv.onPacketLoss (h : self.Inv) {ackSet : PacketNumberRange}
    (hloss : self.onPacketLoss ackSet = some self') : self'.Inv := by
  unfold DataSender.onPacketLoss at hloss
  generalize hsignal : self.transmissions.onAckSignal ackSet = signal at hloss
  obtain ⟨transmissions, lostRanges⟩ := signal
  dsimp only at hloss
  have hflight : ∀ p ∈ transmissions.inFlight, p ∈ self.transmissions.inFlight := fun p hp =>
    Transmissions.mem_onAckSignal_fst (by rw [hsignal]; exact hp)
  have hranges : ∀ r ∈ lostRanges, r.start ≤ r.«end» ∧ r.«end» < self.transmissionOffset := by
    intro r hr
    obtain ⟨packetNumber, hmem⟩ := Transmissions.mem_onAckSignal_snd (by rw [hsignal]; exact hr)
    exact h.inFlight_lt _ hmem
  obtain ⟨lost, hinsert, hloss⟩ := Option.bind_eq_some_iff.mp hloss
  generalize (if WRITES_FIN W then State.onFinLoss self.state ackSet else (self.state, false)) = fin
    at hloss
  obtain ⟨state, finLost⟩ := fin
  dsimp only at hloss
  by_cases hquiet : (lostRanges.isEmpty && !finLost) = true
  · -- nothing was lost
    rw [if_pos hquiet] at hloss
    cases hloss
    simp only [Bool.and_eq_true, List.isEmpty_iff] at hquiet
    obtain ⟨rfl, -⟩ := hquiet
    cases hinsert
    exact h.of_eq rfl rfl hflight rfl rfl rfl
  rw [if_neg hquiet] at hloss
  obtain ⟨lost₂, hint, rfl⟩ := Option.map_eq_some_iff.mp hloss
  have hL := insertRanges_spec h.lost (fun r hr =>
    ⟨(hranges r hr).1, by have := (hranges r hr).2; have := h.offset_le; have := h.total_le; omega⟩)
    hinsert
  obtain ⟨⟨hPc, hPb⟩, -, -⟩ := h.pending
  -- what was acknowledged in another packet is not lost
  obtain ⟨hL₂, hL₂eq⟩ := refines_toSet (intersect_spec hL ⟨hPc, hPb⟩ hint)
  refine ⟨⟨h.pending, hL₂, h.total_le, h.offset_le, h.pending_sub, h.unsent_sub, ?_,
    fun p hp => h.inFlight_lt p (hflight p hp)⟩, ?_, h.head_mem, ?_⟩ <;> dsimp only
  · intro v hv
    rw [hL₂eq] at hv
    rcases hv.1 with hv | hv
    · exact h.lost_lt v hv
    · obtain ⟨r, hr, -, hle⟩ := mem_toSet.mp hv
      have := (hranges r hr).2
      simp only [hi_eq] at hle
      omega
  · rw [hL₂eq]
    exact Set.inter_subset_right
  · intro hnil
    obtain ⟨-, hfnil, hhead⟩ := h.empty hnil
    refine ⟨intervals_eq_nil hL₂ (by rw [hL₂eq, hnil, toSet_nil, Set.inter_empty]),
      List.eq_nil_iff_forall_not_mem.mpr fun p hp => ?_, hhead⟩
    have := hflight p hp
    rw [hfnil] at this
    exact List.not_mem_nil this

variable {writerContext : Context W} {context context' : WriteContext}

theorem Inv.retransmitLost (h : self.Inv) {result : Except OnTransmitError Bool}
    (hlost : self.retransmitLost writerContext context = some (self', context', result)) :
    self'.Inv := by
  unfold DataSender.retransmitLost at hlost
  split_ifs at hlost
  · obtain ⟨⟨transmissions, lost, state, context₁, result₁⟩, hset, hlost⟩ :=
      Option.map_eq_some_iff.mp hlost
    simp only [Prod.mk.injEq] at hlost
    obtain ⟨rfl, -, -⟩ := hlost
    obtain ⟨L', hL', hsub, added, hadded, hall⟩ := Transmissions.transmitSet_spec h.lost hset
    obtain ⟨hL', hL'eq⟩ := refines_toSet hL'
    have hsent : ∀ p ∈ added, p.2.start ≤ p.2.«end» ∧ p.2.«end» ∈ toSet self.lost.intervals :=
      fun p hp => ⟨(hall p hp).1, (hall p hp).2 ⟨(hall p hp).1, le_rfl⟩⟩
    refine ⟨⟨h.pending, hL', h.total_le, h.offset_le, h.pending_sub, h.unsent_sub,
      fun v hv => h.lost_lt v (hsub (hL'eq ▸ hv)), ?_⟩, hL'eq ▸ hsub.trans h.lost_sub, h.head_mem, ?_⟩ <;>
      dsimp only
    · rw [hadded]
      intro p hp
      rcases List.mem_append.mp hp with hp | hp
      · exact h.inFlight_lt p hp
      · exact ⟨(hsent p hp).1, h.lost_lt _ (hsent p hp).2⟩
    · intro hnil
      obtain ⟨hlnil, hfnil, hhead⟩ := h.empty hnil
      rw [hlnil, toSet_nil] at hsub hsent
      refine ⟨intervals_eq_nil hL' (by rw [hL'eq]; exact Set.subset_eq_empty hsub rfl), ?_, hhead⟩
      rw [hadded, hfnil, List.nil_append, List.eq_nil_iff_forall_not_mem]
      exact fun p hp => Set.notMem_empty _ (hsent p hp).2
  · simp only [Option.some.injEq, Prod.mk.injEq] at hlost
    obtain ⟨rfl, -, -⟩ := hlost
    exact h

theorem Inv.transmitNew (h : self.Inv) {isBlocked : Bool} {result : Except OnTransmitError Unit}
    (hnew : self.transmitNew isBlocked writerContext context = some (self', context', result)) :
    self'.Inv ∧ self.transmissionOffset ≤ self'.transmissionOffset := by
  unfold DataSender.transmitNew at hnew
  split_ifs at hnew with hsend
  · simp only [Bool.and_eq_true, decide_eq_true_eq] at hsend
    obtain ⟨-, hlt⟩ := hsend
    obtain ⟨⟨transmissions, viewer, state, context₁, result₁⟩, htransmit, hnew⟩ :=
      Option.map_eq_some_iff.mp hnew
    rcases Transmissions.transmitInterval_spec (by dsimp only; omega) htransmit with
      ⟨e, rfl, hflight⟩ | ⟨i, rfl, hflight, hs, hv, he⟩
    · simp only [Prod.mk.injEq] at hnew
      obtain ⟨rfl, -, -⟩ := hnew
      exact ⟨h.of_eq rfl rfl (by rw [hflight]; exact fun _ hp => hp) rfl rfl rfl, le_rfl⟩
    · dsimp only at hs he
      have htotal := h.total_le
      have hoffset : i.endExclusive maxVarintValue = i.«end» + 1 :=
        stepUpSaturating_of_lt _ (by omega)
      simp only [Prod.mk.injEq, hoffset] at hnew
      obtain ⟨rfl, -, -⟩ := hnew
      refine ⟨⟨⟨h.pending, h.lost, h.total_le, ?_, h.pending_sub, ?_, ?_, ?_⟩, h.lost_sub, h.head_mem,
        ?_⟩, ?_⟩ <;> dsimp only
      · omega
      · exact (Set.Ico_subset_Ico_left (by omega)).trans h.unsent_sub
      · exact fun v hv => (h.lost_lt v hv).trans (by omega)
      · rw [hflight]
        intro p hp
        rcases List.mem_append.mp hp with hp | hp
        · exact ⟨(h.inFlight_lt p hp).1, (h.inFlight_lt p hp).2.trans (by omega)⟩
        · rw [List.mem_singleton] at hp
          subst hp
          exact ⟨hv, Nat.lt_succ_self _⟩
      · -- data was unsent, so something is pending
        intro hnil
        have := h.unsent_sub (Set.left_mem_Ico.mpr hlt)
        rw [hnil, toSet_nil] at this
        exact absurd this (Set.notMem_empty _)
      · omega
  · simp only [Option.some.injEq, Prod.mk.injEq] at hnew
    obtain ⟨rfl, -, -⟩ := hnew
    exact ⟨h, le_rfl⟩

theorem Inv.transmitFinBlock (h : self.Inv) (isBlocked : Bool) (writerContext : Context W)
    (context : WriteContext) :
    (self.transmitFinBlock isBlocked writerContext context).1.Inv ∧
      (self.transmitFinBlock isBlocked writerContext context).1.transmissionOffset =
        self.transmissionOffset := by
  unfold DataSender.transmitFinBlock
  split_ifs
  · exact ⟨h.of_eq rfl rfl (fun _ hp => hp) rfl rfl rfl, rfl⟩
  · exact ⟨h, rfl⟩

theorem retransmitInProbeLoop_spec {buffer : Buffer} {startingTransmissionOffset : Nat} :
    ∀ {L : List Interval} {transmissions transmissions' : Transmissions F} {viewer : Viewer}
      {state state' : State} {context context' : WriteContext} {result : Except OnTransmitError Unit},
      (∀ i ∈ L, i.start ≤ i.«end» ∧ i.«end» < maxVarintValue) →
      retransmitInProbeLoop buffer startingTransmissionOffset writerContext transmissions viewer
          state context L = some (transmissions', state', context', result) →
      ∃ added, transmissions'.inFlight = transmissions.inFlight ++ added ∧
        ∀ p ∈ added, p.2.start ≤ p.2.«end» ∧ p.2.«end» < startingTransmissionOffset := by
  intro L
  induction L with
  | nil =>
    intro transmissions transmissions' viewer state state' context context' result _ h
    simp only [retransmitInProbeLoop, Option.some.injEq, Prod.mk.injEq] at h
    obtain ⟨rfl, -, -, -⟩ := h
    exact ⟨[], by rw [List.append_nil], by simp⟩
  | cons interval rest ih =>
    intro transmissions transmissions' viewer state state' context context' result hL h
    obtain ⟨hvalid, hM⟩ := hL interval List.mem_cons_self
    unfold retransmitInProbeLoop at h
    split_ifs at h with hstop
    · simp only [Option.some.injEq, Prod.mk.injEq] at h
      obtain ⟨rfl, -, -, -⟩ := h
      exact ⟨[], by rw [List.append_nil], by simp⟩
    have hend : interval.endExclusive maxVarintValue = interval.«end» + 1 :=
      stepUpSaturating_of_lt _ hM
    dsimp only at h
    rw [hend] at h
    have hrange : interval.start ≤ min (interval.«end» + 1) startingTransmissionOffset - 1 := by
      omega
    split at h
    · cases h
    · rename_i transmissions₁ viewer₁ state₁ context₁ written htransmit
      rcases Transmissions.transmitInterval_spec hrange htransmit with ⟨e, he, -⟩ |
        ⟨i, hi, hflight, hs, hv, he⟩
      · cases he
      obtain ⟨added, hadded, hall⟩ := ih (fun j hj => hL j (List.mem_cons_of_mem _ hj)) h
      refine ⟨(context.packetNumber, i) :: added, by
        rw [hadded, hflight, List.append_assoc, List.singleton_append], ?_⟩
      rintro p (_ | ⟨_, hp⟩)
      · dsimp only at he ⊢
        exact ⟨hv, by omega⟩
      · exact hall p hp
    · rename_i transmissions₁ state₁ context₁ e htransmit
      simp only [Option.some.injEq, Prod.mk.injEq] at h
      obtain ⟨rfl, -, -, -⟩ := h
      rcases Transmissions.transmitInterval_spec hrange htransmit with ⟨e', -, hflight⟩ |
        ⟨i, hi, -⟩
      · exact ⟨[], by rw [hflight, List.append_nil], by simp⟩
      · cases hi

theorem Inv.retransmitInProbe (h : self.Inv) {startingTransmissionOffset : Nat}
    (hstart : startingTransmissionOffset ≤ self.transmissionOffset)
    {result : Except OnTransmitError Unit}
    (hprobe : self.retransmitInProbe startingTransmissionOffset writerContext context =
      some (self', context', result)) : self'.Inv := by
  unfold DataSender.retransmitInProbe at hprobe
  obtain ⟨⟨transmissions, state, context₁, result₁⟩, hloop, hprobe⟩ := Option.map_eq_some_iff.mp hprobe
  simp only [Prod.mk.injEq] at hprobe
  obtain ⟨rfl, -, -⟩ := hprobe
  have hbounded : ∀ i ∈ self.pending.intervals, i.start ≤ i.«end» ∧ i.«end» < maxVarintValue := by
    intro i hi
    obtain ⟨⟨hc, -⟩, -, -⟩ := h.pending
    have hv := hc.valid i hi
    simp only [lo_eq, hi_eq] at hv
    have := (h.pending_sub (mem_toSet_of_mem hi ⟨hv, le_rfl⟩)).2
    exact ⟨hv, by have := h.total_le; omega⟩
  obtain ⟨added, hadded, hall⟩ := retransmitInProbeLoop_spec hbounded hloop
  refine ⟨⟨h.pending, h.lost, h.total_le, h.offset_le, h.pending_sub, h.unsent_sub, h.lost_lt, ?_⟩,
    h.lost_sub, h.head_mem, ?_⟩ <;> dsimp only
  · rw [hadded]
    intro p hp
    rcases List.mem_append.mp hp with hp | hp
    · exact h.inFlight_lt p hp
    · exact ⟨(hall p hp).1, (hall p hp).2.trans_le hstart⟩
  · intro hnil
    obtain ⟨hlnil, hfnil, hhead⟩ := h.empty hnil
    rw [hnil] at hloop
    simp only [retransmitInProbeLoop, Option.some.injEq, Prod.mk.injEq] at hloop
    obtain ⟨rfl, -, -, -⟩ := hloop
    exact ⟨hlnil, hfnil, hhead⟩

theorem Inv.onTransmitImpl (h : self.Inv) {result : Except OnTransmitError Unit}
    (htransmit : self.onTransmitImpl writerContext context = some (self', context', result)) :
    self'.Inv := by
  unfold DataSender.onTransmitImpl at htransmit
  obtain ⟨⟨self₁, context₁, result₁⟩, hlost, htransmit⟩ := Option.bind_eq_some_iff.mp htransmit
  have h₁ := h.retransmitLost hlost
  dsimp only at htransmit
  split at htransmit
  · simp only [Option.some.injEq, Prod.mk.injEq] at htransmit
    obtain ⟨rfl, -, -⟩ := htransmit
    exact h₁
  obtain ⟨⟨self₂, context₂, result₂⟩, hnew, htransmit⟩ := Option.bind_eq_some_iff.mp htransmit
  obtain ⟨h₂, hoffset₂⟩ := h₁.transmitNew hnew
  dsimp only at htransmit
  split at htransmit
  · simp only [Option.some.injEq, Prod.mk.injEq] at htransmit
    obtain ⟨rfl, -, -⟩ := htransmit
    exact h₂
  obtain ⟨h₃, hoffset₃⟩ :=
    h₂.transmitFinBlock (isBlocked self₁.transmissions.flowController) writerContext context₂
  split at htransmit
  · rename_i self₃ context₃ e hfin
    simp only [Option.some.injEq, Prod.mk.injEq] at htransmit
    obtain ⟨rfl, -, -⟩ := htransmit
    rw [hfin] at h₃
    exact h₃
  · rename_i self₃ context₃ hfin
    rw [hfin] at h₃ hoffset₃
    split_ifs at htransmit
    · -- the probe resends below the offset new data started from
      exact h₃.retransmitInProbe (by rw [hoffset₃]; exact hoffset₂) htransmit
    · simp only [Option.some.injEq, Prod.mk.injEq] at htransmit
      obtain ⟨rfl, -, -⟩ := htransmit
      exact h₃

theorem Inv.onTransmit (h : self.Inv) {result : Except OnTransmitError Unit}
    (htransmit : self.onTransmit writerContext context = some (self', context', result)) :
    self'.Inv := by
  unfold DataSender.onTransmit at htransmit
  obtain ⟨⟨self₁, context₁, result₁⟩, himpl, htransmit⟩ := Option.map_eq_some_iff.mp htransmit
  have h₁ := h.onTransmitImpl himpl
  dsimp only at htransmit
  split at htransmit
  · split_ifs at htransmit <;>
    · simp only [Prod.mk.injEq] at htransmit
      obtain ⟨rfl, -, -⟩ := htransmit
      exact h₁
  · simp only [Prod.mk.injEq] at htransmit
    obtain ⟨rfl, -, -⟩ := htransmit
    exact h₁

theorem Inv.step (h : self.Inv) {call : Call W} (hstep : self.step call = some self') : self'.Inv := by
  cases call with
  | push data => exact h.push hstep
  | finish =>
    cases hstep
    exact h.finish
  | onTransmit writerContext context =>
    obtain ⟨⟨self₁, context', result⟩, htransmit, rfl⟩ := Option.map_eq_some_iff.mp hstep
    exact h.onTransmit htransmit
  | onPacketAck ackSet => exact h.onPacketAck hstep
  | onPacketLoss ackSet => exact h.onPacketLoss hstep
  | stopSending =>
    cases hstep
    exact h.stopSending

theorem Inv.run {calls : List (Call W)} (h : self.Inv) (hrun : self.run calls = some self') :
    self'.Inv := by
  induction calls generalizing self with
  | nil =>
    cases hrun
    exact h
  | cons call calls ih =>
    obtain ⟨self₁, hstep, hrest⟩ := Option.bind_eq_some_iff.mp hrun
    exact ih (h.step hstep) hrest

theorem data_sender_pending_invariants (flowController : F) (maxBufferCapacity : Nat)
    (calls : List (Call W)) {sender : DataSender F W}
    (hrun : (DataSender.new flowController maxBufferCapacity).run calls = some sender) :
    toSet sender.lost.intervals ⊆ toSet sender.pending.intervals ∧
      toSet sender.pending.intervals ⊆ Set.Ico sender.buffer.head sender.totalEnqueuedLen ∧
      (sender.pending.isEmpty = false → sender.pending.minValue = some sender.buffer.head) ∧
      Set.Ico sender.transmissionOffset sender.totalEnqueuedLen ⊆ toSet sender.pending.intervals ∧
      (sender.pending.isEmpty = true →
        sender.lost.isEmpty = true ∧ sender.transmissions.isEmpty = true ∧
          sender.transmissionOffset = sender.totalEnqueuedLen) := by
  have h := (Inv.new flowController maxBufferCapacity).run hrun
  refine ⟨h.lost_sub, h.pending_sub, fun hne => ?_, h.unsent_sub, fun hempty => ?_⟩
  · -- the least pending offset is the head, which is pending
    have hnil : sender.pending.intervals ≠ [] := by simpa [IntervalSet.isEmpty] using hne
    obtain ⟨⟨hc, -⟩, -, -⟩ := h.pending
    cases hmin : sender.pending.minValue with
    | none => exact absurd (minValue_eq_none hmin) hnil
    | some first =>
      obtain ⟨hmem, hleast⟩ := minValue_eq_some hc hmin
      have hle := hleast _ (h.head_mem hnil)
      have hge := (h.pending_sub hmem).1
      rw [le_antisymm hle hge]
  · have hnil : sender.pending.intervals = [] := by simpa [IntervalSet.isEmpty] using hempty
    obtain ⟨hlnil, hfnil, -⟩ := h.empty hnil
    have hunsent := h.unsent_sub
    rw [hnil, toSet_nil, Set.subset_empty_iff, Set.Ico_eq_empty_iff, not_lt] at hunsent
    exact ⟨by simp [IntervalSet.isEmpty, hlnil], by simp [Transmissions.isEmpty, hfnil],
      le_antisymm h.offset_le hunsent⟩

/-- A flow controller that grants every window, for the example run. -/
structure OpenWindow where

instance : OutgoingDataFlowController OpenWindow :=
  ⟨fun self endOffset => (self, endOffset), fun _ => false, id, id⟩

/-- A frame writer that writes every view whole, for the example run. -/
structure WholeFrames where

instance : FrameWriter WholeFrames where
  Context := Unit
  writeChunk _ _ _ context := .ok (0, { context with remainingCapacity := context.remainingCapacity - 1 })
  writeFin _ _ context := .ok context

/-- The application data packet `n`, and the range of it alone. -/
def examplePacket (n : Nat) (h : n ≤ maxVarintValue) : PacketNumberRange :=
  ⟨⟨.applicationData, ⟨n, h⟩⟩, ⟨.applicationData, ⟨n, h⟩⟩, rfl, le_refl _⟩

/-- A packet of 1200 bytes with no constraint, numbered `n`. -/
def examplePacketContext (n : Nat) (h : n ≤ maxVarintValue) : WriteContext :=
  ⟨1200, .none, .normal, ⟨.applicationData, ⟨n, h⟩⟩⟩

def retransmitRun : List (Call WholeFrames) :=
  [.push [1, 2, 3], .onTransmit () (examplePacketContext 0 (Nat.zero_le _)),
    .onPacketLoss (examplePacket 0 (Nat.zero_le _)),
    .onTransmit () (examplePacketContext 1 (Nat.le_of_ble_eq_true rfl)),
    .onPacketAck (examplePacket 1 (Nat.le_of_ble_eq_true rfl))]

def sentSender : DataSender OpenWindow WholeFrames :=
  ⟨⟨[[1, 2, 3]], 0⟩, ⟨[(⟨.applicationData, ⟨0, by decide⟩⟩, ⟨0, 2⟩)], ⟨⟩⟩, 3, ⟨none, [⟨0, 2⟩]⟩,
    ⟨none, []⟩, 1024, .sending⟩

def lostSender : DataSender OpenWindow WholeFrames :=
  ⟨⟨[[1, 2, 3]], 0⟩, ⟨[], ⟨⟩⟩, 3, ⟨none, [⟨0, 2⟩]⟩, ⟨none, [⟨0, 2⟩]⟩, 1024, .sending⟩

def acknowledgedSender : DataSender OpenWindow WholeFrames :=
  ⟨⟨[], 3⟩, ⟨[], ⟨⟩⟩, 3, ⟨none, []⟩, ⟨none, []⟩, 1024, .sending⟩

theorem run_retransmitRun :
    (new (W := WholeFrames) (⟨⟩ : OpenWindow) 1024).run retransmitRun = some acknowledgedSender := by
  -- the loss intersects the lost range with the pending one, which only `intersect_self`
  -- evaluates; the other calls reduce by `rfl`
  have hrange : IntervalSet.WellFormed maxVarintValue ⟨none, [⟨0, 2⟩]⟩ :=
    ⟨canonical_cons.mpr ⟨by decide, by simp, canonical_nil⟩, by simp [maxVarintValue]⟩
  have hinsert : insertRanges ⟨none, []⟩ [⟨0, 2⟩] = some ⟨none, [⟨0, 2⟩]⟩ := rfl
  have hsent : (new (W := WholeFrames) (⟨⟩ : OpenWindow) 1024).run (retransmitRun.take 2) =
      some sentSender := rfl
  have hlost : sentSender.run ((retransmitRun.drop 2).take 1) = some lostSender := by
    simp [retransmitRun, run, step, onPacketLoss, sentSender, lostSender,
      Transmissions.onAckSignal, examplePacket, PacketNumberRange.contains, PacketNumber.packed,
      PacketNumber.asU64, hinsert, intersect_self hrange, State.onFinLoss]
  have hacked : lostSender.run ((retransmitRun.drop 2).drop 1) = some acknowledgedSender := rfl
  rw [← List.take_append_drop 2 retransmitRun, ← List.take_append_drop 1 (retransmitRun.drop 2),
    run_append, hsent, Option.bind_some, run_append, hlost, Option.bind_some, hacked]

theorem data_sender_pending_invariants_retransmit :
    toSet acknowledgedSender.lost.intervals ⊆ toSet acknowledgedSender.pending.intervals ∧
      toSet acknowledgedSender.pending.intervals ⊆
        Set.Ico acknowledgedSender.buffer.head acknowledgedSender.totalEnqueuedLen ∧
      (acknowledgedSender.pending.isEmpty = false →
        acknowledgedSender.pending.minValue = some acknowledgedSender.buffer.head) ∧
      Set.Ico acknowledgedSender.transmissionOffset acknowledgedSender.totalEnqueuedLen ⊆
        toSet acknowledgedSender.pending.intervals ∧
      (acknowledgedSender.pending.isEmpty = true →
        acknowledgedSender.lost.isEmpty = true ∧ acknowledgedSender.transmissions.isEmpty = true ∧
          acknowledgedSender.transmissionOffset = acknowledgedSender.totalEnqueuedLen) :=
  data_sender_pending_invariants (⟨⟩ : OpenWindow) 1024 retransmitRun run_retransmitRun

end DataSender

end S2nQuic.Sync.DataSender
