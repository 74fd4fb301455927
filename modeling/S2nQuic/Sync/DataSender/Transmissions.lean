import S2nQuic.Sync.DataSender.Buffer
import S2nQuic.Packet.Number
import S2nQuic.Path.Ecn
import S2nQuic.Frame.Stream
import S2nQuic.Ack.Ranges

/-!
# The transmissions of a data sender

`data_sender::Transmissions` (`sync/data_sender/transmissions.rs`) keeps the ranges of stream data
in flight, each with the packet that carries it, and the flow controller. `transmit_interval`
trims a range to the packet, the flow control window and what the frame writer fits, writes it
and records it in flight; `transmit_set` sends the ranges of a set from the lowest, putting back
what a packet had no room for; `transmit_fin` writes a FIN frame.

The flow controller and the frame writer are the traits `OutgoingDataFlowController` and
`FrameWriter`; the `WriteContext` is the packet being written, of which the sender reads the
remaining capacity, the constraint, the mode and the packet number. The source keeps a packet's
first range in a packet number map and chains the others through a slab: acknowledging or losing
packets hands out their ranges in the order of the chain, which the interval set operations they
feed do not depend on, so the ranges in flight are a list here. The `debug_assert!`s return
`none`.
-/

namespace S2nQuic

namespace Transmission

/-- `transmission::Constraint`. -/
inductive Constraint
  | none
  | retransmissionOnly
  | congestionLimited
  | amplificationLimited
  deriving DecidableEq

def Constraint.canTransmit : Constraint → Bool
  | .none => true
  | _ => false

def Constraint.canRetransmit (self : Constraint) : Bool :=
  self.canTransmit || self == .retransmissionOnly

end Transmission

namespace Packet

def PacketNumberRange.contains (self : PacketNumberRange) (packetNumber : PacketNumber) : Bool :=
  decide (self.start.packed ≤ packetNumber.packed) && decide (packetNumber.packed ≤ self.«end».packed)

end Packet

namespace Sync.DataSender
open IntervalSet Varint Packet Transmission

/-- What the sender reads from the `WriteContext` of the packet being written. -/
structure WriteContext where
  remainingCapacity : Nat
  transmissionConstraint : Constraint
  transmissionMode : Mode
  packetNumber : PacketNumber

inductive OnTransmitError
  | couldNotAcquireEnoughSpace
  | couldNotWriteFrame
  deriving DecidableEq

class OutgoingDataFlowController (F : Type) where
  /-- The largest offset, exclusive, up to which data may be sent towards `endOffset`. -/
  acquireFlowControlWindow : F → Nat → F × Nat
  isBlocked : F → Bool
  clearBlocked : F → F
  finish : F → F

class FrameWriter (W : Type) where
  Context : Type
  WRITES_FIN : Bool := true
  MIN_WRITE_SIZE : Nat := 32
  RETRANSMIT_IN_PROBE : Bool := false
  /-- `write_chunk` of a view at an offset: the bytes it trims off the end of the view to fit the
  frame, and the packet with the frame written. -/
  writeChunk : Context → Nat → View → WriteContext → Except Frame.FitError (Nat × WriteContext)
  writeFin : Context → Nat → WriteContext → Except Frame.FitError WriteContext

open OutgoingDataFlowController FrameWriter

inductive FinState
  | pending
  | inFlight (packetNumber : PacketNumber)
  | lost
  | acknowledged
  deriving DecidableEq

namespace FinState

def onPacketAck (self : FinState) (ackSet : PacketNumberRange) : FinState :=
  match self with
  | .inFlight packet => if ackSet.contains packet then .acknowledged else self
  | _ => self

/-- `on_packet_loss`, and whether the FIN was lost. -/
def onPacketLoss (self : FinState) (ackSet : PacketNumberRange) : FinState × Bool :=
  match self with
  | .inFlight packet => if ackSet.contains packet then (.lost, true) else (self, false)
  | _ => (self, false)

def onTransmit (self : FinState) (packet : PacketNumber) : FinState :=
  match self with
  | .pending | .lost => .inFlight packet
  | _ => self

end FinState

/-- `data_sender::State`; the stream error of `Cancelled` is left out. -/
inductive State
  | sending
  | finishing (finState : FinState)
  | finished
  | cancelled
  deriving DecidableEq

namespace State

def canTransmitFin (self : State) (constraint : Constraint) (isBlocked : Bool) : Bool :=
  match self with
  | .finishing .lost => constraint.canRetransmit
  | .finishing .pending => !isBlocked && constraint.canTransmit
  | _ => false

def isInflight : State → Bool
  | .finishing (.inFlight _) => true
  | _ => false

def isFinishing : State → Bool
  | .finishing _ => true
  | _ => false

/-- A change of the FIN state through `fin_state_mut`. -/
def mapFin (f : FinState → FinState) : State → State
  | .finishing finState => .finishing (f finState)
  | state => state

end State

/-- `Interval::set_len`. -/
def setLen (interval : Interval) (len : Nat) : Option Interval :=
  if len = 0 then none else some ⟨interval.start, interval.start + (len - 1)⟩

structure Transmissions (F : Type) where
  inFlight : List (PacketNumber × Interval)
  flowController : F

namespace Transmissions

variable {F W : Type} [OutgoingDataFlowController F] [FrameWriter W]

def new (flowController : F) : Transmissions F := ⟨[], flowController⟩

def isEmpty (self : Transmissions F) : Bool := self.inFlight.isEmpty

/-- The ranges the slab holds: all but the first of each packet's. -/
def overflowLen (self : Transmissions F) : Nat :=
  self.inFlight.length - (self.inFlight.map Prod.fst).dedup.length

/-- `TransmissionSlab::has_capacity`: a slab index must fit a `NonZeroU16`. -/
def hasCapacity (self : Transmissions F) : Bool := self.overflowLen < 2 ^ 16 - 1 - 1

/-- `Set::insert`; the map asserts that packet numbers do not go below its first. -/
def insert (self : Transmissions F) (packetNumber : PacketNumber) (interval : Interval) :
    Option (Transmissions F) :=
  if !self.inFlight.isEmpty && self.inFlight.all (packetNumber.lt ·.1) then none
  else some { self with inFlight := self.inFlight ++ [(packetNumber, interval)] }

/-- `on_ack_signal`: the ranges of the packets in the range leave the transmissions. -/
def onAckSignal (self : Transmissions F) (range : PacketNumberRange) :
    Transmissions F × List Interval :=
  ({ self with inFlight := self.inFlight.filter fun t => !range.contains t.1 },
    (self.inFlight.filter fun t => range.contains t.1).map Prod.snd)

def clear (self : Transmissions F) : Transmissions F := { self with inFlight := [] }

def finish (self : Transmissions F) : Transmissions F :=
  { self.clear with flowController := OutgoingDataFlowController.finish self.flowController }

/-- `transmit_interval`: the range is trimmed to the packet's capacity (at most a `u16`), to the
flow control window and to what the writer fits, then recorded in flight; a view that reaches the
end of a finishing stream carries the FIN. Returns the range written, or the error, with what
changed before it. -/
def transmitInterval (self : Transmissions F) (viewer : Viewer) (buffer : Buffer)
    (interval : Interval) (state : State) (writerContext : Context W) (context : WriteContext) :
    Option (Transmissions F × Viewer × State × WriteContext × Except OnTransmitError Interval) :=
  let capacity := min context.remainingCapacity (2 ^ 16 - 1)
  if capacity = 0 ∨ (MIN_WRITE_SIZE W ≤ interval.len ∧ capacity < MIN_WRITE_SIZE W) ∨
      !self.hasCapacity then
    some (self, viewer, state, context, .error .couldNotAcquireEnoughSpace) else
  (if capacity < interval.len then setLen interval capacity else some interval).bind fun interval =>
  let (flowController, window) := acquireFlowControlWindow self.flowController (interval.«end» + 1)
  let self := { self with flowController }
  if window < interval.start ∨ window - interval.start = 0 then
    some (self, viewer, state, context, .error .couldNotAcquireEnoughSpace) else
  (if window - interval.start < interval.len then setLen interval (window - interval.start)
    else some interval).bind fun interval =>
  let packetNumber := context.packetNumber
  (viewer.nextView buffer interval state.isFinishing).bind fun (viewer, view) =>
  match writeChunk (W := W) writerContext interval.start view context with
  | .error _ => some (self, viewer, state, context, .error .couldNotAcquireEnoughSpace)
  | .ok (amount, context') =>
    match view.trimOff amount with
    | none => some (self, viewer, state, context, .error .couldNotAcquireEnoughSpace)
    | some view =>
      (setLen interval view.len).bind fun interval =>
      (self.insert packetNumber interval).bind fun self =>
      let state :=
        if WRITES_FIN W && view.isFin then state.mapFin (·.onTransmit packetNumber) else state
      some (self, viewer, state, context', .ok interval)

/-- The loop of `transmit_set` over the set's intervals from the lowest: a range written in part
puts the rest back at the front and stops, and an error puts the range back. -/
def transmitSetLoop (buffer : Buffer) (limit : Option Nat) (writerContext : Context W) :
    Transmissions F → Viewer → State → WriteContext → Bool → List Interval →
      Option (Transmissions F × IntervalSet × State × WriteContext × Except OnTransmitError Bool)
  | self, _, state, context, hasTransmitted, [] =>
    some (self, ⟨limit, []⟩, state, context, .ok hasTransmitted)
  | self, viewer, state, context, _, interval :: rest =>
    match self.transmitInterval (W := W) viewer buffer interval state writerContext context with
    | none => none
    | some (self, viewer, state, context, .ok transmitted) =>
      if transmitted.len ≠ interval.len then
        match (IntervalSet.mk limit rest).insertFront maxVarintValue
            (.included (interval.start + transmitted.len)) (.included interval.«end») with
        | (set, .ok ()) => some (self, set, state, context, .ok true)
        | (_, .error _) => none
      else transmitSetLoop buffer limit writerContext self viewer state context true rest
    | some (self, _, state, context, .error e) =>
      match (IntervalSet.mk limit rest).insertFront maxVarintValue
          (.included interval.start) (.included interval.«end») with
      | (set, .ok ()) => some (self, set, state, context, .error e)
      | (_, .error _) => none

/-- `transmit_set`: the set after it, and whether anything was written. -/
def transmitSet (self : Transmissions F) (buffer : Buffer) (set : IntervalSet) (state : State)
    (writerContext : Context W) (context : WriteContext) :
    Option (Transmissions F × IntervalSet × State × WriteContext × Except OnTransmitError Bool) :=
  if set.isEmpty then some (self, set, state, context, .ok false)
  else transmitSetLoop buffer set.limit writerContext self buffer.viewer state context false
    set.intervals

/-- `transmit_fin`: a FIN frame at the end of the stream, unless flow control is blocked. -/
def transmitFin (self : Transmissions F) (buffer : Buffer) (state : State)
    (writerContext : Context W) (context : WriteContext) :
    State × WriteContext × Except OnTransmitError Unit :=
  if isBlocked self.flowController then (state, context, .error .couldNotWriteFrame) else
  match state with
  | .finishing finState =>
    if finState = .pending ∨ finState = .lost then
      match writeFin (W := W) writerContext buffer.totalLen context with
      | .error _ => (state, context, .error .couldNotAcquireEnoughSpace)
      | .ok context' => (.finishing (finState.onTransmit context.packetNumber), context', .ok ())
    else (state, context, .ok ())
  | _ => (state, context, .ok ())

section Specs

theorem setLen_spec {interval i : Interval} {len : Nat} (h : setLen interval len = some i) :
    i.start = interval.start ∧ i.«end» + 1 = interval.start + len ∧ 0 < len := by
  unfold setLen at h
  split_ifs at h with hlen
  cases h
  exact ⟨rfl, by dsimp only; omega, by omega⟩

theorem trim_spec {interval i : Interval} {len : Nat} (hvalid : interval.start ≤ interval.«end»)
    (h : (if len < interval.len then setLen interval len else some interval) = some i) :
    i.start = interval.start ∧ i.start ≤ i.«end» ∧ i.«end» ≤ interval.«end» := by
  split_ifs at h with hlt
  · obtain ⟨hs, he, hpos⟩ := setLen_spec h
    unfold Interval.len at hlt
    omega
  · cases h
    exact ⟨rfl, hvalid, le_rfl⟩

theorem nextView_len {viewer viewer' : Viewer} {buffer : Buffer} {range : Interval} {hasFin : Bool}
    {view : View} (h : viewer.nextView buffer range hasFin = some (viewer', view)) :
    view.len = range.len := by
  unfold Viewer.nextView at h
  dsimp only at h
  split_ifs at h
  cases h
  rfl

theorem trimOff_len {view view' : View} {amount : Nat} (h : view.trimOff amount = some view') :
    view'.len = view.len - amount := by
  unfold View.trimOff at h
  split_ifs at h
  cases h
  rfl

omit [OutgoingDataFlowController F] in
theorem insert_inFlight {self self' : Transmissions F} {packetNumber : PacketNumber}
    {interval : Interval} (h : self.insert packetNumber interval = some self') :
    self'.inFlight = self.inFlight ++ [(packetNumber, interval)] := by
  unfold insert at h
  split_ifs at h
  cases h
  rfl

omit [OutgoingDataFlowController F] in
theorem mem_onAckSignal_fst {self : Transmissions F} {range : PacketNumberRange}
    {p : PacketNumber × Interval} (hp : p ∈ (self.onAckSignal range).1.inFlight) :
    p ∈ self.inFlight := by
  simp only [onAckSignal, List.mem_filter] at hp
  exact hp.1

omit [OutgoingDataFlowController F] in
theorem mem_onAckSignal_snd {self : Transmissions F} {range : PacketNumberRange} {r : Interval}
    (hr : r ∈ (self.onAckSignal range).2) : ∃ packetNumber, (packetNumber, r) ∈ self.inFlight := by
  simp only [onAckSignal, List.mem_map, List.mem_filter] at hr
  obtain ⟨⟨packetNumber, r'⟩, ⟨hmem, -⟩, rfl⟩ := hr
  exact ⟨packetNumber, hmem⟩

variable {self self' : Transmissions F} {viewer viewer' : Viewer} {buffer : Buffer}
  {interval : Interval} {state state' : State} {writerContext : Context W}
  {context context' : WriteContext}

theorem transmitInterval_spec {result : Except OnTransmitError Interval}
    (hvalid : interval.start ≤ interval.«end»)
    (h : self.transmitInterval viewer buffer interval state writerContext context =
      some (self', viewer', state', context', result)) :
    (∃ e, result = .error e ∧ self'.inFlight = self.inFlight) ∨
    (∃ i, result = .ok i ∧ self'.inFlight = self.inFlight ++ [(context.packetNumber, i)] ∧
      i.start = interval.start ∧ i.start ≤ i.«end» ∧ i.«end» ≤ interval.«end») := by
  unfold transmitInterval at h
  dsimp only at h
  split at h
  · simp only [Option.some.injEq, Prod.mk.injEq] at h
    obtain ⟨rfl, -, -, -, rfl⟩ := h
    exact .inl ⟨_, rfl, rfl⟩
  obtain ⟨i₁, hi₁, h⟩ := Option.bind_eq_some_iff.mp h
  obtain ⟨hs₁, hv₁, he₁⟩ := trim_spec hvalid hi₁
  split at h
  · simp only [Option.some.injEq, Prod.mk.injEq] at h
    obtain ⟨rfl, -, -, -, rfl⟩ := h
    exact .inl ⟨_, rfl, rfl⟩
  obtain ⟨i₂, hi₂, h⟩ := Option.bind_eq_some_iff.mp h
  obtain ⟨hs₂, hv₂, he₂⟩ := trim_spec hv₁ hi₂
  obtain ⟨⟨viewer₁, view⟩, hview, h⟩ := Option.bind_eq_some_iff.mp h
  have hlen := nextView_len hview
  split at h
  · simp only [Option.some.injEq, Prod.mk.injEq] at h
    obtain ⟨rfl, -, -, -, rfl⟩ := h
    exact .inl ⟨_, rfl, rfl⟩
  rename_i amount context₁ _
  split at h
  · simp only [Option.some.injEq, Prod.mk.injEq] at h
    obtain ⟨rfl, -, -, -, rfl⟩ := h
    exact .inl ⟨_, rfl, rfl⟩
  rename_i view' htrim
  have htrimmed := trimOff_len htrim
  obtain ⟨i₃, hi₃, h⟩ := Option.bind_eq_some_iff.mp h
  obtain ⟨hs₃, he₃, hpos⟩ := setLen_spec hi₃
  obtain ⟨self₁, hself₁, h⟩ := Option.bind_eq_some_iff.mp h
  simp only [Option.some.injEq, Prod.mk.injEq] at h
  obtain ⟨rfl, -, -, -, rfl⟩ := h
  refine .inr ⟨i₃, rfl, by rw [insert_inFlight hself₁], by omega, by omega, ?_⟩
  rw [hlen] at htrimmed
  unfold Interval.len at htrimmed
  omega

open IntervalList in
theorem transmitSetLoop_spec :
    ∀ {L : List Interval} {self : Transmissions F} {viewer : Viewer} {state : State}
      {context : WriteContext} {hasTransmitted : Bool} {set' : IntervalSet}
      {result : Except OnTransmitError Bool},
      Canonical L → Bounded maxVarintValue L →
      transmitSetLoop buffer none writerContext self viewer state context hasTransmitted L =
        some (self', set', state', context', result) →
      ∃ S', set'.Refines maxVarintValue S' ∧ S' ⊆ toSet L ∧
        ∃ added, self'.inFlight = self.inFlight ++ added ∧
          ∀ p ∈ added, p.2.start ≤ p.2.«end» ∧ Set.Icc p.2.start p.2.«end» ⊆ toSet L := by
  intro L
  induction L with
  | nil =>
    intro self viewer state context hasTransmitted set' result _ _ h
    simp only [transmitSetLoop, Option.some.injEq, Prod.mk.injEq] at h
    obtain ⟨rfl, rfl, -, -, -⟩ := h
    exact ⟨∅, ⟨⟨canonical_nil, bounded_nil _⟩, rfl, rfl⟩, Set.empty_subset _, [], by simp, by simp⟩
  | cons interval rest ih =>
    intro self viewer state context hasTransmitted set' result hc hb h
    obtain ⟨hvalid, -, hrest⟩ := canonical_cons.mp hc
    obtain ⟨hend, hbrest⟩ := bounded_cons.mp hb
    have hicc : Set.Icc interval.start interval.«end» ⊆ toSet (interval :: rest) :=
      Set.subset_union_left
    have hsub : toSet rest ⊆ toSet (interval :: rest) := Set.subset_union_right
    have hback : ∀ {s : Nat} {set : IntervalSet} {e : Except IntervalSetError Unit}, s ≤ interval.«end» →
        (IntervalSet.mk none rest).insertFront maxVarintValue (.included s) (.included interval.«end») =
          (set, e) → set.Refines maxVarintValue (toSet rest ∪ Set.Icc s interval.«end») := by
      intro s set e hs hins
      have hrefines := (show (IntervalSet.mk none rest).Refines maxVarintValue (toSet rest) from
        ⟨⟨hrest, hbrest⟩, rfl, rfl⟩).insertFront Ack.Ranges.maxVarintValue_le_usize
        (a := .included s) (b := .included interval.«end») ⟨by omega, hend⟩
      rwa [hins, rangeSet_included hend] at hrefines
    unfold transmitSetLoop at h
    split at h
    · cases h
    · rename_i self₁ viewer₁ state₁ context₁ transmitted htransmit
      rcases transmitInterval_spec hvalid htransmit with ⟨e, he, -⟩ | ⟨i, hi, hflight, hs, hv, he⟩
      · cases he
      cases hi
      have hwritten : Set.Icc transmitted.start transmitted.«end» ⊆ toSet (interval :: rest) :=
        (Set.Icc_subset_Icc hs.ge he).trans hicc
      split_ifs at h with hpart
      · -- a part was written: the rest of the range goes back in front, and the loop stops
        split at h
        · rename_i set hins
          simp only [Option.some.injEq, Prod.mk.injEq] at h
          obtain ⟨rfl, rfl, -, -, -⟩ := h
          have hlen : transmitted.len ≤ interval.len := by
            unfold Interval.len
            omega
          refine ⟨_, hback (by unfold Interval.len at hpart hlen ⊢; omega) hins,
            Set.union_subset hsub ((Set.Icc_subset_Icc_left (by omega)).trans hicc),
            [(context.packetNumber, transmitted)], hflight, ?_⟩
          simp only [List.mem_singleton, forall_eq]
          exact ⟨hv, hwritten⟩
        · cases h
      · obtain ⟨S', hS', hsub', added, hadded, hall⟩ := ih hrest hbrest h
        refine ⟨S', hS', hsub'.trans hsub, (context.packetNumber, transmitted) :: added,
          by rw [hadded, hflight, List.append_assoc, List.singleton_append], ?_⟩
        rintro p (_ | ⟨_, hp⟩)
        · exact ⟨hv, hwritten⟩
        · exact ⟨(hall p hp).1, (hall p hp).2.trans hsub⟩
    · -- the range could not be written: it goes back in front
      rename_i self₁ state₁ context₁ e htransmit
      rcases transmitInterval_spec hvalid htransmit with ⟨e', -, hflight⟩ | ⟨i, hi, -⟩
      · split at h
        · rename_i set hins
          simp only [Option.some.injEq, Prod.mk.injEq] at h
          obtain ⟨rfl, rfl, -, -, -⟩ := h
          refine ⟨_, hback hvalid hins, Set.union_subset hsub hicc, [], by rw [hflight, List.append_nil],
            by simp⟩
        · cases h
      · cases hi

theorem transmitSet_spec {set set' : IntervalSet} {S : Set Nat} {result : Except OnTransmitError Bool}
    (hset : set.Refines maxVarintValue S)
    (h : self.transmitSet buffer set state writerContext context =
      some (self', set', state', context', result)) :
    ∃ S', set'.Refines maxVarintValue S' ∧ S' ⊆ S ∧
      ∃ added, self'.inFlight = self.inFlight ++ added ∧
        ∀ p ∈ added, p.2.start ≤ p.2.«end» ∧ Set.Icc p.2.start p.2.«end» ⊆ S := by
  unfold transmitSet at h
  split_ifs at h
  · simp only [Option.some.injEq, Prod.mk.injEq] at h
    obtain ⟨rfl, rfl, -, -, -⟩ := h
    exact ⟨S, hset, le_rfl, [], by rw [List.append_nil], by simp⟩
  · obtain ⟨⟨hc, hb⟩, hlim, rfl⟩ := hset
    rw [hlim] at h
    exact transmitSetLoop_spec hc hb h

end Specs

end Transmissions

end Sync.DataSender

end S2nQuic
