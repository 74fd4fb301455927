import S2nQuic.Time.TokenBucket
import S2nQuic.Stream.ReceiveFlowControl

/-!
# Stream concurrency limits

`stream::Controller` (`stream/controller.rs`) keeps, for each stream type, a `RemoteInitiated`
controller (`controller/remote_initiated.rs`) for the streams the peer opens and a
`LocalInitiated` controller (`controller/local_initiated.rs`) for the streams the application
opens. The peer may open the streams whose index is below the `MAX_STREAMS` value of the
remote controller's `max_streams_sync`: it starts at the local limit and, as the peer's streams
close, grows by what an RTT token bucket lets through. The application may open a stream
while fewer than its local limit are open and fewer than the peer's `MAX_STREAMS` have been
opened.

Of `IncrementalValueSync` the controller reads only the latest value; `close`, which cancels
it, is left out, so it is never cancelled here. The delivery of the `MAX_STREAMS`,
`STREAMS_BLOCKED` and open-notify frames, the wakers and the open tokens are left out, and with
them the packet acks and losses and the local controllers' `on_timeout`, which only move that
delivery state. The stream manager calls the controller: it opens the peer's streams from the
first one not yet open up to the one a frame names, closes only streams that are open, and asks
before it opens a local stream. A `VarInt` addition out of range, a subtraction below zero, an
`expect` and a `debug_assert!` panic, and the functions return `none` there.
-/

namespace S2nQuic.Stream
open Varint Transport

/-! ## Stream ids -/

inductive EndpointType
  | client
  | server
  deriving DecidableEq, Repr

def EndpointType.peerType : EndpointType → EndpointType
  | .client => .server
  | .server => .client

inductive StreamType
  | bidirectional
  | unidirectional
  deriving DecidableEq, Repr

structure StreamId where
  asVarint : VarInt
  deriving DecidableEq

namespace StreamId

/-- `StreamId::initial`: the two low bits carry the initiator and the type (RFC 9000, 2.1). -/
def initial : EndpointType → StreamType → StreamId
  | .client, .bidirectional => ⟨VarInt.fromU8 0⟩
  | .server, .bidirectional => ⟨VarInt.fromU8 1⟩
  | .client, .unidirectional => ⟨VarInt.fromU8 2⟩
  | .server, .unidirectional => ⟨VarInt.fromU8 3⟩

/-- `StreamId::nth`. Its `u64` `checked_mul` and `checked_add` fail only on values that
`VarInt::new` refuses as well. -/
def nth (initiator : EndpointType) (streamType : StreamType) (n : Nat) : Option StreamId :=
  (VarInt.new (n * 4 + (initial initiator streamType).asVarint.val)).map StreamId.mk

/-- `next_of_type`: four further on. -/
def nextOfType (self : StreamId) : Option StreamId :=
  (self.asVarint.checkedAdd (VarInt.fromU32 4)).map StreamId.mk

/-- `initiator`: bit `0x01`. -/
def initiator (self : StreamId) : EndpointType :=
  if self.asVarint.val % 2 = 0 then .client else .server

/-- `stream_type`: bit `0x02`. -/
def streamType (self : StreamId) : StreamType :=
  if self.asVarint.val / 2 % 2 = 0 then .bidirectional else .unidirectional

instance : LE StreamId := ⟨fun a b => a.asVarint ≤ b.asVarint⟩

instance (a b : StreamId) : Decidable (a ≤ b) :=
  inferInstanceAs (Decidable (a.asVarint ≤ b.asVarint))

end StreamId

/-- `StreamIter`: the ids of one type from `start_stream_id` to `max_stream_id`. -/
structure StreamIter where
  startStreamId : StreamId
  maxStreamId : StreamId

namespace StreamIter

/-- `StreamIter::new`, with its three `debug_assert!`s. -/
def new (startStreamId maxStreamId : StreamId) : Option StreamIter :=
  if startStreamId.streamType = maxStreamId.streamType ∧
      startStreamId.initiator = maxStreamId.initiator ∧ startStreamId ≤ maxStreamId then
    some ⟨startStreamId, maxStreamId⟩
  else none

/-- How many ids the iterator yields: `next` steps by `next_of_type`, four at a time, from
`start_stream_id` up to `max_stream_id`, which it yields last. -/
def count (self : StreamIter) : Nat :=
  (self.maxStreamId.asVarint.val - self.startStreamId.asVarint.val) / 4 + 1

end StreamIter

/-- The `check_integrity` of both controllers: no more streams closed than opened, and no
more open than the local limit. -/
def checkIntegrity (maxLocalLimit openedStreams closedStreams : VarInt) : Option Unit :=
  if closedStreams ≤ openedStreams then
    (openedStreams.checkedSub closedStreams).bind fun openStreamCount =>
      if openStreamCount ≤ maxLocalLimit then some () else none
  else none

/-! ## Peer-initiated streams -/

/-- `MAX_STREAMS_MAX_VALUE`: stream ids above 2^62 - 1 cannot be encoded (RFC 9000, 19.11). -/
def MAX_STREAMS_MAX_VALUE : VarInt := ⟨2 ^ 60, by unfold maxVarintValue; norm_num⟩

structure RemoteInitiated where
  maxLocalLimit : VarInt
  maxStreamsSync : IncrementalValueSync
  openedStreams : VarInt
  closedStreams : VarInt
  rttRefill : TokenBucket

namespace RemoteInitiated

def new (maxLocalLimit : VarInt) (minRtt : Duration) : RemoteInitiated where
  maxLocalLimit
  maxStreamsSync := ⟨maxLocalLimit, false⟩
  openedStreams := VarInt.fromU8 0
  closedStreams := VarInt.fromU8 0
  rttRefill := TokenBucket.Builder.build
    { max := maxLocalLimit.val, refillInterval := minRtt, refillAmount := maxLocalLimit.val }

/-- `on_remote_open_stream`: the first id past the limit is computed with `StreamId::nth`,
whose `None` the `expect` turns into a panic. -/
def onRemoteOpenStream (self : RemoteInitiated) (streamId : StreamId) :
    Option (Except TransportError Unit) := do
  let maxAllowedStreamLimit := self.maxStreamsSync.latestValue.val
  let notAllowedStreamId ←
    StreamId.nth streamId.initiator streamId.streamType maxAllowedStreamLimit
  if notAllowedStreamId ≤ streamId then
    return .error TransportError.STREAM_LIMIT_ERROR
  return .ok ()

def checkIntegrity (self : RemoteInitiated) : Option RemoteInitiated :=
  (Stream.checkIntegrity self.maxLocalLimit self.openedStreams self.closedStreams).map
    fun _ => self

def onOpenStream (self : RemoteInitiated) : Option RemoteInitiated := do
  let openedStreams ← self.openedStreams.checkedAdd (VarInt.fromU8 1)
  { self with openedStreams }.checkIntegrity

def onCloseStream (self : RemoteInitiated) : Option RemoteInitiated := do
  let closedStreams ← self.closedStreams.checkedAdd (VarInt.fromU8 1)
  { self with closedStreams }.checkIntegrity

/-- `synced_closed_streams`: the closed streams the latest `MAX_STREAMS` value accounts for. -/
def syncedClosedStreams (self : RemoteInitiated) : Option VarInt :=
  self.maxStreamsSync.latestValue.checkedSub self.maxLocalLimit

def onTimeout (self : RemoteInitiated) (now : Timestamp) : Option RemoteInitiated := do
  let syncedClosedStreams ← self.syncedClosedStreams
  let refill ← self.closedStreams.checkedSub syncedClosedStreams
  let (refill, rttRefill) ← self.rttRefill.take refill.val now
  let self := { self with rttRefill }
  -- no refill credits at this time
  if refill = 0 then
    return self
  let refill := (VarInt.new refill).getD VarInt.MAX
  let maxStreams := min ((syncedClosedStreams.saturatingAdd self.maxLocalLimit).saturatingAdd refill)
    MAX_STREAMS_MAX_VALUE
  let maxStreamsSync ← self.maxStreamsSync.updateLatestValue maxStreams
  return { self with maxStreamsSync }

def updateMinRtt (self : RemoteInitiated) (minRtt : Duration) (now : Timestamp) :
    Option RemoteInitiated :=
  { self with rttRefill := self.rttRefill.setRefillInterval minRtt }.onTimeout now

end RemoteInitiated

/-! ## Locally initiated streams -/

/-- `frame::MaxStreams`. -/
structure MaxStreams where
  streamType : StreamType
  maximumStreams : VarInt

inductive Poll
  | ready
  | pending
  deriving DecidableEq, Repr

structure LocalInitiated where
  maxLocalLimit : VarInt
  peerCumulativeStreamLimit : VarInt
  openedStreams : VarInt
  closedStreams : VarInt

namespace LocalInitiated

def new (initialPeerMaximumStreams maxLocalLimit : VarInt) : LocalInitiated where
  maxLocalLimit
  peerCumulativeStreamLimit := initialPeerMaximumStreams
  openedStreams := VarInt.fromU8 0
  closedStreams := VarInt.fromU8 0

/-- `on_max_streams`: a frame that does not raise the limit is ignored (RFC 9000, 4.6). -/
def onMaxStreams (self : LocalInitiated) (frame : MaxStreams) : LocalInitiated :=
  if frame.maximumStreams ≤ self.peerCumulativeStreamLimit then self
  else { self with peerCumulativeStreamLimit := frame.maximumStreams }

def openStreamCount (self : LocalInitiated) : Option VarInt :=
  self.openedStreams.checkedSub self.closedStreams

def peerCapacity (self : LocalInitiated) : VarInt :=
  self.peerCumulativeStreamLimit.saturatingSub self.openedStreams

def availableStreamCapacity (self : LocalInitiated) : Option VarInt := do
  let openStreamCount ← self.openStreamCount
  let localCapacity := self.maxLocalLimit.saturatingSub openStreamCount
  return min localCapacity self.peerCapacity

def pollOpenStream (self : LocalInitiated) : Option Poll := do
  let capacity ← self.availableStreamCapacity
  if capacity < VarInt.fromU32 1 then
    return .pending
  return .ready

def checkIntegrity (self : LocalInitiated) : Option LocalInitiated :=
  (Stream.checkIntegrity self.maxLocalLimit self.openedStreams self.closedStreams).map
    fun _ => self

def onOpenStream (self : LocalInitiated) : Option LocalInitiated := do
  let openedStreams ← self.openedStreams.checkedAdd (VarInt.fromU8 1)
  { self with openedStreams }.checkIntegrity

def onCloseStream (self : LocalInitiated) : Option LocalInitiated := do
  let closedStreams ← self.closedStreams.checkedAdd (VarInt.fromU8 1)
  { self with closedStreams }.checkIntegrity

end LocalInitiated

/-! ## The controller -/

inductive StreamDirection
  | localInitiatedBidirectional
  | remoteInitiatedBidirectional
  | localInitiatedUnidirectional
  | remoteInitiatedUnidirectional
  deriving DecidableEq, Repr

/-- `InitialFlowControlLimits`, the two fields the controller reads. -/
structure InitialFlowControlLimits where
  maxOpenRemoteBidirectionalStreams : VarInt
  maxOpenRemoteUnidirectionalStreams : VarInt

/-- `stream::Limits`, the two fields the controller reads (`Limits` is the send side's). -/
structure StreamLimits where
  maxOpenLocalBidirectionalStreams : VarInt
  maxOpenLocalUnidirectionalStreams : VarInt

structure Controller where
  localEndpointType : EndpointType
  localBidiController : LocalInitiated
  remoteBidiController : RemoteInitiated
  localUniController : LocalInitiated
  remoteUniController : RemoteInitiated

namespace Controller

def new (localEndpointType : EndpointType)
    (initialPeerLimits initialLocalLimits : InitialFlowControlLimits) (streamLimits : StreamLimits)
    (minRtt : Duration) : Controller where
  localEndpointType
  localBidiController := LocalInitiated.new initialPeerLimits.maxOpenRemoteBidirectionalStreams
    streamLimits.maxOpenLocalBidirectionalStreams
  remoteBidiController :=
    RemoteInitiated.new initialLocalLimits.maxOpenRemoteBidirectionalStreams minRtt
  localUniController := LocalInitiated.new initialPeerLimits.maxOpenRemoteUnidirectionalStreams
    streamLimits.maxOpenLocalUnidirectionalStreams
  remoteUniController :=
    RemoteInitiated.new initialLocalLimits.maxOpenRemoteUnidirectionalStreams minRtt

def onMaxStreams (self : Controller) (frame : MaxStreams) : Controller :=
  match frame.streamType with
  | .bidirectional => { self with localBidiController := self.localBidiController.onMaxStreams frame }
  | .unidirectional => { self with localUniController := self.localUniController.onMaxStreams frame }

def direction (self : Controller) (streamId : StreamId) : StreamDirection :=
  match self.localEndpointType == streamId.initiator, streamId.streamType with
  | true, .bidirectional => .localInitiatedBidirectional
  | true, .unidirectional => .localInitiatedUnidirectional
  | false, .bidirectional => .remoteInitiatedBidirectional
  | false, .unidirectional => .remoteInitiatedUnidirectional

def onOpenStream (self : Controller) : StreamDirection → Option Controller
  | .localInitiatedBidirectional =>
    self.localBidiController.onOpenStream.map fun c => { self with localBidiController := c }
  | .remoteInitiatedBidirectional =>
    self.remoteBidiController.onOpenStream.map fun c => { self with remoteBidiController := c }
  | .localInitiatedUnidirectional =>
    self.localUniController.onOpenStream.map fun c => { self with localUniController := c }
  | .remoteInitiatedUnidirectional =>
    self.remoteUniController.onOpenStream.map fun c => { self with remoteUniController := c }

def onCloseStream (self : Controller) (streamId : StreamId) : Option Controller :=
  match self.direction streamId with
  | .localInitiatedBidirectional =>
    self.localBidiController.onCloseStream.map fun c => { self with localBidiController := c }
  | .remoteInitiatedBidirectional =>
    self.remoteBidiController.onCloseStream.map fun c => { self with remoteBidiController := c }
  | .localInitiatedUnidirectional =>
    self.localUniController.onCloseStream.map fun c => { self with localUniController := c }
  | .remoteInitiatedUnidirectional =>
    self.remoteUniController.onCloseStream.map fun c => { self with remoteUniController := c }

def pollOpenLocalStream (self : Controller) (streamType : StreamType) :
    Option (Controller × Poll) := do
  let pollOpen ← match streamType with
    | .bidirectional => self.localBidiController.pollOpenStream
    | .unidirectional => self.localUniController.pollOpenStream
  match pollOpen with
  | .pending => return (self, .pending)
  | .ready =>
    let direction := self.direction (StreamId.initial self.localEndpointType streamType)
    let self ← self.onOpenStream direction
    return (self, .ready)

/-- The `for` loop of `on_open_remote_stream`: `on_open_stream` once per id of the iterator. -/
def onOpenStreams (self : Controller) (direction : StreamDirection) : Nat → Option Controller
  | 0 => some self
  | n + 1 => (self.onOpenStream direction).bind fun c => c.onOpenStreams direction n

def isRemote : StreamDirection → Bool
  | .remoteInitiatedBidirectional | .remoteInitiatedUnidirectional => true
  | _ => false

/-- `on_open_remote_stream`; its `debug_assert!` asks for a peer-initiated stream. -/
def onOpenRemoteStream (self : Controller) (streamIter : StreamIter) :
    Option (Controller × Except TransportError Unit) := do
  if !isRemote (self.direction streamIter.maxStreamId) then none
  let check ← match streamIter.maxStreamId.streamType with
    | .bidirectional => self.remoteBidiController.onRemoteOpenStream streamIter.maxStreamId
    | .unidirectional => self.remoteUniController.onRemoteOpenStream streamIter.maxStreamId
  match check with
  | .error e => return (self, .error e)
  | .ok () =>
    let direction := self.direction streamIter.maxStreamId
    let self ← self.onOpenStreams direction streamIter.count
    return (self, .ok ())

/-- `on_timeout`, of the two remote controllers. -/
def onTimeout (self : Controller) (now : Timestamp) : Option Controller := do
  let remoteBidiController ← self.remoteBidiController.onTimeout now
  let remoteUniController ← self.remoteUniController.onTimeout now
  return { self with remoteBidiController, remoteUniController }

def updateMinRtt (self : Controller) (minRtt : Duration) (now : Timestamp) :
    Option Controller := do
  let remoteUniController ← self.remoteUniController.updateMinRtt minRtt now
  let remoteBidiController ← self.remoteBidiController.updateMinRtt minRtt now
  return { self with remoteBidiController, remoteUniController }

/-! ## The stream manager's calls -/

def hasOpenStream (self : Controller) : StreamDirection → Bool
  | .localInitiatedBidirectional =>
    decide (self.localBidiController.closedStreams < self.localBidiController.openedStreams)
  | .remoteInitiatedBidirectional =>
    decide (self.remoteBidiController.closedStreams < self.remoteBidiController.openedStreams)
  | .localInitiatedUnidirectional =>
    decide (self.localUniController.closedStreams < self.localUniController.openedStreams)
  | .remoteInitiatedUnidirectional =>
    decide (self.remoteUniController.closedStreams < self.remoteUniController.openedStreams)

def remoteController (self : Controller) : StreamType → RemoteInitiated
  | .bidirectional => self.remoteBidiController
  | .unidirectional => self.remoteUniController

def localController (self : Controller) : StreamType → LocalInitiated
  | .bidirectional => self.localBidiController
  | .unidirectional => self.localUniController

inductive Event
  /-- A frame names the `nthIdx`-th stream of the type that the peer initiates. -/
  | openRemote (streamType : StreamType) (nthIdx : Nat)
  /-- The application asks to open a stream of the type. -/
  | openLocal (streamType : StreamType)
  /-- The stream is finalized. -/
  | close (streamId : StreamId)
  | maxStreams (frame : MaxStreams)
  | timeout (now : Timestamp)
  | updateMinRtt (minRtt : Duration) (now : Timestamp)

/-- One call of the manager. A frame for a peer stream that is already open, or whose index
no varint id can carry, opens nothing (`open_stream_if_necessary`); a new one opens all streams
of its type from the first not yet open (`StreamIter::new(first_unopened_id, stream_id)`).
A `STREAM_LIMIT_ERROR` is returned with the controller as it was. -/
def step (self : Controller) : Event → Option (Controller × Except TransportError Unit)
  | .openRemote streamType nthIdx =>
    let peer := self.localEndpointType.peerType
    -- the manager's first unopened id: the peer's streams are opened in order
    let firstUnopened := (self.remoteController streamType).openedStreams.val
    if nthIdx < firstUnopened then some (self, .ok ())
    else
      match StreamId.nth peer streamType firstUnopened, StreamId.nth peer streamType nthIdx with
      | some firstUnopenedId, some streamId =>
        (StreamIter.new firstUnopenedId streamId).bind self.onOpenRemoteStream
      | _, _ => some (self, .ok ())
  | .openLocal streamType => (self.pollOpenLocalStream streamType).map fun r => (r.1, .ok ())
  | .close streamId =>
    if self.hasOpenStream (self.direction streamId) then
      (self.onCloseStream streamId).map ((·, .ok ()))
    else some (self, .ok ())
  | .maxStreams frame => some (self.onMaxStreams frame, .ok ())
  | .timeout now => (self.onTimeout now).map ((·, .ok ()))
  | .updateMinRtt minRtt now => (self.updateMinRtt minRtt now).map ((·, .ok ()))

def run (self : Controller) : List Event → Option Controller
  | [] => some self
  | e :: events => (self.step e).bind fun r => r.1.run events

end Controller


/-! ## What the controllers keep -/

namespace StreamId

theorem le_iff {a b : StreamId} : a ≤ b ↔ a.asVarint.val ≤ b.asVarint.val := Iff.rfl

theorem initial_val (initiator : EndpointType) (streamType : StreamType) :
    (initial initiator streamType).asVarint.val =
      (if initiator = .client then 0 else 1) + (if streamType = .bidirectional then 0 else 2) := by
  cases initiator <;> cases streamType <;> rfl

theorem initial_val_lt (initiator : EndpointType) (streamType : StreamType) :
    (initial initiator streamType).asVarint.val < 4 := by
  rw [initial_val]
  split_ifs <;> omega

theorem val_of_nth {initiator : EndpointType} {streamType : StreamType} {n : Nat} {id : StreamId}
    (h : nth initiator streamType n = some id) :
    id.asVarint.val = n * 4 + (initial initiator streamType).asVarint.val := by
  obtain ⟨v, hv, rfl⟩ := Option.map_eq_some_iff.mp h
  exact VarInt.val_of_new_eq_some hv

theorem nth_eq_none {initiator : EndpointType} {streamType : StreamType} {n : Nat}
    (h : 2 ^ 60 ≤ n) : nth initiator streamType n = none := by
  have := initial_val_lt initiator streamType
  unfold nth
  rw [VarInt.new_of_lt (by rw [maxVarintValue_eq]; omega), Option.map_none]

theorem exists_nth (initiator : EndpointType) (streamType : StreamType) {n : Nat}
    (h : n < 2 ^ 60) : ∃ id, nth initiator streamType n = some id := by
  have := initial_val_lt initiator streamType
  have hle : n * 4 + (initial initiator streamType).asVarint.val ≤ maxVarintValue := by
    rw [maxVarintValue_eq]; omega
  exact ⟨_, by rw [nth, VarInt.new_of_le hle, Option.map_some]⟩

theorem initiator_nth {initiator : EndpointType} {streamType : StreamType} {n : Nat}
    {id : StreamId} (h : nth initiator streamType n = some id) : id.initiator = initiator := by
  have hval := val_of_nth h
  unfold StreamId.initiator
  rw [hval, initial_val]
  cases initiator <;> cases streamType <;> simp <;> omega

theorem streamType_nth {initiator : EndpointType} {streamType : StreamType} {n : Nat}
    {id : StreamId} (h : nth initiator streamType n = some id) : id.streamType = streamType := by
  have hval := val_of_nth h
  unfold StreamId.streamType
  rw [hval, initial_val]
  cases initiator <;> cases streamType <;> simp <;> omega

end StreamId

theorem checkIntegrity_of_le {maxLocalLimit openedStreams closedStreams : VarInt}
    (h₁ : closedStreams.val ≤ openedStreams.val)
    (h₂ : openedStreams.val - closedStreams.val ≤ maxLocalLimit.val) :
    checkIntegrity maxLocalLimit openedStreams closedStreams = some () := by
  simp [checkIntegrity, h₁, VarInt.checkedSub_of_le h₁, h₂]

namespace RemoteInitiated

/-- `latest_limit`: the `MAX_STREAMS` value advertised last. -/
def latestLimit (self : RemoteInitiated) : VarInt := self.maxStreamsSync.latestValue

@[simp] theorem latestLimit_eq (c : RemoteInitiated) :
    c.latestLimit = c.maxStreamsSync.latestValue := rfl

/-- What `check_integrity` and `on_timeout` rely on: the limit starts at the local limit,
stays within `MAX_STREAMS_MAX_VALUE` and the streams closed, and bounds the streams opened. -/
structure Inv (c : RemoteInitiated) : Prop where
  closed_le_opened : c.closedStreams.val ≤ c.openedStreams.val
  opened_le_limit : c.openedStreams.val ≤ c.latestLimit.val
  maxLocalLimit_le : c.maxLocalLimit.val ≤ c.latestLimit.val
  limit_le_max : c.latestLimit.val ≤ 2 ^ 60
  limit_le_closed : c.latestLimit.val ≤ c.closedStreams.val + c.maxLocalLimit.val
  bucket : c.rttRefill.Inv
  bucket_max : c.rttRefill.max = c.maxLocalLimit.val
  bucket_refillAmount : c.rttRefill.refillAmount = c.maxLocalLimit.val

/-- A timeout moves only the limit, and never down. -/
structure Raises (c c' : RemoteInitiated) : Prop where
  maxLocalLimit_eq : c'.maxLocalLimit = c.maxLocalLimit
  openedStreams_eq : c'.openedStreams = c.openedStreams
  closedStreams_eq : c'.closedStreams = c.closedStreams
  latestLimit_le : c.latestLimit.val ≤ c'.latestLimit.val

theorem inv_new {maxLocalLimit : VarInt} (h : maxLocalLimit.val ≤ 2 ^ 60) (minRtt : Duration) :
    (new maxLocalLimit minRtt).Inv where
  closed_le_opened := le_rfl
  opened_le_limit := Nat.zero_le _
  maxLocalLimit_le := le_rfl
  limit_le_max := h
  limit_le_closed := by simp [new, latestLimit]
  bucket := TokenBucket.inv_build _
  bucket_max := rfl
  bucket_refillAmount := rfl

theorem Inv.open_le {c : RemoteInitiated} (h : c.Inv) :
    c.openedStreams.val - c.closedStreams.val ≤ c.maxLocalLimit.val := by
  have := h.opened_le_limit
  have := h.limit_le_closed
  omega

theorem onRemoteOpenStream_of_max {c : RemoteInitiated} (h : 2 ^ 60 ≤ c.latestLimit.val)
    (streamId : StreamId) : c.onRemoteOpenStream streamId = none := by
  simp [onRemoteOpenStream, StreamId.nth_eq_none (show 2 ^ 60 ≤ c.maxStreamsSync.latestValue.val from h)]

theorem onRemoteOpenStream_nth {c : RemoteInitiated} (h : c.latestLimit.val < 2 ^ 60)
    {initiator : EndpointType} {streamType : StreamType} {n : Nat} {streamId : StreamId}
    (hid : StreamId.nth initiator streamType n = some streamId) :
    c.onRemoteOpenStream streamId =
      some (if c.latestLimit.val ≤ n then .error TransportError.STREAM_LIMIT_ERROR else .ok ()) := by
  obtain ⟨limitId, hlimit⟩ := StreamId.exists_nth initiator streamType h
  have hle : limitId ≤ streamId ↔ c.latestLimit.val ≤ n := by
    rw [StreamId.le_iff, StreamId.val_of_nth hlimit, StreamId.val_of_nth hid]
    omega
  simp only [onRemoteOpenStream, StreamId.initiator_nth hid, StreamId.streamType_nth hid]
  rw [show c.maxStreamsSync.latestValue.val = c.latestLimit.val from rfl, hlimit,
    Option.bind_eq_bind, Option.bind_some]
  by_cases hn : c.latestLimit.val ≤ n
  · rw [if_pos (hle.mpr hn), if_pos hn]
    rfl
  · rw [if_neg (mt hle.mp hn), if_neg hn]
    rfl

theorem onOpenStream_spec {c : RemoteInitiated} (h : c.Inv)
    (hroom : c.openedStreams.val < c.latestLimit.val) :
    ∃ v, c.onOpenStream = some { c with openedStreams := v } ∧ v.val = c.openedStreams.val + 1 := by
  have := h.limit_le_max
  have := h.limit_le_closed
  have := h.closed_le_opened
  obtain ⟨v, hadd, hv⟩ : ∃ v, c.openedStreams.checkedAdd (VarInt.fromU8 1) = some v ∧
      v.val = c.openedStreams.val + 1 :=
    ⟨_, VarInt.checkedAdd_of_le (by simp; rw [maxVarintValue_eq]; omega), by simp⟩
  refine ⟨v, ?_, hv⟩
  simp only [onOpenStream, hadd, Option.bind_eq_bind, Option.bind_some, checkIntegrity]
  rw [checkIntegrity_of_le (by omega) (by omega), Option.map_some]

theorem Inv.setOpenedStreams {c : RemoteInitiated} (h : c.Inv) {v : VarInt}
    (h₁ : c.openedStreams.val ≤ v.val) (h₂ : v.val ≤ c.latestLimit.val) :
    Inv { c with openedStreams := v } := by
  obtain ⟨hc, -, h₃, h₄, h₅, h₆, h₇, h₈⟩ := h
  exact ⟨by simp only; omega, h₂, h₃, h₄, h₅, h₆, h₇, h₈⟩

theorem onCloseStream_spec {c : RemoteInitiated} (h : c.Inv)
    (hopen : c.closedStreams.val < c.openedStreams.val) :
    ∃ v, c.onCloseStream = some { c with closedStreams := v } ∧ v.val = c.closedStreams.val + 1 := by
  have := h.limit_le_max
  have := h.open_le
  have := h.opened_le_limit
  obtain ⟨v, hadd, hv⟩ : ∃ v, c.closedStreams.checkedAdd (VarInt.fromU8 1) = some v ∧
      v.val = c.closedStreams.val + 1 :=
    ⟨_, VarInt.checkedAdd_of_le (by simp; rw [maxVarintValue_eq]; omega), by simp⟩
  refine ⟨v, ?_, hv⟩
  simp only [onCloseStream, hadd, Option.bind_eq_bind, Option.bind_some, checkIntegrity]
  rw [checkIntegrity_of_le (by omega) (by omega), Option.map_some]

theorem Inv.onCloseStream {c : RemoteInitiated} (h : c.Inv)
    (hopen : c.closedStreams.val < c.openedStreams.val) {v : VarInt}
    (hv : v.val = c.closedStreams.val + 1) : Inv { c with closedStreams := v } := by
  obtain ⟨h₁, h₂, h₃, h₄, h₅, h₆, h₇, h₈⟩ := h
  exact ⟨by simp only; omega, h₂, h₃, h₄, by simp only [latestLimit] at *; omega, h₆, h₇, h₈⟩

theorem maxStreams_val (a b c : VarInt) :
    ((a.saturatingAdd b).saturatingAdd c ⊓ MAX_STREAMS_MAX_VALUE).val =
      min (a.val + b.val + c.val) (2 ^ 60) := by
  simp only [VarInt.min_val, VarInt.saturatingAdd_val, MAX_STREAMS_MAX_VALUE, maxVarintValue_eq]
  omega

theorem Inv.progresses {c : RemoteInitiated} (h : c.Inv) : c.rttRefill.Progresses := by
  unfold TokenBucket.Progresses
  rw [h.bucket_refillAmount, h.bucket_max]
  omega

theorem onTimeout_spec {c : RemoteInitiated} (h : c.Inv) (now : Timestamp) :
    ∃ c', c.onTimeout now = some c' ∧ c'.Inv ∧ Raises c c' := by
  have hlim := h.limit_le_max
  have hclosed := h.limit_le_closed
  have hlocal := h.maxLocalLimit_le
  have hopened := h.opened_le_limit
  have hmax := c.closedStreams.le_max
  simp only [latestLimit] at hlim hclosed hlocal hopened
  obtain ⟨synced, hsync, hsval⟩ : ∃ s, c.syncedClosedStreams = some s ∧
      s.val = c.maxStreamsSync.latestValue.val - c.maxLocalLimit.val :=
    ⟨_, VarInt.checkedSub_of_le hlocal, rfl⟩
  obtain ⟨refill, hrefill, hrval⟩ : ∃ r, c.closedStreams.checkedSub synced = some r ∧
      r.val = c.closedStreams.val - synced.val :=
    ⟨_, VarInt.checkedSub_of_le (by omega), rfl⟩
  obtain ⟨credits, bucket, htake, hcredits, hbucket, hrate⟩ :=
    TokenBucket.take_spec refill.val now h.progresses h.bucket
  have hinv : Inv { c with rttRefill := bucket } :=
    { h with
      bucket := hbucket
      bucket_max := hrate.max_eq.trans h.bucket_max
      bucket_refillAmount := hrate.refillAmount_eq.trans h.bucket_refillAmount }
  by_cases hzero : credits = 0
  · refine ⟨_, ?_, hinv, ⟨rfl, rfl, rfl, le_rfl⟩⟩
    simp [onTimeout, hsync, hrefill, htake, hzero]
  · -- the credits are a varint, and the new limit is the old one plus them, capped
    have hcred : VarInt.new credits = some ⟨credits, by omega⟩ := VarInt.new_of_le _
    simp only [onTimeout, hsync, hrefill, htake, hzero, hcred, Option.bind_eq_bind,
      Option.bind_some, if_false, Option.getD_some]
    rw [IncrementalValueSync.updateLatestValue_of_le (by rw [maxStreams_val]; omega)]
    refine ⟨_, rfl, ?_, ⟨rfl, rfl, rfl, ?_⟩⟩
    · obtain ⟨h₁, -, -, -, -, h₆, h₇, h₈⟩ := hinv
      refine ⟨h₁, ?_, ?_, ?_, ?_, h₆, h₇, h₈⟩ <;> simp only [latestLimit, maxStreams_val] <;> omega
    · simp only [latestLimit, maxStreams_val]
      omega

theorem updateMinRtt_spec {c : RemoteInitiated} (h : c.Inv) (minRtt : Duration)
    (now : Timestamp) : ∃ c', c.updateMinRtt minRtt now = some c' ∧ c'.Inv ∧ Raises c c' := by
  obtain ⟨hbucket, hmax, hamount⟩ := h.bucket.setRefillInterval minRtt
  have h' : Inv { c with rttRefill := c.rttRefill.setRefillInterval minRtt } :=
    { h with
      bucket := hbucket
      bucket_max := hmax.trans h.bucket_max
      bucket_refillAmount := hamount.trans h.bucket_refillAmount }
  obtain ⟨c', hc', hinv', hraises⟩ := onTimeout_spec h' now
  exact ⟨c', hc', hinv', ⟨hraises.maxLocalLimit_eq, hraises.openedStreams_eq,
    hraises.closedStreams_eq, hraises.latestLimit_le⟩⟩

end RemoteInitiated

namespace LocalInitiated

/-- What `check_integrity` asserts, and that no more streams were opened than the peer
allowed. -/
structure Inv (c : LocalInitiated) : Prop where
  closed_le_opened : c.closedStreams.val ≤ c.openedStreams.val
  open_le : c.openedStreams.val - c.closedStreams.val ≤ c.maxLocalLimit.val
  opened_le_peer : c.openedStreams.val ≤ c.peerCumulativeStreamLimit.val

theorem inv_new (initialPeerMaximumStreams maxLocalLimit : VarInt) :
    (new initialPeerMaximumStreams maxLocalLimit).Inv :=
  ⟨le_rfl, by simp [new], by simp [new]⟩

theorem pollOpenStream_spec {c : LocalInitiated} (h : c.Inv) :
    c.pollOpenStream = some (if c.openedStreams.val - c.closedStreams.val < c.maxLocalLimit.val ∧
      c.openedStreams.val < c.peerCumulativeStreamLimit.val then .ready else .pending) := by
  simp only [pollOpenStream, availableStreamCapacity, openStreamCount, peerCapacity,
    VarInt.checkedSub_of_le h.closed_le_opened, Option.bind_eq_bind, Option.pure_def,
    Option.bind_some, VarInt.lt_def, VarInt.min_val, VarInt.saturatingSub_val,
    VarInt.fromU32_val, UInt32.toNat_one]
  split_ifs with hlt hcan hcan <;> first | rfl | omega

theorem onOpenStream_spec {c : LocalInitiated} (h : c.Inv)
    (hlocal : c.openedStreams.val - c.closedStreams.val < c.maxLocalLimit.val)
    (hpeer : c.openedStreams.val < c.peerCumulativeStreamLimit.val) :
    ∃ v, c.onOpenStream = some { c with openedStreams := v } ∧ v.val = c.openedStreams.val + 1 := by
  have := h.closed_le_opened
  have := c.peerCumulativeStreamLimit.le_max
  obtain ⟨v, hadd, hv⟩ : ∃ v, c.openedStreams.checkedAdd (VarInt.fromU8 1) = some v ∧
      v.val = c.openedStreams.val + 1 :=
    ⟨_, VarInt.checkedAdd_of_le (by simp; omega), by simp⟩
  refine ⟨v, ?_, hv⟩
  simp only [onOpenStream, hadd, Option.bind_eq_bind, Option.bind_some, checkIntegrity]
  rw [checkIntegrity_of_le (by omega) (by omega), Option.map_some]

theorem Inv.onOpenStream {c : LocalInitiated} (h : c.Inv)
    (hlocal : c.openedStreams.val - c.closedStreams.val < c.maxLocalLimit.val)
    (hpeer : c.openedStreams.val < c.peerCumulativeStreamLimit.val) {v : VarInt}
    (hv : v.val = c.openedStreams.val + 1) : Inv { c with openedStreams := v } := by
  obtain ⟨h₁, h₂, h₃⟩ := h
  exact ⟨by simp only; omega, by simp only; omega, by simp only; omega⟩

theorem onCloseStream_spec {c : LocalInitiated} (h : c.Inv)
    (hopen : c.closedStreams.val < c.openedStreams.val) :
    ∃ v, c.onCloseStream = some { c with closedStreams := v } ∧ v.val = c.closedStreams.val + 1 := by
  have := h.open_le
  have := c.openedStreams.le_max
  obtain ⟨v, hadd, hv⟩ : ∃ v, c.closedStreams.checkedAdd (VarInt.fromU8 1) = some v ∧
      v.val = c.closedStreams.val + 1 :=
    ⟨_, VarInt.checkedAdd_of_le (by simp; omega), by simp⟩
  refine ⟨v, ?_, hv⟩
  simp only [onCloseStream, hadd, Option.bind_eq_bind, Option.bind_some, checkIntegrity]
  rw [checkIntegrity_of_le (by omega) (by omega), Option.map_some]

theorem Inv.onCloseStream {c : LocalInitiated} (h : c.Inv)
    (hopen : c.closedStreams.val < c.openedStreams.val) {v : VarInt}
    (hv : v.val = c.closedStreams.val + 1) : Inv { c with closedStreams := v } := by
  obtain ⟨h₁, h₂, h₃⟩ := h
  exact ⟨by simp only; omega, by simp only; omega, h₃⟩

theorem onMaxStreams_eq (c : LocalInitiated) (frame : MaxStreams) :
    c.onMaxStreams frame =
      { c with peerCumulativeStreamLimit := max c.peerCumulativeStreamLimit frame.maximumStreams } := by
  have hmax : max c.peerCumulativeStreamLimit frame.maximumStreams =
      if frame.maximumStreams ≤ c.peerCumulativeStreamLimit then c.peerCumulativeStreamLimit
      else frame.maximumStreams := by
    apply VarInt.ext
    simp only [VarInt.max_val, VarInt.le_def]
    split_ifs <;> omega
  rw [hmax, onMaxStreams]
  split_ifs <;> rfl

theorem Inv.onMaxStreams {c : LocalInitiated} (h : c.Inv) (frame : MaxStreams) :
    (c.onMaxStreams frame).Inv := by
  rw [onMaxStreams_eq]
  obtain ⟨h₁, h₂, h₃⟩ := h
  exact ⟨h₁, h₂, by simp only [VarInt.max_val]; omega⟩

end LocalInitiated

namespace Controller

def setRemoteController (self : Controller) : StreamType → RemoteInitiated → Controller
  | .bidirectional, c => { self with remoteBidiController := c }
  | .unidirectional, c => { self with remoteUniController := c }

def setLocalController (self : Controller) : StreamType → LocalInitiated → Controller
  | .bidirectional, c => { self with localBidiController := c }
  | .unidirectional, c => { self with localUniController := c }

def remoteDirection : StreamType → StreamDirection
  | .bidirectional => .remoteInitiatedBidirectional
  | .unidirectional => .remoteInitiatedUnidirectional

def localDirection : StreamType → StreamDirection
  | .bidirectional => .localInitiatedBidirectional
  | .unidirectional => .localInitiatedUnidirectional

variable (c : Controller) (t t' : StreamType)

@[simp] theorem remoteController_setRemoteController (r : RemoteInitiated) :
    (c.setRemoteController t r).remoteController t' = if t = t' then r else c.remoteController t' := by
  cases t <;> cases t' <;> rfl

@[simp] theorem localController_setRemoteController (r : RemoteInitiated) :
    (c.setRemoteController t r).localController t' = c.localController t' := by
  cases t <;> cases t' <;> rfl

@[simp] theorem remoteController_setLocalController (l : LocalInitiated) :
    (c.setLocalController t l).remoteController t' = c.remoteController t' := by
  cases t <;> cases t' <;> rfl

@[simp] theorem localController_setLocalController (l : LocalInitiated) :
    (c.setLocalController t l).localController t' = if t = t' then l else c.localController t' := by
  cases t <;> cases t' <;> rfl

@[simp] theorem localEndpointType_setRemoteController (r : RemoteInitiated) :
    (c.setRemoteController t r).localEndpointType = c.localEndpointType := by
  cases t <;> rfl

@[simp] theorem localEndpointType_setLocalController (l : LocalInitiated) :
    (c.setLocalController t l).localEndpointType = c.localEndpointType := by
  cases t <;> rfl

theorem onOpenStream_remoteDirection :
    c.onOpenStream (remoteDirection t) =
      (c.remoteController t).onOpenStream.map (c.setRemoteController t) := by
  cases t <;> rfl

theorem onOpenStream_localDirection :
    c.onOpenStream (localDirection t) =
      (c.localController t).onOpenStream.map (c.setLocalController t) := by
  cases t <;> rfl

theorem direction_nth {initiator : EndpointType} {n : Nat} {streamId : StreamId}
    (hid : StreamId.nth initiator t n = some streamId) :
    c.direction streamId =
      if c.localEndpointType = initiator then localDirection t else remoteDirection t := by
  unfold direction
  rw [StreamId.initiator_nth hid, StreamId.streamType_nth hid]
  by_cases hlocal : c.localEndpointType = initiator
  · rw [if_pos hlocal, hlocal, beq_self_eq_true]
    cases t <;> rfl
  · rw [if_neg hlocal, beq_false_of_ne hlocal]
    cases t <;> rfl

theorem ne_peerType (e : EndpointType) : e ≠ e.peerType := by
  cases e <;> decide

@[simp] theorem setRemoteController_self : c.setRemoteController t (c.remoteController t) = c := by
  cases t <;> rfl

@[simp] theorem setRemoteController_setRemoteController (r r' : RemoteInitiated) :
    (c.setRemoteController t r).setRemoteController t r' = c.setRemoteController t r' := by
  cases t <;> rfl

/-- Every controller keeps its invariant. -/
structure Inv (c : Controller) : Prop where
  remote_inv : ∀ t, (c.remoteController t).Inv
  local_inv : ∀ t, (c.localController t).Inv

theorem Inv.setRemoteController {c : Controller} (h : c.Inv) {t : StreamType} {r : RemoteInitiated}
    (hr : r.Inv) : (c.setRemoteController t r).Inv := by
  refine ⟨fun t' => ?_, fun t' => by simpa using h.local_inv t'⟩
  simp only [remoteController_setRemoteController]
  split_ifs
  exacts [hr, h.remote_inv t']

theorem Inv.setLocalController {c : Controller} (h : c.Inv) {t : StreamType} {l : LocalInitiated}
    (hl : l.Inv) : (c.setLocalController t l).Inv := by
  refine ⟨fun t' => by simpa using h.remote_inv t', fun t' => ?_⟩
  simp only [localController_setLocalController]
  split_ifs
  exacts [hl, h.local_inv t']

theorem inv_new (localEndpointType : EndpointType)
    (initialPeerLimits initialLocalLimits : InitialFlowControlLimits) (streamLimits : StreamLimits)
    (minRtt : Duration)
    (hbidi : initialLocalLimits.maxOpenRemoteBidirectionalStreams.val ≤ 2 ^ 60)
    (huni : initialLocalLimits.maxOpenRemoteUnidirectionalStreams.val ≤ 2 ^ 60) :
    (new localEndpointType initialPeerLimits initialLocalLimits streamLimits minRtt).Inv where
  remote_inv
    | .bidirectional => RemoteInitiated.inv_new hbidi minRtt
    | .unidirectional => RemoteInitiated.inv_new huni minRtt
  local_inv
    | .bidirectional => LocalInitiated.inv_new _ _
    | .unidirectional => LocalInitiated.inv_new _ _

theorem onOpenStreams_remote {c : Controller} (h : c.Inv) (t : StreamType) (k : Nat)
    (hroom : (c.remoteController t).openedStreams.val + k ≤
      (c.remoteController t).latestLimit.val) :
    ∃ v, c.onOpenStreams (remoteDirection t) k =
        some (c.setRemoteController t { c.remoteController t with openedStreams := v }) ∧
      v.val = (c.remoteController t).openedStreams.val + k := by
  induction k generalizing c with
  | zero =>
    exact ⟨_, by rw [onOpenStreams]; exact congrArg some (setRemoteController_self c t).symm, rfl⟩
  | succ k ih =>
    have hr := h.remote_inv t
    obtain ⟨v₁, hopen, hv₁⟩ := RemoteInitiated.onOpenStream_spec hr (by omega)
    have h₁ : (c.setRemoteController t { c.remoteController t with openedStreams := v₁ }).Inv :=
      h.setRemoteController (hr.setOpenedStreams (by omega) (by simp at hroom ⊢; omega))
    obtain ⟨v, hrest, hv⟩ := ih h₁ (by simp at hroom ⊢; omega)
    refine ⟨v, ?_, by simp at hv; omega⟩
    rw [onOpenStreams, onOpenStream_remoteDirection, hopen, Option.map_some, Option.bind_some,
      hrest]
    simp

theorem count_nth {initiator : EndpointType} {f n : Nat} {first last : StreamId}
    (hf : StreamId.nth initiator t f = some first) (hl : StreamId.nth initiator t n = some last) :
    StreamIter.count ⟨first, last⟩ = n - f + 1 := by
  unfold StreamIter.count
  rw [StreamId.val_of_nth hf, StreamId.val_of_nth hl]
  omega

theorem onOpenRemoteStream_nth {f n : Nat} {first last : StreamId}
    (hf : StreamId.nth c.localEndpointType.peerType t f = some first)
    (hl : StreamId.nth c.localEndpointType.peerType t n = some last) :
    c.onOpenRemoteStream ⟨first, last⟩ =
      ((c.remoteController t).onRemoteOpenStream last).bind fun check =>
        match check with
        | .error e => some (c, .error e)
        | .ok () => (c.onOpenStreams (remoteDirection t) (n - f + 1)).map ((·, .ok ())) := by
  have hdir : c.direction last = remoteDirection t := by
    rw [direction_nth c t hl, if_neg (ne_peerType c.localEndpointType)]
  have hremote : isRemote (remoteDirection t) = true := by cases t <;> rfl
  simp only [onOpenRemoteStream, hdir, hremote, count_nth t hf hl, StreamId.streamType_nth hl,
    Bool.not_true, Bool.false_eq_true, if_false, Option.bind_eq_bind, Option.pure_def,
    Option.map_eq_bind]
  cases t <;> rfl

theorem step_openRemote_of_lt {n : Nat} (hn : n < (c.remoteController t).openedStreams.val) :
    c.step (.openRemote t n) = some (c, .ok ()) := by
  simp [step, hn]

theorem step_openRemote_of_max_le {n : Nat} (hn : 2 ^ 60 ≤ n) :
    c.step (.openRemote t n) = some (c, .ok ()) := by
  simp only [step, StreamId.nth_eq_none hn]
  split_ifs
  · rfl
  · cases StreamId.nth c.localEndpointType.peerType t (c.remoteController t).openedStreams.val <;> rfl

theorem step_openRemote_eq {n : Nat} (hn : (c.remoteController t).openedStreams.val ≤ n)
    (hmax : n < 2 ^ 60) :
    ∃ first last,
      StreamId.nth c.localEndpointType.peerType t (c.remoteController t).openedStreams.val =
        some first ∧ StreamId.nth c.localEndpointType.peerType t n = some last ∧
      c.step (.openRemote t n) = c.onOpenRemoteStream ⟨first, last⟩ := by
  obtain ⟨first, hf⟩ := StreamId.exists_nth c.localEndpointType.peerType t (lt_of_le_of_lt hn hmax)
  obtain ⟨last, hl⟩ := StreamId.exists_nth c.localEndpointType.peerType t hmax
  have hiter : StreamIter.new first last = some ⟨first, last⟩ := by
    have hle : first ≤ last := by
      rw [StreamId.le_iff, StreamId.val_of_nth hf, StreamId.val_of_nth hl]
      omega
    rw [StreamIter.new, if_pos ⟨by rw [StreamId.streamType_nth hf, StreamId.streamType_nth hl],
      by rw [StreamId.initiator_nth hf, StreamId.initiator_nth hl], hle⟩]
  refine ⟨first, last, hf, hl, ?_⟩
  simp only [step, if_neg (Nat.not_lt.mpr hn), hf, hl, hiter, Option.bind_some]

theorem step_openRemote_of_limit {n : Nat} (hn : (c.remoteController t).openedStreams.val ≤ n)
    (hmax : n < 2 ^ 60) (hlim : (c.remoteController t).latestLimit.val = 2 ^ 60) :
    c.step (.openRemote t n) = none := by
  obtain ⟨first, last, hf, hl, hstep⟩ := step_openRemote_eq c t hn hmax
  rw [hstep, onOpenRemoteStream_nth c t hf hl,
    RemoteInitiated.onRemoteOpenStream_of_max hlim.ge, Option.bind_none]

theorem step_openRemote_of_le {n : Nat} (hn : (c.remoteController t).openedStreams.val ≤ n)
    (hmax : n < 2 ^ 60) (hlim : (c.remoteController t).latestLimit.val < 2 ^ 60)
    (hle : (c.remoteController t).latestLimit.val ≤ n) :
    c.step (.openRemote t n) = some (c, .error TransportError.STREAM_LIMIT_ERROR) := by
  obtain ⟨first, last, hf, hl, hstep⟩ := step_openRemote_eq c t hn hmax
  rw [hstep, onOpenRemoteStream_nth c t hf hl,
    RemoteInitiated.onRemoteOpenStream_nth hlim hl, if_pos hle, Option.bind_some]

theorem step_openRemote_of_lt_limit {c : Controller} (h : c.Inv) {t : StreamType} {n : Nat}
    (hn : (c.remoteController t).openedStreams.val ≤ n)
    (hlt : n < (c.remoteController t).latestLimit.val)
    (hlim : (c.remoteController t).latestLimit.val < 2 ^ 60) :
    ∃ v, c.step (.openRemote t n) =
        some (c.setRemoteController t { c.remoteController t with openedStreams := v }, .ok ()) ∧
      v.val = n + 1 := by
  obtain ⟨first, last, hf, hl, hstep⟩ := step_openRemote_eq c t hn (by omega)
  obtain ⟨v, hopen, hv⟩ := onOpenStreams_remote h t (n - (c.remoteController t).openedStreams.val + 1)
    (by omega)
  refine ⟨v, ?_, by omega⟩
  rw [hstep, onOpenRemoteStream_nth c t hf hl,
    RemoteInitiated.onRemoteOpenStream_nth hlim hl, if_neg (Nat.not_le.mpr hlt), Option.bind_some]
  simp only [hopen, Option.map_some]

theorem direction_initial :
    c.direction (StreamId.initial c.localEndpointType t) = localDirection t := by
  unfold direction
  cases hlocal : c.localEndpointType <;> cases t <;> rfl

theorem pollOpenLocalStream_eq :
    c.pollOpenLocalStream t =
      (c.localController t).pollOpenStream.bind fun pollOpen =>
        match pollOpen with
        | .pending => some (c, .pending)
        | .ready => ((c.localController t).onOpenStream.map (c.setLocalController t)).map
            ((·, .ready)) := by
  rw [← onOpenStream_localDirection, ← direction_initial c t]
  simp only [pollOpenLocalStream, Option.bind_eq_bind, Option.pure_def, Option.map_eq_bind]
  cases t <;> rfl

theorem pollOpenLocalStream_of_can {c : Controller} (h : c.Inv) {t : StreamType}
    (hlocal : (c.localController t).openedStreams.val - (c.localController t).closedStreams.val <
      (c.localController t).maxLocalLimit.val)
    (hpeer : (c.localController t).openedStreams.val <
      (c.localController t).peerCumulativeStreamLimit.val) :
    ∃ v, c.pollOpenLocalStream t =
        some (c.setLocalController t { c.localController t with openedStreams := v }, .ready) ∧
      v.val = (c.localController t).openedStreams.val + 1 := by
  have hl := h.local_inv t
  obtain ⟨v, hopen, hv⟩ := LocalInitiated.onOpenStream_spec hl hlocal hpeer
  refine ⟨v, ?_, hv⟩
  rw [pollOpenLocalStream_eq, LocalInitiated.pollOpenStream_spec hl, if_pos ⟨hlocal, hpeer⟩,
    Option.bind_some]
  simp only [hopen, Option.map_some]

theorem pollOpenLocalStream_of_not_can {c : Controller} (h : c.Inv) {t : StreamType}
    (hcan : ¬((c.localController t).openedStreams.val - (c.localController t).closedStreams.val <
      (c.localController t).maxLocalLimit.val ∧ (c.localController t).openedStreams.val <
        (c.localController t).peerCumulativeStreamLimit.val)) :
    c.pollOpenLocalStream t = some (c, .pending) := by
  rw [pollOpenLocalStream_eq, LocalInitiated.pollOpenStream_spec (h.local_inv t), if_neg hcan,
    Option.bind_some]

def Event.raisePeerLimit (streamType : StreamType) : Event → Nat → Nat
  | .maxStreams frame, limit =>
    if frame.streamType = streamType then max limit frame.maximumStreams.val else limit
  | _, limit => limit

/-- What a call that does not panic keeps: the invariant, the limits advertised to the peer
never lower, and the peer's limits moved only by its `MAX_STREAMS` frames. -/
structure Keeps (c c' : Controller) (e : Event) : Prop where
  inv : c'.Inv
  latestLimit_le : ∀ t, (c.remoteController t).latestLimit.val ≤ (c'.remoteController t).latestLimit.val
  peerLimit_eq : ∀ t, (c'.localController t).peerCumulativeStreamLimit.val =
    e.raisePeerLimit t (c.localController t).peerCumulativeStreamLimit.val

theorem keeps_refl {c : Controller} (h : c.Inv) {e : Event}
    (he : ∀ t limit, e.raisePeerLimit t limit = limit) : Keeps c c e :=
  ⟨h, fun _ => le_rfl, fun t => (he t _).symm⟩

theorem keeps_setRemoteController {c : Controller} (h : c.Inv) {t : StreamType}
    {r : RemoteInitiated} (hr : r.Inv)
    (hle : (c.remoteController t).latestLimit.val ≤ r.latestLimit.val) {e : Event}
    (he : ∀ t limit, e.raisePeerLimit t limit = limit) :
    Keeps c (c.setRemoteController t r) e := by
  refine ⟨h.setRemoteController hr, fun t' => ?_, fun t' => by simp [he]⟩
  simp only [remoteController_setRemoteController]
  split_ifs with heq
  · exact heq ▸ hle
  · exact le_rfl

theorem keeps_setLocalController {c : Controller} (h : c.Inv) {t : StreamType}
    {l : LocalInitiated} (hl : l.Inv)
    (hpeer : l.peerCumulativeStreamLimit = (c.localController t).peerCumulativeStreamLimit)
    {e : Event} (he : ∀ t limit, e.raisePeerLimit t limit = limit) :
    Keeps c (c.setLocalController t l) e := by
  refine ⟨h.setLocalController hl, fun t' => by simp, fun t' => ?_⟩
  simp only [localController_setLocalController, he]
  split_ifs with heq
  · rw [hpeer, heq]
  · rfl

theorem step_openLocal_spec {c : Controller} (h : c.Inv) (t : StreamType) :
    ∃ c', c.step (.openLocal t) = some (c', .ok ()) ∧ Keeps c c' (.openLocal t) := by
  have hl := h.local_inv t
  by_cases hcan : (c.localController t).openedStreams.val - (c.localController t).closedStreams.val <
      (c.localController t).maxLocalLimit.val ∧ (c.localController t).openedStreams.val <
        (c.localController t).peerCumulativeStreamLimit.val
  · obtain ⟨v, hpoll, hv⟩ := pollOpenLocalStream_of_can h hcan.1 hcan.2
    refine ⟨_, by simp [step, hpoll], keeps_setLocalController h (hl.onOpenStream hcan.1 hcan.2 hv)
      rfl fun _ _ => rfl⟩
  · exact ⟨c, by simp [step, pollOpenLocalStream_of_not_can h hcan], keeps_refl h fun _ _ => rfl⟩

theorem onCloseStream_remote {streamId : StreamId}
    (hd : c.direction streamId = remoteDirection t) :
    c.onCloseStream streamId =
      (c.remoteController t).onCloseStream.map (c.setRemoteController t) := by
  unfold onCloseStream
  rw [hd]
  cases t <;> rfl

theorem onCloseStream_local {streamId : StreamId}
    (hd : c.direction streamId = localDirection t) :
    c.onCloseStream streamId =
      (c.localController t).onCloseStream.map (c.setLocalController t) := by
  unfold onCloseStream
  rw [hd]
  cases t <;> rfl

theorem hasOpenStream_remoteDirection :
    c.hasOpenStream (remoteDirection t) =
      decide ((c.remoteController t).closedStreams < (c.remoteController t).openedStreams) := by
  cases t <;> rfl

theorem hasOpenStream_localDirection :
    c.hasOpenStream (localDirection t) =
      decide ((c.localController t).closedStreams < (c.localController t).openedStreams) := by
  cases t <;> rfl

theorem direction_cases (d : StreamDirection) :
    (∃ t, d = remoteDirection t) ∨ ∃ t, d = localDirection t := by
  cases d
  exacts [.inr ⟨.bidirectional, rfl⟩, .inl ⟨.bidirectional, rfl⟩, .inr ⟨.unidirectional, rfl⟩,
    .inl ⟨.unidirectional, rfl⟩]

theorem step_close_spec {c : Controller} (h : c.Inv) (streamId : StreamId) :
    ∃ c', c.step (.close streamId) = some (c', .ok ()) ∧ Keeps c c' (.close streamId) := by
  rcases direction_cases (c.direction streamId) with ⟨t, hd⟩ | ⟨t, hd⟩
  · have hr := h.remote_inv t
    by_cases hopen : (c.remoteController t).closedStreams.val < (c.remoteController t).openedStreams.val
    · obtain ⟨v, hclose, hv⟩ := RemoteInitiated.onCloseStream_spec hr hopen
      refine ⟨_, ?_, keeps_setRemoteController h (hr.onCloseStream hopen hv) le_rfl fun _ _ => rfl⟩
      simp [step, hd, hasOpenStream_remoteDirection, hopen, onCloseStream_remote c t hd, hclose]
    · refine ⟨c, ?_, keeps_refl h fun _ _ => rfl⟩
      simp [step, hd, hasOpenStream_remoteDirection, hopen]
  · have hl := h.local_inv t
    by_cases hopen : (c.localController t).closedStreams.val < (c.localController t).openedStreams.val
    · obtain ⟨v, hclose, hv⟩ := LocalInitiated.onCloseStream_spec hl hopen
      refine ⟨_, ?_, keeps_setLocalController h (hl.onCloseStream hopen hv) rfl fun _ _ => rfl⟩
      simp [step, hd, hasOpenStream_localDirection, hopen, onCloseStream_local c t hd, hclose]
    · refine ⟨c, ?_, keeps_refl h fun _ _ => rfl⟩
      simp [step, hd, hasOpenStream_localDirection, hopen]

theorem onMaxStreams_eq (frame : MaxStreams) :
    c.onMaxStreams frame = c.setLocalController frame.streamType
      ((c.localController frame.streamType).onMaxStreams frame) := by
  unfold onMaxStreams
  cases frame.streamType <;> rfl

theorem step_maxStreams_spec {c : Controller} (h : c.Inv) (frame : MaxStreams) :
    c.step (.maxStreams frame) = some (c.onMaxStreams frame, .ok ()) ∧
      Keeps c (c.onMaxStreams frame) (.maxStreams frame) := by
  refine ⟨rfl, ?_⟩
  rw [onMaxStreams_eq]
  refine ⟨h.setLocalController ((h.local_inv _).onMaxStreams frame), fun t => by simp,
    fun t => ?_⟩
  simp only [localController_setLocalController, Event.raisePeerLimit]
  split_ifs with heq
  · subst heq
    rw [LocalInitiated.onMaxStreams_eq]
    simp
  · rfl

theorem Keeps.trans {c₁ c₂ c₃ : Controller} {e : Event} (h₁ : Keeps c₁ c₂ e) (h₂ : Keeps c₂ c₃ e)
    (he : ∀ t limit, e.raisePeerLimit t limit = limit) : Keeps c₁ c₃ e :=
  ⟨h₂.inv, fun t => (h₁.latestLimit_le t).trans (h₂.latestLimit_le t),
    fun t => by rw [h₂.peerLimit_eq t, he, h₁.peerLimit_eq t]⟩

theorem step_timeout_spec {c : Controller} (h : c.Inv) (now : Timestamp) :
    ∃ c', c.step (.timeout now) = some (c', .ok ()) ∧ Keeps c c' (.timeout now) := by
  obtain ⟨bidi, hbidi, hbinv, hbraise⟩ :=
    RemoteInitiated.onTimeout_spec (h.remote_inv .bidirectional) now
  obtain ⟨uni, huni, huinv, huraise⟩ :=
    RemoteInitiated.onTimeout_spec (h.remote_inv .unidirectional) now
  have hc₁ := keeps_setRemoteController (e := .timeout now) h hbinv hbraise.latestLimit_le
    fun _ _ => rfl
  have hc₂ := keeps_setRemoteController (e := .timeout now) hc₁.inv (t := .unidirectional)
    huinv (by simpa using huraise.latestLimit_le) fun _ _ => rfl
  refine ⟨_, ?_, hc₁.trans hc₂ fun _ _ => rfl⟩
  simp only [step, onTimeout]
  rw [show c.remoteBidiController.onTimeout now = some bidi from hbidi,
    show c.remoteUniController.onTimeout now = some uni from huni]
  rfl

theorem step_updateMinRtt_spec {c : Controller} (h : c.Inv) (minRtt : Duration)
    (now : Timestamp) :
    ∃ c', c.step (.updateMinRtt minRtt now) = some (c', .ok ()) ∧
      Keeps c c' (.updateMinRtt minRtt now) := by
  obtain ⟨bidi, hbidi, hbinv, hbraise⟩ :=
    RemoteInitiated.updateMinRtt_spec (h.remote_inv .bidirectional) minRtt now
  obtain ⟨uni, huni, huinv, huraise⟩ :=
    RemoteInitiated.updateMinRtt_spec (h.remote_inv .unidirectional) minRtt now
  have hc₁ := keeps_setRemoteController (e := .updateMinRtt minRtt now) h hbinv
    hbraise.latestLimit_le fun _ _ => rfl
  have hc₂ := keeps_setRemoteController (e := .updateMinRtt minRtt now) hc₁.inv
    (t := .unidirectional) huinv (by simpa using huraise.latestLimit_le) fun _ _ => rfl
  refine ⟨_, ?_, hc₁.trans hc₂ fun _ _ => rfl⟩
  simp only [step, updateMinRtt]
  rw [show c.remoteBidiController.updateMinRtt minRtt now = some bidi from hbidi,
    show c.remoteUniController.updateMinRtt minRtt now = some uni from huni]
  rfl

/-- The one panic left: a new peer stream while its limit is `MAX_STREAMS_MAX_VALUE`. -/
def PanicsAt (c : Controller) (e : Event) : Prop :=
  ∃ t n, e = .openRemote t n ∧ (c.remoteController t).openedStreams.val ≤ n ∧ n < 2 ^ 60 ∧
    (c.remoteController t).latestLimit.val = 2 ^ 60

theorem step_openRemote_spec {c : Controller} (h : c.Inv) (t : StreamType) (n : Nat)
    (hsafe : ¬PanicsAt c (.openRemote t n)) :
    ∃ c' r, c.step (.openRemote t n) = some (c', r) ∧ Keeps c c' (.openRemote t n) := by
  have hr := h.remote_inv t
  by_cases hn : n < (c.remoteController t).openedStreams.val
  · exact ⟨c, _, step_openRemote_of_lt c t hn, keeps_refl h fun _ _ => rfl⟩
  by_cases hmax : 2 ^ 60 ≤ n
  · exact ⟨c, _, step_openRemote_of_max_le c t hmax, keeps_refl h fun _ _ => rfl⟩
  have hlim : (c.remoteController t).latestLimit.val < 2 ^ 60 := by
    have := hr.limit_le_max
    by_contra hge
    exact hsafe ⟨t, n, rfl, by omega, by omega, by omega⟩
  by_cases hle : (c.remoteController t).latestLimit.val ≤ n
  · exact ⟨c, _, step_openRemote_of_le c t (by omega) (by omega) hlim hle,
      keeps_refl h fun _ _ => rfl⟩
  · obtain ⟨v, hstep, hv⟩ := step_openRemote_of_lt_limit h (t := t) (n := n) (by omega) (by omega) hlim
    exact ⟨_, _, hstep, keeps_setRemoteController h (hr.setOpenedStreams (v := v) (by omega) (by omega))
      le_rfl fun _ _ => rfl⟩

theorem Inv.step_spec {c : Controller} (h : c.Inv) (e : Event) (hsafe : ¬PanicsAt c e) :
    ∃ c' r, c.step e = some (c', r) ∧ Keeps c c' e := by
  cases e with
  | openRemote t n => exact step_openRemote_spec h t n hsafe
  | openLocal t =>
    obtain ⟨c', hstep, hkeeps⟩ := step_openLocal_spec h t
    exact ⟨c', _, hstep, hkeeps⟩
  | close streamId =>
    obtain ⟨c', hstep, hkeeps⟩ := step_close_spec h streamId
    exact ⟨c', _, hstep, hkeeps⟩
  | maxStreams frame =>
    obtain ⟨hstep, hkeeps⟩ := step_maxStreams_spec h frame
    exact ⟨_, _, hstep, hkeeps⟩
  | timeout now =>
    obtain ⟨c', hstep, hkeeps⟩ := step_timeout_spec h now
    exact ⟨c', _, hstep, hkeeps⟩
  | updateMinRtt minRtt now =>
    obtain ⟨c', hstep, hkeeps⟩ := step_updateMinRtt_spec h minRtt now
    exact ⟨c', _, hstep, hkeeps⟩

theorem Inv.step_eq_none_iff {c : Controller} (h : c.Inv) (e : Event) :
    c.step e = none ↔ PanicsAt c e := by
  constructor
  · intro hnone
    by_contra hsafe
    obtain ⟨c', r, hstep, -⟩ := h.step_spec e hsafe
    rw [hstep] at hnone
    cases hnone
  · rintro ⟨t, n, rfl, hn, hmax, hlim⟩
    exact step_openRemote_of_limit c t hn hmax hlim

theorem Inv.keeps {c c' : Controller} (h : c.Inv) {e : Event} {r : Except TransportError Unit}
    (hstep : c.step e = some (c', r)) : Keeps c c' e := by
  by_cases hsafe : PanicsAt c e
  · rw [(h.step_eq_none_iff e).mpr hsafe] at hstep
    cases hstep
  · obtain ⟨c'', r', hstep', hkeeps⟩ := h.step_spec e hsafe
    rw [hstep'] at hstep
    obtain ⟨rfl, -⟩ := Prod.mk.inj (Option.some.inj hstep)
    exact hkeeps

theorem Inv.run {c w : Controller} (h : c.Inv) {events : List Event}
    (hrun : c.run events = some w) :
    w.Inv ∧ (∀ t, (c.remoteController t).latestLimit.val ≤ (w.remoteController t).latestLimit.val) ∧
      ∀ t, (w.localController t).peerCumulativeStreamLimit.val =
        events.foldl (fun limit e => e.raisePeerLimit t limit)
          (c.localController t).peerCumulativeStreamLimit.val := by
  induction events generalizing c with
  | nil =>
    obtain rfl : c = w := Option.some.inj hrun
    exact ⟨h, fun _ => le_rfl, fun _ => rfl⟩
  | cons e events ih =>
    rw [Controller.run] at hrun
    obtain ⟨⟨c', r⟩, hstep, hrest⟩ := Option.bind_eq_some_iff.mp hrun
    have hkeeps := h.keeps hstep
    obtain ⟨hinv, hle, hpeer⟩ := ih hkeeps.inv hrest
    refine ⟨hinv, fun t => (hkeeps.latestLimit_le t).trans (hle t), fun t => ?_⟩
    rw [hpeer t, hkeeps.peerLimit_eq t, List.foldl_cons]

/-- From a controller built with peer-stream limits up to `2^60`, along every run: the limits
advertised to the peer stay within `MAX_STREAMS_MAX_VALUE` and the closed streams plus the
local limit, and never go down; no more peer streams are open than the local limit; the
application opens no more streams than its local limit allows concurrently and than the
peer's largest `MAX_STREAMS` allows in all; a new peer stream is accepted exactly below the
limit; and the only call that panics is a new peer stream once its limit has reached
`MAX_STREAMS_MAX_VALUE`. -/
theorem concurrency_limits_hold (localEndpointType : EndpointType)
    (initialPeerLimits initialLocalLimits : InitialFlowControlLimits) (streamLimits : StreamLimits)
    (minRtt : Duration)
    (hbidi : initialLocalLimits.maxOpenRemoteBidirectionalStreams.val ≤ 2 ^ 60)
    (huni : initialLocalLimits.maxOpenRemoteUnidirectionalStreams.val ≤ 2 ^ 60)
    (events : List Event) (w : Controller)
    (hrun : (new localEndpointType initialPeerLimits initialLocalLimits streamLimits minRtt).run
      events = some w) :
    (∀ t, (w.remoteController t).latestLimit.val ≤ 2 ^ 60 ∧
      (w.remoteController t).latestLimit.val ≤
        (w.remoteController t).closedStreams.val + (w.remoteController t).maxLocalLimit.val ∧
      (w.remoteController t).openedStreams.val - (w.remoteController t).closedStreams.val ≤
        (w.remoteController t).maxLocalLimit.val) ∧
    (∀ t, (w.localController t).openedStreams.val - (w.localController t).closedStreams.val ≤
        (w.localController t).maxLocalLimit.val ∧
      (w.localController t).openedStreams.val ≤
        (w.localController t).peerCumulativeStreamLimit.val ∧
      (w.localController t).peerCumulativeStreamLimit.val =
        events.foldl (fun limit e => e.raisePeerLimit t limit)
          ((new localEndpointType initialPeerLimits initialLocalLimits streamLimits
            minRtt).localController t).peerCumulativeStreamLimit.val) ∧
    (∀ e, w.step e = none ↔ PanicsAt w e) ∧
    (∀ e w' r, w.step e = some (w', r) →
      ∀ t, (w.remoteController t).latestLimit.val ≤ (w'.remoteController t).latestLimit.val) ∧
    (∀ t n, (w.remoteController t).openedStreams.val ≤ n → n < 2 ^ 60 →
      (w.remoteController t).latestLimit.val < 2 ^ 60 →
      ∃ w' r, w.step (.openRemote t n) = some (w', r) ∧
        (r = .ok () ↔ n < (w.remoteController t).latestLimit.val)) ∧
    (∀ t w', w.pollOpenLocalStream t = some (w', .ready) →
      (w.localController t).openedStreams.val - (w.localController t).closedStreams.val <
        (w.localController t).maxLocalLimit.val ∧
      (w.localController t).openedStreams.val <
        (w.localController t).peerCumulativeStreamLimit.val) := by
  obtain ⟨h, -, hpeer⟩ := (inv_new localEndpointType initialPeerLimits initialLocalLimits
    streamLimits minRtt hbidi huni).run hrun
  refine ⟨fun t => ?_, fun t => ?_, h.step_eq_none_iff, fun e w' r hstep => (h.keeps hstep).latestLimit_le,
    fun t n hn hmax hlim => ?_, fun t w' hpoll => ?_⟩
  · have hr := h.remote_inv t
    exact ⟨hr.limit_le_max, hr.limit_le_closed, hr.open_le⟩
  · have hl := h.local_inv t
    exact ⟨hl.open_le, hl.opened_le_peer, hpeer t⟩
  · by_cases hle : (w.remoteController t).latestLimit.val ≤ n
    · refine ⟨w, _, step_openRemote_of_le w t hn hmax hlim hle, ?_⟩
      simp only [reduceCtorEq, false_iff, not_lt]
      exact hle
    · obtain ⟨v, hstep, -⟩ := step_openRemote_of_lt_limit h hn (Nat.not_le.mp hle) hlim
      exact ⟨_, _, hstep, iff_of_true rfl (Nat.not_le.mp hle)⟩
  · by_contra hcan
    rw [pollOpenLocalStream_of_not_can h hcan] at hpoll
    cases hpoll

theorem concurrency_limits_hold_two_calls :
    ∃ w, (new .server ⟨VarInt.fromU8 10, VarInt.fromU8 10⟩ ⟨VarInt.fromU8 3, VarInt.fromU8 3⟩
        ⟨VarInt.fromU8 5, VarInt.fromU8 5⟩ 100000).run
        [.openRemote .bidirectional 1, .openLocal .bidirectional] = some w ∧
      (w.remoteController .bidirectional).openedStreams.val -
          (w.remoteController .bidirectional).closedStreams.val ≤
        (w.remoteController .bidirectional).maxLocalLimit.val := by
  obtain ⟨w, hw⟩ := Option.isSome_iff_exists.mp (show ((new .server ⟨VarInt.fromU8 10,
    VarInt.fromU8 10⟩ ⟨VarInt.fromU8 3, VarInt.fromU8 3⟩ ⟨VarInt.fromU8 5, VarInt.fromU8 5⟩
      100000).run [.openRemote .bidirectional 1, .openLocal .bidirectional]).isSome = true by decide)
  exact ⟨w, hw, ((concurrency_limits_hold .server _ _ _ _ (by decide) (by decide) _ w hw).1
    .bidirectional).2.2⟩

/-- With the local limit for peer-initiated bidirectional streams at `2^60`, the largest value
the `initial_max_streams_bidi` transport parameter allows (`MAX_STREAMS_MAX_VALUE`), the first
frame for any of the peer's bidirectional streams panics in `on_remote_open_stream`. -/
theorem remote_open_panics_at_max_streams (localEndpointType : EndpointType)
    (initialPeerLimits : InitialFlowControlLimits) (maxOpenRemoteUnidirectionalStreams : VarInt)
    (streamLimits : StreamLimits) (minRtt : Duration) (nthIdx : Nat) (hidx : nthIdx < 2 ^ 60) :
    (new localEndpointType initialPeerLimits ⟨MAX_STREAMS_MAX_VALUE, maxOpenRemoteUnidirectionalStreams⟩
      streamLimits minRtt).step (.openRemote .bidirectional nthIdx) = none :=
  step_openRemote_of_limit _ .bidirectional (Nat.zero_le _) hidx rfl

theorem remote_open_panics_at_max_streams_server :
    (0 : Nat) < 2 ^ 60 ∧
      (new .server ⟨VarInt.fromU8 10, VarInt.fromU8 10⟩ ⟨MAX_STREAMS_MAX_VALUE, VarInt.fromU8 3⟩
        ⟨VarInt.fromU8 5, VarInt.fromU8 5⟩ 100000).step (.openRemote .bidirectional 0) = none :=
  ⟨by norm_num, remote_open_panics_at_max_streams .server _ _ _ _ 0 (by norm_num)⟩

end Controller

end S2nQuic.Stream
