import S2nQuic.Varint
import S2nQuic.Lib.Ledger

/-!
# Send-side flow control

`OutgoingConnectionFlowControllerImpl` (`stream/outgoing_connection_flow_controller.rs`) holds
the connection's window from `MAX_DATA` and the part of it not yet handed to streams. Each
stream's `StreamFlowController` (`stream/send_stream.rs`) acquires connection window up to the
highest offset it was asked for and grants the smaller of that and its `MAX_STREAM_DATA`;
`Transmissions::transmit_interval` (`sync/data_sender/transmissions.rs`) trims a STREAM frame to
the window granted.

The streams share the connection flow controller through an `Rc<RefCell<_>>`; here it is
passed in and returned. A `VarInt` addition or subtraction out of range panics, and the
functions return `none` there. The `DATA_BLOCKED` and `STREAM_DATA_BLOCKED` syncs only choose
which blocked frames to send and are left out.
-/

namespace S2nQuic.Stream
open Varint

/-! ## The connection flow controller -/

structure OutgoingConnectionFlowController where
  totalAvailableWindow : VarInt
  availableWindow : VarInt
  deriving DecidableEq

namespace OutgoingConnectionFlowController

def new (initialWindowSize : VarInt) : OutgoingConnectionFlowController :=
  ⟨initialWindowSize, initialWindowSize⟩

def acquireWindow (self : OutgoingConnectionFlowController) (desired : VarInt) :
    Option (OutgoingConnectionFlowController × VarInt) := do
  let result := min self.availableWindow desired
  let availableWindow ← self.availableWindow.checkedSub result
  pure ({ self with availableWindow }, result)

/-- `on_max_data`: a value that does not raise the limit is ignored. -/
def onMaxData (self : OutgoingConnectionFlowController) (maximumData : VarInt) :
    Option OutgoingConnectionFlowController :=
  if maximumData ≤ self.totalAvailableWindow then some self
  else do
    let increment ← maximumData.checkedSub self.totalAvailableWindow
    let availableWindow ← self.availableWindow.checkedAdd increment
    pure ⟨maximumData, availableWindow⟩

theorem acquireWindow_spec (self : OutgoingConnectionFlowController) (desired : VarInt) :
    ∃ conn, self.acquireWindow desired = some (conn, min self.availableWindow desired) ∧
      conn.totalAvailableWindow = self.totalAvailableWindow ∧
      conn.availableWindow.val + (min self.availableWindow desired).val =
        self.availableWindow.val := by
  have hle : (min self.availableWindow desired).val ≤ self.availableWindow.val := by simp
  refine ⟨{ self with
    availableWindow := ⟨self.availableWindow.val - (min self.availableWindow desired).val,
      by have := self.availableWindow.le_max; omega⟩ }, ?_, rfl, ?_⟩
  · simp only [acquireWindow, VarInt.checkedSub_of_le hle, Option.bind_eq_bind, Option.bind_some,
      Option.pure_def]
  · simp only
    omega

theorem onMaxData_spec (self : OutgoingConnectionFlowController) (maximumData : VarInt)
    (h : self.availableWindow.val ≤ self.totalAvailableWindow.val) :
    ∃ conn, self.onMaxData maximumData = some conn ∧
      conn.totalAvailableWindow.val = max self.totalAvailableWindow.val maximumData.val ∧
      conn.availableWindow.val + self.totalAvailableWindow.val =
        self.availableWindow.val + conn.totalAvailableWindow.val := by
  by_cases hle : maximumData ≤ self.totalAvailableWindow
  · refine ⟨self, if_pos hle, ?_, rfl⟩
    simp only [VarInt.le_def] at hle
    omega
  · simp only [VarInt.le_def, Nat.not_le] at hle
    have hsum : self.availableWindow.val + (maximumData.val - self.totalAvailableWindow.val) ≤
        maxVarintValue := by
      have := maximumData.le_max
      omega
    refine ⟨⟨maximumData, ⟨_, hsum⟩⟩, ?_, ?_, ?_⟩
    · simp only [onMaxData, VarInt.le_def, Nat.not_le.mpr hle, if_false,
        VarInt.checkedSub_of_le hle.le, Option.bind_eq_bind, Option.bind_some]
      rw [VarInt.checkedAdd_of_le hsum]
      rfl
    · simp only
      omega
    · simp only
      omega

end OutgoingConnectionFlowController

/-! ## The stream flow controller -/

inductive StreamFlowControllerState
  | ready
  | blockedOnStreamWindow
  | blockedOnConnectionWindow
  | finished
  deriving DecidableEq, Repr

structure StreamFlowController where
  acquiredConnectionFlowControllerWindow : VarInt
  highestRequestedConnectionFlowControlWindow : VarInt
  maxStreamData : VarInt
  state : StreamFlowControllerState
  deriving DecidableEq

namespace StreamFlowController

def new (initialWindow : VarInt) : StreamFlowController :=
  ⟨VarInt.fromU32 0, VarInt.fromU32 0, initialWindow, .ready⟩

/-- `set_max_stream_data`: a value that does not raise the limit is ignored. -/
def setMaxStreamData (self : StreamFlowController) (maxStreamData : VarInt) :
    StreamFlowController :=
  if maxStreamData ≤ self.maxStreamData then self
  else
    { self with
      maxStreamData
      state := if self.state = .blockedOnStreamWindow then .ready else self.state }

def tryAcquireConnectionWindow (self : StreamFlowController)
    (conn : OutgoingConnectionFlowController) :
    Option (StreamFlowController × OutgoingConnectionFlowController) :=
  if self.state = .finished then some (self, conn)
  else
    let missingConnectionWindow := self.highestRequestedConnectionFlowControlWindow.saturatingSub
      self.acquiredConnectionFlowControllerWindow
    if missingConnectionWindow > VarInt.fromU32 0 then do
      let (conn, acquired) ← conn.acquireWindow missingConnectionWindow
      let acquiredConnectionFlowControllerWindow ←
        self.acquiredConnectionFlowControllerWindow.checkedAdd acquired
      let state :=
        if acquired > VarInt.fromU32 0 ∧ self.state = .blockedOnConnectionWindow then .ready
        else self.state
      pure ({ self with acquiredConnectionFlowControllerWindow, state }, conn)
    else some (self, conn)

def availableWindow (self : StreamFlowController) : VarInt :=
  min self.maxStreamData self.acquiredConnectionFlowControllerWindow

/-- `acquire_flow_control_window`. Its `debug_assert_ne!` on a finished stream is left to the
release build, which returns the window granted so far. -/
def acquireFlowControlWindow (self : StreamFlowController)
    (conn : OutgoingConnectionFlowController) (endOffset : VarInt) :
    Option ((StreamFlowController × OutgoingConnectionFlowController) × VarInt) :=
  if self.state = .finished then some ((self, conn), self.availableWindow)
  else do
    let self := { self with state := .ready }
    let self :=
      if endOffset > self.maxStreamData then { self with state := .blockedOnStreamWindow }
      else self
    let self := { self with
      highestRequestedConnectionFlowControlWindow :=
        max endOffset self.highestRequestedConnectionFlowControlWindow }
    let (self, conn) ← self.tryAcquireConnectionWindow conn
    let self :=
      if endOffset > self.acquiredConnectionFlowControllerWindow then
        { self with state := .blockedOnConnectionWindow }
      else self
    pure ((self, conn), self.availableWindow)

def finish (self : StreamFlowController) : StreamFlowController :=
  { self with state := .finished }

def clearBlocked (self : StreamFlowController) : StreamFlowController :=
  if self.state ≠ .finished then { self with state := .ready } else self

/-! ### Handing connection window to a stream -/

/-- The stream flow controller went from `fc` to `fc'`, and the connection's from `conn` to
`conn'`, by handing `x` of the connection's window to the stream. -/
structure Takes (x : Nat) (fc fc' : StreamFlowController)
    (conn conn' : OutgoingConnectionFlowController) : Prop where
  acquired : fc'.acquiredConnectionFlowControllerWindow.val =
    fc.acquiredConnectionFlowControllerWindow.val + x
  available : conn'.availableWindow.val + x = conn.availableWindow.val
  total : conn'.totalAvailableWindow = conn.totalAvailableWindow
  maxStreamData : fc'.maxStreamData = fc.maxStreamData

variable {x : Nat} {fc fc' : StreamFlowController} {conn conn' : OutgoingConnectionFlowController}

theorem takes_zero (hacq : fc'.acquiredConnectionFlowControllerWindow =
      fc.acquiredConnectionFlowControllerWindow) (hmax : fc'.maxStreamData = fc.maxStreamData) :
    Takes 0 fc fc' conn conn :=
  ⟨by rw [hacq]; rfl, rfl, rfl, hmax⟩

theorem availableWindow_le_of
    (hacq : fc.acquiredConnectionFlowControllerWindow.val ≤
      fc'.acquiredConnectionFlowControllerWindow.val)
    (hmax : fc.maxStreamData.val ≤ fc'.maxStreamData.val) :
    fc.availableWindow.val ≤ fc'.availableWindow.val := by
  simp only [availableWindow, VarInt.min_val]
  omega

@[simp] theorem acquired_setMaxStreamData (v : VarInt) :
    (fc.setMaxStreamData v).acquiredConnectionFlowControllerWindow =
      fc.acquiredConnectionFlowControllerWindow := by
  unfold setMaxStreamData
  split_ifs <;> rfl

theorem maxStreamData_setMaxStreamData (v : VarInt) :
    (fc.setMaxStreamData v).maxStreamData.val = max fc.maxStreamData.val v.val := by
  by_cases h : v ≤ fc.maxStreamData
  · rw [setMaxStreamData, if_pos h]
    simp only [VarInt.le_def] at h
    omega
  · rw [setMaxStreamData, if_neg h]
    simp only [VarInt.le_def] at h
    show v.val = _
    omega

@[simp] theorem acquired_finish : fc.finish.acquiredConnectionFlowControllerWindow =
    fc.acquiredConnectionFlowControllerWindow := rfl

@[simp] theorem maxStreamData_finish : fc.finish.maxStreamData = fc.maxStreamData := rfl

@[simp] theorem acquired_clearBlocked : fc.clearBlocked.acquiredConnectionFlowControllerWindow =
    fc.acquiredConnectionFlowControllerWindow := by
  unfold clearBlocked
  split_ifs <;> rfl

@[simp] theorem maxStreamData_clearBlocked : fc.clearBlocked.maxStreamData = fc.maxStreamData := by
  unfold clearBlocked
  split_ifs <;> rfl

theorem tryAcquireConnectionWindow_spec (self : StreamFlowController)
    (conn : OutgoingConnectionFlowController) :
    ∃ x self' conn', self.tryAcquireConnectionWindow conn = some (self', conn') ∧
      Takes x self self' conn conn' ∧
      self'.highestRequestedConnectionFlowControlWindow =
        self.highestRequestedConnectionFlowControlWindow := by
  unfold tryAcquireConnectionWindow
  dsimp only
  split_ifs with hfin hmissing
  · exact ⟨0, self, conn, rfl, takes_zero rfl rfl, rfl⟩
  · obtain ⟨conn₁, hacq, htotal, havail⟩ := conn.acquireWindow_spec
      (self.highestRequestedConnectionFlowControlWindow.saturatingSub
        self.acquiredConnectionFlowControllerWindow)
    set r := min conn.availableWindow (self.highestRequestedConnectionFlowControlWindow.saturatingSub
        self.acquiredConnectionFlowControllerWindow)
    -- the window taken fills at most the gap up to the highest offset requested
    have hsum : self.acquiredConnectionFlowControllerWindow.val + r.val ≤ maxVarintValue := by
      have := self.highestRequestedConnectionFlowControlWindow.le_max
      have := self.acquiredConnectionFlowControllerWindow.le_max
      simp only [r, VarInt.min_val, VarInt.saturatingSub_val]
      omega
    refine ⟨r.val, { self with
      acquiredConnectionFlowControllerWindow := ⟨_, hsum⟩
      state := if r > VarInt.fromU32 0 ∧ self.state = .blockedOnConnectionWindow then .ready
        else self.state }, conn₁, ?_, ⟨rfl, havail, htotal, rfl⟩, rfl⟩
    simp only [hacq, Option.bind_eq_bind, Option.bind_some, VarInt.checkedAdd_of_le hsum]
    rfl
  · exact ⟨0, self, conn, rfl, takes_zero rfl rfl, rfl⟩

theorem acquireFlowControlWindow_spec (self : StreamFlowController)
    (conn : OutgoingConnectionFlowController) (endOffset : VarInt) :
    ∃ x self' conn', self.acquireFlowControlWindow conn endOffset =
      some ((self', conn'), self'.availableWindow) ∧ Takes x self self' conn conn' := by
  unfold acquireFlowControlWindow
  split_ifs with hfin
  · exact ⟨0, self, conn, rfl, takes_zero rfl rfl⟩
  · -- before acquiring, only the state and the highest offset requested change
    simp only [Option.bind_eq_bind, apply_ite StreamFlowController.acquiredConnectionFlowControllerWindow,
      apply_ite StreamFlowController.maxStreamData, apply_ite StreamFlowController.state,
      apply_ite StreamFlowController.highestRequestedConnectionFlowControlWindow, ite_self]
    obtain ⟨x, self₂, conn₂, htry, ht, -⟩ := tryAcquireConnectionWindow_spec
      { self with
        highestRequestedConnectionFlowControlWindow :=
          max endOffset self.highestRequestedConnectionFlowControlWindow
        state := if endOffset > self.maxStreamData then .blockedOnStreamWindow else .ready } conn
    rw [htry]
    refine ⟨x, if endOffset > self₂.acquiredConnectionFlowControllerWindow then
        { self₂ with state := .blockedOnConnectionWindow } else self₂, conn₂, rfl, ?_⟩
    refine ⟨?_, ht.available, ht.total, ?_⟩
    · rw [← ht.acquired]
      split_ifs <;> rfl
    · rw [← ht.maxStreamData]
      split_ifs <;> rfl

end StreamFlowController

/-! ## Trimming a STREAM frame to the window -/

/-- `Interval<VarInt>`: the offsets from `start` to `end`, both included. -/
structure Interval where
  start : VarInt
  «end» : VarInt
  valid : start.val ≤ «end».val
  deriving DecidableEq

namespace Interval

/-- `len`: one plus `steps_between`. -/
def len (self : Interval) : Nat := 1 + (self.«end».val - self.start.val)

/-- `end_exclusive`: `step_up_saturating`, which stays at `VarInt::MAX`. -/
def endExclusive (self : Interval) : VarInt :=
  (self.«end».checkedAdd (VarInt.fromU8 1)).getD self.«end»

/-- `set_len`: the end becomes `start + (len - 1)`. A zero length (`len - 1` underflows) and an
end past `VarInt::MAX` both panic. -/
def setLen (self : Interval) (len : Nat) : Option Interval :=
  if h : 0 < len ∧ self.start.val + (len - 1) ≤ maxVarintValue then
    some ⟨self.start, ⟨self.start.val + (len - 1), h.2⟩, Nat.le_add_right _ _⟩
  else none

theorem end_add_one (self : Interval) : self.«end».val + 1 = self.start.val + self.len := by
  have := self.valid
  unfold len
  omega

theorem one_le_len (self : Interval) : 1 ≤ self.len := Nat.le_add_right _ _

theorem setLen_of_le {self : Interval} {n : Nat} (h0 : 0 < n) (hn : n ≤ self.len) :
    ∃ i, self.setLen n = some i ∧ i.start = self.start ∧ i.len = n := by
  have hend : self.start.val + (n - 1) ≤ maxVarintValue := by
    have := self.«end».le_max
    have := self.end_add_one
    omega
  exact ⟨_, dif_pos ⟨h0, hend⟩, rfl, by simp only [len]; omega⟩

theorem trim_spec (self : Interval) {n : Nat} (h0 : 0 < n) :
    ∃ i, (if n < self.len then self.setLen n else some self) = some i ∧
      i.start = self.start ∧ i.len = min n self.len := by
  split_ifs with hn
  · obtain ⟨i, hi, hstart, hlen⟩ := setLen_of_le h0 hn.le
    exact ⟨i, hi, hstart, by omega⟩
  · exact ⟨self, rfl, rfl, by omega⟩

end Interval

inductive OnTransmitError
  | couldNotWriteFrame
  | couldNotAcquireEnoughSpace
  deriving DecidableEq, Repr

/-- `u16::MAX`: a UDP payload is never larger. -/
def U16_MAX : Nat := 65535

/-- `Writer::MIN_WRITE_SIZE`: the trait's default, which the stream writer keeps. -/
def MIN_WRITE_SIZE : Nat := 32

/-- `write_chunk` for a view of `viewLen` bytes. `try_fit` returns the view's length capped by
`room`, what the packet leaves for the frame's data after its header and length prefix;
nothing fitting is a `FitError`, and otherwise the view is trimmed to what fits. -/
def writeChunk (room viewLen : Nat) : Except Unit Nat :=
  let len := min room viewLen
  if len = 0 then .error () else .ok len

/-- `Transmissions::transmit_interval` as far as it decides the frame's range: the interval is
trimmed to the packet's capacity and then to the window the flow controller grants, and the
frame holds what `write_chunk` fits of it (the viewer's view holds the whole interval).
`in_flight.has_capacity()` is `inFlightHasCapacity`. -/
def transmitInterval (flowController : StreamFlowController)
    (conn : OutgoingConnectionFlowController) (interval : Interval) (remainingCapacity : Nat)
    (inFlightHasCapacity : Bool) (room : Nat) :
    Option ((StreamFlowController × OutgoingConnectionFlowController) ×
      Except OnTransmitError Interval) :=
  let capacity := min remainingCapacity U16_MAX
  let intervalLen := interval.len
  if capacity = 0 ∨ MIN_WRITE_SIZE ≤ intervalLen ∧ capacity < MIN_WRITE_SIZE ∨
      inFlightHasCapacity = false then
    some ((flowController, conn), .error .couldNotAcquireEnoughSpace)
  else do
    let trimmed :=
      if capacity < intervalLen then (interval.setLen capacity).map (·, capacity)
      else some (interval, intervalLen)
    let (interval, intervalLen) ← trimmed
    let (controllers, window) ←
      flowController.acquireFlowControlWindow conn interval.endExclusive
    match window.checkedSub interval.start with
    | none => some (controllers, .error .couldNotAcquireEnoughSpace)
    | some windowLen =>
      if windowLen.val = 0 then some (controllers, .error .couldNotAcquireEnoughSpace)
      else do
        let trimmed :=
          if windowLen.val < intervalLen then interval.setLen windowLen.val else some interval
        let interval ← trimmed
        match writeChunk room interval.len with
        | .error () => some (controllers, .error .couldNotAcquireEnoughSpace)
        | .ok len => do
          let interval ← interval.setLen len
          some (controllers, .ok interval)

theorem writeChunk_ok {room viewLen len : Nat} (h : writeChunk room viewLen = .ok len) :
    0 < len ∧ len ≤ viewLen := by
  unfold writeChunk at h
  dsimp only at h
  split_ifs at h with h0
  cases h
  omega

theorem transmitInterval_spec (flowController : StreamFlowController)
    (conn : OutgoingConnectionFlowController) (interval : Interval) (remainingCapacity : Nat)
    (inFlightHasCapacity : Bool) (room : Nat) :
    ∃ x flowController' conn' result,
      transmitInterval flowController conn interval remainingCapacity inFlightHasCapacity room =
        some ((flowController', conn'), result) ∧
      StreamFlowController.Takes x flowController flowController' conn conn' ∧
      ∀ sent, result = .ok sent →
        sent.start = interval.start ∧ sent.«end».val < flowController'.availableWindow.val := by
  unfold transmitInterval
  dsimp only
  split
  · exact ⟨0, flowController, conn, _, rfl, StreamFlowController.takes_zero rfl rfl, by simp⟩
  rename_i hcheck
  have hcap : 0 < min remainingCapacity U16_MAX := by omega
  obtain ⟨i₁, hi₁, hstart₁, hlen₁⟩ : ∃ i₁, (if min remainingCapacity U16_MAX < interval.len then
      (interval.setLen (min remainingCapacity U16_MAX)).map (·, min remainingCapacity U16_MAX)
      else some (interval, interval.len)) = some (i₁, i₁.len) ∧ i₁.start = interval.start ∧
      0 < i₁.len := by
    split_ifs with hc
    · obtain ⟨i, hi, hstart, hlen⟩ := Interval.setLen_of_le hcap hc.le
      exact ⟨i, by rw [hi, hlen]; rfl, hstart, by omega⟩
    · exact ⟨interval, rfl, rfl, interval.one_le_len⟩
  obtain ⟨x, fc', conn', hacq, ht⟩ :=
    flowController.acquireFlowControlWindow_spec conn i₁.endExclusive
  simp only [Option.bind_eq_bind, hi₁, Option.bind_some, hacq]
  refine ⟨x, fc', conn', ?_⟩
  rcases hsub : fc'.availableWindow.checkedSub i₁.start with _ | windowLen
  · exact ⟨_, rfl, ht, by simp⟩
  obtain ⟨hle, hwin⟩ := VarInt.checkedSub_eq_some.mp hsub
  simp only
  by_cases hzero : windowLen.val = 0
  · rw [if_pos hzero]
    exact ⟨_, rfl, ht, by simp⟩
  rw [if_neg hzero]
  obtain ⟨i₂, hi₂, hstart₂, hlen₂⟩ := i₁.trim_spec (Nat.pos_of_ne_zero hzero)
  simp only [hi₂, Option.bind_some]
  rcases hw : writeChunk room i₂.len with _ | len
  · exact ⟨_, rfl, ht, by simp⟩
  obtain ⟨hlen0, hlenle⟩ := writeChunk_ok hw
  obtain ⟨i₃, hi₃, hstart₃, hlen₃⟩ := Interval.setLen_of_le hlen0 hlenle
  simp only [hi₃, Option.bind_some]
  refine ⟨_, rfl, ht, ?_⟩
  rintro sent ⟨⟩
  have hs : i₃.start = i₁.start := hstart₃.trans hstart₂
  have hend := i₃.end_add_one
  rw [hs] at hend
  refine ⟨hs.trans hstart₁, ?_⟩
  omega

/-! ## The streams of a connection -/

section Sender

variable {ι : Type} [DecidableEq ι]

/-- The send side of a connection: its flow controller and each stream's. A stream opened
later starts as `StreamFlowController::new` of its initial window, the state of a stream never
asked for a window. -/
structure Sender (ι : Type) where
  connectionFlowController : OutgoingConnectionFlowController
  streams : ι → StreamFlowController

inductive Event (ι : Type)
  | acquireFlowControlWindow (stream : ι) (endOffset : VarInt)
  | maxStreamData (stream : ι) (maximumStreamData : VarInt)
  | maxData (maximumData : VarInt)
  | finish (stream : ι)
  | clearBlocked (stream : ι)
  | transmitInterval (stream : ι) (interval : Interval) (remainingCapacity : Nat)
      (inFlightHasCapacity : Bool) (room : Nat)

namespace Sender

/-- Stream `stream` and the connection after a call on the stream. -/
def update (self : Sender ι) (stream : ι)
    (r : StreamFlowController × OutgoingConnectionFlowController) : Sender ι :=
  ⟨r.2, Function.update self.streams stream r.1⟩

def apply (self : Sender ι) : Event ι → Option (Sender ι × Option (ι × Interval))
  | .acquireFlowControlWindow i endOffset => do
    let (r, _) ←
      (self.streams i).acquireFlowControlWindow self.connectionFlowController endOffset
    pure (self.update i r, none)
  | .maxStreamData i v =>
    some (self.update i ((self.streams i).setMaxStreamData v, self.connectionFlowController),
      none)
  | .maxData v => do
    let conn ← self.connectionFlowController.onMaxData v
    pure ({ self with connectionFlowController := conn }, none)
  | .finish i =>
    some (self.update i ((self.streams i).finish, self.connectionFlowController), none)
  | .clearBlocked i =>
    some (self.update i ((self.streams i).clearBlocked, self.connectionFlowController), none)
  | .transmitInterval i interval remainingCapacity inFlightHasCapacity room => do
    let (r, result) ← transmitInterval (self.streams i) self.connectionFlowController interval
      remainingCapacity inFlightHasCapacity room
    pure (self.update i r, result.toOption.map (i, ·))

end Sender

/-- What the peer has allowed: the largest `MAX_DATA` and, per stream, `MAX_STREAM_DATA` value
received, or the initial windows. -/
structure Limits (ι : Type) where
  maxData : Nat
  maxStreamData : ι → Nat

def Limits.receive (self : Limits ι) : Event ι → Limits ι
  | .maxData v => { self with maxData := max self.maxData v.val }
  | .maxStreamData i v =>
    { self with
      maxStreamData := Function.update self.maxStreamData i (max (self.maxStreamData i) v.val) }
  | _ => self

/-- A sender with the limits its peer has sent and the STREAM frames it has written. -/
structure World (ι : Type) where
  sender : Sender ι
  limits : Limits ι
  sent : List (ι × Interval)

namespace World

def new (initialMaxData : VarInt) (initialWindow : ι → VarInt) : World ι :=
  ⟨⟨.new initialMaxData, fun i => .new (initialWindow i)⟩,
    ⟨initialMaxData.val, fun i => (initialWindow i).val⟩, []⟩

def step (self : World ι) (e : Event ι) : Option (World ι) := do
  let (sender, frame) ← self.sender.apply e
  pure ⟨sender, self.limits.receive e, self.sent ++ frame.toList⟩

def run (self : World ι) : List (Event ι) → Option (World ι)
  | [] => some self
  | e :: es => (self.step e).bind (·.run es)

/-- The offset just past the last byte of `stream` in the frames `sent`. -/
def sentEnd (stream : ι) : List (ι × Interval) → Nat
  | [] => 0
  | p :: rest =>
    if p.1 = stream then max (p.2.«end».val + 1) (sentEnd stream rest) else sentEnd stream rest

theorem sentEnd_le {stream : ι} {b : Nat} :
    ∀ {sent : List (ι × Interval)}, (∀ p ∈ sent, p.1 = stream → p.2.«end».val < b) →
      sentEnd stream sent ≤ b
  | [], _ => Nat.zero_le _
  | p :: rest, h => by
    have ih : sentEnd stream rest ≤ b := sentEnd_le fun q hq => h q (List.mem_cons_of_mem _ hq)
    unfold sentEnd
    split_ifs with hp
    · have := h p List.mem_cons_self hp
      omega
    · exact ih

theorem le_sentEnd {stream : ι} {p : ι × Interval} :
    ∀ {sent : List (ι × Interval)}, p ∈ sent → p.1 = stream →
      p.2.«end».val + 1 ≤ sentEnd stream sent
  | q :: rest, hp, hs => by
    unfold sentEnd
    rcases List.mem_cons.mp hp with rfl | hp
    · simp [hs]
    · have := le_sentEnd hp hs
      split_ifs <;> omega

variable [Fintype ι]

/-- The connection window not handed out and the windows the streams acquired add up to the
total; the total and each `MAX_STREAM_DATA` are the largest values received; and every frame
written ends below the window its stream is granted now. -/
structure Inv (w : World ι) : Prop where
  accounted : w.sender.connectionFlowController.availableWindow.val +
      ∑ i, (w.sender.streams i).acquiredConnectionFlowControllerWindow.val =
    w.sender.connectionFlowController.totalAvailableWindow.val
  maxData : w.sender.connectionFlowController.totalAvailableWindow.val = w.limits.maxData
  maxStreamData : ∀ i, (w.sender.streams i).maxStreamData.val = w.limits.maxStreamData i
  sent : ∀ p ∈ w.sent, p.2.«end».val < (w.sender.streams p.1).availableWindow.val

omit [DecidableEq ι] in
theorem inv_new (initialMaxData : VarInt) (initialWindow : ι → VarInt) :
    (World.new initialMaxData initialWindow).Inv where
  accounted := by simp [World.new, OutgoingConnectionFlowController.new, StreamFlowController.new]
  maxData := rfl
  maxStreamData _ := rfl
  sent := by simp [World.new]

variable {w : World ι}

theorem Inv.update (h : w.Inv) {i : ι} {x : Nat} {fc' : StreamFlowController}
    {conn' : OutgoingConnectionFlowController} {limits : Limits ι} {sent : List (ι × Interval)}
    (hacq : fc'.acquiredConnectionFlowControllerWindow.val =
      (w.sender.streams i).acquiredConnectionFlowControllerWindow.val + x)
    (havail : conn'.availableWindow.val + x =
      w.sender.connectionFlowController.availableWindow.val)
    (htotal : conn'.totalAvailableWindow = w.sender.connectionFlowController.totalAvailableWindow)
    (hmax : (w.sender.streams i).maxStreamData.val ≤ fc'.maxStreamData.val)
    (hmaxData : limits.maxData = w.limits.maxData)
    (hlimits : limits.maxStreamData =
      Function.update w.limits.maxStreamData i fc'.maxStreamData.val)
    (hsent : ∀ p ∈ sent, p.1 = i ∧ p.2.«end».val < fc'.availableWindow.val) :
    World.Inv ⟨w.sender.update i (fc', conn'), limits, w.sent ++ sent⟩ where
  accounted := by
    have hsum := Ledger.sum_update_add (fun fc : StreamFlowController =>
      fc.acquiredConnectionFlowControllerWindow.val) w.sender.streams i fc'
    have := h.accounted
    simp only [Sender.update, htotal] at hsum ⊢
    omega
  maxData := by simp only [Sender.update, htotal, h.maxData, hmaxData]
  maxStreamData j := by
    simp only [Sender.update, hlimits]
    by_cases hj : j = i
    · subst hj
      simp
    · simp [hj, h.maxStreamData j]
  sent p hp := by
    simp only [Sender.update]
    rcases List.mem_append.mp hp with hp | hp
    · -- an older frame: its stream's window has only grown
      have := h.sent p hp
      by_cases hj : p.1 = i
      · rw [hj] at this ⊢
        simp only [Function.update_self]
        have := StreamFlowController.availableWindow_le_of (by omega) hmax
        omega
      · simpa [hj] using this
    · obtain ⟨hj, hlt⟩ := hsent p hp
      simpa [hj] using hlt

theorem Inv.takes (h : w.Inv) {i : ι} {x : Nat} {fc' : StreamFlowController}
    {conn' : OutgoingConnectionFlowController} {sent : List (ι × Interval)}
    (ht : StreamFlowController.Takes x (w.sender.streams i) fc' w.sender.connectionFlowController
      conn')
    (hsent : ∀ p ∈ sent, p.1 = i ∧ p.2.«end».val < fc'.availableWindow.val) :
    World.Inv ⟨w.sender.update i (fc', conn'), w.limits, w.sent ++ sent⟩ := by
  refine h.update ht.acquired ht.available ht.total (by rw [ht.maxStreamData]) rfl ?_ hsent
  rw [ht.maxStreamData, h.maxStreamData i, Function.update_eq_self]

theorem Inv.step (h : w.Inv) (e : Event ι) : ∃ w', w.step e = some w' ∧ w'.Inv := by
  cases e with
  | acquireFlowControlWindow i endOffset =>
    obtain ⟨x, fc', conn', hacq, ht⟩ := (w.sender.streams i).acquireFlowControlWindow_spec
      w.sender.connectionFlowController endOffset
    refine ⟨⟨w.sender.update i (fc', conn'), w.limits, w.sent ++ []⟩, ?_,
      h.takes ht (List.forall_mem_nil _)⟩
    simp [World.step, Sender.apply, hacq, Limits.receive]
  | maxStreamData i v =>
    refine ⟨⟨w.sender.update i ((w.sender.streams i).setMaxStreamData v,
      w.sender.connectionFlowController), w.limits.receive (.maxStreamData i v), w.sent ++ []⟩,
      ?_, h.update (x := 0) (by simp) (by simp) rfl ?_ rfl ?_ (List.forall_mem_nil _)⟩
    · simp [World.step, Sender.apply]
    · rw [StreamFlowController.maxStreamData_setMaxStreamData]
      omega
    · simp only [Limits.receive, StreamFlowController.maxStreamData_setMaxStreamData,
        h.maxStreamData i]
  | maxData v =>
    obtain ⟨conn', hmax, htotal, havail⟩ := w.sender.connectionFlowController.onMaxData_spec v
      (by have := h.accounted; omega)
    refine ⟨⟨⟨conn', w.sender.streams⟩, w.limits.receive (.maxData v), w.sent⟩, ?_,
      ⟨?_, ?_, h.maxStreamData, h.sent⟩⟩
    · simp [World.step, Sender.apply, hmax]
    · have := h.accounted
      simp only
      omega
    · simp only [Limits.receive, htotal, h.maxData]
  | finish i =>
    refine ⟨⟨w.sender.update i ((w.sender.streams i).finish, w.sender.connectionFlowController),
      w.limits, w.sent ++ []⟩, ?_, h.takes (StreamFlowController.takes_zero (by simp) (by simp))
      (List.forall_mem_nil _)⟩
    simp [World.step, Sender.apply, Limits.receive]
  | clearBlocked i =>
    refine ⟨⟨w.sender.update i ((w.sender.streams i).clearBlocked,
      w.sender.connectionFlowController), w.limits, w.sent ++ []⟩, ?_,
      h.takes (StreamFlowController.takes_zero (by simp) (by simp)) (List.forall_mem_nil _)⟩
    simp [World.step, Sender.apply, Limits.receive]
  | transmitInterval i interval remainingCapacity inFlightHasCapacity room =>
    obtain ⟨x, fc', conn', result, htr, ht, hres⟩ := transmitInterval_spec (w.sender.streams i)
      w.sender.connectionFlowController interval remainingCapacity inFlightHasCapacity room
    refine ⟨⟨w.sender.update i (fc', conn'), w.limits,
      w.sent ++ (result.toOption.map (i, ·)).toList⟩, ?_, h.takes ht ?_⟩
    · simp [World.step, Sender.apply, htr, Limits.receive]
    · -- the frame written, if any, is the interval `transmit_interval` returns
      rcases result with _ | sent
      · simp [Except.toOption]
      · simpa [Except.toOption] using (hres sent rfl).2

theorem Inv.run (h : w.Inv) (es : List (Event ι)) : ∃ w', w.run es = some w' ∧ w'.Inv := by
  induction es generalizing w with
  | nil => exact ⟨w, rfl, h⟩
  | cons e es ih =>
    obtain ⟨w₁, h₁, hinv₁⟩ := h.step e
    obtain ⟨w₂, h₂, hinv₂⟩ := ih hinv₁
    exact ⟨w₂, by simp [World.run, h₁, h₂], hinv₂⟩

/-! ### What the invariant gives -/

omit [DecidableEq ι] in
theorem Inv.acquireFlowControlWindow_le (h : w.Inv) (i : ι) (endOffset : VarInt) :
    ∃ r, (w.sender.streams i).acquireFlowControlWindow w.sender.connectionFlowController
      endOffset = some r ∧ r.2.val ≤ w.limits.maxStreamData i := by
  obtain ⟨x, fc', conn', hacq, ht⟩ := (w.sender.streams i).acquireFlowControlWindow_spec
    w.sender.connectionFlowController endOffset
  refine ⟨_, hacq, ?_⟩
  have hle : fc'.availableWindow.val ≤ fc'.maxStreamData.val := by
    simp [StreamFlowController.availableWindow]
  rw [← h.maxStreamData i, ← ht.maxStreamData]
  exact hle

omit [DecidableEq ι] in
theorem Inv.acquired_eq_sum (h : w.Inv) :
    w.sender.connectionFlowController.totalAvailableWindow.val -
        w.sender.connectionFlowController.availableWindow.val =
      ∑ i, (w.sender.streams i).acquiredConnectionFlowControllerWindow.val := by
  have := h.accounted
  omega

omit [DecidableEq ι] in
theorem Inv.acquired_le (h : w.Inv) :
    w.sender.connectionFlowController.totalAvailableWindow.val -
        w.sender.connectionFlowController.availableWindow.val ≤ w.limits.maxData := by
  have := h.maxData
  omega

omit [DecidableEq ι] in
theorem Inv.end_lt_acquired (h : w.Inv) {p : ι × Interval} (hp : p ∈ w.sent) :
    p.2.«end».val < (w.sender.streams p.1).acquiredConnectionFlowControllerWindow.val := by
  have := h.sent p hp
  simp only [StreamFlowController.availableWindow, VarInt.min_val] at this
  omega

omit [DecidableEq ι] in
theorem Inv.sent_le_maxStreamData (h : w.Inv) {p : ι × Interval} (hp : p ∈ w.sent) :
    p.2.«end».val + 1 ≤ w.limits.maxStreamData p.1 := by
  have := h.sent p hp
  simp only [StreamFlowController.availableWindow, VarInt.min_val, h.maxStreamData] at this
  omega

theorem Inv.sum_sentEnd_le (h : w.Inv) : ∑ i, sentEnd i w.sent ≤ w.limits.maxData :=
  calc ∑ i, sentEnd i w.sent
      ≤ ∑ i, (w.sender.streams i).acquiredConnectionFlowControllerWindow.val :=
        Finset.sum_le_sum fun i _ => sentEnd_le fun p hp hi => hi ▸ h.end_lt_acquired hp
    _ ≤ w.sender.connectionFlowController.totalAvailableWindow.val := by
        have := h.accounted
        omega
    _ = w.limits.maxData := h.maxData

theorem Inv.sent_le_maxData (h : w.Inv) {p : ι × Interval} (hp : p ∈ w.sent) :
    p.2.«end».val + 1 ≤ w.limits.maxData :=
  calc p.2.«end».val + 1
      ≤ sentEnd p.1 w.sent := le_sentEnd hp rfl
    _ ≤ ∑ i, sentEnd i w.sent :=
        Finset.single_le_sum (fun i _ => Nat.zero_le (sentEnd i w.sent)) (Finset.mem_univ p.1)
    _ ≤ w.limits.maxData := h.sum_sentEnd_le

end World

variable [Fintype ι]

/-- Over any number of streams and any run of window requests, `MAX_STREAM_DATA` and `MAX_DATA`
frames, finishes, blocked-state resets and `transmit_interval` calls, nothing panics; a window
granted is within the stream's largest `MAX_STREAM_DATA` (or initial window); the connection
window handed out is the sum of the streams' acquired windows and within the largest
`MAX_DATA` (or initial window); and every STREAM frame written ends within both limits, the
offsets sent on all streams adding up to at most the connection's. -/
theorem send_flow_control_limits (initialMaxData : VarInt) (initialWindow : ι → VarInt)
    (events : List (Event ι)) :
    ∃ w, (World.new initialMaxData initialWindow).run events = some w ∧
      (∀ i endOffset, ∃ r, (w.sender.streams i).acquireFlowControlWindow
          w.sender.connectionFlowController endOffset = some r ∧
        r.2.val ≤ w.limits.maxStreamData i) ∧
      w.sender.connectionFlowController.totalAvailableWindow.val -
          w.sender.connectionFlowController.availableWindow.val =
        ∑ i, (w.sender.streams i).acquiredConnectionFlowControllerWindow.val ∧
      w.sender.connectionFlowController.totalAvailableWindow.val -
          w.sender.connectionFlowController.availableWindow.val ≤ w.limits.maxData ∧
      (∀ p ∈ w.sent, p.2.«end».val + 1 ≤ w.limits.maxStreamData p.1 ∧
        p.2.«end».val + 1 ≤ w.limits.maxData) ∧
      ∑ i, World.sentEnd i w.sent ≤ w.limits.maxData := by
  obtain ⟨w, hrun, h⟩ := (World.inv_new initialMaxData initialWindow).run events
  exact ⟨w, hrun, h.acquireFlowControlWindow_le, h.acquired_eq_sum, h.acquired_le,
    fun p hp => ⟨h.sent_le_maxStreamData hp, h.sent_le_maxData hp⟩, h.sum_sentEnd_le⟩

end Sender

end S2nQuic.Stream
