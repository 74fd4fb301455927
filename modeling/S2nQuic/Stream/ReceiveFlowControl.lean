import S2nQuic.Transport.Error
import S2nQuic.Buffer.Reassembler
import S2nQuic.Lib.Ledger

/-!
# Receive-side flow control

`IncomingConnectionFlowControllerImpl` (`stream/incoming_connection_flow_controller.rs`) holds
the connection's `MAX_DATA` value and the window the streams acquired and the application
consumed. Each `ReceiveStream` (`stream/receive_stream.rs`) checks the STREAM and RESET_STREAM
frames it receives against its own `MAX_STREAM_DATA` value and acquires connection window up to
their end; reading releases window at both levels, and both limits follow what was released.

`IncrementalValueSync` is reduced to the value it synchronises and whether it was cancelled,
and the `STOP_SENDING` sync to whether it was cancelled: when a `MAX_DATA`, `MAX_STREAM_DATA` or
`STOP_SENDING` frame goes out is left out, with the wakers and the `MissingData` tracker of a
stopping stream (and the `stop_sync` it makes once the missing data arrived). The `detached`
flag of a request is left out: the stream API sets it only with `stop_sending`, and
`poll_request` returns from that branch before it reads the flag, having detached the stream
only once it is `Stopping`, so `detach`'s `debug_assert!` holds. The streams share the connection flow controller
through an `Rc<RefCell<_>>`; here it is passed in and returned. A `VarInt` addition out of
range, a `-` below zero, an `expect` and a `debug_assert!` panic, and the functions return
`none` there.
-/

namespace S2nQuic.Stream
open Varint Transport
open Buffer (Reassembler)

/-! ## The accounting of a receive window -/

/-- What both receive flow controllers keep: of the window `acquired` by the data received,
`released` has been read, and the limit advertised is `released` plus the desired window,
capped at `VarInt::MAX`. -/
structure CreditWindow (released acquired latest desired : Nat) : Prop where
  released_le : released ≤ acquired
  acquired_le : acquired ≤ latest
  latest_eq : latest = min (released + desired) maxVarintValue

namespace CreditWindow

variable {released acquired latest desired : Nat}

theorem init (h : desired ≤ maxVarintValue) : CreditWindow 0 0 desired desired :=
  ⟨le_rfl, Nat.zero_le _, by omega⟩

theorem acquire (hw : CreditWindow released acquired latest desired) {acquired' : Nat}
    (h₁ : acquired ≤ acquired') (h₂ : acquired' ≤ latest) :
    CreditWindow released acquired' latest desired :=
  ⟨hw.released_le.trans h₁, h₂, hw.latest_eq⟩

theorem release (hw : CreditWindow released acquired latest desired) {released' : Nat}
    (h₁ : released ≤ released') (h₂ : released' ≤ acquired) :
    CreditWindow released' acquired (min (released' + desired) maxVarintValue) desired := by
  have := hw.acquired_le
  have := hw.latest_eq
  exact ⟨h₂, by omega, rfl⟩

theorem latest_le {released' acquired' latest' : Nat}
    (hw : CreditWindow released acquired latest desired)
    (hw' : CreditWindow released' acquired' latest' desired) (h : released ≤ released') :
    latest ≤ latest' := by
  rw [hw.latest_eq, hw'.latest_eq]
  omega

end CreditWindow

/-! ## The connection flow controller -/

/-- `IncrementalValueSync` as the flow controllers read it: the latest value of the limit, and
whether its delivery was cancelled. -/
structure IncrementalValueSync where
  latestValue : VarInt
  cancelled : Bool
  deriving DecidableEq

/-- `update_latest_value`; its `debug_assert!` that the value never decreases panics. -/
def IncrementalValueSync.updateLatestValue (self : IncrementalValueSync) (value : VarInt) :
    Option IncrementalValueSync :=
  if self.latestValue ≤ value then some { self with latestValue := value } else none

/-- `stop_sync`: a cancelled delivery stays cancelled. -/
def IncrementalValueSync.stopSync (self : IncrementalValueSync) : IncrementalValueSync :=
  { self with cancelled := true }

theorem IncrementalValueSync.updateLatestValue_of_le {self : IncrementalValueSync}
    {value : VarInt} (h : self.latestValue.val ≤ value.val) :
    self.updateLatestValue value = some { self with latestValue := value } :=
  if_pos h

structure IncomingConnectionFlowController where
  readWindowSync : IncrementalValueSync
  desiredFlowControlWindow : UInt32
  acquiredWindow : VarInt
  consumedWindow : VarInt
  deriving DecidableEq

namespace IncomingConnectionFlowController

/-- `new`: the limit first synchronised is the desired window; `initial_window_size` is only
the value taken as acknowledged. -/
def new (desiredFlowControlWindow : UInt32) : IncomingConnectionFlowController :=
  ⟨⟨VarInt.fromU32 desiredFlowControlWindow, false⟩, desiredFlowControlWindow, VarInt.fromU32 0,
    VarInt.fromU32 0⟩

def remainingWindow (self : IncomingConnectionFlowController) : Option VarInt :=
  self.readWindowSync.latestValue.checkedSub self.acquiredWindow

def releaseWindow (self : IncomingConnectionFlowController) (amount : VarInt) :
    Option IncomingConnectionFlowController := do
  let consumedWindow ← self.consumedWindow.checkedAdd amount
  -- the `debug_assert!` that no more is consumed than was acquired
  if consumedWindow ≤ self.acquiredWindow then
    let readWindowSync ← self.readWindowSync.updateLatestValue
      (consumedWindow.saturatingAdd (VarInt.fromU32 self.desiredFlowControlWindow))
    pure { self with readWindowSync, consumedWindow }
  else none

def acquireWindow (self : IncomingConnectionFlowController) (desired : VarInt) :
    Option (Except TransportError IncomingConnectionFlowController) := do
  let remaining ← self.remainingWindow
  if remaining < desired then pure (.error TransportError.FLOW_CONTROL_ERROR)
  else
    let acquiredWindow ← self.acquiredWindow.checkedAdd desired
    pure (.ok { self with acquiredWindow })

/-- The connection's window accounting, with `MAX_DATA` as the limit. -/
def Inv (self : IncomingConnectionFlowController) : Prop :=
  CreditWindow self.consumedWindow.val self.acquiredWindow.val self.readWindowSync.latestValue.val
    self.desiredFlowControlWindow.toNat

theorem desired_le_max (d : UInt32) : d.toNat ≤ maxVarintValue := by
  have := d.toNat_lt
  unfold maxVarintValue
  omega

theorem inv_new (d : UInt32) : (new d).Inv := by
  simpa [Inv, new] using CreditWindow.init (desired_le_max d)

variable {conn : IncomingConnectionFlowController} {x : VarInt}

theorem acquireWindow_of_le (h : conn.Inv)
    (hx : conn.acquiredWindow.val + x.val ≤ conn.readWindowSync.latestValue.val) :
    ∃ acquiredWindow : VarInt, acquiredWindow.val = conn.acquiredWindow.val + x.val ∧
      conn.acquireWindow x = some (.ok { conn with acquiredWindow }) := by
  have hmax : conn.acquiredWindow.val + x.val ≤ maxVarintValue :=
    hx.trans conn.readWindowSync.latestValue.le_max
  refine ⟨⟨_, hmax⟩, rfl, ?_⟩
  have hle : conn.acquiredWindow.val ≤ conn.readWindowSync.latestValue.val :=
    CreditWindow.acquired_le h
  have hnlt : ¬ (⟨conn.readWindowSync.latestValue.val - conn.acquiredWindow.val,
      by have := conn.readWindowSync.latestValue.le_max; omega⟩ : VarInt) < x := by
    simp only [VarInt.lt_def]
    omega
  simp only [acquireWindow, remainingWindow, VarInt.checkedSub_of_le hle, Option.bind_eq_bind,
    Option.bind_some, hnlt, if_false, VarInt.checkedAdd_of_le hmax]
  rfl

theorem acquireWindow_of_lt (h : conn.Inv)
    (hx : conn.readWindowSync.latestValue.val < conn.acquiredWindow.val + x.val) :
    conn.acquireWindow x = some (.error TransportError.FLOW_CONTROL_ERROR) := by
  have hle : conn.acquiredWindow.val ≤ conn.readWindowSync.latestValue.val :=
    CreditWindow.acquired_le h
  have hlt : (⟨conn.readWindowSync.latestValue.val - conn.acquiredWindow.val,
      by have := conn.readWindowSync.latestValue.le_max; omega⟩ : VarInt) < x := by
    simp only [VarInt.lt_def]
    omega
  simp only [acquireWindow, remainingWindow, VarInt.checkedSub_of_le hle, Option.bind_eq_bind,
    Option.bind_some, hlt, if_true]
  rfl

theorem releaseWindow_spec (h : conn.Inv)
    (hx : conn.consumedWindow.val + x.val ≤ conn.acquiredWindow.val) :
    ∃ conn', conn.releaseWindow x = some conn' ∧ conn'.Inv ∧
      conn'.desiredFlowControlWindow = conn.desiredFlowControlWindow ∧
      conn'.acquiredWindow = conn.acquiredWindow ∧
      conn'.consumedWindow.val = conn.consumedWindow.val + x.val := by
  have hmax : conn.consumedWindow.val + x.val ≤ maxVarintValue :=
    hx.trans conn.acquiredWindow.le_max
  obtain ⟨latest, hlatest⟩ : ∃ latest : VarInt, latest = (⟨_, hmax⟩ : VarInt).saturatingAdd
      (VarInt.fromU32 conn.desiredFlowControlWindow) := ⟨_, rfl⟩
  have hw : CreditWindow (conn.consumedWindow.val + x.val) conn.acquiredWindow.val latest.val
      conn.desiredFlowControlWindow.toNat := by
    rw [hlatest]
    exact CreditWindow.release h (Nat.le_add_right _ _) hx
  have hle : (⟨_, hmax⟩ : VarInt) ≤ conn.acquiredWindow := hx
  refine ⟨{ conn with
    readWindowSync := { conn.readWindowSync with latestValue := latest }
    consumedWindow := ⟨_, hmax⟩ }, ?_, hw, rfl, rfl, rfl⟩
  subst hlatest
  simp only [releaseWindow, VarInt.checkedAdd_of_le hmax, Option.bind_eq_bind, Option.bind_some,
    if_pos hle, IncrementalValueSync.updateLatestValue_of_le (CreditWindow.latest_le h hw
      (Nat.le_add_right _ _))]
  rfl

end IncomingConnectionFlowController

/-! ## The stream flow controller -/

structure ReceiveStreamFlowController where
  readWindowSync : IncrementalValueSync
  desiredFlowControlWindow : UInt32
  acquiredConnectionWindow : VarInt
  releasedConnectionWindow : VarInt
  deriving DecidableEq

namespace ReceiveStreamFlowController

def new (desiredFlowControlWindow : UInt32) : ReceiveStreamFlowController :=
  ⟨⟨VarInt.fromU32 desiredFlowControlWindow, false⟩, desiredFlowControlWindow, VarInt.fromU32 0,
    VarInt.fromU32 0⟩

/-- `stop_sync`: `MAX_STREAM_DATA` is no longer sent. -/
def stopSync (self : ReceiveStreamFlowController) : ReceiveStreamFlowController :=
  { self with readWindowSync := self.readWindowSync.stopSync }

/-- `acquire_window_up_to`: data up to `offset` must lie within the stream's `MAX_STREAM_DATA`,
and the part of it past what the stream acquired before is acquired from the connection. -/
def acquireWindowUpTo (self : ReceiveStreamFlowController)
    (conn : IncomingConnectionFlowController) (offset : VarInt) (sourceFrameType : Option UInt8) :
    Option (Except TransportError
      (ReceiveStreamFlowController × IncomingConnectionFlowController)) :=
  if offset > self.readWindowSync.latestValue then
    some (.error ((TransportError.FLOW_CONTROL_ERROR.withReason
      "Stream flow control window exceeded").withFrameType (sourceFrameType.getD 0).toNat))
  else
    let additionalConnectionWindow := offset.saturatingSub self.acquiredConnectionWindow
    if additionalConnectionWindow > VarInt.fromU32 0 then do
      let acquired ← conn.acquireWindow additionalConnectionWindow
      match acquired with
      | .error err =>
        pure (.error ((err.withReason "Connection flow control window exceeded").withFrameType
          (sourceFrameType.getD 0).toNat))
      | .ok conn =>
        let acquiredConnectionWindow ←
          self.acquiredConnectionWindow.checkedAdd additionalConnectionWindow
        pure (.ok ({ self with acquiredConnectionWindow }, conn))
    else some (.ok (self, conn))

def releaseWindow (self : ReceiveStreamFlowController) (conn : IncomingConnectionFlowController)
    (amount : VarInt) : Option (ReceiveStreamFlowController × IncomingConnectionFlowController) :=
  do
  let releasedConnectionWindow ← self.releasedConnectionWindow.checkedAdd amount
  let readWindowSync ← self.readWindowSync.updateLatestValue
    (releasedConnectionWindow.saturatingAdd (VarInt.fromU32 self.desiredFlowControlWindow))
  let conn ← conn.releaseWindow amount
  pure ({ self with releasedConnectionWindow, readWindowSync }, conn)

def releaseOutstandingWindow (self : ReceiveStreamFlowController)
    (conn : IncomingConnectionFlowController) :
    Option (ReceiveStreamFlowController × IncomingConnectionFlowController) := do
  let unreleased ← self.acquiredConnectionWindow.checkedSub self.releasedConnectionWindow
  self.releaseWindow conn unreleased

/-- `watermark`: half the desired window. -/
def watermark (self : ReceiveStreamFlowController) : Nat :=
  self.desiredFlowControlWindow.toNat / 2

/-- The stream's window accounting, with `MAX_STREAM_DATA` as the limit. -/
def Inv (self : ReceiveStreamFlowController) : Prop :=
  CreditWindow self.releasedConnectionWindow.val self.acquiredConnectionWindow.val
    self.readWindowSync.latestValue.val self.desiredFlowControlWindow.toNat

theorem inv_new (d : UInt32) : (new d).Inv := by
  simpa [Inv, new] using CreditWindow.init (IncomingConnectionFlowController.desired_le_max d)

/-- Data up to `offset` fits both windows: the stream's `MAX_STREAM_DATA`, and the connection's
`MAX_DATA` for the part of it the stream has not acquired yet. -/
def Fits (self : ReceiveStreamFlowController) (conn : IncomingConnectionFlowController)
    (offset : Nat) : Prop :=
  offset ≤ self.readWindowSync.latestValue.val ∧
    conn.acquiredWindow.val + (offset - self.acquiredConnectionWindow.val) ≤
      conn.readWindowSync.latestValue.val

instance (self : ReceiveStreamFlowController) (conn : IncomingConnectionFlowController)
    (offset : Nat) : Decidable (self.Fits conn offset) :=
  inferInstanceAs (Decidable (_ ∧ _))

def Room (self : ReceiveStreamFlowController) (conn : IncomingConnectionFlowController) : Prop :=
  ∀ x, self.releasedConnectionWindow.val + x ≤ self.acquiredConnectionWindow.val →
    conn.consumedWindow.val + x ≤ conn.acquiredWindow.val

/-- A call moved the stream's flow controller from `fc` to `fc'` and the connection's from
`conn` to `conn'`: both acquired `a` more window, and both released `c` more. -/
structure Moves (a c : Nat) (fc fc' : ReceiveStreamFlowController)
    (conn conn' : IncomingConnectionFlowController) : Prop where
  desired : fc'.desiredFlowControlWindow = fc.desiredFlowControlWindow
  connDesired : conn'.desiredFlowControlWindow = conn.desiredFlowControlWindow
  acquired : fc'.acquiredConnectionWindow.val = fc.acquiredConnectionWindow.val + a
  released : fc'.releasedConnectionWindow.val = fc.releasedConnectionWindow.val + c
  connAcquired : conn'.acquiredWindow.val = conn.acquiredWindow.val + a
  consumed : conn'.consumedWindow.val = conn.consumedWindow.val + c

variable {a c a' c' : Nat} {fc fc' fc'' : ReceiveStreamFlowController}
  {conn conn' conn'' : IncomingConnectionFlowController}

theorem moves_refl : Moves 0 0 fc fc conn conn := ⟨rfl, rfl, rfl, rfl, rfl, rfl⟩

theorem Moves.trans (h : Moves a c fc fc' conn conn') (h' : Moves a' c' fc' fc'' conn' conn'') :
    Moves (a + a') (c + c') fc fc'' conn conn'' where
  desired := h'.desired.trans h.desired
  connDesired := h'.connDesired.trans h.connDesired
  acquired := by rw [h'.acquired, h.acquired, Nat.add_assoc]
  released := by rw [h'.released, h.released, Nat.add_assoc]
  connAcquired := by rw [h'.connAcquired, h.connAcquired, Nat.add_assoc]
  consumed := by rw [h'.consumed, h.consumed, Nat.add_assoc]

theorem Moves.latest_le (h : Moves a c fc fc' conn conn') (hfc : fc.Inv) (hfc' : fc'.Inv) :
    fc.readWindowSync.latestValue.val ≤ fc'.readWindowSync.latestValue.val := by
  unfold Inv at hfc'
  rw [h.desired] at hfc'
  exact CreditWindow.latest_le hfc hfc' (by rw [h.released]; exact Nat.le_add_right _ _)

theorem Moves.connLatest_le (h : Moves a c fc fc' conn conn') (hconn : conn.Inv)
    (hconn' : conn'.Inv) :
    conn.readWindowSync.latestValue.val ≤ conn'.readWindowSync.latestValue.val := by
  unfold IncomingConnectionFlowController.Inv at hconn'
  rw [h.connDesired] at hconn'
  exact CreditWindow.latest_le hconn hconn' (by rw [h.consumed]; exact Nat.le_add_right _ _)

theorem Moves.room (h : Moves a c fc fc' conn conn') (hroom : fc.Room conn) (hfc : fc.Inv) :
    fc'.Room conn' := by
  intro x hx
  have hle := hroom 0 (CreditWindow.released_le hfc)
  rw [h.released, h.acquired] at hx
  rw [h.consumed, h.connAcquired]
  by_cases hxa : a ≤ c + x
  · have := hroom (c + x - a) (by omega)
    omega
  · omega

theorem ite_stopSync_spec (b : Bool) (hfc : fc.Inv) :
    Moves 0 0 fc (if b then fc.stopSync else fc) conn conn ∧
      (if b then fc.stopSync else fc).Inv ∧
      (if b then fc.stopSync else fc).readWindowSync.cancelled = (b || fc.readWindowSync.cancelled) := by
  cases b
  · exact ⟨moves_refl, hfc, rfl⟩
  · exact ⟨⟨rfl, rfl, rfl, rfl, rfl, rfl⟩, hfc, rfl⟩

theorem acquireWindowUpTo_spec (hfc : fc.Inv) (hconn : conn.Inv) (offset : VarInt)
    (sourceFrameType : Option UInt8) :
    ∃ r, fc.acquireWindowUpTo conn offset sourceFrameType = some r ∧
      ((∃ fc' conn', r = .ok (fc', conn') ∧ fc.Fits conn offset.val ∧
          Moves (offset.val - fc.acquiredConnectionWindow.val) 0 fc fc' conn conn' ∧
          fc'.Inv ∧ conn'.Inv ∧ fc'.readWindowSync = fc.readWindowSync) ∨
        (∃ e, r = .error e ∧ ¬ fc.Fits conn offset.val ∧
          e.code = TransportError.FLOW_CONTROL_ERROR.code)) := by
  unfold acquireWindowUpTo
  by_cases hlim : offset > fc.readWindowSync.latestValue
  · rw [if_pos hlim]
    simp only [gt_iff_lt, VarInt.lt_def] at hlim
    exact ⟨_, rfl, .inr ⟨_, rfl, fun hf => absurd hf.1 (by omega), rfl⟩⟩
  rw [if_neg hlim]
  simp only [gt_iff_lt, VarInt.lt_def, not_lt] at hlim
  have hconnLe : conn.acquiredWindow.val ≤ conn.readWindowSync.latestValue.val :=
    CreditWindow.acquired_le hconn
  by_cases hadd : offset.saturatingSub fc.acquiredConnectionWindow > VarInt.fromU32 0
  · rw [if_pos hadd]
    by_cases hroom : conn.acquiredWindow.val + (offset.val - fc.acquiredConnectionWindow.val) ≤
        conn.readWindowSync.latestValue.val
    · -- both windows have room: the stream's acquisition reaches `offset`
      obtain ⟨acquiredWindow, hacq, h⟩ :=
        IncomingConnectionFlowController.acquireWindow_of_le
          (x := offset.saturatingSub fc.acquiredConnectionWindow) hconn hroom
      have hgt : fc.acquiredConnectionWindow.val < offset.val := by
        simpa using hadd
      have hsum : fc.acquiredConnectionWindow.val +
          (offset.saturatingSub fc.acquiredConnectionWindow).val ≤ maxVarintValue := by
        have := offset.le_max
        simp only [VarInt.saturatingSub_val]
        omega
      refine ⟨_, ?_, .inl ⟨{ fc with acquiredConnectionWindow := ⟨_, hsum⟩ },
        { conn with acquiredWindow }, rfl, ⟨hlim, hroom⟩,
        ⟨rfl, rfl, rfl, (Nat.add_zero _).symm, hacq, (Nat.add_zero _).symm⟩, ?_, ?_, rfl⟩⟩
      · simp only [h, Option.bind_eq_bind, Option.bind_some, VarInt.checkedAdd_of_le hsum]
        rfl
      · refine CreditWindow.acquire hfc (Nat.le_add_right _ _) ?_
        simp only [VarInt.saturatingSub_val]
        omega
      · exact CreditWindow.acquire hconn (by rw [hacq]; exact Nat.le_add_right _ _)
          (by rw [hacq]; exact hroom)
    · -- the connection's window is exceeded
      rw [IncomingConnectionFlowController.acquireWindow_of_lt hconn (by simpa using hroom)]
      exact ⟨_, rfl, .inr ⟨_, rfl, fun hf => hroom hf.2, by simp⟩⟩
  · -- the stream acquired past `offset` before
    rw [if_neg hadd]
    have hle : offset.val ≤ fc.acquiredConnectionWindow.val := by
      simpa using hadd
    have h0 : offset.val - fc.acquiredConnectionWindow.val = 0 := by omega
    refine ⟨_, rfl, .inl ⟨fc, conn, rfl, ⟨hlim, by omega⟩, h0 ▸ moves_refl, hfc, hconn, rfl⟩⟩

theorem releaseWindow_spec (hfc : fc.Inv) (hconn : conn.Inv) (hroom : fc.Room conn)
    {amount : VarInt}
    (hamount : fc.releasedConnectionWindow.val + amount.val ≤ fc.acquiredConnectionWindow.val) :
    ∃ fc' conn', fc.releaseWindow conn amount = some (fc', conn') ∧
      Moves 0 amount.val fc fc' conn conn' ∧ fc'.Inv ∧ conn'.Inv ∧
      fc'.readWindowSync.cancelled = fc.readWindowSync.cancelled := by
  have hmax : fc.releasedConnectionWindow.val + amount.val ≤ maxVarintValue :=
    hamount.trans fc.acquiredConnectionWindow.le_max
  obtain ⟨latest, hlatest⟩ : ∃ latest : VarInt, latest = (⟨_, hmax⟩ : VarInt).saturatingAdd
      (VarInt.fromU32 fc.desiredFlowControlWindow) := ⟨_, rfl⟩
  have hw : CreditWindow (fc.releasedConnectionWindow.val + amount.val)
      fc.acquiredConnectionWindow.val latest.val fc.desiredFlowControlWindow.toNat := by
    rw [hlatest]
    exact CreditWindow.release hfc (Nat.le_add_right _ _) hamount
  obtain ⟨conn', hrel, hconn', hdes, hacq, hcons⟩ :=
    IncomingConnectionFlowController.releaseWindow_spec hconn (hroom _ hamount)
  refine ⟨{ fc with
    releasedConnectionWindow := ⟨_, hmax⟩
    readWindowSync := { fc.readWindowSync with latestValue := latest } }, conn',
    ?_, ⟨rfl, hdes, rfl, rfl, by rw [hacq]; rfl, hcons⟩, hw, hconn', rfl⟩
  subst hlatest
  simp only [releaseWindow, VarInt.checkedAdd_of_le hmax, Option.bind_eq_bind, Option.bind_some,
    IncrementalValueSync.updateLatestValue_of_le (CreditWindow.latest_le hfc hw
      (Nat.le_add_right _ _)), hrel]
  rfl

theorem releaseOutstandingWindow_spec (hfc : fc.Inv) (hconn : conn.Inv) (hroom : fc.Room conn) :
    ∃ fc' conn', fc.releaseOutstandingWindow conn = some (fc', conn') ∧
      Moves 0 (fc.acquiredConnectionWindow.val - fc.releasedConnectionWindow.val) fc fc' conn
        conn' ∧ fc'.Inv ∧ conn'.Inv := by
  have hle := CreditWindow.released_le hfc
  have hamount : fc.releasedConnectionWindow.val +
      (⟨fc.acquiredConnectionWindow.val - fc.releasedConnectionWindow.val,
        (Nat.sub_le _ _).trans fc.acquiredConnectionWindow.le_max⟩ : VarInt).val ≤
      fc.acquiredConnectionWindow.val := by
    simp only
    omega
  obtain ⟨fc', conn', hrel, hm, hfc', hconn', -⟩ := releaseWindow_spec hfc hconn hroom hamount
  refine ⟨fc', conn', ?_, hm, hfc', hconn'⟩
  simp only [releaseOutstandingWindow, VarInt.checkedSub_of_le hle, Option.bind_eq_bind,
    Option.bind_some, hrel]

end ReceiveStreamFlowController

/-! ## The receive stream -/

/-- `ReceiveStreamState`; the error a reset or stopping stream carries, and the `MissingData`
tracker of a stopping one, are left out. -/
inductive ReceiveStreamState
  | receiving
  | stopping
  | dataRead
  | reset
  deriving DecidableEq, Repr

def STREAM_TAG : UInt8 := 0x08

def OFF_BIT : UInt8 := 0x04

def LEN_BIT : UInt8 := 0x02

def FIN_BIT : UInt8 := 0x01

/-- `reset_stream_tag!()`. -/
def RESET_STREAM_TAG : UInt8 := 0x04

/-- `frame::Stream` as `on_data` reads it: its data only by its length. -/
structure StreamFrame where
  offset : VarInt
  len : Nat
  isLastFrame : Bool
  isFin : Bool
  deriving DecidableEq

namespace StreamFrame

def tag (self : StreamFrame) : UInt8 :=
  let tag := STREAM_TAG
  let tag := if self.offset.val ≠ 0 then tag ||| OFF_BIT else tag
  let tag := if !self.isLastFrame then tag ||| LEN_BIT else tag
  if self.isFin then tag ||| FIN_BIT else tag

def dataEnd (self : StreamFrame) : Nat := self.offset.val + self.len

end StreamFrame

/-- The part of `ops::rx::Request` the stream reads: whether it asks to stop sending, and
otherwise the chunks it offers to be filled, by their lengths (none, for no chunks), and its
watermarks. -/
structure Request where
  stopSending : Bool
  chunks : List Nat
  lowWatermark : Nat
  highWatermark : Nat

/-- `ReceiveStream`; of its `stop_sending_sync`, whether it was cancelled. -/
structure ReceiveStream where
  state : ReceiveStreamState
  receiveBuffer : Reassembler
  flowController : ReceiveStreamFlowController
  stopSendingSyncCancelled : Bool

namespace ReceiveStream

/-- `new`: a stream created closed starts fully read, with both syncs stopped. -/
def new (isClosed : Bool) (desiredFlowControlWindow : UInt32) : ReceiveStream :=
  ⟨if isClosed then .dataRead else .receiving, Reassembler.new,
    if isClosed then (ReceiveStreamFlowController.new desiredFlowControlWindow).stopSync
    else .new desiredFlowControlWindow, isClosed⟩

/-- The part of `on_data` after the flow control check: the write into the receive buffer, and
the move to `DataRead` when a FIN arrives after everything was read. -/
def writeFrame (self : ReceiveStream) (conn : IncomingConnectionFlowController)
    (frame : StreamFrame) :
    (ReceiveStream × IncomingConnectionFlowController) × Except TransportError Unit :=
  match self.receiveBuffer.writeAt frame.offset frame.len frame.isFin with
  | .error error =>
    let code := match error with
      | .outOfRange => TransportError.FLOW_CONTROL_ERROR
      | .invalidFin => TransportError.FINAL_SIZE_ERROR
    ((self, conn), .error ((code.withReason "data reception error").withFrameType frame.tag.toNat))
  | .ok receiveBuffer =>
    -- with the final size known, `MAX_STREAM_DATA` is no longer sent, and with all the data
    -- received, STOP_SENDING neither
    let flowController := if frame.isFin then self.flowController.stopSync else self.flowController
    let stopSendingSyncCancelled :=
      self.stopSendingSyncCancelled || receiveBuffer.isWritingComplete
    if frame.isFin ∧ receiveBuffer.finalSize = some receiveBuffer.consumedLen then
      (({ self with
        receiveBuffer := Reassembler.new, flowController, stopSendingSyncCancelled
        state := .dataRead }, conn), .ok ())
    else (({ self with receiveBuffer, flowController, stopSendingSyncCancelled }, conn), .ok ())

def onData (self : ReceiveStream) (conn : IncomingConnectionFlowController)
    (frame : StreamFrame) :
    Option ((ReceiveStream × IncomingConnectionFlowController) × Except TransportError Unit) :=
  match self.state with
  -- a reset, stopping or fully read stream ignores the data, unchecked
  | .reset | .stopping | .dataRead => some ((self, conn), .ok ())
  | .receiving =>
    match VarInt.new frame.dataEnd with
    | none => some ((self, conn), .error ((TransportError.FLOW_CONTROL_ERROR.withReason
        "data size overflow").withFrameType frame.tag.toNat))
    | some dataEnd =>
      -- once the final size is known, the data is checked against it alone
      if self.receiveBuffer.finalSize.isNone then
        (self.flowController.acquireWindowUpTo conn dataEnd (some frame.tag)).map fun
          | .error e => ((self, conn), .error e)
          | .ok (flowController, conn) => writeFrame { self with flowController } conn frame
      else some (self.writeFrame conn frame)

/-- The end of `init_reset`: the buffered data is dropped, and all the window acquired and not
yet released is released, so that other streams are not starved. -/
def enterReset (self : ReceiveStream) (conn : IncomingConnectionFlowController) :
    Option (ReceiveStream × IncomingConnectionFlowController) :=
  (self.flowController.stopSync.releaseOutstandingWindow conn).map fun r =>
    ({ self with receiveBuffer := Reassembler.new, flowController := r.1, state := .reset }, r.2)

/-- The reset of a stream whose final size was not known: the peer reserved window up to the
final size it gives, so that window is acquired before all of it is released. -/
def resetUpTo (self : ReceiveStream) (conn : IncomingConnectionFlowController)
    (actualSize : Option VarInt) (frameTag : Option UInt8) :
    Option ((ReceiveStream × IncomingConnectionFlowController) × Except TransportError Unit) :=
  match actualSize with
  | none => (self.enterReset conn).map (·, .ok ())
  | some actualSize =>
    (self.flowController.acquireWindowUpTo conn actualSize frameTag).bind fun
      | .error e => some ((self, conn), .error e)
      | .ok (flowController, conn) =>
        ({ self with flowController }.enterReset conn).map (·, .ok ())

def initReset (self : ReceiveStream) (conn : IncomingConnectionFlowController)
    (actualSize : Option VarInt) (frameTag : Option UInt8) :
    Option ((ReceiveStream × IncomingConnectionFlowController) × Except TransportError Unit) :=
  match self.state, self.receiveBuffer.finalSize with
  | .reset, _ | .dataRead, _ => some ((self, conn), .ok ())
  | .receiving, some totalSize =>
    if actualSize.any (fun actualSize => actualSize.val ≠ totalSize) then
      some ((self, conn), .error ((TransportError.FINAL_SIZE_ERROR.withReason
        "Final size in reset frame did not match previous final size").withFrameType
          (frameTag.getD 0).toNat))
    -- all the data was received: the reset is ignored
    else if self.receiveBuffer.totalReceivedLen = totalSize then some ((self, conn), .ok ())
    else (self.enterReset conn).map (·, .ok ())
  | .receiving, none | .stopping, _ => self.resetUpTo conn actualSize frameTag

/-- `on_reset`: once the reset is taken, STOP_SENDING is no longer sent. -/
def onReset (self : ReceiveStream) (conn : IncomingConnectionFlowController) (finalSize : VarInt) :
    Option ((ReceiveStream × IncomingConnectionFlowController) × Except TransportError Unit) :=
  (self.initReset conn (some finalSize) (some RESET_STREAM_TAG)).map fun
    | ((self, conn), .ok ()) => (({ self with stopSendingSyncCancelled := true }, conn), .ok ())
    | r => r

def onInternalReset (self : ReceiveStream) (conn : IncomingConnectionFlowController) :
    Option (ReceiveStream × IncomingConnectionFlowController) :=
  (self.initReset conn none none).bind fun
    | (p, .ok ()) => some p
    -- the `debug_assert!` that an internal reset never fails
    | (_, .error _) => none

/-- The loop of `poll_request` that fills the request's chunks: each chunk popped releases its
length of window, and replaces the next placeholder. -/
def popChunks (receiveBuffer : Reassembler) (flowController : ReceiveStreamFlowController)
    (conn : IncomingConnectionFlowController) (highWatermark : Nat) :
    List Nat → Option (Reassembler × ReceiveStreamFlowController × IncomingConnectionFlowController)
  | [] => some (receiveBuffer, flowController, conn)
  | placeholder :: chunks =>
    match receiveBuffer.popWatermarked highWatermark with
    | none => some (receiveBuffer, flowController, conn)
    | some (dataLen, receiveBuffer) => do
      -- `VarInt::try_from(data_len).expect(..)`
      let amount ← VarInt.new dataLen
      let (flowController, conn) ← flowController.releaseWindow conn amount
      -- the `debug_assert!` that the placeholder replaced held no data
      if placeholder ≠ 0 then none
      else popChunks receiveBuffer flowController conn (highWatermark - dataLen) chunks

/-- `poll_request`, for a request to stop sending or to read. -/
def pollRequest (self : ReceiveStream) (conn : IncomingConnectionFlowController)
    (request : Request) : Option (ReceiveStream × IncomingConnectionFlowController) :=
  if request.stopSending then
    match self.state with
    | .receiving =>
      if self.receiveBuffer.isWritingComplete then some ({ self with state := .dataRead }, conn)
      else some ({ self with state := .stopping, receiveBuffer := Reassembler.new }, conn)
    | .reset | .stopping | .dataRead => some (self, conn)
  else
    match self.state with
    | .receiving =>
      let totalSize := self.receiveBuffer.finalSize
      let ready := min self.flowController.watermark request.lowWatermark ≤ self.receiveBuffer.len
      -- placeholders that hold data: `non_empty_output`, before anything is read
      if ready ∧ request.chunks.any (· ≠ 0) then some (self, conn) else
      let popped :=
        if ready then
          popChunks self.receiveBuffer self.flowController conn request.highWatermark
            request.chunks
        else some (self.receiveBuffer, self.flowController, conn)
      popped.bind fun (receiveBuffer, flowController, conn) =>
        -- everything was read: the stream is finished, with the `debug_assert!`s that both
        -- syncs were cancelled by then
        if totalSize = some receiveBuffer.consumedLen then
          if self.stopSendingSyncCancelled && flowController.readWindowSync.cancelled then
            some ({ self with receiveBuffer := Reassembler.new, flowController, state := .dataRead },
              conn)
          else none
        else some ({ self with receiveBuffer, flowController }, conn)
    | .reset | .stopping | .dataRead => some (self, conn)

/-! ### The stream's accounting -/

/-- What a receiving stream's buffer and flow controller agree on: what was read is what was
released, and the data received, and the final size once known, lie within the window
acquired. -/
structure Accounted (buf : Reassembler) (fc : ReceiveStreamFlowController) : Prop where
  wellFormed : buf.WellFormed
  released : fc.releasedConnectionWindow.val = buf.startOffset
  maxRecv_le : buf.maxRecvOffset ≤ fc.acquiredConnectionWindow.val
  final_le : ∀ final, buf.finalOffset = some final → final ≤ fc.acquiredConnectionWindow.val

/-- What a receiving stream no longer synchronises: `MAX_STREAM_DATA` once the final size is
known, and STOP_SENDING once all the data was received. -/
structure Synced (stream : ReceiveStream) : Prop where
  readWindow : stream.receiveBuffer.finalOffset.isSome →
    stream.flowController.readWindowSync.cancelled = true
  stopSending : stream.receiveBuffer.isWritingComplete → stream.stopSendingSyncCancelled = true

structure Inv (stream : ReceiveStream) : Prop where
  window : stream.flowController.Inv
  accounted : stream.state = .receiving → Accounted stream.receiveBuffer stream.flowController
  synced : stream.state = .receiving → stream.Synced

open ReceiveStreamFlowController (Moves moves_refl)

/-- A call on a stream kept both accountings, and moved the same amounts at both levels. -/
structure Keeps (s s' : ReceiveStream) (conn conn' : IncomingConnectionFlowController) :
    Prop where
  moves : ∃ a c, Moves a c s.flowController s'.flowController conn conn'
  stream : s'.Inv
  connection : conn'.Inv

variable {s s' : ReceiveStream} {conn conn' : IncomingConnectionFlowController}
  {frame : StreamFrame}

theorem inv_new (isClosed : Bool) (d : UInt32) : (new isClosed d).Inv where
  window := by
    cases isClosed
    all_goals exact ReceiveStreamFlowController.inv_new d
  accounted h := by
    cases isClosed
    · exact ⟨Reassembler.wellFormed_new,
        by simp [new, ReceiveStreamFlowController.new, Reassembler.new], Nat.zero_le _,
        by simp [new, Reassembler.new]⟩
    · simp [new] at h
  synced _ := ⟨by simp [new, Reassembler.new],
    by simp [new, Reassembler.new, Reassembler.isWritingComplete, Reassembler.finalSize]⟩

theorem keeps_refl (hs : s.Inv) (hconn : conn.Inv) : Keeps s s conn conn :=
  ⟨⟨0, 0, moves_refl⟩, hs, hconn⟩

theorem Keeps.trans {s'' : ReceiveStream} {conn'' : IncomingConnectionFlowController}
    (h : Keeps s s' conn conn') (h' : Keeps s' s'' conn' conn'') : Keeps s s'' conn conn'' := by
  obtain ⟨a, c, hm⟩ := h.moves
  obtain ⟨a', c', hm'⟩ := h'.moves
  exact ⟨⟨_, _, hm.trans hm'⟩, h'.stream, h'.connection⟩

theorem inv_of_ne_receiving (hw : s.flowController.Inv) (h : s.state ≠ .receiving) : s.Inv :=
  ⟨hw, fun h' => absurd h' h, fun h' => absurd h' h⟩

theorem Accounted.mono {buf : Reassembler} {fc fc' : ReceiveStreamFlowController}
    (h : Accounted buf fc)
    (hrel : fc'.releasedConnectionWindow.val = fc.releasedConnectionWindow.val)
    (hacq : fc.acquiredConnectionWindow.val ≤ fc'.acquiredConnectionWindow.val) :
    Accounted buf fc' :=
  ⟨h.wellFormed, hrel.trans h.released, h.maxRecv_le.trans hacq,
    fun final hf => (h.final_le final hf).trans hacq⟩

theorem Accounted.of_moves {buf : Reassembler} {fc fc' : ReceiveStreamFlowController} {a : Nat}
    (h : Accounted buf fc) (hm : Moves a 0 fc fc' conn conn') : Accounted buf fc' :=
  h.mono hm.released (by rw [hm.acquired]; exact Nat.le_add_right _ _)

theorem Inv.acquire {fc' : ReceiveStreamFlowController} {a : Nat} (hs : s.Inv)
    (hm : Moves a 0 s.flowController fc' conn conn') (hfc' : fc'.Inv)
    (hsync : fc'.readWindowSync = s.flowController.readWindowSync) :
    Inv { s with flowController := fc' } where
  window := hfc'
  accounted hrecv := (hs.accounted hrecv).of_moves hm
  synced hrecv := ⟨fun hf => by
    show fc'.readWindowSync.cancelled = true
    rw [hsync]
    exact (hs.synced hrecv).readWindow hf, (hs.synced hrecv).stopSending⟩

theorem Inv.cancelStopSending (hs : s.Inv) : Inv { s with stopSendingSyncCancelled := true } where
  window := hs.window
  accounted := hs.accounted
  synced hrecv := ⟨(hs.synced hrecv).readWindow, fun _ => rfl⟩

theorem Keeps.cancelStopSending (h : Keeps s s' conn conn') :
    Keeps s { s' with stopSendingSyncCancelled := true } conn conn' :=
  ⟨h.moves, h.stream.cancelStopSending, h.connection⟩

/-! ### Data -/

theorem writeFrame_spec (conn : IncomingConnectionFlowController) (frame : StreamFrame)
    (hs : s.Inv) (hrecv : s.state = .receiving)
    (hfits : s.receiveBuffer.finalOffset = none →
      frame.dataEnd ≤ s.flowController.acquiredConnectionWindow.val) :
    ∃ s' r, s.writeFrame conn frame = ((s', conn), r) ∧
      Moves 0 0 s.flowController s'.flowController conn conn ∧ s'.Inv := by
  have hacc := hs.accounted hrecv
  unfold writeFrame
  rcases hw : s.receiveBuffer.writeAt frame.offset frame.len frame.isFin with error | buf
  · exact ⟨s, _, rfl, moves_refl, hs⟩
  obtain ⟨dataEnd, hval, hstart, hmax, -, hfin, hend⟩ := Reassembler.writeAt_ok hw
  have hle : dataEnd.val ≤ s.flowController.acquiredConnectionWindow.val := by
    rcases hF : s.receiveBuffer.finalOffset with _ | F
    · rw [hval]
      exact hfits hF
    · have hF' : buf.finalOffset = some F := by
        rcases hfin with hfin | ⟨hnone, -⟩
        · rw [hfin, hF]
        · rw [hF] at hnone
          cases hnone
      exact (hend F hF').trans (hacc.final_le F hF)
  have hacc' : Accounted buf s.flowController := by
    refine ⟨hacc.wellFormed.writeAt hw, hacc.released.trans hstart.symm,
      by rw [hmax]; exact max_le hacc.maxRecv_le hle, ?_⟩
    intro F hF
    rcases hfin with hfin | ⟨-, -, -, hfin⟩
    · exact hacc.final_le F (hfin ▸ hF)
    · rw [hfin] at hF
      cases hF
      exact hle
  obtain ⟨hm, hfc, hcancel⟩ :=
    @ReceiveStreamFlowController.ite_stopSync_spec s.flowController conn frame.isFin hs.window
  have hread : buf.finalOffset.isSome →
      (if frame.isFin then s.flowController.stopSync else s.flowController).readWindowSync.cancelled
        = true := by
    intro hsome
    rw [hcancel, Bool.or_eq_true]
    rcases hfin with hfin | ⟨-, hfinTrue, -⟩
    · exact .inr ((hs.synced hrecv).readWindow (hfin ▸ hsome))
    · exact .inl hfinTrue
  dsimp only
  by_cases hdone : frame.isFin ∧ buf.finalSize = some buf.consumedLen
  · rw [if_pos hdone]
    exact ⟨_, _, rfl, hm, inv_of_ne_receiving hfc (by simp)⟩
  · rw [if_neg hdone]
    exact ⟨_, _, rfl, hm, ⟨hfc, fun _ => hacc'.of_moves hm,
      fun _ => ⟨hread, fun h => by simp [h]⟩⟩⟩

theorem writeFrame_of_final_lt {final : Nat} (hfinal : s.receiveBuffer.finalOffset = some final)
    (hlt : final < frame.dataEnd) (hmax : frame.dataEnd ≤ maxVarintValue) :
    (s.writeFrame conn frame).2 = .error ((TransportError.FINAL_SIZE_ERROR.withReason
      "data reception error").withFrameType frame.tag.toNat) := by
  simp only [writeFrame, Reassembler.writeAt_of_final_lt hfinal hlt hmax]

theorem dataEnd_le_of_writeFrame {final : Nat} (hfinal : s.receiveBuffer.finalOffset = some final)
    (h : (s.writeFrame conn frame).2 = .ok ()) : frame.dataEnd ≤ final := by
  unfold writeFrame at h
  rcases hw : s.receiveBuffer.writeAt frame.offset frame.len frame.isFin with error | buf
  · simp [hw] at h
  obtain ⟨dataEnd, hval, -, -, -, hfin, hend⟩ := Reassembler.writeAt_ok hw
  rcases hfin with hfin | ⟨hnone, -⟩
  · rw [StreamFrame.dataEnd, ← hval]
    exact hend final (hfin.trans hfinal)
  · rw [hfinal] at hnone
    cases hnone

theorem onData_of_ne (h : s.state ≠ .receiving) : s.onData conn frame = some ((s, conn), .ok ()) := by
  cases hst : s.state with
  | receiving => exact absurd hst h
  | stopping | dataRead | reset => simp only [onData, hst]

theorem onData_of_max_lt (hrecv : s.state = .receiving) (h : maxVarintValue < frame.dataEnd) :
    s.onData conn frame = some ((s, conn), .error ((TransportError.FLOW_CONTROL_ERROR.withReason
      "data size overflow").withFrameType frame.tag.toNat)) := by
  simp only [onData, hrecv, VarInt.new_of_lt h]

theorem onData_spec (hs : s.Inv) (hconn : conn.Inv) (frame : StreamFrame) :
    ∃ p r, s.onData conn frame = some (p, r) ∧ Keeps s p.1 conn p.2 := by
  by_cases hrecv : s.state = .receiving
  swap
  · exact ⟨_, _, onData_of_ne hrecv, keeps_refl hs hconn⟩
  rcases Nat.lt_or_ge maxVarintValue frame.dataEnd with hmax | hmax
  · exact ⟨_, _, onData_of_max_lt hrecv hmax, keeps_refl hs hconn⟩
  rcases hF : s.receiveBuffer.finalOffset with _ | F
  · -- the final size is not known: the window up to the data's end is acquired first
    obtain ⟨r, hr, hcases⟩ :=
      s.flowController.acquireWindowUpTo_spec hs.window hconn ⟨_, hmax⟩ (some frame.tag)
    rcases hcases with ⟨fc', conn', rfl, -, hm, hfc', hconn', hsync⟩ | ⟨e, rfl, -, -⟩
    · have hacq : fc'.acquiredConnectionWindow.val = _ := hm.acquired
      dsimp only at hacq
      obtain ⟨s', r', hw, hm', hs'⟩ := writeFrame_spec conn' frame (hs.acquire hm hfc' hsync)
        hrecv (fun _ => by
          show frame.dataEnd ≤ fc'.acquiredConnectionWindow.val
          omega)
      refine ⟨(s', conn'), r', ?_, ⟨_, _, hm.trans hm'⟩, hs', hconn'⟩
      rw [hrecv] at hw
      simp only [onData, hrecv, VarInt.new_of_le hmax, Reassembler.finalSize, hF,
        Option.isNone_none, if_true, hr, Option.map_some, hw]
    · refine ⟨(s, conn), .error e, ?_, keeps_refl hs hconn⟩
      simp only [onData, hrecv, VarInt.new_of_le hmax, Reassembler.finalSize, hF,
        Option.isNone_none, if_true, hr, Option.map_some]
  · -- the final size is known: only the buffer checks the data
    obtain ⟨s', r', hw, hm, hs'⟩ := writeFrame_spec conn frame hs hrecv
      (fun h => by rw [hF] at h; cases h)
    refine ⟨(s', conn), r', ?_, ⟨0, 0, hm⟩, hs', hconn⟩
    simp only [onData, hrecv, VarInt.new_of_le hmax, Reassembler.finalSize, hF,
      Option.isNone_some, Bool.false_eq_true, if_false, hw]

theorem dataEnd_le_of_onData (hs : s.Inv) (hconn : conn.Inv) (hrecv : s.state = .receiving)
    {p : ReceiveStream × IncomingConnectionFlowController}
    (h : s.onData conn frame = some (p, .ok ())) :
    frame.dataEnd ≤ s.flowController.readWindowSync.latestValue.val := by
  rcases Nat.lt_or_ge maxVarintValue frame.dataEnd with hmax | hmax
  · rw [onData_of_max_lt hrecv hmax] at h
    simp at h
  rcases hF : s.receiveBuffer.finalOffset with _ | F
  · -- the window was acquired up to the data's end
    obtain ⟨r, hr, hcases⟩ :=
      s.flowController.acquireWindowUpTo_spec hs.window hconn ⟨_, hmax⟩ (some frame.tag)
    rcases hcases with ⟨fc', conn', rfl, hfits, -⟩ | ⟨e, rfl, -⟩
    · exact hfits.1
    · simp [onData, hrecv, VarInt.new_of_le hmax, Reassembler.finalSize, hF, hr] at h
  · -- the data ends within the final size, which the stream acquired
    simp only [onData, hrecv, VarInt.new_of_le hmax, Reassembler.finalSize, hF,
      Option.isNone_some, Bool.false_eq_true, if_false, Option.some.injEq] at h
    calc frame.dataEnd ≤ F := dataEnd_le_of_writeFrame hF (by rw [h])
      _ ≤ s.flowController.acquiredConnectionWindow.val := (hs.accounted hrecv).final_le F hF
      _ ≤ _ := CreditWindow.acquired_le hs.window

theorem onData_of_not_fits (hs : s.Inv) (hconn : conn.Inv) (hrecv : s.state = .receiving)
    (hnone : s.receiveBuffer.finalOffset = none)
    (hfits : ¬ s.flowController.Fits conn frame.dataEnd) :
    ∃ p e, s.onData conn frame = some (p, .error e) ∧
      e.code = TransportError.FLOW_CONTROL_ERROR.code := by
  rcases Nat.lt_or_ge maxVarintValue frame.dataEnd with hmax | hmax
  · exact ⟨_, _, onData_of_max_lt hrecv hmax, rfl⟩
  obtain ⟨r, hr, hcases⟩ :=
    s.flowController.acquireWindowUpTo_spec hs.window hconn ⟨_, hmax⟩ (some frame.tag)
  rcases hcases with ⟨-, -, -, hf, -⟩ | ⟨e, rfl, -, he⟩
  · exact absurd hf hfits
  · refine ⟨(s, conn), e, ?_, he⟩
    simp only [onData, hrecv, VarInt.new_of_le hmax, Reassembler.finalSize, hnone,
      Option.isNone_none, if_true, hr, Option.map_some]

theorem onData_of_final_lt (conn : IncomingConnectionFlowController)
    (hrecv : s.state = .receiving) {final : Nat}
    (hfinal : s.receiveBuffer.finalOffset = some final) (hlt : final < frame.dataEnd)
    (hmax : frame.dataEnd ≤ maxVarintValue) :
    ∃ p, s.onData conn frame = some (p, .error ((TransportError.FINAL_SIZE_ERROR.withReason
      "data reception error").withFrameType frame.tag.toNat)) := by
  refine ⟨(s.writeFrame conn frame).1, ?_⟩
  simp only [onData, hrecv, VarInt.new_of_le hmax, Reassembler.finalSize, hfinal,
    Option.isNone_some, Bool.false_eq_true, if_false]
  exact congrArg some (Prod.ext rfl (writeFrame_of_final_lt hfinal hlt hmax))

/-! ### Resets -/

theorem enterReset_spec (hs : s.Inv) (hconn : conn.Inv) (hroom : s.flowController.Room conn) :
    ∃ s' conn', s.enterReset conn = some (s', conn') ∧ Keeps s s' conn conn' := by
  obtain ⟨hstop, hfc, -⟩ :=
    @ReceiveStreamFlowController.ite_stopSync_spec s.flowController conn true hs.window
  obtain ⟨fc', conn', hrel, hm, hfc', hconn'⟩ :=
    s.flowController.stopSync.releaseOutstandingWindow_spec hfc hconn hroom
  refine ⟨{ s with receiveBuffer := Reassembler.new, flowController := fc', state := .reset },
    conn', ?_, ⟨⟨_, _, hstop.trans hm⟩, inv_of_ne_receiving hfc' (by simp), hconn'⟩⟩
  simp only [enterReset, hrel, Option.map_some]

theorem resetUpTo_spec (hs : s.Inv) (hconn : conn.Inv) (hroom : s.flowController.Room conn)
    (actualSize : Option VarInt) (frameTag : Option UInt8) :
    ∃ p r, s.resetUpTo conn actualSize frameTag = some (p, r) ∧ Keeps s p.1 conn p.2 := by
  rcases actualSize with _ | actualSize
  · obtain ⟨s', conn', hreset, hk⟩ := enterReset_spec hs hconn hroom
    exact ⟨(s', conn'), .ok (), by simp only [resetUpTo, hreset, Option.map_some], hk⟩
  obtain ⟨r, hr, hcases⟩ :=
    s.flowController.acquireWindowUpTo_spec hs.window hconn actualSize frameTag
  rcases hcases with ⟨fc', conn₁, rfl, -, hm, hfc', hconn₁, hsync⟩ | ⟨e, rfl, -, -⟩
  · -- the window up to the final size is acquired, then all of it released
    have hs₁ : Inv { s with flowController := fc' } := hs.acquire hm hfc' hsync
    have hk₁ : Keeps s { s with flowController := fc' } conn conn₁ := ⟨⟨_, _, hm⟩, hs₁, hconn₁⟩
    obtain ⟨s', conn', hreset, hk⟩ := enterReset_spec hs₁ hconn₁ (hm.room hroom hs.window)
    exact ⟨(s', conn'), .ok (),
      by simp only [resetUpTo, hr, Option.bind_some, hreset, Option.map_some],
      hk₁.trans hk⟩
  · exact ⟨(s, conn), .error e, by simp only [resetUpTo, hr, Option.bind_some],
      keeps_refl hs hconn⟩

theorem le_of_resetUpTo {size : VarInt} {frameTag : Option UInt8} (hs : s.Inv)
    (hconn : conn.Inv) {p : ReceiveStream × IncomingConnectionFlowController}
    (h : s.resetUpTo conn (some size) frameTag = some (p, .ok ())) :
    size.val ≤ s.flowController.readWindowSync.latestValue.val := by
  obtain ⟨r, hr, hcases⟩ := s.flowController.acquireWindowUpTo_spec hs.window hconn size frameTag
  rcases hcases with ⟨-, -, -, hfits, -⟩ | ⟨e, rfl, -⟩
  · exact hfits.1
  · simp [resetUpTo, hr] at h

theorem resetUpTo_of_not_fits {size : VarInt} (hs : s.Inv) (hconn : conn.Inv)
    (hfits : ¬ s.flowController.Fits conn size.val) (frameTag : Option UInt8) :
    ∃ p e, s.resetUpTo conn (some size) frameTag = some (p, .error e) ∧
      e.code = TransportError.FLOW_CONTROL_ERROR.code := by
  obtain ⟨r, hr, hcases⟩ := s.flowController.acquireWindowUpTo_spec hs.window hconn size frameTag
  rcases hcases with ⟨-, -, -, hf, -⟩ | ⟨e, rfl, -, he⟩
  · exact absurd hf hfits
  · exact ⟨(s, conn), e, by simp only [resetUpTo, hr, Option.bind_some], he⟩

theorem initReset_spec (hs : s.Inv) (hconn : conn.Inv) (hroom : s.flowController.Room conn)
    (actualSize : Option VarInt) (frameTag : Option UInt8) :
    ∃ p r, s.initReset conn actualSize frameTag = some (p, r) ∧ Keeps s p.1 conn p.2 := by
  obtain ⟨p, r, hup, hk⟩ := resetUpTo_spec hs hconn hroom actualSize frameTag
  cases hst : s.state with
  | reset | dataRead => exact ⟨(s, conn), .ok (), by simp only [initReset, hst], keeps_refl hs hconn⟩
  | stopping => exact ⟨p, r, by simp only [initReset, hst, hup], hk⟩
  | receiving =>
    rcases hF : s.receiveBuffer.finalOffset with _ | F
    · exact ⟨p, r, by simp only [initReset, hst, Reassembler.finalSize, hF, hup], hk⟩
    obtain ⟨s', conn', hreset, hk'⟩ := enterReset_spec hs hconn hroom
    simp only [initReset, hst, Reassembler.finalSize, hF]
    split_ifs
    · exact ⟨_, _, rfl, keeps_refl hs hconn⟩
    · exact ⟨_, _, rfl, keeps_refl hs hconn⟩
    · exact ⟨(s', conn'), .ok (), by rw [hreset, Option.map_some], hk'⟩

theorem initReset_of_inactive {actualSize : Option VarInt} {frameTag : Option UInt8}
    (h : s.state = .reset ∨ s.state = .dataRead) :
    s.initReset conn actualSize frameTag = some ((s, conn), .ok ()) := by
  rcases h with h | h <;> simp only [initReset, h]

theorem le_of_initReset {size : VarInt} {frameTag : Option UInt8} (hs : s.Inv)
    (hconn : conn.Inv) (hact : s.state = .receiving ∨ s.state = .stopping)
    {p : ReceiveStream × IncomingConnectionFlowController}
    (h : s.initReset conn (some size) frameTag = some (p, .ok ())) :
    size.val ≤ s.flowController.readWindowSync.latestValue.val := by
  rcases hact with hst | hst
  · rcases hF : s.receiveBuffer.finalOffset with _ | F
    · simp only [initReset, hst, Reassembler.finalSize, hF] at h
      exact le_of_resetUpTo hs hconn h
    have hsize : size.val = F := by
      by_contra hne
      simp [initReset, hst, Reassembler.finalSize, hF, hne] at h
    calc size.val = F := hsize
      _ ≤ s.flowController.acquiredConnectionWindow.val := (hs.accounted hst).final_le F hF
      _ ≤ _ := CreditWindow.acquired_le hs.window
  · simp only [initReset, hst] at h
    exact le_of_resetUpTo hs hconn h

theorem initReset_of_not_fits {size : VarInt} (hs : s.Inv) (hconn : conn.Inv)
    (hact : s.state = .stopping ∨ s.state = .receiving ∧ s.receiveBuffer.finalOffset = none)
    (hfits : ¬ s.flowController.Fits conn size.val) (frameTag : Option UInt8) :
    ∃ p e, s.initReset conn (some size) frameTag = some (p, .error e) ∧
      e.code = TransportError.FLOW_CONTROL_ERROR.code := by
  obtain ⟨p, e, hup, he⟩ := resetUpTo_of_not_fits hs hconn hfits frameTag
  refine ⟨p, e, ?_, he⟩
  rcases hact with hst | ⟨hst, hF⟩
  · simp only [initReset, hst, hup]
  · simp only [initReset, hst, Reassembler.finalSize, hF, hup]

theorem initReset_of_ne_final {size : VarInt} {final : Nat} (hrecv : s.state = .receiving)
    (hfinal : s.receiveBuffer.finalOffset = some final) (hne : size.val ≠ final)
    (frameTag : Option UInt8) :
    s.initReset conn (some size) frameTag = some ((s, conn), .error
      ((TransportError.FINAL_SIZE_ERROR.withReason
        "Final size in reset frame did not match previous final size").withFrameType
          (frameTag.getD 0).toNat)) := by
  simp [initReset, hrecv, Reassembler.finalSize, hfinal, hne]

theorem initReset_none_ok {p : ReceiveStream × IncomingConnectionFlowController}
    {r : Except TransportError Unit} (h : s.initReset conn none none = some (p, r)) : r = .ok () := by
  have henter : ∀ {x : Option (ReceiveStream × IncomingConnectionFlowController)},
      x.map (·, Except.ok ()) = some (p, r) → r = .ok () := by
    intro x hx
    obtain ⟨_, -, hx⟩ := Option.map_eq_some_iff.mp hx
    cases hx
    rfl
  cases hst : s.state with
  | reset | dataRead =>
    simp only [initReset, hst, Option.some.injEq, Prod.mk.injEq] at h
    exact h.2.symm
  | stopping =>
    simp only [initReset, hst, resetUpTo] at h
    exact henter h
  | receiving =>
    rcases hF : s.receiveBuffer.finalOffset with _ | F
    · simp only [initReset, hst, Reassembler.finalSize, hF, resetUpTo] at h
      exact henter h
    simp only [initReset, hst, Reassembler.finalSize, hF, Option.any_none, Bool.false_eq_true,
      if_false] at h
    split_ifs at h
    · simp only [Option.some.injEq, Prod.mk.injEq] at h
      exact h.2.symm
    · exact henter h

theorem onReset_spec (hs : s.Inv) (hconn : conn.Inv) (hroom : s.flowController.Room conn)
    (finalSize : VarInt) :
    ∃ p r, s.onReset conn finalSize = some (p, r) ∧ Keeps s p.1 conn p.2 := by
  obtain ⟨⟨s', conn'⟩, r, h, hk⟩ :=
    initReset_spec hs hconn hroom (some finalSize) (some RESET_STREAM_TAG)
  rcases r with e | ⟨⟨⟩⟩
  · exact ⟨(s', conn'), .error e, by simp only [onReset, h, Option.map_some], hk⟩
  · exact ⟨({ s' with stopSendingSyncCancelled := true }, conn'), .ok (),
      by simp only [onReset, h, Option.map_some], hk.cancelStopSending⟩

theorem onInternalReset_spec (hs : s.Inv) (hconn : conn.Inv)
    (hroom : s.flowController.Room conn) :
    ∃ s' conn', s.onInternalReset conn = some (s', conn') ∧ Keeps s s' conn conn' := by
  obtain ⟨p, r, h, hk⟩ := initReset_spec hs hconn hroom none none
  obtain rfl := initReset_none_ok h
  exact ⟨p.1, p.2, by simp only [onInternalReset, h, Option.bind_some], hk⟩

/-! ### Reads -/

/-- What reading chunks does to a receiving stream: the buffer moves only its read offset, within
the data held, and the flow controller releases window at both levels and keeps its sync. -/
structure Reads (buf buf' : Reassembler) (fc fc' : ReceiveStreamFlowController)
    (conn conn' : IncomingConnectionFlowController) : Prop where
  moves : ∃ c, Moves 0 c fc fc' conn conn'
  accounted : Accounted buf' fc'
  window : fc'.Inv
  connection : conn'.Inv
  finalOffset : buf'.finalOffset = buf.finalOffset
  totalReceivedLen : buf'.totalReceivedLen = buf.totalReceivedLen
  cancelled : fc'.readWindowSync.cancelled = fc.readWindowSync.cancelled

section Reads

variable {buf buf₁ buf' : Reassembler} {fc fc₁ fc' : ReceiveStreamFlowController}
  {conn₁ : IncomingConnectionFlowController}

theorem Reads.refl (hacc : Accounted buf fc) (hfc : fc.Inv) (hconn : conn.Inv) :
    Reads buf buf fc fc conn conn :=
  ⟨⟨0, moves_refl⟩, hacc, hfc, hconn, rfl, rfl, rfl⟩

theorem Reads.trans (h : Reads buf buf₁ fc fc₁ conn conn₁)
    (h' : Reads buf₁ buf' fc₁ fc' conn₁ conn') : Reads buf buf' fc fc' conn conn' := by
  obtain ⟨c, hm⟩ := h.moves
  obtain ⟨c', hm'⟩ := h'.moves
  exact ⟨⟨c + c', by simpa using hm.trans hm'⟩, h'.accounted, h'.window, h'.connection,
    h'.finalOffset.trans h.finalOffset, h'.totalReceivedLen.trans h.totalReceivedLen,
    h'.cancelled.trans h.cancelled⟩

theorem Reads.isWritingComplete (h : Reads buf buf' fc fc' conn conn') :
    buf'.isWritingComplete = buf.isWritingComplete := by
  unfold Reassembler.isWritingComplete Reassembler.finalSize
  rw [h.finalOffset, h.totalReceivedLen]

theorem Reads.isWritingComplete_of_done (h : Reads buf buf' fc fc' conn conn')
    (hacc : Accounted buf fc) (hdone : buf.finalSize = some buf'.consumedLen) :
    buf.isWritingComplete = true := by
  have hread := buf'.startOffset_le_totalReceivedLen
  have hrecv := hacc.wellFormed.totalReceivedLen_le
  have hfinal := hacc.wellFormed.final_le _ hdone
  rw [h.totalReceivedLen] at hread
  unfold Reassembler.consumedLen at hdone hfinal
  simp only [Reassembler.isWritingComplete, hdone, Option.some.injEq, decide_eq_true_eq]
  omega

theorem Synced.reads (hsync : s.Synced)
    (h : Reads s.receiveBuffer buf' s.flowController fc' conn conn') :
    Synced { s with receiveBuffer := buf', flowController := fc' } where
  readWindow hf := by
    show fc'.readWindowSync.cancelled = true
    rw [h.cancelled]
    exact hsync.readWindow (h.finalOffset ▸ hf)
  stopSending hc := hsync.stopSending (h.isWritingComplete ▸ hc)

end Reads

theorem popChunks_spec {buf : Reassembler} {fc : ReceiveStreamFlowController}
    (hacc : Accounted buf fc) (hfc : fc.Inv) (hconn : conn.Inv) (hroom : fc.Room conn)
    (highWatermark : Nat) (chunks : List Nat) (hchunks : ∀ x ∈ chunks, x = 0) :
    ∃ buf' fc' conn', popChunks buf fc conn highWatermark chunks = some (buf', fc', conn') ∧
      Reads buf buf' fc fc' conn conn' := by
  induction chunks generalizing buf fc conn highWatermark with
  | nil => exact ⟨buf, fc, conn, rfl, .refl hacc hfc hconn⟩
  | cons placeholder chunks ih =>
    rcases hpop : buf.popWatermarked highWatermark with _ | ⟨n, buf₁⟩
    · exact ⟨buf, fc, conn, by simp only [popChunks, hpop], .refl hacc hfc hconn⟩
    have hwf := hacc.wellFormed.popWatermarked hpop
    have htotal₁ := Reassembler.totalReceivedLen_popWatermarked hpop
    obtain ⟨-, hn, rfl⟩ := Reassembler.popWatermarked_eq_some hpop
    have htotal := hacc.wellFormed.totalReceivedLen_le
    have hstart := buf.startOffset_le_totalReceivedLen
    have hmaxRecv := hacc.maxRecv_le
    have hrel := hacc.released
    unfold Reassembler.len at hn
    have hmax : n ≤ maxVarintValue := by
      have := fc.acquiredConnectionWindow.le_max
      omega
    have hamount : fc.releasedConnectionWindow.val + (⟨n, hmax⟩ : VarInt).val ≤
        fc.acquiredConnectionWindow.val := by
      simp only
      omega
    obtain ⟨fc₁, conn₁, hrelease, hm, hfc₁, hconn₁, hcancel⟩ :=
      ReceiveStreamFlowController.releaseWindow_spec hfc hconn hroom hamount
    have hacc₁ : Accounted { buf with startOffset := buf.startOffset + n } fc₁ := by
      refine ⟨hwf, ?_, ?_, ?_⟩
      · rw [hm.released, hrel]
      · rw [hm.acquired]
        exact hmaxRecv
      · intro final hf
        rw [hm.acquired]
        exact hacc.final_le final hf
    have hreads₁ : Reads buf { buf with startOffset := buf.startOffset + n } fc fc₁ conn conn₁ :=
      ⟨⟨n, hm⟩, hacc₁, hfc₁, hconn₁, rfl, htotal₁, hcancel⟩
    obtain ⟨buf', fc', conn', h, hreads⟩ := ih hacc₁ hfc₁ hconn₁ (hm.room hroom hfc)
      (highWatermark - n) (fun x hx => hchunks x (List.mem_cons_of_mem _ hx))
    have hempty : placeholder = 0 := hchunks placeholder List.mem_cons_self
    refine ⟨buf', fc', conn', ?_, hreads₁.trans hreads⟩
    simp only [popChunks, hpop, VarInt.new_of_le hmax, Option.bind_eq_bind, Option.bind_some,
      hrelease, hempty, ne_eq, not_true_eq_false, if_false, h]

theorem pollRequest_spec (hs : s.Inv) (hconn : conn.Inv) (hroom : s.flowController.Room conn)
    (request : Request) :
    ∃ s' conn', s.pollRequest conn request = some (s', conn') ∧ Keeps s s' conn conn' := by
  by_cases hstop : request.stopSending
  · -- stopping changes only the state and drops the buffer
    cases hst : s.state with
    | reset | stopping | dataRead =>
      exact ⟨s, conn, by simp only [pollRequest, hstop, if_true, hst], keeps_refl hs hconn⟩
    | receiving =>
      simp only [pollRequest, hstop, if_true, hst]
      split_ifs
      · exact ⟨_, _, rfl, ⟨0, 0, moves_refl⟩, inv_of_ne_receiving hs.window (by simp), hconn⟩
      · exact ⟨_, _, rfl, ⟨0, 0, moves_refl⟩, inv_of_ne_receiving hs.window (by simp), hconn⟩
  cases hst : s.state with
  | reset | stopping | dataRead =>
    exact ⟨s, conn, by simp only [pollRequest, hstop, Bool.false_eq_true, if_false, hst],
      keeps_refl hs hconn⟩
  | receiving =>
    have hacc := hs.accounted hst
    have hsync := hs.synced hst
    by_cases hfull : min s.flowController.watermark request.lowWatermark ≤ s.receiveBuffer.len ∧
        request.chunks.any (· ≠ 0)
    · -- `non_empty_output`: placeholders that hold data are refused before any read
      exact ⟨s, conn, by simp only [pollRequest, hstop, Bool.false_eq_true, if_false, hst,
        if_pos hfull], keeps_refl hs hconn⟩
    obtain ⟨buf', fc', conn', hpop, hreads⟩ : ∃ buf' fc' conn',
        (if min s.flowController.watermark request.lowWatermark ≤ s.receiveBuffer.len then
          popChunks s.receiveBuffer s.flowController conn request.highWatermark request.chunks
        else some (s.receiveBuffer, s.flowController, conn)) = some (buf', fc', conn') ∧
        Reads s.receiveBuffer buf' s.flowController fc' conn conn' := by
      split_ifs with hready
      · refine popChunks_spec hacc hs.window hconn hroom _ _ fun x hx => ?_
        by_contra hne
        exact hfull ⟨hready, List.any_eq_true.mpr ⟨x, hx, by simpa using hne⟩⟩
      · exact ⟨_, _, _, rfl, .refl hacc hs.window hconn⟩
    obtain ⟨c, hm⟩ := hreads.moves
    simp only [pollRequest, hstop, Bool.false_eq_true, if_false, hst, if_neg hfull, hpop,
      Option.bind_some]
    split_ifs with hdone hcancelled
    · exact ⟨_, _, rfl, ⟨0, c, hm⟩, inv_of_ne_receiving hreads.window (by simp), hreads.connection⟩
    · -- the `debug_assert!`s: a final size known stopped `MAX_STREAM_DATA`, and all the data
      refine absurd ?_ hcancelled
      rw [Bool.and_eq_true, hreads.cancelled]
      exact ⟨hsync.stopSending (hreads.isWritingComplete_of_done hacc hdone),
        hsync.readWindow (by rw [show s.receiveBuffer.finalOffset = _ from hdone]; rfl)⟩
    · exact ⟨_, _, rfl, ⟨0, c, hm⟩,
        ⟨hreads.window, fun _ => hreads.accounted, fun _ => by
          have hsync' := hsync.reads hreads
          rw [hst] at hsync'
          exact hsync'⟩, hreads.connection⟩

end ReceiveStream

/-! ## The streams of a connection -/

section Receiver

variable {ι : Type} [DecidableEq ι]

/-- The receive side of a connection: its flow controller, and each stream's receive half. -/
structure Receiver (ι : Type) where
  connectionFlowController : IncomingConnectionFlowController
  streams : ι → ReceiveStream

namespace Receiver

open ReceiveStream

inductive Event (ι : Type)
  | stream (stream : ι) (frame : StreamFrame)
  | resetStream (stream : ι) (finalSize : VarInt)
  | internalReset (stream : ι)
  | pollRequest (stream : ι) (request : Request)

/-- The streams start as `ReceiveStream::new` with their desired windows, those created closed
fully read. -/
def new (desiredFlowControlWindow : UInt32) (streamWindow : ι → UInt32) (isClosed : ι → Bool) :
    Receiver ι :=
  ⟨.new desiredFlowControlWindow, fun i => .new (isClosed i) (streamWindow i)⟩

/-- Stream `i` and the connection after a call on the stream. -/
def update (self : Receiver ι) (i : ι) (r : ReceiveStream × IncomingConnectionFlowController) :
    Receiver ι :=
  ⟨r.2, Function.update self.streams i r.1⟩

def step (self : Receiver ι) : Event ι → Option (Receiver ι × Except TransportError Unit)
  | .stream i frame =>
    ((self.streams i).onData self.connectionFlowController frame).map fun r =>
      (self.update i r.1, r.2)
  | .resetStream i finalSize =>
    ((self.streams i).onReset self.connectionFlowController finalSize).map fun r =>
      (self.update i r.1, r.2)
  | .internalReset i =>
    ((self.streams i).onInternalReset self.connectionFlowController).map fun r =>
      (self.update i r, .ok ())
  | .pollRequest i request =>
    ((self.streams i).pollRequest self.connectionFlowController request).map fun r =>
      (self.update i r, .ok ())

def run (self : Receiver ι) : List (Event ι) → Option (Receiver ι)
  | [] => some self
  | e :: es => (self.step e).bind fun r => r.1.run es

/-- `MAX_DATA`, the connection's limit as synchronised to the peer. -/
def maxData (self : Receiver ι) : Nat :=
  self.connectionFlowController.readWindowSync.latestValue.val

/-- `MAX_STREAM_DATA` of stream `i`. -/
def maxStreamData (self : Receiver ι) (i : ι) : Nat :=
  (self.streams i).flowController.readWindowSync.latestValue.val

/-- How stream `i` judges a STREAM frame against the limits advertised before it. -/
structure StreamFrameSpec (w w' : Receiver ι) (i : ι) (frame : StreamFrame)
    (r : Except TransportError Unit) : Prop where
  /-- A stream reset, stopping or fully read ignores the frame, unchecked. -/
  ignored : (w.streams i).state ≠ .receiving → w' = w ∧ r = .ok ()
  /-- Data a receiving stream accepts ends within its `MAX_STREAM_DATA`. -/
  accepted : (w.streams i).state = .receiving → r = .ok () → frame.dataEnd ≤ w.maxStreamData i
  overflow : (w.streams i).state = .receiving → maxVarintValue < frame.dataEnd →
    ∃ e, r = .error e ∧ e.code = TransportError.FLOW_CONTROL_ERROR.code
  /-- Before the final size is known, data past `MAX_STREAM_DATA`, or needing more of
  `MAX_DATA` than is left, is a `FLOW_CONTROL_ERROR`. -/
  flowControl : (w.streams i).state = .receiving → (w.streams i).receiveBuffer.finalSize = none →
    ¬ (w.streams i).flowController.Fits w.connectionFlowController frame.dataEnd →
    ∃ e, r = .error e ∧ e.code = TransportError.FLOW_CONTROL_ERROR.code
  /-- Once it is known, data past the final size is a `FINAL_SIZE_ERROR`. -/
  finalSize : (w.streams i).state = .receiving → ∀ final,
    (w.streams i).receiveBuffer.finalSize = some final → final < frame.dataEnd →
    frame.dataEnd ≤ maxVarintValue →
    ∃ e, r = .error e ∧ e.code = TransportError.FINAL_SIZE_ERROR.code

/-- How stream `i` judges a RESET_STREAM frame with final size `size`. -/
structure ResetFrameSpec (w w' : Receiver ι) (i : ι) (size : VarInt)
    (r : Except TransportError Unit) : Prop where
  /-- A stream already reset or fully read ignores the frame, but stops STOP_SENDING. -/
  ignored : (w.streams i).state = .reset ∨ (w.streams i).state = .dataRead →
    w' = w.update i ({ w.streams i with stopSendingSyncCancelled := true },
      w.connectionFlowController) ∧ r = .ok ()
  /-- A receiving or stopping stream accepts only a final size within its `MAX_STREAM_DATA`. -/
  accepted : (w.streams i).state = .receiving ∨ (w.streams i).state = .stopping → r = .ok () →
    size.val ≤ w.maxStreamData i
  /-- While the final size is not known, one past either limit is a `FLOW_CONTROL_ERROR`. -/
  flowControl : (w.streams i).state = .stopping ∨
      (w.streams i).state = .receiving ∧ (w.streams i).receiveBuffer.finalSize = none →
    ¬ (w.streams i).flowController.Fits w.connectionFlowController size.val →
    ∃ e, r = .error e ∧ e.code = TransportError.FLOW_CONTROL_ERROR.code
  /-- Once it is known, another final size is a `FINAL_SIZE_ERROR`. -/
  finalSizeChanged : (w.streams i).state = .receiving → ∀ final,
    (w.streams i).receiveBuffer.finalSize = some final → size.val ≠ final →
    ∃ e, r = .error e ∧ e.code = TransportError.FINAL_SIZE_ERROR.code

theorem update_self (w : Receiver ι) (i : ι) :
    w.update i (w.streams i, w.connectionFlowController) = w := by
  simp [update]

variable [Fintype ι]

/-- The connection's window is the sum of the streams': what they acquired, and what they
released; and every controller keeps its own accounting. -/
structure Inv (w : Receiver ι) : Prop where
  connection : w.connectionFlowController.Inv
  acquired : w.connectionFlowController.acquiredWindow.val =
    ∑ i, (w.streams i).flowController.acquiredConnectionWindow.val
  consumed : w.connectionFlowController.consumedWindow.val =
    ∑ i, (w.streams i).flowController.releasedConnectionWindow.val
  streams : ∀ i, (w.streams i).Inv

omit [DecidableEq ι] in
theorem inv_new (desiredFlowControlWindow : UInt32) (streamWindow : ι → UInt32)
    (isClosed : ι → Bool) : (new desiredFlowControlWindow streamWindow isClosed).Inv where
  connection := IncomingConnectionFlowController.inv_new _
  acquired := by
    simp [new, IncomingConnectionFlowController.new, ReceiveStream.new,
      ReceiveStreamFlowController.new, ReceiveStreamFlowController.stopSync, apply_ite]
  consumed := by
    simp [new, IncomingConnectionFlowController.new, ReceiveStream.new,
      ReceiveStreamFlowController.new, ReceiveStreamFlowController.stopSync, apply_ite]
  streams _ := ReceiveStream.inv_new _ _

variable {w : Receiver ι}

theorem Inv.room (h : w.Inv) (i : ι) :
    (w.streams i).flowController.Room w.connectionFlowController := by
  intro x hx
  rw [h.consumed, h.acquired]
  exact Ledger.sum_add_le_sum (fun j => CreditWindow.released_le (h.streams j).window) hx

theorem Inv.update (h : w.Inv) {i : ι} {s' : ReceiveStream}
    {conn' : IncomingConnectionFlowController}
    (hk : Keeps (w.streams i) s' w.connectionFlowController conn') :
    (w.update i (s', conn')).Inv := by
  obtain ⟨a, c, hm⟩ := hk.moves
  refine ⟨hk.connection, ?_, ?_, fun j => ?_⟩
  · show conn'.acquiredWindow.val =
      ∑ j, (Function.update w.streams i s' j).flowController.acquiredConnectionWindow.val
    rw [Ledger.sum_update_of_add
      (g := fun s : ReceiveStream => s.flowController.acquiredConnectionWindow.val) hm.acquired,
      hm.connAcquired, h.acquired]
  · show conn'.consumedWindow.val =
      ∑ j, (Function.update w.streams i s' j).flowController.releasedConnectionWindow.val
    rw [Ledger.sum_update_of_add
      (g := fun s : ReceiveStream => s.flowController.releasedConnectionWindow.val) hm.released,
      hm.consumed, h.consumed]
  · by_cases hj : j = i
    · subst hj
      simpa [Receiver.update] using hk.stream
    · simpa [Receiver.update, hj] using h.streams j

theorem Inv.update_le (h : w.Inv) {i : ι} {s' : ReceiveStream}
    {conn' : IncomingConnectionFlowController}
    (hk : Keeps (w.streams i) s' w.connectionFlowController conn') :
    w.maxData ≤ (w.update i (s', conn')).maxData ∧
      ∀ j, w.maxStreamData j ≤ (w.update i (s', conn')).maxStreamData j := by
  obtain ⟨a, c, hm⟩ := hk.moves
  refine ⟨hm.connLatest_le h.connection hk.connection, fun j => ?_⟩
  by_cases hj : j = i
  · subst hj
    simpa [maxStreamData, Receiver.update] using hm.latest_le (h.streams j).window hk.stream.window
  · simp [maxStreamData, Receiver.update, hj]

theorem Inv.step (h : w.Inv) (e : Event ι) :
    ∃ w' r, w.step e = some (w', r) ∧ w'.Inv ∧
      w.maxData ≤ w'.maxData ∧ ∀ j, w.maxStreamData j ≤ w'.maxStreamData j := by
  cases e with
  | stream i frame =>
    obtain ⟨p, r, hp, hk⟩ := (w.streams i).onData_spec (h.streams i) h.connection frame
    exact ⟨w.update i p, r, by simp [Receiver.step, hp], h.update hk, h.update_le hk⟩
  | resetStream i finalSize =>
    obtain ⟨p, r, hp, hk⟩ :=
      (w.streams i).onReset_spec (h.streams i) h.connection (h.room i) finalSize
    exact ⟨w.update i p, r, by simp [Receiver.step, hp], h.update hk, h.update_le hk⟩
  | internalReset i =>
    obtain ⟨s', conn', hp, hk⟩ :=
      (w.streams i).onInternalReset_spec (h.streams i) h.connection (h.room i)
    exact ⟨w.update i (s', conn'), .ok (), by simp [Receiver.step, hp], h.update hk,
      h.update_le hk⟩
  | pollRequest i request =>
    obtain ⟨s', conn', hp, hk⟩ :=
      (w.streams i).pollRequest_spec (h.streams i) h.connection (h.room i) request
    exact ⟨w.update i (s', conn'), .ok (), by simp [Receiver.step, hp], h.update hk,
      h.update_le hk⟩

theorem Inv.run (h : w.Inv) (es : List (Event ι)) : ∃ w', w.run es = some w' ∧ w'.Inv := by
  induction es generalizing w with
  | nil => exact ⟨w, rfl, h⟩
  | cons e es ih =>
    obtain ⟨w₁, r, h₁, hinv₁, -⟩ := h.step e
    obtain ⟨w₂, h₂, hinv₂⟩ := ih hinv₁
    exact ⟨w₂, by simp [Receiver.run, h₁, h₂], hinv₂⟩

theorem Inv.streamFrameSpec (h : w.Inv) {i : ι} {frame : StreamFrame} {w' : Receiver ι}
    {r : Except TransportError Unit} (hstep : w.step (.stream i frame) = some (w', r)) :
    StreamFrameSpec w w' i frame r := by
  have hcall : ∀ {p r'}, (w.streams i).onData w.connectionFlowController frame = some (p, r') →
      r = r' ∧ w' = w.update i p := by
    intro p r' hp
    simp only [Receiver.step, hp, Option.map_some, Option.some.injEq, Prod.mk.injEq] at hstep
    exact ⟨hstep.2.symm, hstep.1.symm⟩
  have hs := h.streams i
  refine ⟨fun hne => ?_, fun hrecv hok => ?_, fun hrecv hmax => ?_, fun hrecv hnone hfits => ?_,
    fun hrecv final hfinal hlt hmax => ?_⟩
  · obtain ⟨hr, hw⟩ := hcall (onData_of_ne hne)
    exact ⟨hw.trans (update_self w i), hr⟩
  · obtain ⟨p, r', hp, -⟩ := (w.streams i).onData_spec hs h.connection frame
    obtain ⟨rfl, -⟩ := hcall hp
    rw [hok] at hp
    exact dataEnd_le_of_onData hs h.connection hrecv hp
  · obtain ⟨rfl, -⟩ := hcall (onData_of_max_lt hrecv hmax)
    exact ⟨_, rfl, rfl⟩
  · obtain ⟨p, e, hp, he⟩ := onData_of_not_fits hs h.connection hrecv hnone hfits
    obtain ⟨rfl, -⟩ := hcall hp
    exact ⟨e, rfl, he⟩
  · obtain ⟨p, hp⟩ := onData_of_final_lt w.connectionFlowController hrecv hfinal hlt
      hmax
    obtain ⟨rfl, -⟩ := hcall hp
    exact ⟨_, rfl, rfl⟩

theorem Inv.resetFrameSpec (h : w.Inv) {i : ι} {size : VarInt} {w' : Receiver ι}
    {r : Except TransportError Unit} (hstep : w.step (.resetStream i size) = some (w', r)) :
    ResetFrameSpec w w' i size r := by
  have hcall : ∀ {p r'}, (w.streams i).initReset w.connectionFlowController (some size)
      (some RESET_STREAM_TAG) = some (p, r') → r = r' := by
    intro p r' hp
    rcases r' with e | ⟨⟩
    all_goals
      simp only [Receiver.step, onReset, hp, Option.map_some, Option.some.injEq,
        Prod.mk.injEq] at hstep
      exact hstep.2.symm
  have hs := h.streams i
  refine ⟨fun hinact => ?_, fun hact hok => ?_, fun hact hfits => ?_,
    fun hrecv final hfinal hne => ?_⟩
  · simp only [Receiver.step, onReset, initReset_of_inactive hinact, Option.map_some,
      Option.some.injEq, Prod.mk.injEq] at hstep
    exact ⟨hstep.1.symm, hstep.2.symm⟩
  · obtain ⟨p, r', hp, -⟩ := (w.streams i).initReset_spec hs h.connection (h.room i) (some size)
      (some RESET_STREAM_TAG)
    obtain rfl := hcall hp
    rw [hok] at hp
    exact le_of_initReset hs h.connection hact hp
  · obtain ⟨p, e, hp, he⟩ := initReset_of_not_fits hs h.connection hact hfits (some RESET_STREAM_TAG)
    obtain rfl := hcall hp
    exact ⟨e, rfl, he⟩
  · obtain rfl := hcall (initReset_of_ne_final hrecv hfinal hne (some RESET_STREAM_TAG))
    exact ⟨_, rfl, rfl⟩

end Receiver

variable [Fintype ι]

theorem receive_flow_control_limits (desiredFlowControlWindow : UInt32)
    (streamWindow : ι → UInt32) (isClosed : ι → Bool) (events : List (Receiver.Event ι)) :
    ∃ w, (Receiver.new desiredFlowControlWindow streamWindow isClosed).run events = some w ∧
      w.connectionFlowController.consumedWindow.val ≤
        w.connectionFlowController.acquiredWindow.val ∧
      w.connectionFlowController.acquiredWindow.val ≤ w.maxData ∧
      (∀ i, (w.streams i).flowController.releasedConnectionWindow.val ≤
          (w.streams i).flowController.acquiredConnectionWindow.val ∧
        (w.streams i).flowController.acquiredConnectionWindow.val ≤ w.maxStreamData i) ∧
      (∀ i final, (w.streams i).state = .receiving →
        (w.streams i).receiveBuffer.finalSize = some final → final ≤ w.maxStreamData i) ∧
      ∀ e, ∃ w' r, w.step e = some (w', r) ∧
        w.maxData ≤ w'.maxData ∧ (∀ i, w.maxStreamData i ≤ w'.maxStreamData i) ∧
        (∀ i frame, e = .stream i frame → Receiver.StreamFrameSpec w w' i frame r) ∧
        (∀ i size, e = .resetStream i size → Receiver.ResetFrameSpec w w' i size r) := by
  obtain ⟨w, hrun, h⟩ := (Receiver.inv_new desiredFlowControlWindow streamWindow isClosed).run events
  have hconsumed : w.connectionFlowController.consumedWindow.val ≤
      w.connectionFlowController.acquiredWindow.val := by
    rw [h.consumed, h.acquired]
    exact Finset.sum_le_sum fun i _ => CreditWindow.released_le (h.streams i).window
  refine ⟨w, hrun, hconsumed, CreditWindow.acquired_le h.connection,
    fun i => ⟨CreditWindow.released_le (h.streams i).window,
      CreditWindow.acquired_le (h.streams i).window⟩,
    fun i final hrecv hfinal => ?_, fun e => ?_⟩
  · exact ((h.streams i).accounted hrecv).final_le final hfinal |>.trans
      (CreditWindow.acquired_le (h.streams i).window)
  · obtain ⟨w', r, hstep, -, hdata, hstream⟩ := h.step e
    refine ⟨w', r, hstep, hdata, hstream, ?_, ?_⟩
    · rintro i frame rfl
      exact h.streamFrameSpec hstep
    · rintro i size rfl
      exact h.resetFrameSpec hstep

end Receiver

/-- Once the final size is known, a STREAM frame past `MAX_STREAM_DATA` is refused with a
`FINAL_SIZE_ERROR`: a stream with a desired window of 150 receives a FIN at 100, then data up
to 200. -/
theorem final_size_error_past_max_stream_data :
    ∃ w, (Receiver.new 1000 (fun _ : Unit => 150) (fun _ => false)).run
        [.stream () ⟨⟨0, Nat.zero_le _⟩, 100, true, true⟩] = some w ∧
      w.maxStreamData () = 150 ∧
      150 < StreamFrame.dataEnd ⟨⟨0, Nat.zero_le _⟩, 200, true, false⟩ ∧
      ∃ w', w.step (.stream () ⟨⟨0, Nat.zero_le _⟩, 200, true, false⟩) =
        some (w', .error ((TransportError.FINAL_SIZE_ERROR.withReason
          "data reception error").withFrameType 0x08)) :=
  ⟨_, rfl, rfl, by decide, _, rfl⟩

end S2nQuic.Stream
