import S2nQuic.Sync.Spsc.State
import S2nQuic.Lib.Refinement

/-!
# The channel: a sender, a receiver and their slices

`sync/spsc.rs`, `send.rs` and `recv.rs`. `channel` hands out a `Sender` and a `Receiver` over one
`State`. A side acquires a slice of the ring (`SendSlice`, `RecvSlice`), writes or takes cells
through it, and publishes its moved index when the slice is dropped; a dropped side closes the
channel, and the second side to close drops what is left in it.

`Channel` holds the shared header, both cursors, the cursor each live slice was taken with, and
which sides are still held. Each public method is one step (`Channel.step`): the peer's atomics a
method loads each have one writer, and `open` only goes from `true` to `false`, so a run of steps
orders the calls by the instant each one reads the peer. `poll_slice` acquires as `try_slice` does,
once before and once after registering its waker, and is modelled by it. The values that enter
and leave the cells are part of each reply, so that a run says which values the channel carried.
-/

namespace S2nQuic.Sync.Spsc

inductive PushError (T : Type)
  | full (value : T)
  | closed
deriving DecidableEq, Repr

variable {T : Type}

/-- The loop of `SendSlice::extend`: the values written into the pair's cells from `index` on. -/
def Pair.writeFrom (p : Pair) (data : List (Option T)) (index : Nat) :
    List T → Option (List (Option T))
  | [] => some data
  | value :: values => (p.write data index value).bind fun data => p.writeFrom data (index + 1) values

/-! ## The sender -/

namespace SendSlice

/-- The write of `push` once there is room: the first unfilled cell takes the value, and `tail`
moves past it. -/
def writeFirst (self : State T) (value : T) : Option (State T) :=
  self.asPairs.bind fun pairs =>
    (pairs.2.write self.header.data 0 value).bind fun data =>
      (self.cursor.incrementTail 1).map fun cursor => ⟨{ self.header with data }, cursor⟩

/-- `SendSlice::push`: the receiver's `head` is reloaded only when the cached cursor is full. -/
def push (self : State T) (value : T) : Option (State T × Except (PushError T) Unit) :=
  self.cursor.isFull.bind fun isFull =>
    let acquired : Option (State T × Except ClosedError Bool) :=
      if isFull then self.acquireCapacity else some (self, .ok true)
    acquired.bind fun r =>
      match r.2 with
      | .error _ => some (r.1, .error .closed)
      | .ok false => some (r.1, .error (.full value))
      | .ok true => (writeFirst r.1 value).map fun s => (s, .ok ())

/-- `SendSlice::extend`: after one reload of `head`, as many values as the slice has capacity for
are written; the count taken from the iterator is handed back with the result. -/
def extend (self : State T) (values : List T) : Option (State T × Except ClosedError Unit × Nat) :=
  self.acquireCapacity.bind fun r =>
    match r.2 with
    | .error e => some (r.1, .error e, 0)
    | .ok false => some (r.1, .ok (), 0)
    | .ok true =>
      let self := r.1
      self.asPairs.bind fun pairs => self.cursor.sendCapacity.bind fun capacity =>
        let written := values.take capacity
        (pairs.2.writeFrom self.header.data 0 written).bind fun data =>
          (self.cursor.incrementTail written.length).map fun cursor =>
            (⟨{ self.header with data }, cursor⟩, .ok (), written.length)

/-- `SendSlice::sync`. -/
def sync (self : State T) : Option (State T × Except ClosedError Unit) :=
  self.acquireCapacity.map fun r => (r.1, r.2.map fun _ => ())

/-- `Drop for SendSlice`. -/
def drop (self : State T) (prev : Cursor) : State T := self.persistTail prev

end SendSlice

/-- `Sender::try_slice`: a slice, taken with the cursor after the reload, when there is room. -/
def Sender.trySlice (self : State T) : Option (State T × Except ClosedError (Option Cursor)) :=
  self.acquireCapacity.map fun r => (r.1, r.2.map fun free => if free then some r.1.cursor else none)

/-- `Drop for Sender`. -/
def Sender.drop (isZst : Bool) (self : State T) : Option (State T × Option (List T)) :=
  self.close isZst

/-! ## The receiver -/

namespace RecvSlice

/-- The take of `pop` once a cell is filled: the first filled cell gives up its value, and `head`
moves past it. -/
def takeFirst (self : State T) : Option (State T × T) :=
  self.asPairs.bind fun pairs =>
    (pairs.1.take self.header.data 0).bind fun r =>
      (self.cursor.incrementHead 1).map fun cursor => (⟨{ self.header with data := r.1 }, cursor⟩, r.2)

/-- `RecvSlice::peek`: reload `tail` whatever `acquire_filled` answers, and read the filled cells,
the head part and then the tail part. -/
def peek (self : State T) : Option (State T × List T) :=
  self.acquireFilled.bind fun r =>
    let self := r.1
    self.asPairs.bind fun pairs =>
      (Pair.readAll self.header.data pairs.1.indices).map fun values => (self, values)

/-- `RecvSlice::pop`: `tail` is reloaded only when the cached cursor is empty, and an error of
`acquire_filled` reads as empty. -/
def pop (self : State T) : Option (State T × Option T) :=
  self.cursor.isEmpty.bind fun isEmpty =>
    let acquired : Option (State T × Bool) :=
      if isEmpty then self.acquireFilled.map fun r => (r.1, r.2.toOption.getD false)
      else some (self, true)
    acquired.bind fun r =>
      if r.2 then (takeFirst r.1).map fun s => (s.1, some s.2) else some (r.1, none)

/-- `RecvSlice::clear`: every filled cell is taken, without reloading `tail`, and `head` moves past
them; the count is returned and the values are dropped, so both are handed back. -/
def clear (self : State T) : Option (State T × Nat × List T) :=
  self.asPairs.bind fun pairs =>
    (Pair.takeAll self.header.data pairs.1.indices).bind fun r =>
      (self.cursor.incrementHead pairs.1.len).map fun cursor =>
        (⟨{ self.header with data := r.1 }, cursor⟩, pairs.1.len, r.2)

/-- `RecvSlice::release`: the first `len` filled cells are taken and dropped. -/
def release (self : State T) (len : Nat) : Option (State T × List T) :=
  self.asPairs.bind fun pairs =>
    -- `debug_assert!(pair.len() >= len, "cannot release more than was acquired")`
    if len ≤ pairs.1.len then
      (Pair.takeAll self.header.data (pairs.1.indices.take len)).bind fun r =>
        (self.cursor.incrementHead len).map fun cursor =>
          (⟨{ self.header with data := r.1 }, cursor⟩, r.2)
    else none

/-- `RecvSlice::sync`. -/
def sync (self : State T) : Option (State T × Except ClosedError Unit) :=
  self.acquireFilled.map fun r => (r.1, r.2.map fun _ => ())

/-- `Drop for RecvSlice`. -/
def drop (self : State T) (prev : Cursor) : State T := self.persistHead prev

end RecvSlice

/-- `Receiver::try_slice`: a slice, taken with the cursor after the reload, when a cell is
filled. -/
def Receiver.trySlice (self : State T) : Option (State T × Except ClosedError (Option Cursor)) :=
  self.acquireFilled.map fun r => (r.1, r.2.map fun ready => if ready then some r.1.cursor else none)

/-- `Drop for Receiver`. -/
def Receiver.drop (isZst : Bool) (self : State T) : Option (State T × Option (List T)) :=
  self.close isZst

/-! ## Both sides -/

/-- The shared header, each side's cursor, the cursor each live slice was taken with, and whether
each side is still held. -/
structure Channel (T : Type) where
  header : Header T
  sender : Cursor
  receiver : Cursor
  sendSlice : Option Cursor
  recvSlice : Option Cursor
  senderLive : Bool
  receiverLive : Bool

/-- `channel`: both sides over one new state. -/
def channel (isZst : Bool) (capacity : Nat) : Option (Channel T) :=
  (State.new isZst capacity).map fun state =>
    ⟨state.header, state.cursor, state.cursor, none, none, true, true⟩

/-- The public methods of both sides. -/
inductive Call (T : Type)
  | senderSlice
  | senderTrySlice
  | push (value : T)
  | extend (values : List T)
  | sendSync
  | dropSendSlice
  | dropSender
  | receiverSlice
  | receiverTrySlice
  | peek
  | pop
  | clear
  | release (len : Nat)
  | recvSync
  | dropRecvSlice
  | dropReceiver

/-- What a call returns, with the values it moves into or out of the cells. -/
inductive Reply (T : Type)
  /-- `slice` and `try_slice`: whether a slice was taken. -/
  | slice (result : Except ClosedError Bool)
  | push (value : T) (result : Except (PushError T) Unit)
  /-- `extend`: the values taken from the iterator and written. -/
  | extend (written : List T) (result : Except ClosedError Unit)
  | sync (result : Except ClosedError Unit)
  | peek (values : List T)
  | pop (value : Option T)
  /-- `clear` and `release`: the values taken from the cells and dropped. -/
  | clear (taken : List T)
  | release (taken : List T)
  /-- The drop of a slice or of a side: what the last side to close dropped from the cells. -/
  | drop (dropped : Option (List T))

namespace Reply

def sent : Reply T → List T
  | .push value (.ok _) => [value]
  | .extend written _ => written
  | _ => []

def taken : Reply T → List T
  | .pop (some value) => [value]
  | .clear taken | .release taken => taken
  | .drop (some dropped) => dropped
  | _ => []

/-- Whether the call ran `drop_contents`. -/
def dropsContents : Reply T → Bool
  | .drop (some _) => true
  | _ => false

end Reply

namespace Channel

def senderState (c : Channel T) : State T := ⟨c.header, c.sender⟩

def receiverState (c : Channel T) : State T := ⟨c.header, c.receiver⟩

def setSender (c : Channel T) (s : State T) : Channel T :=
  { c with header := s.header, sender := s.cursor }

def setReceiver (c : Channel T) (s : State T) : Channel T :=
  { c with header := s.header, receiver := s.cursor }

/-- One call; `none` where the source panics or has undefined behaviour, and for a slice call
without a slice, which the borrows of the source rule out. -/
def step (isZst : Bool) (c : Channel T) : Call T → Option (Channel T × Reply T)
  | .senderSlice => some ({ c with sendSlice := some c.sender }, .slice (.ok true))
  | .senderTrySlice => (Sender.trySlice c.senderState).map fun r =>
    ({ c.setSender r.1 with sendSlice := r.2.toOption.join }, .slice (r.2.map Option.isSome))
  | .push value => (SendSlice.push c.senderState value).map fun r =>
    (c.setSender r.1, .push value r.2)
  | .extend values => (SendSlice.extend c.senderState values).map fun r =>
    (c.setSender r.1, .extend (values.take r.2.2) r.2.1)
  | .sendSync => (SendSlice.sync c.senderState).map fun r => (c.setSender r.1, .sync r.2)
  | .dropSendSlice => c.sendSlice.map fun prev =>
    ({ c.setSender (SendSlice.drop c.senderState prev) with sendSlice := none }, .drop none)
  | .dropSender => (Sender.drop isZst c.senderState).map fun r =>
    ({ c.setSender r.1 with senderLive := false }, .drop r.2)
  | .receiverSlice => some ({ c with recvSlice := some c.receiver }, .slice (.ok true))
  | .receiverTrySlice => (Receiver.trySlice c.receiverState).map fun r =>
    ({ c.setReceiver r.1 with recvSlice := r.2.toOption.join }, .slice (r.2.map Option.isSome))
  | .peek => (RecvSlice.peek c.receiverState).map fun r => (c.setReceiver r.1, .peek r.2)
  | .pop => (RecvSlice.pop c.receiverState).map fun r => (c.setReceiver r.1, .pop r.2)
  | .clear => (RecvSlice.clear c.receiverState).map fun r => (c.setReceiver r.1, .clear r.2.2)
  | .release len => (RecvSlice.release c.receiverState len).map fun r =>
    (c.setReceiver r.1, .release r.2)
  | .recvSync => (RecvSlice.sync c.receiverState).map fun r => (c.setReceiver r.1, .sync r.2)
  | .dropRecvSlice => c.recvSlice.map fun prev =>
    ({ c.setReceiver (RecvSlice.drop c.receiverState prev) with recvSlice := none }, .drop none)
  | .dropReceiver => (Receiver.drop isZst c.receiverState).map fun r =>
    ({ c.setReceiver r.1 with receiverLive := false }, .drop r.2)

/-- What the borrows of the source allow: a slice is taken only from a held side with no live
slice, slice calls need the slice, a side is dropped after its slice, and `release` takes no more
than the slice holds (its `debug_assert!`). -/
def allowed (c : Channel T) : Call T → Bool
  | .senderSlice | .senderTrySlice | .dropSender => c.senderLive && c.sendSlice.isNone
  | .push _ | .extend _ | .sendSync | .dropSendSlice => c.sendSlice.isSome
  | .receiverSlice | .receiverTrySlice | .dropReceiver => c.receiverLive && c.recvSlice.isNone
  | .peek | .pop | .clear | .recvSync | .dropRecvSlice => c.recvSlice.isSome
  | .release len => c.recvSlice.isSome && c.receiver.recvLen.any (len ≤ ·)

def run (isZst : Bool) (c : Channel T) (calls : List (Call T)) :
    Option (Channel T × List (Reply T)) :=
  Refinement.run (fun c call => (c.step isZst call).map fun r => (r.1, [r.2])) c calls

def admits (isZst : Bool) (c : Channel T) (calls : List (Call T)) : Bool :=
  Refinement.Admits allowed (fun c call => (c.step isZst call).map fun r => (r.1, [r.2])) c calls

end Channel

def sentValues (out : List (Reply T)) : List T := out.flatMap Reply.sent

def takenValues (out : List (Reply T)) : List T := out.flatMap Reply.taken

end S2nQuic.Sync.Spsc
