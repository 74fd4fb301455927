import S2nQuic.Stream.ReceiveFlowControl

/-!
# Final sizes on a receive stream

RFC 9000 section 4.5: once the final size of a stream is known it cannot change, and data at or
beyond it is a `FINAL_SIZE_ERROR`. `init_reset` compares the final size of a RESET_STREAM frame
only with a final size a FIN made known while the stream is `Receiving`. With no FIN yet, or once
the stream is `Stopping` and has dropped its receive buffer with the final size in it, the frame
only acquires flow control credit up to its final size: a final size below data already received
is accepted, and the stream is reset.
-/

namespace S2nQuic.Stream
open Varint Transport
open Buffer (Reassembler)

namespace ReceiveStream

variable {s : ReceiveStream} {conn : IncomingConnectionFlowController}

theorem state_of_enterReset {p : ReceiveStream × IncomingConnectionFlowController}
    (h : s.enterReset conn = some p) : p.1.state = .reset := by
  obtain ⟨r, -, h⟩ := Option.map_eq_some_iff.mp h
  cases h
  rfl

theorem fits_of_le_acquired (hfc : s.flowController.Inv) (hconn : conn.Inv) {offset : Nat}
    (h : offset ≤ s.flowController.acquiredConnectionWindow.val) :
    s.flowController.Fits conn offset := by
  have hacq := CreditWindow.acquired_le hfc
  have hconnAcq := CreditWindow.acquired_le hconn
  exact ⟨h.trans hacq, by omega⟩

theorem resetUpTo_of_fits (hs : s.Inv) (hconn : conn.Inv) (hroom : s.flowController.Room conn)
    {size : VarInt} (hfits : s.flowController.Fits conn size.val) (frameTag : Option UInt8) :
    ∃ p, s.resetUpTo conn (some size) frameTag = some (p, .ok ()) ∧ p.1.state = .reset := by
  obtain ⟨p, r, hp, -⟩ := resetUpTo_spec hs hconn hroom (some size) frameTag
  obtain ⟨r', hr, hcases⟩ :=
    s.flowController.acquireWindowUpTo_spec hs.window hconn size frameTag
  rcases hcases with ⟨fc', conn₁, rfl, -⟩ | ⟨e, rfl, hnot, -⟩
  · simp only [resetUpTo, hr, Option.bind_some] at hp
    obtain ⟨q, hq, -⟩ := Option.map_eq_some_iff.mp hp
    exact ⟨q, by simp only [resetUpTo, hr, Option.bind_some, hq, Option.map_some],
      state_of_enterReset hq⟩
  · exact absurd hfits hnot

theorem onReset_of_lt_maxRecvOffset (hs : s.Inv) (hconn : conn.Inv)
    (hroom : s.flowController.Room conn) (hrecv : s.state = .receiving)
    (hnone : s.receiveBuffer.finalSize = none) {finalSize : VarInt}
    (hlt : finalSize.val < s.receiveBuffer.maxRecvOffset) :
    ∃ p, s.onReset conn finalSize = some (p, .ok ()) ∧ p.1.state = .reset := by
  have hfits := fits_of_le_acquired hs.window hconn
    (hlt.le.trans (hs.accounted hrecv).maxRecv_le)
  obtain ⟨p, hp, hreset⟩ := resetUpTo_of_fits hs hconn hroom hfits (some RESET_STREAM_TAG)
  exact ⟨({ p.1 with stopSendingSyncCancelled := true }, p.2),
    by simp only [onReset, initReset, hrecv, hnone, hp, Option.map_some], hreset⟩

theorem onReset_of_stopping (hs : s.Inv) (hconn : conn.Inv) (hroom : s.flowController.Room conn)
    (hstop : s.state = .stopping) {finalSize : VarInt}
    (hfits : s.flowController.Fits conn finalSize.val) :
    ∃ p, s.onReset conn finalSize = some (p, .ok ()) ∧ p.1.state = .reset := by
  obtain ⟨p, hp, hreset⟩ := resetUpTo_of_fits hs hconn hroom hfits (some RESET_STREAM_TAG)
  exact ⟨({ p.1 with stopSendingSyncCancelled := true }, p.2),
    by simp only [onReset, initReset, hstop, hp, Option.map_some], hreset⟩

end ReceiveStream

namespace Receiver

variable {ι : Type} [DecidableEq ι] [Fintype ι]

/-- In every receiver a run reaches, a receiving stream with no final size yet accepts a
RESET_STREAM frame whose final size lies below data it received, and is reset. -/
theorem reset_below_received_accepted (desiredFlowControlWindow : UInt32)
    (streamWindow : ι → UInt32) (isClosed : ι → Bool) (events : List (Event ι)) {w : Receiver ι}
    (hrun : (Receiver.new desiredFlowControlWindow streamWindow isClosed).run events = some w)
    (i : ι) (hrecv : (w.streams i).state = .receiving)
    (hnone : (w.streams i).receiveBuffer.finalSize = none) {finalSize : VarInt}
    (hlt : finalSize.val < (w.streams i).receiveBuffer.maxRecvOffset) :
    ∃ w', w.step (.resetStream i finalSize) = some (w', .ok ()) ∧
      (w'.streams i).state = .reset := by
  obtain ⟨w₁, hrun₁, h⟩ := (inv_new desiredFlowControlWindow streamWindow isClosed).run events
  rw [hrun, Option.some.injEq] at hrun₁
  subst hrun₁
  obtain ⟨p, hp, hreset⟩ := ReceiveStream.onReset_of_lt_maxRecvOffset (h.streams i) h.connection
    (h.room i) hrecv hnone hlt
  exact ⟨w.update i p, by simp [step, hp], by simp [update, hreset]⟩

theorem reset_below_received_accepted_fifty :
    ∃ w, (Receiver.new 1000 (fun _ : Unit => 150) (fun _ => false)).run
        [.stream () ⟨⟨0, Nat.zero_le _⟩, 100, true, false⟩] = some w ∧
      (w.streams ()).state = .receiving ∧ (w.streams ()).receiveBuffer.finalSize = none ∧
      50 < (w.streams ()).receiveBuffer.maxRecvOffset ∧
      ∃ w', w.step (.resetStream () ⟨50, by decide⟩) = some (w', .ok ()) ∧
        (w'.streams ()).state = .reset :=
  ⟨_, rfl, rfl, rfl, by decide, reset_below_received_accepted 1000 (fun _ => 150) (fun _ => false)
    [.stream () ⟨⟨0, Nat.zero_le _⟩, 100, true, false⟩] rfl () rfl rfl (by decide)⟩

/-- In every receiver a run reaches, a stopping stream accepts a RESET_STREAM frame whose final
size fits its flow control windows, and is reset: STOP_SENDING dropped its receive buffer, so
neither the data it received nor the final size a FIN had made known is checked. -/
theorem stopping_reset_accepted (desiredFlowControlWindow : UInt32) (streamWindow : ι → UInt32)
    (isClosed : ι → Bool) (events : List (Event ι)) {w : Receiver ι}
    (hrun : (Receiver.new desiredFlowControlWindow streamWindow isClosed).run events = some w)
    (i : ι) (hstop : (w.streams i).state = .stopping) {finalSize : VarInt}
    (hfits : (w.streams i).flowController.Fits w.connectionFlowController finalSize.val) :
    ∃ w', w.step (.resetStream i finalSize) = some (w', .ok ()) ∧
      (w'.streams i).state = .reset := by
  obtain ⟨w₁, hrun₁, h⟩ := (inv_new desiredFlowControlWindow streamWindow isClosed).run events
  rw [hrun, Option.some.injEq] at hrun₁
  subst hrun₁
  obtain ⟨p, hp, hreset⟩ := ReceiveStream.onReset_of_stopping (h.streams i) h.connection
    (h.room i) hstop hfits
  exact ⟨w.update i p, by simp [step, hp], by simp [update, hreset]⟩

theorem stopping_reset_accepted_below_fin :
    ∃ w, (Receiver.new 1000 (fun _ : Unit => 150) (fun _ => false)).run
        [.stream () ⟨⟨50, by decide⟩, 50, true, true⟩, .pollRequest () ⟨true, [], 0, 0⟩] =
        some w ∧ (w.streams ()).state = .stopping ∧
      ∃ w', w.step (.resetStream () ⟨30, by decide⟩) = some (w', .ok ()) ∧
        (w'.streams ()).state = .reset :=
  ⟨_, rfl, rfl, stopping_reset_accepted 1000 (fun _ => 150) (fun _ => false)
    [.stream () ⟨⟨50, by decide⟩, 50, true, true⟩, .pollRequest () ⟨true, [], 0, 0⟩] rfl () rfl
    (by decide)⟩

end Receiver

end S2nQuic.Stream
