import S2nQuic.Sync.Spsc.Invariant

/-!
# Every call, and every run

Each call the borrows of the source allow on a live channel succeeds, and leaves a live channel
whose counters have moved by exactly the values its reply sent and took (`Moves`). Dropping the
last side ends the run: `drop_contents` takes every value left in the cells. `Good` is what holds
after any run of allowed calls from `channel`: either a live channel whose values sent and taken
are those the replies moved, or a closed one whose replies took every value sent, in order,
zero-sized values apart: `drop_contents` skips those, so a zero-sized value sent and never received
is never dropped.
-/

namespace S2nQuic.Sync.Spsc

open Ring

variable {T : Type}

/-- A call from a live channel succeeds, and leaves a live channel whose counters have moved by
the values its reply sent and took. -/
def Moves (isZst : Bool) (cap : Nat) (c : Channel T) (g : Counters T) (call : Call T) : Prop :=
  ∃ c' r, c.step isZst call = some (c', r) ∧ ∃ g', Live cap c' g' ∧
    g'.pushed = g.pushed ++ r.sent ∧ g'.received = g.received ++ r.taken

variable {isZst : Bool} {cap : Nat} {c c' : Channel T} {g g' : Counters T} {call : Call T}
  {r : Reply T}

theorem Moves.sending (hstep : c.step isZst call = some (c', r)) (h' : Live cap c' g')
    (hp : g'.pushed = g.pushed ++ r.sent) (ht : r.taken = []) (hq : g'.received = g.received) :
    Moves isZst cap c g call :=
  ⟨c', r, hstep, g', h', hp, by rw [ht, List.append_nil, hq]⟩

theorem Moves.taking (hstep : c.step isZst call = some (c', r)) (h' : Live cap c' g')
    (hs : r.sent = []) (hp : g'.pushed = g.pushed) (hq : g'.received = g.received ++ r.taken) :
    Moves isZst cap c g call :=
  ⟨c', r, hstep, g', h', by rw [hs, List.append_nil, hp], hq⟩

theorem Moves.quiet (hstep : c.step isZst call = some (c', r)) (h' : Live cap c' g')
    (hs : r.sent = []) (ht : r.taken = []) (hp : g'.pushed = g.pushed)
    (hq : g'.received = g.received) : Moves isZst cap c g call :=
  ⟨c', r, hstep, g', h', by rw [hs, List.append_nil, hp], by rw [ht, List.append_nil, hq]⟩

theorem Channel.step_dropSendSlice {prev : Cursor} (hprev : c.sendSlice = some prev) :
    c.step isZst .dropSendSlice =
      some ({ c.setSender (SendSlice.drop c.senderState prev) with sendSlice := none }, .drop none) := by
  simp only [Channel.step, hprev, Option.map_some]

namespace Live

variable (h : Live cap c g)
include h

theorem received_append (vs : List T) : (g.pushed ++ vs).take g.receiverHead = g.received :=
  List.take_append_of_le_length h.receiverHead_le_pushed

/-! ## The sender's calls -/

theorem moves_senderSlice (hlive : c.senderLive = true) (hnone : c.sendSlice = none) :
    Moves isZst cap c g .senderSlice :=
  Moves.quiet rfl (h.withSendSlice hlive hnone rfl) rfl rfl rfl rfl

theorem moves_senderTrySlice (hlive : c.senderLive = true) (hnone : c.sendSlice = none) :
    Moves isZst cap c g .senderTrySlice := by
  cases ho : c.header.open
  · have hstep : c.step isZst .senderTrySlice =
        some ({ c with sendSlice := none }, .slice (.error ⟨⟩)) := by
      simp only [Channel.step, Sender.trySlice, State.acquireCapacity_of_closed (s := c.senderState) ho,
        Option.map_some]
      rfl
    exact Moves.quiet hstep (h.noSendSlice hnone) rfl rfl rfl rfl
  · have hl := h.loadHead_valid
    by_cases hfull : g.pushed.length + 1 = g.sharedHead + cap
    · have hstep : c.step isZst .senderTrySlice =
          some ({ c.setSender c.senderState.loadHead with sendSlice := none }, .slice (.ok false)) := by
        simp only [Channel.step, Sender.trySlice, State.acquireCapacity_of_open ho hl,
          Option.map_some, decide_eq_true (h.loadHead_full_iff.mpr hfull)]
        rfl
      exact Moves.quiet hstep (h.loadHead.noSendSlice hnone) rfl rfl rfl rfl
    · have hstep : c.step isZst .senderTrySlice =
          some ({ c.setSender c.senderState.loadHead with
            sendSlice := some c.senderState.loadHead.cursor }, .slice (.ok true)) := by
        simp only [Channel.step, Sender.trySlice, State.acquireCapacity_of_open ho hl,
          Option.map_some, decide_eq_false (h.loadHead_full_iff.not.mpr hfull)]
        rfl
      exact Moves.quiet hstep (h.loadHead.withSendSlice hlive hnone rfl) rfl rfl rfl rfl

theorem push_of_free (isZst : Bool) (hs : c.sendSlice.isSome) (hfree : g.pushed.length + 1 < g.senderHead + cap)
    (v : T) : ∃ s', c.step isZst (.push v) = some (c.setSender s', .push v (.ok ())) ∧
      Live cap (c.setSender s') { g with pushed := g.pushed ++ [v] } := by
  obtain ⟨s', hw, h'⟩ := h.writeFirst hs hfree v
  refine ⟨s', ?_, h'⟩
  simp only [Channel.step, SendSlice.push_of_free h.sender_valid
    (h.sender_full_iff.not.mpr hfree.ne), hw, Option.map_some]

theorem moves_push (hs : c.sendSlice.isSome) (v : T) : Moves isZst cap c g (.push v) := by
  have hv : c.senderState.cursor.Valid := h.sender_valid
  by_cases hfull : g.pushed.length + 1 = g.senderHead + cap
  · have hf := h.sender_full_iff.mpr hfull
    cases ho : c.header.open
    · have hstep : c.step isZst (.push v) = some (c, .push v (.error .closed)) := by
        simp only [Channel.step, SendSlice.push_of_closed hv hf ho, Option.map_some]
        rfl
      exact Moves.quiet hstep h rfl rfl rfl rfl
    · have hl := h.loadHead_valid
      by_cases hfull' : g.pushed.length + 1 = g.sharedHead + cap
      · -- still full after the reload
        have hstep : c.step isZst (.push v) =
            some (c.setSender c.senderState.loadHead, .push v (.error (.full v))) := by
          simp only [Channel.step, SendSlice.push_of_open hv hf ho hl,
            if_pos (h.loadHead_full_iff.mpr hfull'), Option.map_some]
        exact Moves.quiet hstep h.loadHead rfl rfl rfl rfl
      · -- the reload freed a cell
        have hfree : g.pushed.length + 1 < g.sharedHead + cap := by
          have := h.loadHead.pushed_lt
          exact lt_of_le_of_ne this hfull'
        obtain ⟨s', hw, h'⟩ := h.loadHead.writeFirst hs hfree v
        have hw' : SendSlice.writeFirst c.senderState.loadHead v = some s' := hw
        refine Moves.sending (r := .push v (.ok ())) ?_ h' rfl rfl (h.received_append [v])
        simp only [Channel.step, SendSlice.push_of_open hv hf ho hl,
          if_neg (h.loadHead_full_iff.not.mpr hfull'), hw', Option.map_some]
        rfl
  · obtain ⟨s', hstep, h'⟩ := h.push_of_free isZst hs (lt_of_le_of_ne h.pushed_lt hfull) v
    exact Moves.sending hstep h' rfl rfl (h.received_append [v])

theorem moves_extend (hs : c.sendSlice.isSome) (values : List T) :
    Moves isZst cap c g (.extend values) := by
  cases ho : c.header.open
  · have hstep : c.step isZst (.extend values) =
        some (c, .extend (values.take 0) (.error ⟨⟩)) := by
      simp only [Channel.step, SendSlice.extend_of_closed (s := c.senderState) ho, Option.map_some]
      rfl
    exact Moves.quiet hstep h rfl rfl rfl rfl
  · have hl := h.loadHead_valid
    by_cases hfull : g.pushed.length + 1 = g.sharedHead + cap
    · have hstep : c.step isZst (.extend values) =
          some (c.setSender c.senderState.loadHead, .extend (values.take 0) (.ok ())) := by
        simp only [Channel.step, SendSlice.extend_of_full ho hl (h.loadHead_full_iff.mpr hfull),
          Option.map_some]
      exact Moves.quiet hstep h.loadHead rfl rfl rfl rfl
    · obtain ⟨unfilled, hcell, hext⟩ := SendSlice.extend_of_free ho hl h.data_length_eq
        (h.loadHead_full_iff.not.mpr hfull) values
      have hcap : c.senderState.cursor.capacity = cap := h.sender_capacity
      rw [h.loadHead_filled] at hcell hext
      have := h.shared_head_le
      have := h.receiverHead_le_pushed
      have : g.pushed.length < g.sharedHead + cap := h.loadHead.pushed_lt
      have hlen : (values.take (c.senderState.cursor.capacity - 1 -
          (g.pushed.length - g.sharedHead))).length ≤
          c.senderState.cursor.capacity - 1 - (g.pushed.length - g.sharedHead) := by
        rw [List.length_take]
        exact min_le_left _ _
      obtain ⟨l, hw, hl', hdata⟩ := h.loadHead.writeFrom (p := unfilled)
        (show g.pushed.length + (values.take (c.senderState.cursor.capacity - 1 -
          (g.pushed.length - g.sharedHead))).length < g.receiverHead + cap by omega)
        (fun i hi => hcell i (by omega))
      refine Moves.sending (r := .extend (values.take (values.take (c.senderState.cursor.capacity - 1 -
          (g.pushed.length - g.sharedHead))).length) (.ok ())) ?_ (h.loadHead.write hs (show g.pushed.length +
          (values.take (c.senderState.cursor.capacity - 1 -
            (g.pushed.length - g.sharedHead))).length < g.sharedHead + cap by omega) hl' hdata)
        ?_ rfl (h.received_append _)
      · have hw' : unfilled.writeFrom c.senderState.header.data 0 (values.take
            (c.senderState.cursor.capacity - 1 - (g.pushed.length - g.sharedHead))) = some l := hw
        simp only [Channel.step, hext]
        rw [hw', Option.map_some, Option.map_some]
        rfl
      · show g.pushed ++ _ = g.pushed ++ values.take _
        rw [List.length_take, min_comm, take_min_length]

theorem moves_sendSync : Moves isZst cap c g .sendSync := by
  cases ho : c.header.open
  · have hstep : c.step isZst .sendSync = some (c, .sync (.error ⟨⟩)) := by
      simp only [Channel.step, SendSlice.sync, State.acquireCapacity_of_closed (s := c.senderState) ho, Option.map_some]
      rfl
    exact Moves.quiet hstep h rfl rfl rfl rfl
  · have hstep : c.step isZst .sendSync = some (c.setSender c.senderState.loadHead, .sync (.ok ())) := by
      simp only [Channel.step, SendSlice.sync, State.acquireCapacity_of_open ho h.loadHead_valid,
        Option.map_some]
      rfl
    exact Moves.quiet hstep h.loadHead rfl rfl rfl rfl

theorem moves_dropSendSlice {prev : Cursor} (hprev : c.sendSlice = some prev) :
    Moves isZst cap c g .dropSendSlice :=
  Moves.quiet (Channel.step_dropSendSlice hprev) (h.dropSendSlice hprev) rfl rfl rfl rfl

/-! ## The receiver's calls -/

theorem moves_receiverSlice (hlive : c.receiverLive = true) (hnone : c.recvSlice = none) :
    Moves isZst cap c g .receiverSlice :=
  Moves.quiet rfl (h.withRecvSlice hlive hnone rfl) rfl rfl rfl rfl

theorem moves_receiverTrySlice (hlive : c.receiverLive = true) (hnone : c.recvSlice = none) :
    Moves isZst cap c g .receiverTrySlice := by
  have hl := h.loadTail_valid
  by_cases he : g.sharedTail = g.receiverHead
  · cases ho : c.header.open
    · have ho' : c.receiverState.header.open = false := ho
      have hstep : c.step isZst .receiverTrySlice =
          some ({ c.setReceiver c.receiverState.loadTail with recvSlice := none },
            .slice (.error ⟨⟩)) := by
        simp only [Channel.step, Receiver.trySlice, State.acquireFilled_eq hl,
          if_pos (h.loadTail_empty_iff.mpr he), ho', Option.map_some]
        rfl
      exact Moves.quiet hstep (h.loadTail.noRecvSlice hnone) rfl rfl rfl rfl
    · have ho' : c.receiverState.header.open = true := ho
      have hstep : c.step isZst .receiverTrySlice =
          some ({ c.setReceiver c.receiverState.loadTail with recvSlice := none },
            .slice (.ok false)) := by
        simp only [Channel.step, Receiver.trySlice, State.acquireFilled_eq hl,
          if_pos (h.loadTail_empty_iff.mpr he), ho', Option.map_some]
        rfl
      exact Moves.quiet hstep (h.loadTail.noRecvSlice hnone) rfl rfl rfl rfl
  · have hstep : c.step isZst .receiverTrySlice =
        some ({ c.setReceiver c.receiverState.loadTail with
          recvSlice := some c.receiverState.loadTail.cursor }, .slice (.ok true)) := by
      simp only [Channel.step, Receiver.trySlice, State.acquireFilled_eq hl,
        if_neg (h.loadTail_empty_iff.not.mpr he), Option.map_some]
      rfl
    exact Moves.quiet hstep (h.loadTail.withRecvSlice hlive hnone rfl) rfl rfl rfl rfl

theorem moves_peek : Moves isZst cap c g .peek := by
  have hl := h.loadTail_valid
  have := h.receiver_head_le; have := h.receiver_tail_le; have := h.shared_tail_le
  have hread := Pair.readAll_holds (h.cells_mod h.receiver_head)
    (n := g.sharedTail - g.receiverHead) (by simp; omega)
  rw [h.data_length] at hread
  have hstep : c.step isZst .peek = some (c.setReceiver c.receiverState.loadTail,
      .peek ((g.pushed.drop g.receiverHead).take (g.sharedTail - g.receiverHead))) := by
    simp only [Channel.step, RecvSlice.peek_eq hl h.data_length_receiver, h.loadTail_filled]
    rw [show c.receiverState.cursor.capacity = cap from h.receiver_capacity]
    rw [show c.receiverState.cursor.head = c.receiver.head from rfl,
      show c.receiverState.header.data = c.header.data from rfl, hread, Option.map_some,
      Option.map_some]
  exact Moves.quiet hstep h.loadTail rfl rfl rfl rfl

theorem moves_pop (hr : c.recvSlice.isSome) : Moves isZst cap c g .pop := by
  have hv : c.receiverState.cursor.Valid := h.receiver_valid
  have := h.receiver_head_le
  by_cases he : g.receiverTail = g.receiverHead
  · have hl := h.loadTail_valid
    have hempty := h.receiver_empty_iff.mpr he
    by_cases he' : g.sharedTail = g.receiverHead
    · have hstep : c.step isZst .pop = some (c.setReceiver c.receiverState.loadTail, .pop none) := by
        simp only [Channel.step, RecvSlice.pop_of_empty hv hempty hl,
          if_pos (h.loadTail_empty_iff.mpr he'), Option.map_some]
      exact Moves.quiet hstep h.loadTail rfl rfl rfl rfl
    · obtain ⟨s', x, ht, hx, h'⟩ := h.loadTail.takeOne hr (by
        have := h.receiver_tail_le
        show g.receiverHead < g.sharedTail
        omega)
      have ht' : RecvSlice.takeFirst c.receiverState.loadTail = some (s', x) := ht
      refine Moves.taking (r := .pop (some x)) ?_ h' rfl rfl ?_
      · simp only [Channel.step, RecvSlice.pop_of_empty hv hempty hl,
          if_neg (h.loadTail_empty_iff.not.mpr he'), ht', Option.map_some]
        rfl
      · show g.pushed.take (g.receiverHead + 1) = g.received ++ [x]
        rw [List.take_add_one, hx]
        rfl
  · obtain ⟨s', x, ht, hx, h'⟩ := h.takeOne hr (by omega)
    refine Moves.taking (r := .pop (some x)) ?_ h' rfl rfl ?_
    · simp only [Channel.step, RecvSlice.pop_of_ready hv (h.receiver_empty_iff.not.mpr he), ht,
        Option.map_some]
    · show g.pushed.take (g.receiverHead + 1) = g.received ++ [x]
      rw [List.take_add_one, hx]
      rfl

theorem takeFront (hr : c.recvSlice.isSome) {n : Nat}
    (hn : g.receiverHead + n ≤ g.receiverTail) :
    ∃ l, Pair.takeAll c.header.data ((List.range n).map
        fun i => (c.receiver.head + i) % c.receiver.capacity) =
        some (l, (g.pushed.drop g.receiverHead).take n) ∧
      Live cap (c.setReceiver ⟨{ c.header with data := l },
        { c.receiver with head := (c.receiver.head + n) % c.receiver.capacity }⟩)
        { g with receiverHead := g.receiverHead + n } := by
  have := h.receiver_tail_le; have := h.shared_tail_le
  obtain ⟨l, hall, hlen, hdata⟩ := h.takeAll h.receiver_head (n := n) (by omega)
  rw [← h.receiver_capacity] at hall
  exact ⟨l, hall, h.take hr hn hlen hdata⟩

theorem moves_clear (hr : c.recvSlice.isSome) : Moves isZst cap c g .clear := by
  obtain ⟨l, hall, h'⟩ := h.takeFront hr (n := g.receiverTail - g.receiverHead)
    (by have := h.receiver_head_le; omega)
  refine Moves.taking (r := .clear ((g.pushed.drop g.receiverHead).take
    (g.receiverTail - g.receiverHead))) ?_ h' rfl rfl List.take_add
  simp only [Channel.step,
    RecvSlice.clear_eq (s := c.receiverState) h.receiver_valid h.data_length_receiver]
  rw [show c.receiverState.cursor.filled = g.receiverTail - g.receiverHead from h.receiver_filled,
    show c.receiverState.cursor = c.receiver from rfl,
    show c.receiverState.header.data = c.header.data from rfl, hall, Option.map_some,
    Option.map_some]
  rfl

theorem moves_release (hr : c.recvSlice.isSome) {len : Nat}
    (hlen : len ≤ g.receiverTail - g.receiverHead) : Moves isZst cap c g (.release len) := by
  have := h.receiver_head_le
  obtain ⟨l, hall, h'⟩ := h.takeFront hr (n := len) (by omega)
  refine Moves.taking (r := .release ((g.pushed.drop g.receiverHead).take len)) ?_ h' rfl rfl
    List.take_add
  have hlen' : len ≤ c.receiverState.cursor.filled := by
    rw [show c.receiverState.cursor.filled = _ from h.receiver_filled]
    exact hlen
  simp only [Channel.step,
    RecvSlice.release_eq (s := c.receiverState) h.receiver_valid h.data_length_receiver hlen']
  rw [show c.receiverState.cursor = c.receiver from rfl,
    show c.receiverState.header.data = c.header.data from rfl, hall, Option.map_some,
    Option.map_some]
  rfl

theorem moves_recvSync : Moves isZst cap c g .recvSync := by
  obtain ⟨x, hx⟩ : ∃ x, c.receiverState.acquireFilled = some (c.receiverState.loadTail, x) :=
    ⟨_, State.acquireFilled_eq h.loadTail_valid⟩
  have hstep : c.step isZst .recvSync =
      some (c.setReceiver c.receiverState.loadTail, .sync (x.map fun _ => ())) := by
    simp only [Channel.step, RecvSlice.sync, hx, Option.map_some]
  exact Moves.quiet hstep h.loadTail rfl rfl rfl rfl

theorem moves_dropRecvSlice {prev : Cursor} (hprev : c.recvSlice = some prev) :
    Moves isZst cap c g .dropRecvSlice :=
  Moves.quiet (r := .drop none) (by simp only [Channel.step, hprev, Option.map_some])
    (h.dropRecvSlice hprev)
    rfl rfl rfl rfl

theorem moves_of_allowed (hc : c.allowed call = true) (hs : call ≠ .dropSender)
    (hr : call ≠ .dropReceiver) : Moves isZst cap c g call := by
  cases call with
  | senderSlice =>
    simp only [Channel.allowed, Bool.and_eq_true, Option.isNone_iff_eq_none] at hc
    exact h.moves_senderSlice hc.1 hc.2
  | senderTrySlice =>
    simp only [Channel.allowed, Bool.and_eq_true, Option.isNone_iff_eq_none] at hc
    exact h.moves_senderTrySlice hc.1 hc.2
  | push v => exact h.moves_push hc v
  | extend values => exact h.moves_extend hc values
  | sendSync => exact h.moves_sendSync
  | dropSendSlice =>
    obtain ⟨prev, hprev⟩ := Option.isSome_iff_exists.mp hc
    exact h.moves_dropSendSlice hprev
  | dropSender => exact absurd rfl hs
  | receiverSlice =>
    simp only [Channel.allowed, Bool.and_eq_true, Option.isNone_iff_eq_none] at hc
    exact h.moves_receiverSlice hc.1 hc.2
  | receiverTrySlice =>
    simp only [Channel.allowed, Bool.and_eq_true, Option.isNone_iff_eq_none] at hc
    exact h.moves_receiverTrySlice hc.1 hc.2
  | peek => exact h.moves_peek
  | pop => exact h.moves_pop hc
  | clear => exact h.moves_clear hc
  | release len =>
    -- `release`'s `debug_assert!`: no more than the cursor shows
    simp only [Channel.allowed, Bool.and_eq_true] at hc
    obtain ⟨hslice, hlen⟩ := hc
    rw [h.receiver_valid.recvLen_eq, Option.any_some, decide_eq_true_eq] at hlen
    exact h.moves_release hslice (by rw [← h.receiver_filled]; exact hlen)
  | recvSync => exact h.moves_recvSync
  | dropRecvSlice =>
    obtain ⟨prev, hprev⟩ := Option.isSome_iff_exists.mp hc
    exact h.moves_dropRecvSlice hprev
  | dropReceiver => exact absurd rfl hr

/-! ## Closing -/

theorem dropSender_first (isZst : Bool) (hlive : c.senderLive = true) (hr : c.receiverLive = true) :
    c.step isZst .dropSender = some ({ c.setSender ⟨{ c.header with «open» := false }, c.sender⟩ with
      senderLive := false }, .drop none) := by
  have ho : c.header.open = true := by rw [h.open_eq, hlive, hr]; rfl
  simp only [Channel.step, Sender.drop, State.close, Channel.senderState, ho, Bool.not_true,
    Bool.false_eq_true, if_false, Option.map_some]

theorem dropReceiver_first (isZst : Bool) (hlive : c.receiverLive = true) (hs : c.senderLive = true) :
    c.step isZst .dropReceiver = some ({ c.setReceiver ⟨{ c.header with «open» := false },
      c.receiver⟩ with receiverLive := false }, .drop none) := by
  have ho : c.header.open = true := by rw [h.open_eq, hlive, hs]; rfl
  simp only [Channel.step, Receiver.drop, State.close, Channel.receiverState, ho, Bool.not_true,
    Bool.false_eq_true, if_false, Option.map_some]

theorem close_last (isZst : Bool) (hs : c.sendSlice = none) (hr : c.recvSlice = none)
    (ho : c.header.open = false) {cur : Cursor} (hcap : cur.capacity = cap) :
    ∃ s', State.close isZst ⟨c.header, cur⟩ =
      some (s', some (if isZst then [] else g.pushed.drop g.receiverHead)) ∧
      s'.header.open = false := by
  have hhead : c.header.head = g.receiverHead % cap := by rw [h.header_head, h.released hr]
  have htail : c.header.tail = g.pushed.length % cap := by rw [h.header_tail, h.published hs]
  have hcap' : (State.refresh ⟨{ c.header with «open» := false }, cur⟩).cursor.capacity = cap :=
    hcap
  have hv : (State.refresh ⟨{ c.header with «open» := false }, cur⟩).cursor.Valid :=
    h.size.valid hcap' hhead htail
  have hfilled : (State.refresh ⟨{ c.header with «open» := false }, cur⟩).cursor.filled =
      g.pushed.length - g.receiverHead :=
    h.size.filled_eq hcap' hhead htail h.receiverHead_le_pushed h.pushed_lt_receiverHead
  simp only [State.close, ho, Bool.not_false, if_true]
  rw [State.dropContents_eq isZst hv (h.data_length.trans hcap.symm), hfilled]
  cases isZst
  · -- every value left is taken from the cells and dropped
    obtain ⟨l, hall, -, -⟩ := h.takeAll hhead (n := g.pushed.length - g.receiverHead)
      (Nat.add_sub_of_le h.receiverHead_le_pushed).le
    rw [List.take_of_length_le (by simp)] at hall
    simp only [Bool.false_eq_true, if_false, hcap, hall, Option.map_some]
    exact ⟨_, rfl, rfl⟩
  · refine ⟨_, rfl, ?_⟩
    rfl

theorem dropSender_last (isZst : Bool) (hnone : c.sendSlice = none) (hr : c.receiverLive = false) :
    ∃ c', c.step isZst .dropSender =
        some (c', .drop (some (if isZst then [] else g.pushed.drop g.receiverHead))) ∧
      c'.senderLive = false ∧ c'.receiverLive = false ∧ c'.sendSlice = none ∧
      c'.recvSlice = none ∧ c'.header.open = false := by
  have ho : c.header.open = false := by rw [h.open_eq, hr, Bool.and_false]
  obtain ⟨s', hclose, hopen⟩ :=
    h.close_last isZst hnone (h.receiver_dropped hr) ho h.sender_capacity
  refine ⟨{ c.setSender s' with senderLive := false }, ?_, rfl, hr, hnone,
    h.receiver_dropped hr, hopen⟩
  simp only [Channel.step, Sender.drop, Channel.senderState, hclose, Option.map_some]

theorem dropReceiver_last (isZst : Bool) (hnone : c.recvSlice = none)
    (hs : c.senderLive = false) :
    ∃ c', c.step isZst .dropReceiver =
        some (c', .drop (some (if isZst then [] else g.pushed.drop g.receiverHead))) ∧
      c'.senderLive = false ∧ c'.receiverLive = false ∧ c'.sendSlice = none ∧
      c'.recvSlice = none ∧ c'.header.open = false := by
  have ho : c.header.open = false := by rw [h.open_eq, hs, Bool.false_and]
  obtain ⟨s', hclose, hopen⟩ :=
    h.close_last isZst (h.sender_dropped hs) hnone ho h.receiver_capacity
  refine ⟨{ c.setReceiver s' with receiverLive := false }, ?_, hs, rfl, h.sender_dropped hs,
    hnone, hopen⟩
  simp only [Channel.step, Receiver.drop, Channel.receiverState, hclose, Option.map_some]

end Live

/-! ## Runs -/

theorem sentValues_append (out : List (Reply T)) (r : Reply T) :
    sentValues (out ++ [r]) = sentValues out ++ r.sent := by
  simp [sentValues]

theorem takenValues_append (out : List (Reply T)) (r : Reply T) :
    takenValues (out ++ [r]) = takenValues out ++ r.taken := by
  simp [takenValues]

theorem dropsContents_of_step (hstep : c.step isZst call = some (c', r))
    (hs : call ≠ .dropSender) (hr : call ≠ .dropReceiver) : r.dropsContents = false := by
  cases call
  case dropSender => exact absurd rfl hs
  case dropReceiver => exact absurd rfl hr
  all_goals
    simp only [Channel.step, Option.map_eq_some_iff, Option.some.injEq, Prod.mk.injEq] at hstep
    first
      | obtain ⟨-, rfl⟩ := hstep; rfl
      | obtain ⟨_, -, -, rfl⟩ := hstep; rfl

/-- What holds after a run of allowed calls from `channel`: a live channel whose counters carry
the values the replies sent and took, with `drop_contents` not run yet; or both sides dropped,
`open` cleared, `drop_contents` run once, and every value taken in the order sent, every value
sent taken or dropped unless the values are zero-sized. -/
inductive Good (isZst : Bool) (cap : Nat) (c : Channel T) (out : List (Reply T)) : Prop
  | live (g : Counters T) (h : Live cap c g) (sent : g.pushed = sentValues out)
      (taken : g.received = takenValues out) (notDropped : out.countP Reply.dropsContents = 0)
  | closed (sender : c.senderLive = false) (receiver : c.receiverLive = false)
      (sendSlice : c.sendSlice = none) (recvSlice : c.recvSlice = none)
      (shut : c.header.open = false) (dropped : out.countP Reply.dropsContents = 1)
      (inOrder : takenValues out <+: sentValues out)
      (allTaken : isZst = false → takenValues out = sentValues out)

variable {out : List (Reply T)}

theorem Good.of_live (hl : Live cap c' g') (hp : g'.pushed = g.pushed ++ r.sent)
    (hq : g'.received = g.received ++ r.taken) (hsent : g.pushed = sentValues out)
    (htaken : g.received = takenValues out) (hnone : out.countP Reply.dropsContents = 0)
    (hr : r.dropsContents = false) : Good isZst cap c' (out ++ [r]) :=
  .live g' hl (by rw [hp, hsent, sentValues_append]) (by rw [hq, htaken, takenValues_append])
    (by simp [List.countP_append, hnone, hr])

theorem Good.of_close (hsent : g.pushed = sentValues out) (htaken : g.received = takenValues out)
    (hnone : out.countP Reply.dropsContents = 0) (hs : c'.senderLive = false)
    (hr : c'.receiverLive = false) (hss : c'.sendSlice = none) (hrs : c'.recvSlice = none)
    (ho : c'.header.open = false) :
    Good isZst cap c'
      (out ++ [.drop (some (if isZst then [] else g.pushed.drop g.receiverHead))]) := by
  have hsent' : sentValues (out ++ [.drop (some (if isZst then [] else
      g.pushed.drop g.receiverHead))]) = g.pushed := by
    rw [sentValues_append, ← hsent]
    exact List.append_nil _
  have htaken' : takenValues (out ++ [.drop (some (if isZst then [] else
      g.pushed.drop g.receiverHead))]) =
      g.pushed.take g.receiverHead ++ (if isZst then [] else g.pushed.drop g.receiverHead) := by
    rw [takenValues_append, ← htaken]
    rfl
  refine .closed hs hr hss hrs ho (by simp [List.countP_append, hnone, Reply.dropsContents]) ?_
    fun hz => ?_
  · rw [hsent', htaken']
    cases isZst
    · rw [if_neg Bool.false_ne_true, List.take_append_drop]
    · rw [if_pos rfl, List.append_nil]
      exact List.take_prefix _ _
  · rw [hsent', htaken', hz, if_neg Bool.false_ne_true, List.take_append_drop]

theorem Good.step (hg : Good isZst cap c out) (hc : c.allowed call = true) :
    ∃ c' r, c.step isZst call = some (c', r) ∧ Good isZst cap c' (out ++ [r]) := by
  cases hg with
  | closed hs hr hss hrs =>
    cases call <;> simp [Channel.allowed, hs, hr, hss, hrs] at hc
  | live g h hsent htaken hnone =>
    by_cases hds : call = .dropSender
    · subst hds
      simp only [Channel.allowed, Bool.and_eq_true, Option.isNone_iff_eq_none] at hc
      cases hrl : c.receiverLive
      · -- the receiver went first: `drop_contents` runs now
        obtain ⟨c', hstep, hs, hr, hss, hrs, ho⟩ := h.dropSender_last isZst hc.2 hrl
        exact ⟨c', _, hstep, Good.of_close hsent htaken hnone hs hr hss hrs ho⟩
      · exact ⟨_, _, h.dropSender_first isZst hc.1 hrl,
          Good.of_live (h.closeSender hc.2 hrl) (by simp [Reply.sent]) (by simp [Reply.taken])
            hsent htaken hnone rfl⟩
    by_cases hdr : call = .dropReceiver
    · subst hdr
      simp only [Channel.allowed, Bool.and_eq_true, Option.isNone_iff_eq_none] at hc
      cases hsl : c.senderLive
      · obtain ⟨c', hstep, hs, hr, hss, hrs, ho⟩ := h.dropReceiver_last isZst hc.2 hsl
        exact ⟨c', _, hstep, Good.of_close hsent htaken hnone hs hr hss hrs ho⟩
      · exact ⟨_, _, h.dropReceiver_first isZst hc.1 hsl,
          Good.of_live (h.closeReceiver hc.2 hsl) (by simp [Reply.sent]) (by simp [Reply.taken])
            hsent htaken hnone rfl⟩
    obtain ⟨c', r, hstep, g', hl, hp, hq⟩ : Moves isZst cap c g call :=
      h.moves_of_allowed hc hds hdr
    exact ⟨c', r, hstep,
      Good.of_live hl hp hq hsent htaken hnone (dropsContents_of_step hstep hds hdr)⟩

theorem Good.run (hg : Good isZst cap c out) (calls : List (Call T))
    (hcalls : c.admits isZst calls = true) :
    ∃ c' o, c.run isZst calls = some (c', o) ∧ Good isZst cap c' (out ++ o) := by
  refine Refinement.run_invariant (fun c out call hg hc => ?_) calls c out hg hcalls
  obtain ⟨c', r, hstep, hg'⟩ := hg.step hc
  exact ⟨c', [r], by rw [hstep, Option.map_some], hg'⟩


/-! ## What every run guarantees -/

theorem good_channel {capacity : Nat} (hcap : isZst = true ∨ capacity < 2 ^ 63) :
    ∃ (cap : Nat) (c₀ : Channel T), channel isZst capacity = some c₀ ∧ Good isZst cap c₀ [] := by
  obtain ⟨cap, hsize, hnew⟩ := State.new_spec (T := T) hcap
  exact ⟨cap, _, by rw [channel, hnew, Option.map_some], .live _ (Live.new hsize) rfl rfl rfl⟩

theorem Good.taken_prefix (hg : Good isZst cap c out) : takenValues out <+: sentValues out := by
  cases hg with
  | live g _ hsent htaken =>
    rw [← hsent, ← htaken]
    exact List.take_prefix _ _
  | closed _ _ _ _ _ _ hin => exact hin

theorem Good.live_cells (hg : Good isZst cap c out) (hheld : (c.senderLive || c.receiverLive) = true) :
    c.sender.invariants = true ∧ c.receiver.invariants = true ∧
      out.countP Reply.dropsContents = 0 ∧
      (∀ j < c.sender.capacity - 1 - c.sender.filled,
        c.header.data[(c.sender.tail + j) % c.sender.capacity]? = some none) ∧
      ∀ j < c.receiver.filled,
        ∃ v, c.header.data[(c.receiver.head + j) % c.receiver.capacity]? = some (some v) := by
  cases hg with
  | live g h _ _ hnone =>
    refine ⟨h.sender_valid.invariants_eq, h.receiver_valid.invariants_eq, hnone,
      fun j hj => ?_, fun j hj => ?_⟩
    · rw [h.sender_capacity] at hj ⊢
      exact h.unfilled_empty hj
    · rw [h.receiver_capacity]
      exact h.filled_init hj
  | closed hs hr => simp [hs, hr] at hheld

theorem Good.dropped_once (hg : Good isZst cap c out) (hs : c.senderLive = false)
    (hr : c.receiverLive = false) :
    out.countP Reply.dropsContents = 1 ∧ (isZst = false → takenValues out = sentValues out) := by
  cases hg with
  | live g h => simpa [hs, hr] using h.held
  | closed _ _ _ _ _ hdropped _ hall => exact ⟨hdropped, hall⟩

theorem Channel.step_push_full {v v' : T} (hstep : c.step isZst (.push v) =
      some (c', .push v (.error (.full v')))) :
    c.header.open = true ∧ c' = c.setSender c.senderState.loadHead ∧
      c.senderState.loadHead.cursor.isFull = some true := by
  obtain ⟨r, hr, heq⟩ := Option.map_eq_some_iff.mp hstep
  simp only [Prod.mk.injEq, Reply.push.injEq, true_and] at heq
  obtain ⟨rfl, hfull⟩ := heq
  have hpush : SendSlice.push c.senderState v = some (r.1, .error (.full v')) := by
    rw [hr, ← hfull]
  obtain ⟨ho, h1, hf⟩ := SendSlice.push_eq_full hpush
  exact ⟨ho, by rw [h1], hf⟩

theorem Good.push_full (hg : Good isZst cap c out) {v v' : T}
    (hstep : c.step isZst (.push v) = some (c', .push v (.error (.full v')))) :
    c'.sender.len = c'.sender.usableCapacity := by
  obtain ⟨ho, rfl, hfull⟩ := Channel.step_push_full hstep
  cases hg with
  | closed _ _ _ _ hshut => exact absurd (hshut.symm.trans ho) Bool.false_ne_true
  | live g h =>
    have hv := h.loadHead_valid
    rw [hv.isFull_eq_filled, Option.some.injEq, decide_eq_true_eq] at hfull
    show c.senderState.loadHead.cursor.len = c.senderState.loadHead.cursor.usableCapacity
    rw [hv.len_eq, hv.usableCapacity_eq]
    exact congrArg some (show c.senderState.loadHead.cursor.filled = _ by omega)

/-- From `channel`, every run of calls the borrows of the source allow succeeds: no `assume!`
fails and no cell is read uninitialized. The values taken are a prefix of those sent. While a side
is held, both cursors keep their `assume!`s, the cells the sender may write are uninitialized, the
cells the receiver may read are initialized, and `drop_contents` has not run. Once both sides are
dropped it has run once, and every value sent has been taken or dropped, unless the values are
zero-sized. From any channel reached, a `push` that answers `Full` leaves a cursor holding
`capacity()` values. -/
theorem channel_runs_in_order (isZst : Bool) (capacity : Nat)
    (hcap : isZst = true ∨ capacity < 2 ^ 63) :
    ∃ c₀ : Channel T, channel isZst capacity = some c₀ ∧
      ∀ calls, c₀.admits isZst calls = true → ∃ c out, c₀.run isZst calls = some (c, out) ∧
        takenValues out <+: sentValues out ∧
        ((c.senderLive || c.receiverLive) = true →
          c.sender.invariants = true ∧ c.receiver.invariants = true ∧
          out.countP Reply.dropsContents = 0 ∧
          (∀ j < c.sender.capacity - 1 - c.sender.filled,
            c.header.data[(c.sender.tail + j) % c.sender.capacity]? = some none) ∧
          ∀ j < c.receiver.filled,
            ∃ v, c.header.data[(c.receiver.head + j) % c.receiver.capacity]? = some (some v)) ∧
        (c.senderLive = false → c.receiverLive = false →
          out.countP Reply.dropsContents = 1 ∧
            (isZst = false → takenValues out = sentValues out)) ∧
        ∀ (v v' : T) c', c.step isZst (.push v) = some (c', .push v (.error (.full v'))) →
          c'.sender.len = c'.sender.usableCapacity := by
  obtain ⟨cap, c₀, hc₀, hg₀⟩ := good_channel (T := T) hcap
  refine ⟨c₀, hc₀, fun calls hcalls => ?_⟩
  obtain ⟨c, out, hrun, hg⟩ := hg₀.run calls hcalls
  rw [List.nil_append] at hg
  exact ⟨c, out, hrun, hg.taken_prefix, hg.live_cells, hg.dropped_once,
    fun _ _ _ hstep => hg.push_full hstep⟩

theorem channel_runs_in_order_three :
    ∃ c₀ : Channel Nat, channel false 3 = some c₀ ∧ ∀ calls, c₀.admits false calls = true →
      ∃ c out, c₀.run false calls = some (c, out) ∧ takenValues out <+: sentValues out := by
  obtain ⟨c₀, hc₀, hrun⟩ := channel_runs_in_order (T := Nat) false 3 (.inr (by norm_num))
  refine ⟨c₀, hc₀, fun calls hcalls => ?_⟩
  obtain ⟨c, out, hc, hprefix, -⟩ := hrun calls hcalls
  exact ⟨c, out, hc, hprefix⟩

/-! ## Zero-sized values -/

theorem Channel.run_cons (hstep : c.step isZst call = some (c', r)) (calls : List (Call T)) :
    c.run isZst (call :: calls) = (c'.run isZst calls).map fun rest => (rest.1, r :: rest.2) := by
  simp only [Channel.run, Refinement.run, hstep, Option.map_some, Option.bind_some,
    List.singleton_append]

theorem Channel.admits_cons (hstep : c.step isZst call = some (c', r)) (calls : List (Call T)) :
    c.admits isZst (call :: calls) = (c.allowed call && c'.admits isZst calls) := by
  simp only [Channel.admits, Refinement.Admits, hstep, Option.map_some, Option.all_some]

def sendOneAndClose (v : T) : List (Call T) :=
  [.senderSlice, .push v, .dropSendSlice, .dropSender, .dropReceiver]

theorem Live.sendOneAndClose_run (isZst : Bool) (h : Live cap c g) (hs : c.senderLive = true)
    (hr : c.receiverLive = true) (hss : c.sendSlice = none) (hrs : c.recvSlice = none)
    (hfree : g.pushed.length + 1 < g.senderHead + cap) (v : T) :
    ∃ c', c.admits isZst (sendOneAndClose v) = true ∧
      c.run isZst (sendOneAndClose v) = some (c', [.slice (.ok true), .push v (.ok ()), .drop none,
        .drop none, .drop (some (if isZst then [] else (g.pushed ++ [v]).drop g.receiverHead))]) ∧
      c'.senderLive = false ∧ c'.receiverLive = false := by
  set c₁ : Channel T := { c with sendSlice := some c.sender }
  have hstep₁ : c.step isZst .senderSlice = some (c₁, .slice (.ok true)) := rfl
  have h₁ : Live cap c₁ g := h.withSendSlice hs hss rfl
  obtain ⟨s₂, hstep₂, h₂⟩ := h₁.push_of_free isZst rfl hfree v
  have hprev : (c₁.setSender s₂).sendSlice = some c.sender := rfl
  have hstep₃ : (c₁.setSender s₂).step isZst .dropSendSlice = _ := Channel.step_dropSendSlice hprev
  have h₃ := h₂.dropSendSlice hprev
  have hstep₄ := h₃.dropSender_first isZst hs hr
  obtain ⟨c', hstep₅, hs', hr', -⟩ := (h₃.closeSender rfl hr).dropReceiver_last isZst hrs rfl
  refine ⟨c', ?_, ?_, hs', hr'⟩
  · simp only [sendOneAndClose, Channel.admits_cons hstep₁, Channel.admits_cons hstep₂,
      Channel.admits_cons hstep₃, Channel.admits_cons hstep₄, Channel.admits_cons hstep₅]
    simp [Channel.admits, Refinement.Admits, Channel.allowed, Channel.setSender, c₁, hs, hr, hss,
      hrs]
  · rw [sendOneAndClose, Channel.run_cons hstep₁, Channel.run_cons hstep₂, Channel.run_cons hstep₃,
      Channel.run_cons hstep₄, Channel.run_cons hstep₅]
    rfl

/-- For a zero-sized type, `drop_contents` drops nothing: a value sent and never received is not
dropped when both sides are gone, which for a zero-sized type with a `Drop` impl skips its drop. -/
theorem zst_value_never_dropped :
    ∃ (c₀ c : Channel Unit) (out : List (Reply Unit)), channel true 0 = some c₀ ∧
      c₀.admits true (sendOneAndClose ()) = true ∧
      c₀.run true (sendOneAndClose ()) = some (c, out) ∧
      c.senderLive = false ∧ c.receiverLive = false ∧ out.countP Reply.dropsContents = 1 ∧
      sentValues out = [()] ∧ takenValues out = [] := by
  obtain ⟨cap, hsize, hnew⟩ := State.new_spec (T := Unit) (Or.inl rfl : true = true ∨ 0 < 2 ^ 63)
  have hfree : ([] : List Unit).length + 1 < 0 + cap := by
    have := hsize.two_le
    unfold MINIMUM_CAPACITY at this
    simp only [List.length_nil]
    omega
  obtain ⟨c, hadmits, hrun, hs, hr⟩ :=
    (Live.new (T := Unit) hsize).sendOneAndClose_run true rfl rfl rfl rfl hfree ()
  exact ⟨_, c, _, by rw [channel, hnew, Option.map_some], hadmits, hrun, hs, hr, rfl, rfl, rfl⟩

end S2nQuic.Sync.Spsc
