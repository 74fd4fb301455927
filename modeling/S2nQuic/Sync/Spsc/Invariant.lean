import S2nQuic.Sync.Spsc.Spec

/-!
# The counters behind a channel's indices

Every index of a channel is a counter modulo the ring size: the sender's `tail` counts the values
sent, the shared `tail` the ones it has published, the receiver's cached `tail` the ones it has
seen published, and the same for `head` and the values taken (`Counters`). `Live` says how these
stand while a side is still held: each cached index lags behind the one it copies, the sender
stays less than a ring ahead of the `head` it has seen, the cells hold the values not yet taken
from the receiver's `head` on and nothing else, a side without a slice has published its index,
and `open` holds while both sides are held.

Each transition of the counters is one lemma here: a reload of the peer's index, writing values,
taking values, publishing an index, taking a slice, and the first close. The calls of
`Channel.step` are made of them.
-/

namespace S2nQuic.Sync.Spsc

open Ring

variable {T : Type}

/-- The counters behind a channel's indices, from its creation on. -/
structure Counters (T : Type) where
  /-- Every value sent; the sender's `tail` counts them. -/
  pushed : List T
  /-- Behind the shared `tail`. -/
  sharedTail : Nat
  /-- Behind the receiver's cached `tail`. -/
  receiverTail : Nat
  /-- Behind the receiver's `head`: the values taken. -/
  receiverHead : Nat
  /-- Behind the shared `head`. -/
  sharedHead : Nat
  /-- Behind the sender's cached `head`. -/
  senderHead : Nat

def Counters.received (g : Counters T) : List T := g.pushed.take g.receiverHead

/-- A channel with a side still held, read through its counters. -/
structure Live (cap : Nat) (c : Channel T) (g : Counters T) : Prop where
  size : Size cap
  data_length : c.header.data.length = cap
  sender_capacity : c.sender.capacity = cap
  receiver_capacity : c.receiver.capacity = cap
  sender_head : c.sender.head = g.senderHead % cap
  sender_tail : c.sender.tail = g.pushed.length % cap
  header_head : c.header.head = g.sharedHead % cap
  header_tail : c.header.tail = g.sharedTail % cap
  receiver_head : c.receiver.head = g.receiverHead % cap
  receiver_tail : c.receiver.tail = g.receiverTail % cap
  sender_head_le : g.senderHead ≤ g.sharedHead
  shared_head_le : g.sharedHead ≤ g.receiverHead
  receiver_head_le : g.receiverHead ≤ g.receiverTail
  receiver_tail_le : g.receiverTail ≤ g.sharedTail
  shared_tail_le : g.sharedTail ≤ g.pushed.length
  /-- The sender never fills the cell before the `head` it has seen. -/
  pushed_lt : g.pushed.length < g.senderHead + cap
  /-- The cells hold the values not yet taken, from the receiver's `head` on. -/
  cells : Holds c.header.data g.receiverHead (g.pushed.drop g.receiverHead)
  send_slice : ∀ prev, c.sendSlice = some prev → prev.tail = g.sharedTail % cap
  published : c.sendSlice = none → g.sharedTail = g.pushed.length
  recv_slice : ∀ prev, c.recvSlice = some prev → prev.head = g.sharedHead % cap
  released : c.recvSlice = none → g.sharedHead = g.receiverHead
  open_eq : c.header.open = (c.senderLive && c.receiverLive)
  held : (c.senderLive || c.receiverLive) = true
  sender_dropped : c.senderLive = false → c.sendSlice = none
  receiver_dropped : c.receiverLive = false → c.recvSlice = none

/-! ## Cursors read through counters -/

namespace Size

variable {cap : Nat} (h : Size cap) {cur : Cursor} (hc : cur.capacity = cap) {a b : Nat}
  (hh : cur.head = a % cap) (ht : cur.tail = b % cap)
include h hc hh ht

theorem valid : cur.Valid :=
  ⟨hc ▸ h, by rw [hh, hc]; exact Nat.mod_lt _ h.pos, by rw [ht, hc]; exact Nat.mod_lt _ h.pos⟩

theorem filled_eq (hab : a ≤ b) (hb : b < a + cap) : cur.filled = b - a := by
  rw [Cursor.filled, hh, ht, hc]
  exact h.sub_mod_eq hab hb

end Size

namespace Live

variable {cap : Nat} {c : Channel T} {g : Counters T}

section Views

variable (h : Live cap c g)
include h

theorem senderHead_le_pushed : g.senderHead ≤ g.pushed.length := by
  have := h.sender_head_le; have := h.shared_head_le; have := h.receiver_head_le
  have := h.receiver_tail_le; have := h.shared_tail_le
  omega

theorem receiverHead_le_pushed : g.receiverHead ≤ g.pushed.length := by
  have := h.receiver_head_le; have := h.receiver_tail_le; have := h.shared_tail_le
  omega

theorem pushed_lt_receiverHead : g.pushed.length < g.receiverHead + cap := by
  have := h.pushed_lt; have := h.sender_head_le; have := h.shared_head_le
  omega

theorem data_length_eq : c.header.data.length = c.sender.capacity :=
  h.data_length.trans h.sender_capacity.symm

theorem data_length_receiver : c.header.data.length = c.receiver.capacity :=
  h.data_length.trans h.receiver_capacity.symm

theorem sender_valid : c.sender.Valid := h.size.valid h.sender_capacity h.sender_head h.sender_tail

theorem receiver_valid : c.receiver.Valid :=
  h.size.valid h.receiver_capacity h.receiver_head h.receiver_tail

theorem sender_filled : c.sender.filled = g.pushed.length - g.senderHead :=
  h.size.filled_eq h.sender_capacity h.sender_head h.sender_tail h.senderHead_le_pushed h.pushed_lt

theorem receiver_filled : c.receiver.filled = g.receiverTail - g.receiverHead := by
  have := h.receiver_tail_le; have := h.shared_tail_le; have := h.pushed_lt_receiverHead
  exact h.size.filled_eq h.receiver_capacity h.receiver_head h.receiver_tail h.receiver_head_le
    (by omega)

theorem loadHead_valid : c.senderState.loadHead.cursor.Valid :=
  h.size.valid h.sender_capacity h.header_head h.sender_tail

theorem loadHead_filled :
    c.senderState.loadHead.cursor.filled = g.pushed.length - g.sharedHead := by
  have := h.shared_head_le; have := h.receiver_head_le; have := h.receiver_tail_le
  have := h.shared_tail_le; have := h.pushed_lt; have := h.sender_head_le
  exact h.size.filled_eq (show c.senderState.loadHead.cursor.capacity = cap from h.sender_capacity)
    h.header_head h.sender_tail (by omega) (by omega)

theorem loadTail_valid : c.receiverState.loadTail.cursor.Valid :=
  h.size.valid h.receiver_capacity h.receiver_head h.header_tail

theorem loadTail_filled :
    c.receiverState.loadTail.cursor.filled = g.sharedTail - g.receiverHead := by
  have := h.receiver_head_le; have := h.receiver_tail_le; have := h.shared_tail_le
  have := h.pushed_lt_receiverHead
  exact h.size.filled_eq (show c.receiverState.loadTail.cursor.capacity = cap from
    h.receiver_capacity) h.receiver_head h.header_tail (by omega) (by omega)

theorem sender_full_iff : c.senderState.cursor.filled + 1 = c.senderState.cursor.capacity ↔
    g.pushed.length + 1 = g.senderHead + cap := by
  show c.sender.filled + 1 = c.sender.capacity ↔ _
  have := h.senderHead_le_pushed
  rw [h.sender_filled, h.sender_capacity]
  omega

theorem loadHead_full_iff : c.senderState.loadHead.cursor.filled + 1 = c.senderState.cursor.capacity ↔
    g.pushed.length + 1 = g.sharedHead + cap := by
  have := h.shared_head_le; have := h.receiverHead_le_pushed
  rw [h.loadHead_filled, show c.senderState.cursor.capacity = cap from h.sender_capacity]
  omega

theorem receiver_empty_iff :
    c.receiverState.cursor.filled = 0 ↔ g.receiverTail = g.receiverHead := by
  show c.receiver.filled = 0 ↔ _
  have := h.receiver_head_le
  rw [h.receiver_filled]
  omega

theorem loadTail_empty_iff :
    c.receiverState.loadTail.cursor.filled = 0 ↔ g.sharedTail = g.receiverHead := by
  have := h.receiver_head_le; have := h.receiver_tail_le
  rw [h.loadTail_filled]
  omega

theorem unfilled_empty {j : Nat} (hj : j < cap - 1 - c.sender.filled) :
    c.header.data[(c.sender.tail + j) % cap]? = some none := by
  have hq := h.receiverHead_le_pushed
  have hsh := h.sender_head_le.trans h.shared_head_le
  have hlt := h.pushed_lt
  rw [h.sender_filled] at hj
  have hget := h.cells.getElem? (i := g.pushed.length - g.receiverHead + j)
    (by rw [h.data_length]; omega)
  have hnone : (g.pushed.drop g.receiverHead)[g.pushed.length - g.receiverHead + j]? = none :=
    List.getElem?_eq_none (by rw [List.length_drop]; omega)
  rw [hnone, h.data_length] at hget
  rw [h.sender_tail, Nat.mod_add_mod,
    show g.pushed.length + j = g.receiverHead + (g.pushed.length - g.receiverHead + j) by omega, hget]

theorem filled_init {j : Nat} (hj : j < c.receiver.filled) :
    ∃ v, c.header.data[(c.receiver.head + j) % cap]? = some (some v) := by
  have := h.receiver_tail_le; have := h.shared_tail_le; have := h.pushed_lt_receiverHead
  rw [h.receiver_filled] at hj
  have hget := h.cells.getElem? (i := j) (by rw [h.data_length]; omega)
  have hjl : j < (g.pushed.drop g.receiverHead).length := by rw [List.length_drop]; omega
  rw [List.getElem?_eq_getElem hjl, h.data_length] at hget
  exact ⟨_, by rw [h.receiver_head, Nat.mod_add_mod, hget]⟩

theorem cells_mod {b : Nat} (hb : b = g.receiverHead % cap) :
    Holds c.header.data b (g.pushed.drop g.receiverHead) := by
  rw [hb, ← h.data_length, Holds.mod_iff]
  exact h.cells

theorem takeAll {b n : Nat} (hb : b = g.receiverHead % cap)
    (hn : g.receiverHead + n ≤ g.pushed.length) :
    ∃ l, Pair.takeAll c.header.data ((List.range n).map fun i => (b + i) % cap) =
        some (l, (g.pushed.drop g.receiverHead).take n) ∧ l.length = cap ∧
      Holds l (g.receiverHead + n) (g.pushed.drop (g.receiverHead + n)) := by
  obtain ⟨l, hall, hlen, hl⟩ := Pair.takeAll_holds n (h.cells_mod hb) (by simp; omega)
  rw [h.data_length] at hall hlen
  refine ⟨l, hall, hlen, ?_⟩
  rw [List.drop_drop, ← Holds.mod_iff, hlen, hb, Nat.mod_add_mod] at hl
  rw [← Holds.mod_iff, hlen]
  exact hl

theorem writeFrom {p : Pair} {vs : List T} (hfree : g.pushed.length + vs.length < g.receiverHead + cap)
    (hcell : ∀ i, i < vs.length → p.cell i = some ((c.sender.tail + i) % c.sender.capacity)) :
    ∃ l, p.writeFrom c.header.data 0 vs = some l ∧ l.length = cap ∧
      Holds l g.receiverHead ((g.pushed ++ vs).drop g.receiverHead) := by
  have hle := h.receiverHead_le_pushed
  obtain ⟨l, hw, hlen, hl⟩ := p.writeFrom_holds vs h.cells (by simp; rw [h.data_length]; omega)
    (fun i hi => by
      rw [Nat.zero_add, hcell i hi, h.sender_tail, h.sender_capacity, h.data_length,
        List.length_drop, Nat.add_sub_cancel' (by omega), Nat.mod_add_mod])
  refine ⟨l, hw, hlen.trans h.data_length, ?_⟩
  rwa [List.drop_append_of_le_length (by omega)]

theorem put (v : T) :
    Holds (c.header.data.set c.sender.tail (some v)) g.receiverHead
      ((g.pushed ++ [v]).drop g.receiverHead) := by
  have hq := h.receiverHead_le_pushed
  have hlt := h.pushed_lt_receiverHead
  have hput := h.cells.put (by rw [List.length_drop, h.data_length]; omega) v
  rw [List.length_drop, Nat.add_sub_cancel' hq, h.data_length, ← h.sender_tail] at hput
  rwa [List.drop_append_of_le_length hq]

theorem takeFirst (hq : g.receiverHead < g.pushed.length) :
    c.header.data[c.receiver.head]? = some (some g.pushed[g.receiverHead]) ∧
      Holds (c.header.data.set c.receiver.head none) (g.receiverHead + 1)
        (g.pushed.drop (g.receiverHead + 1)) := by
  have hcells := h.cells
  rw [List.drop_eq_getElem_cons hq] at hcells
  have hget := hcells.getElem? (i := 0) (by rw [h.data_length]; exact h.size.pos)
  rw [Nat.add_zero, h.data_length, ← h.receiver_head] at hget
  have htake := hcells.take
  rw [h.data_length, ← h.receiver_head] at htake
  exact ⟨hget, htake⟩

end Views

/-! ## Transitions of the counters -/

theorem new {cap : Nat} (hsize : Size cap) :
    Live cap (⟨⟨0, 0, true, List.replicate cap none⟩, Cursor.new cap, Cursor.new cap, none, none,
      true, true⟩ : Channel T) ⟨[], 0, 0, 0, 0, 0⟩ where
  size := hsize
  data_length := List.length_replicate ..
  sender_capacity := rfl
  receiver_capacity := rfl
  sender_head := (Nat.zero_mod cap).symm
  sender_tail := (Nat.zero_mod cap).symm
  header_head := (Nat.zero_mod cap).symm
  header_tail := (Nat.zero_mod cap).symm
  receiver_head := (Nat.zero_mod cap).symm
  receiver_tail := (Nat.zero_mod cap).symm
  sender_head_le := le_rfl
  shared_head_le := le_rfl
  receiver_head_le := le_rfl
  receiver_tail_le := le_rfl
  shared_tail_le := le_rfl
  pushed_lt := by simpa using hsize.pos
  cells := holds_replicate cap 0
  send_slice _ h := nomatch h
  published _ := rfl
  recv_slice _ h := nomatch h
  released _ := rfl
  open_eq := rfl
  held := rfl
  sender_dropped h := nomatch h
  receiver_dropped h := nomatch h

variable (h : Live cap c g)
include h

theorem loadHead : Live cap (c.setSender c.senderState.loadHead) { g with senderHead := g.sharedHead } :=
  { h with
    sender_head := h.header_head
    sender_head_le := le_rfl
    pushed_lt := by
      show g.pushed.length < g.sharedHead + cap
      have := h.pushed_lt; have := h.sender_head_le
      omega }

theorem loadTail :
    Live cap (c.setReceiver c.receiverState.loadTail) { g with receiverTail := g.sharedTail } :=
  { h with
    receiver_tail := h.header_tail
    receiver_head_le := by
      show g.receiverHead ≤ g.sharedTail
      have := h.receiver_head_le; have := h.receiver_tail_le
      omega
    receiver_tail_le := le_rfl }

theorem write (hs : c.sendSlice.isSome) {vs : List T}
    (hfree : g.pushed.length + vs.length < g.senderHead + cap) {data : List (Option T)}
    (hlen : data.length = cap)
    (hdata : Holds data g.receiverHead ((g.pushed ++ vs).drop g.receiverHead)) :
    Live cap (c.setSender ⟨{ c.header with data },
      { c.sender with tail := (c.sender.tail + vs.length) % c.sender.capacity }⟩)
      { g with pushed := g.pushed ++ vs } :=
  { h with
    data_length := hlen
    sender_tail := by
      show (c.sender.tail + vs.length) % c.sender.capacity = (g.pushed ++ vs).length % cap
      rw [h.sender_tail, h.sender_capacity, Nat.mod_add_mod, List.length_append]
    shared_tail_le := by
      show g.sharedTail ≤ (g.pushed ++ vs).length
      have := h.shared_tail_le
      simp only [List.length_append]
      omega
    pushed_lt := by
      show (g.pushed ++ vs).length < g.senderHead + cap
      simpa using hfree
    cells := hdata
    published := fun hnone => by rw [show c.sendSlice = none from hnone] at hs; cases hs }

theorem take (hr : c.recvSlice.isSome) {n : Nat} (hn : g.receiverHead + n ≤ g.receiverTail)
    {data : List (Option T)} (hlen : data.length = cap)
    (hdata : Holds data (g.receiverHead + n) (g.pushed.drop (g.receiverHead + n))) :
    Live cap (c.setReceiver ⟨{ c.header with data },
      { c.receiver with head := (c.receiver.head + n) % c.receiver.capacity }⟩)
      { g with receiverHead := g.receiverHead + n } :=
  { h with
    data_length := hlen
    receiver_head := by
      show (c.receiver.head + n) % c.receiver.capacity = (g.receiverHead + n) % cap
      rw [h.receiver_head, h.receiver_capacity, Nat.mod_add_mod]
    shared_head_le := by
      show g.sharedHead ≤ g.receiverHead + n
      have := h.shared_head_le
      omega
    receiver_head_le := hn
    cells := hdata
    released := fun hnone => by rw [show c.recvSlice = none from hnone] at hr; cases hr }

theorem writeFirst (hs : c.sendSlice.isSome) (hfree : g.pushed.length + 1 < g.senderHead + cap)
    (v : T) : ∃ s', SendSlice.writeFirst c.senderState v = some s' ∧
      Live cap (c.setSender s') { g with pushed := g.pushed ++ [v] } :=
  ⟨_, SendSlice.writeFirst_eq h.sender_valid h.data_length_eq v,
    h.write hs (show g.pushed.length + [v].length < g.senderHead + cap from hfree)
      ((List.length_set ..).trans h.data_length) (h.put v)⟩

theorem takeOne (hr : c.recvSlice.isSome) (hne : g.receiverHead < g.receiverTail) :
    ∃ s' x, RecvSlice.takeFirst c.receiverState = some (s', x) ∧ g.pushed[g.receiverHead]? = some x ∧
      Live cap (c.setReceiver s') { g with receiverHead := g.receiverHead + 1 } := by
  have hq : g.receiverHead < g.pushed.length := by
    have := h.receiver_tail_le; have := h.shared_tail_le
    omega
  obtain ⟨hx, hdata⟩ := h.takeFirst hq
  have hne' : c.receiverState.cursor.filled ≠ 0 := fun he => by
    have := h.receiver_empty_iff.mp he
    omega
  exact ⟨_, _, RecvSlice.takeFirst_eq h.receiver_valid h.data_length_receiver hne' hx,
    List.getElem?_eq_getElem hq,
    h.take hr (n := 1) hne ((List.length_set ..).trans h.data_length) hdata⟩

theorem dropSendSlice {prev : Cursor} (hprev : c.sendSlice = some prev) :
    Live cap { c.setSender (SendSlice.drop c.senderState prev) with sendSlice := none }
      { g with sharedTail := g.pushed.length } := by
  have hle : g.receiverTail ≤ g.pushed.length := h.receiver_tail_le.trans h.shared_tail_le
  unfold SendSlice.drop State.persistTail
  split
  · -- `tail` did not move: the shared one is already the sender's
    next he =>
    have hp := h.send_slice prev hprev
    exact { h with
      header_tail := h.header_tail.trans (hp.symm.trans ((beq_iff_eq.mp he).trans h.sender_tail))
      receiver_tail_le := hle
      shared_tail_le := le_rfl
      send_slice := nofun
      published := fun _ => rfl
      sender_dropped := fun _ => rfl }
  · exact { h with
      header_tail := h.sender_tail
      receiver_tail_le := hle
      shared_tail_le := le_rfl
      send_slice := nofun
      published := fun _ => rfl
      sender_dropped := fun _ => rfl }

theorem dropRecvSlice {prev : Cursor} (hprev : c.recvSlice = some prev) :
    Live cap { c.setReceiver (RecvSlice.drop c.receiverState prev) with recvSlice := none }
      { g with sharedHead := g.receiverHead } := by
  have hle : g.senderHead ≤ g.receiverHead := h.sender_head_le.trans h.shared_head_le
  unfold RecvSlice.drop State.persistHead
  split
  · next he =>
    have hp := h.recv_slice prev hprev
    exact { h with
      header_head := h.header_head.trans (hp.symm.trans ((beq_iff_eq.mp he).trans h.receiver_head))
      sender_head_le := hle
      shared_head_le := le_rfl
      recv_slice := nofun
      released := fun _ => rfl
      receiver_dropped := fun _ => rfl }
  · exact { h with
      header_head := h.receiver_head
      sender_head_le := hle
      shared_head_le := le_rfl
      recv_slice := nofun
      released := fun _ => rfl
      receiver_dropped := fun _ => rfl }

theorem withSendSlice (hlive : c.senderLive = true) (hnone : c.sendSlice = none) {prev : Cursor}
    (hprev : prev.tail = c.sender.tail) : Live cap { c with sendSlice := some prev } g :=
  { h with
    send_slice := fun p hp => by
      obtain rfl := Option.some.inj hp
      rw [hprev, h.sender_tail, h.published hnone]
    published := nofun
    sender_dropped := fun hd => absurd (hlive.symm.trans hd) Bool.noConfusion }

theorem withRecvSlice (hlive : c.receiverLive = true) (hnone : c.recvSlice = none) {prev : Cursor}
    (hprev : prev.head = c.receiver.head) : Live cap { c with recvSlice := some prev } g :=
  { h with
    recv_slice := fun p hp => by
      obtain rfl := Option.some.inj hp
      rw [hprev, h.receiver_head, h.released hnone]
    released := nofun
    receiver_dropped := fun hd => absurd (hlive.symm.trans hd) Bool.noConfusion }

theorem noSendSlice (hnone : c.sendSlice = none) : Live cap { c with sendSlice := none } g :=
  { h with
    send_slice := nofun
    published := fun _ => h.published hnone
    sender_dropped := fun _ => rfl }

theorem noRecvSlice (hnone : c.recvSlice = none) : Live cap { c with recvSlice := none } g :=
  { h with
    recv_slice := nofun
    released := fun _ => h.released hnone
    receiver_dropped := fun _ => rfl }

theorem closeSender (hnone : c.sendSlice = none) (hr : c.receiverLive = true) :
    Live cap { c.setSender ⟨{ c.header with «open» := false }, c.sender⟩ with senderLive := false } g :=
  { h with
    open_eq := rfl
    held := hr
    sender_dropped := fun _ => hnone }

theorem closeReceiver (hnone : c.recvSlice = none) (hs : c.senderLive = true) :
    Live cap { c.setReceiver ⟨{ c.header with «open» := false }, c.receiver⟩ with
      receiverLive := false } g :=
  { h with
    open_eq := (Bool.and_false _).symm
    held := (Bool.or_false _).trans hs
    receiver_dropped := fun _ => hnone }

end Live

end S2nQuic.Sync.Spsc
