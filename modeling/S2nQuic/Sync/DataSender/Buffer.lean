import S2nQuic.Varint
import S2nQuic.IntervalSet.Set

/-!
# The send buffer of a data sender

`data_sender::Buffer` (`sync/data_sender/buffer.rs`) keeps the chunks pushed and not yet released
as a deque, from the stream offset `head`; `pending_len`, which `check_integrity` keeps equal to
the length of the chunks, is their total length here. A `Viewer` walks the chunks in stream order
and hands out `View`s of a range: the chunk it starts in, the offset into that chunk, its length,
and whether it ends the stream. The `debug_assert!`s of `push`, `release` and `View::new` return
`none`.
-/

namespace S2nQuic.Sync.DataSender
open IntervalSet Varint

structure Buffer where
  chunks : List (List UInt8) := []
  head : Nat := 0
  deriving DecidableEq

namespace Buffer

def enqueuedLen (self : Buffer) : Nat := (self.chunks.map List.length).sum

def totalLen (self : Buffer) : Nat := self.head + self.enqueuedLen

def isEmpty (self : Buffer) : Bool := self.enqueuedLen == 0

/-- `push`: the inclusive interval of stream offsets the chunk takes. The source asserts the
capacity left below `VarInt::MAX` and subtracts one from the length, which an empty chunk makes
panic. -/
def push (self : Buffer) (data : List UInt8) : Option (Buffer × Interval) :=
  if maxVarintValue - self.totalLen < data.length then none else
  if data.length = 0 then none else
  let start := self.totalLen
  some ({ self with chunks := self.chunks ++ [data] }, ⟨start, start + (data.length - 1)⟩)

/-- The loop of `release`: chunks that end at or before `upTo` are dropped, and the one it falls
in is advanced to it. -/
def releaseChunks : List (List UInt8) → (head upTo : Nat) → Buffer
  | [], head, _ => ⟨[], head⟩
  | chunk :: rest, head, upTo =>
    if head + chunk.length ≤ upTo then releaseChunks rest (head + chunk.length) upTo
    else ⟨chunk.drop (upTo - head) :: rest, upTo⟩

/-- `release`: nothing below `head` is left to release. -/
def release (self : Buffer) (upTo : Nat) : Option Buffer :=
  if upTo ≤ self.head then some self else
  if self.totalLen < upTo then none else
  some (releaseChunks self.chunks self.head upTo)

def releaseAll (self : Buffer) : Buffer := ⟨[], self.totalLen⟩

def clear (_self : Buffer) : Buffer := ⟨[], 0⟩

section Lengths

theorem totalLen_push {self b : Buffer} {data : List UInt8} {interval : Interval}
    (h : self.push data = some (b, interval)) :
    b.totalLen = self.totalLen + data.length ∧ interval.start = self.totalLen ∧
      interval.«end» + 1 = self.totalLen + data.length ∧ b.head = self.head ∧
      b.totalLen ≤ maxVarintValue := by
  unfold push at h
  split_ifs at h with hcap hempty
  cases h
  refine ⟨?_, rfl, ?_, rfl, ?_⟩ <;>
    simp only [totalLen, enqueuedLen, List.map_append, List.sum_append, List.map_cons,
      List.map_nil, List.sum_cons, List.sum_nil] at hcap ⊢ <;>
    omega

theorem releaseChunks_spec (chunks : List (List UInt8)) {head upTo : Nat} (hle : head ≤ upTo)
    (hup : upTo ≤ head + (chunks.map List.length).sum) :
    (releaseChunks chunks head upTo).head = upTo ∧
      (releaseChunks chunks head upTo).totalLen = head + (chunks.map List.length).sum := by
  induction chunks generalizing head with
  | nil =>
    simp only [List.map_nil, List.sum_nil] at hup
    exact ⟨by simp only [releaseChunks]; omega, rfl⟩
  | cons chunk rest ih =>
    simp only [List.map_cons, List.sum_cons] at hup
    by_cases hdrop : head + chunk.length ≤ upTo
    · -- the chunk ends before `upTo`: dropped whole
      rw [releaseChunks, if_pos hdrop]
      have := ih hdrop (by omega)
      simp only [List.map_cons, List.sum_cons]
      omega
    · rw [releaseChunks, if_neg hdrop]
      refine ⟨rfl, ?_⟩
      simp only [totalLen, enqueuedLen, List.map_cons, List.sum_cons, List.length_drop]
      omega

theorem release_spec {self b : Buffer} {upTo : Nat} (h : self.release upTo = some b) :
    b.head = max self.head upTo ∧ b.totalLen = self.totalLen := by
  unfold release at h
  split_ifs at h with hhead htotal
  · cases h
    exact ⟨(max_eq_left hhead).symm, rfl⟩
  · cases h
    obtain ⟨hb, ht⟩ := releaseChunks_spec self.chunks (le_of_not_ge hhead)
      (by unfold totalLen enqueuedLen at htotal; omega)
    exact ⟨by rw [hb]; omega, ht⟩

@[simp] theorem head_releaseAll (self : Buffer) : self.releaseAll.head = self.totalLen := rfl

@[simp] theorem totalLen_releaseAll (self : Buffer) : self.releaseAll.totalLen = self.totalLen := by
  simp [releaseAll, totalLen, enqueuedLen]

@[simp] theorem head_clear (self : Buffer) : self.clear.head = 0 := rfl

@[simp] theorem totalLen_clear (self : Buffer) : self.clear.totalLen = 0 := rfl

end Lengths

end Buffer

/-- `View`: `len` bytes from `offset` into chunk `chunkIndex`, and whether they end the stream. -/
structure View where
  chunkIndex : Nat
  offset : Nat
  len : Nat
  isFin : Bool
  deriving DecidableEq

/-- `View::trim_off`: the writer takes `amount` bytes off the end of the view, which then no longer
ends the stream. -/
def View.trimOff (self : View) (amount : Nat) : Option View :=
  if self.len < amount then none
  else some { self with len := self.len - amount, isFin := self.isFin && amount == 0 }

/-- `Viewer`: the stream offset of the chunk it is at. -/
structure Viewer where
  offset : Nat
  chunkIndex : Nat

def Buffer.viewer (self : Buffer) : Viewer := ⟨self.head, 0⟩

/-- The walk of `View::new` from the viewer's chunk: past the chunks that end at or before
`start`, to the chunk `start` falls in and the offset into it. -/
def seek : List (List UInt8) → (streamOffset chunkIndex start : Nat) → Nat × Nat × Nat
  | [], streamOffset, chunkIndex, _ => (streamOffset, chunkIndex, 0)
  | chunk :: rest, streamOffset, chunkIndex, start =>
    if streamOffset ≤ start ∧ start < streamOffset + chunk.length then
      (streamOffset, chunkIndex, start - streamOffset)
    else seek rest (streamOffset + chunk.length) (chunkIndex + 1) start

/-- `Viewer::next_view`: the view of `range`, which ends the stream when the stream is finishing
and the range reaches its last byte. -/
def Viewer.nextView (self : Viewer) (buffer : Buffer) (range : Interval) (hasFin : Bool) :
    Option (Viewer × View) :=
  if range.start < buffer.head then none else
  if range.start < self.offset then none else
  if buffer.totalLen < range.«end» + 1 then none else
  let (streamOffset, chunkIndex, offset) :=
    seek (buffer.chunks.drop self.chunkIndex) self.offset self.chunkIndex range.start
  if buffer.chunks.length ≤ chunkIndex then none else
  some (⟨streamOffset, chunkIndex⟩,
    ⟨chunkIndex, offset, range.len, hasFin && range.«end» == buffer.totalLen - 1⟩)

end S2nQuic.Sync.DataSender
