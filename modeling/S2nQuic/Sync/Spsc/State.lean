import S2nQuic.Slice.Deque

/-!
# The state of a single-producer single-consumer channel

`sync/spsc/state.rs` and `slice.rs`: each side of a channel holds a `State`, a pointer to the
shared `Header` and a `Cursor` of its own. The header holds the atomic `head`, `tail` and `open`
and, after it in the same allocation, `capacity` cells; a cell is `MaybeUninit`, here `none` while
it holds no value. The cursor caches the peer's index: the sender moves `tail` and reloads `head`,
the receiver moves `head` and reloads `tail`.

Indices are `usize` values, `Nat`s below `2 ^ 64` with `wrapping_add` and `wrapping_sub` written
out. An `assume!` that fails, a read of an uninitialized cell and a `next_power_of_two` past
`2 ^ 63` are a `none`. The wakers only notify a peer and are left out.
-/

namespace S2nQuic.Sync.Spsc

open Ring
open Slice.Deque (Span)

def MINIMUM_CAPACITY : Nat := 2

/-- `usize::wrapping_add`. -/
def wrappingAdd (a b : Nat) : Nat := (a + b) % 2 ^ 64

/-- `usize::wrapping_sub` of two `usize` values. -/
def wrappingSub (a b : Nat) : Nat := (a + 2 ^ 64 - b) % 2 ^ 64

/-- The `assume!`s of `wrap_index` and `count` on the size of the ring. -/
def sizeOk (size : Nat) : Bool := size.isPowerOfTwo && MINIMUM_CAPACITY ≤ size

/-- Returns the index in the underlying buffer for a given logical element index -/
def wrapIndex (index size : Nat) : Option Nat :=
  if sizeOk size then some (index &&& (size - 1)) else none

/-- Calculate the number of elements left to be read in the buffer -/
def count (head tail size : Nat) : Option Nat :=
  if sizeOk size then some (wrappingSub tail head &&& (size - 1)) else none

structure Cursor where
  head : Nat
  tail : Nat
  capacity : Nat
deriving DecidableEq, Repr

namespace Cursor

def new (capacity : Nat) : Cursor := ⟨0, 0, capacity⟩

/-- The `assume!`s of `invariants`. -/
def invariants (self : Cursor) : Bool :=
  MINIMUM_CAPACITY ≤ self.capacity && self.head < self.capacity && self.tail < self.capacity &&
    (count self.head self.tail self.capacity).any (· < self.capacity)

/-- `Cursor::capacity`: the callers never fill the last slot. -/
def usableCapacity (self : Cursor) : Option Nat :=
  if self.invariants then some (self.capacity - 1) else none

def len (self : Cursor) : Option Nat :=
  if self.invariants then count self.head self.tail self.capacity else none

def isEmpty (self : Cursor) : Option Bool :=
  if self.invariants then some (self.tail == self.head) else none

def isFull (self : Cursor) : Option Bool :=
  if self.invariants then (count self.tail self.head self.capacity).map (· == 1) else none

def recvLen (self : Cursor) : Option Nat :=
  if self.invariants then self.len else none

/-- `send_capacity`; its subtraction would panic below zero. -/
def sendCapacity (self : Cursor) : Option Nat :=
  if self.invariants then
    self.usableCapacity.bind fun capacity => self.recvLen.bind fun recvLen =>
      if recvLen ≤ capacity then some (capacity - recvLen) else none
  else none

def wrapAdd (self : Cursor) (idx addend : Nat) : Option Nat :=
  if self.invariants then wrapIndex (wrappingAdd idx addend) self.capacity else none

/-- `increment_head`, with the `assume!`s before and after. -/
def incrementHead (self : Cursor) (n : Nat) : Option Cursor :=
  if self.invariants ∧ n ≤ self.capacity - 1 then
    (self.wrapAdd self.head n).bind fun head =>
      if { self with head }.invariants then some { self with head } else none
  else none

def incrementTail (self : Cursor) (n : Nat) : Option Cursor :=
  if self.invariants ∧ n ≤ self.capacity - 1 then
    (self.wrapAdd self.tail n).bind fun tail =>
      if { self with tail }.invariants then some { self with tail } else none
  else none

def isContiguous (self : Cursor) : Bool := self.head ≤ self.tail

end Cursor

/-! ## The cells -/

/-- `Pair<Slice<Cell<T>>>`: a head part and a tail part of the buffer. The empty slice `&[]` is
`⟨0, 0⟩`. -/
structure Pair where
  head : Span
  tail : Span
deriving DecidableEq, Repr

namespace Pair

variable {α : Type}

def len (p : Pair) : Nat := p.head.len + p.tail.len

/-- `Pair::cell`: the index in the buffer of the `index`-th cell of the pair, past the head part
into the tail part. -/
def cell (p : Pair) (index : Nat) : Option Nat :=
  if index < p.head.len then some (p.head.start + index)
  else if index - p.head.len < p.tail.len then some (p.tail.start + (index - p.head.len))
  else none

/-- `Pair::write`: the cell takes the value. -/
def write (p : Pair) (data : List (Option α)) (index : Nat) (value : α) :
    Option (List (Option α)) :=
  (p.cell index).map fun i => data.set i (some value)

/-- `Pair::take`: the value moves out and the cell is uninitialized again; an uninitialized cell
cannot be read. -/
def take (p : Pair) (data : List (Option α)) (index : Nat) : Option (List (Option α) × α) :=
  (p.cell index).bind fun i => (data[i]?.join).map fun value => (data.set i none, value)

/-- The indices of `Pair::iter`: the head part, then the tail part. -/
def indices (p : Pair) : List Nat :=
  List.range' p.head.start p.head.len ++ List.range' p.tail.start p.tail.len

/-- Take the values of the cells at `indices`, in order. -/
def takeAll (data : List (Option α)) : List Nat → Option (List (Option α) × List α)
  | [] => some (data, [])
  | i :: is => (data[i]?.join).bind fun value =>
    (takeAll (data.set i none) is).map fun r => (r.1, value :: r.2)

/-- The values of the cells at `indices`, which must all be initialized. -/
def readAll (data : List (Option α)) (indices : List Nat) : Option (List α) :=
  indices.mapM fun i => data[i]?.join

end Pair

/-- `data_to_pairs`: the filled and the unfilled cells of a buffer of `dataLen` cells. -/
def dataToPairs (cursor : Cursor) (dataLen : Nat) : Option (Pair × Pair) :=
  if cursor.invariants then
    let head := cursor.head
    let tail := cursor.tail
    let pairs : Option (Pair × Pair) :=
      if cursor.isContiguous then
        -- `split_at(tail)`, then `split_at(head)` of the cells before `tail`
        if tail ≤ dataLen ∧ head ≤ tail then
          some (⟨⟨head, tail⟩, ⟨0, 0⟩⟩, ⟨⟨tail, dataLen⟩, ⟨0, head⟩⟩)
        else none
      else
        -- `split_at(head)`, then `split_at(tail)` of the cells before `head`
        if head ≤ dataLen ∧ tail ≤ head then
          some (⟨⟨head, dataLen⟩, ⟨0, tail⟩⟩, ⟨⟨tail, head⟩, ⟨0, 0⟩⟩)
        else none
    pairs.bind fun pairs => cursor.recvLen.bind fun recvLen =>
      if Pair.len pairs.1 = recvLen then some pairs else none
  else none

/-! ## One side's state -/

structure ClosedError where
deriving DecidableEq, Repr

/-- The shared allocation: the atomics of `Header` and the cells after it. -/
structure Header (T : Type) where
  head : Nat
  tail : Nat
  «open» : Bool
  data : List (Option T)

structure State (T : Type) where
  header : Header T
  cursor : Cursor

namespace State

variable {T : Type}

/-- `State::new`: a zero-sized `T` takes `usize::MAX / 2 + 1` slots, any other one more than
asked for, at least `MINIMUM_CAPACITY`, up to a power of two. -/
def new (isZst : Bool) (capacity : Nat) : Option (State T) :=
  if isZst then
    some ⟨⟨0, 0, true, List.replicate (2 ^ 63) none⟩, Cursor.new (2 ^ 63)⟩
  else if 2 ^ 63 < max (capacity + 1) MINIMUM_CAPACITY then none
  else
    let capacity := nextPowerOfTwo (max (capacity + 1) MINIMUM_CAPACITY)
    some ⟨⟨0, 0, true, List.replicate capacity none⟩, Cursor.new capacity⟩

/-- `acquire_capacity`: reload the receiver's `head`; `true` unless the ring is full. -/
def acquireCapacity (self : State T) : Option (State T × Except ClosedError Bool) :=
  if !self.header.open then some (self, .error ⟨⟩)
  else
    let loaded : State T := { self with cursor := { self.cursor with head := self.header.head } }
    loaded.cursor.isFull.map fun isFull => (loaded, .ok !isFull)

/-- `acquire_filled`: reload the sender's `tail`; `true` unless the ring is empty, and an error
for an empty ring once the channel is closed. -/
def acquireFilled (self : State T) : Option (State T × Except ClosedError Bool) :=
  let loaded : State T := { self with cursor := { self.cursor with tail := self.header.tail } }
  loaded.cursor.isEmpty.bind fun isEmpty =>
    if !isEmpty then some (loaded, .ok true)
    else if !self.header.open then
      -- make one more effort to load the remaining items
      let reloaded : State T :=
        { loaded with cursor := { loaded.cursor with tail := self.header.tail } }
      reloaded.cursor.isEmpty.map fun isEmpty =>
        (reloaded, if !isEmpty then .ok true else .error ⟨⟩)
    else some (loaded, .ok false)

/-- `persist_head`: publish `head` if it moved since `prev`. -/
def persistHead (self : State T) (prev : Cursor) : State T :=
  if prev.head == self.cursor.head then self
  else { self with header := { self.header with head := self.cursor.head } }

/-- `persist_tail`: publish `tail` if it moved since `prev`. -/
def persistTail (self : State T) (prev : Cursor) : State T :=
  if prev.tail == self.cursor.tail then self
  else { self with header := { self.header with tail := self.cursor.tail } }

/-- `data`: the cells, as many as the cursor's capacity. -/
def data (self : State T) : Option (List (Option T)) :=
  if self.header.data.length = self.cursor.capacity then some self.header.data else none

/-- `as_pairs`. -/
def asPairs (self : State T) : Option (Pair × Pair) :=
  self.data.bind fun data => dataToPairs self.cursor data.length

/-- `drop_contents`: refresh the cursor from the shared indices and drop every filled value (a
zero-sized value is not dropped). The values dropped are handed back. -/
def dropContents (isZst : Bool) (self : State T) : Option (State T × List T) :=
  let self : State T :=
    { self with cursor := { self.cursor with head := self.header.head, tail := self.header.tail } }
  self.asPairs.bind fun pairs =>
    if isZst then some (self, [])
    else (Pair.takeAll self.header.data pairs.1.indices).map fun r =>
      ({ self with header := { self.header with data := r.1 } }, r.2)

/-- `close`: clear `open`; the side that finds it cleared already drops the contents. -/
def close (isZst : Bool) (self : State T) : Option (State T × Option (List T)) :=
  let wasOpen := self.header.open
  let self : State T := { self with header := { self.header with «open» := false } }
  if !wasOpen then (dropContents isZst self).map fun r => (r.1, some r.2)
  else some (self, none)

end State

/-! ## Rings of a valid size -/

theorem add_mod_sub_mod {r s cap : Nat} (hr : r < cap) (hs : s < cap) :
    ((r + s) % cap + cap - r) % cap = s % cap := by
  rcases Nat.lt_or_ge (r + s) cap with hlt | hge
  · rw [Nat.mod_eq_of_lt hlt, show r + s + cap - r = s + cap by omega, Nat.add_mod_right]
  · rw [add_mod_of_lt (show r + s < 2 * cap by omega), if_neg (show ¬r + s < cap by omega),
      show r + s - cap + cap - r = s by omega]

/-- A ring size of a channel: a power of two from `MINIMUM_CAPACITY` up to `2 ^ 63`, so that it
divides `2 ^ 64` and an index plus a count stays below `2 ^ 64`. -/
structure Size (cap : Nat) : Prop where
  pow : cap.isPowerOfTwo
  two_le : MINIMUM_CAPACITY ≤ cap
  le : cap ≤ 2 ^ 63

namespace Size

variable {cap : Nat} (h : Size cap)
include h

theorem pos : 0 < cap := by
  have := h.two_le
  unfold MINIMUM_CAPACITY at this
  omega

theorem sizeOk_eq : sizeOk cap = true := by
  have := h.two_le
  simp [sizeOk, h.pow, this]

theorem dvd : cap ∣ 2 ^ 64 := by
  obtain ⟨k, rfl⟩ := h.pow
  apply Nat.pow_dvd_pow 2
  have hle := h.le
  by_contra hk
  have : 2 ^ 64 ≤ 2 ^ k := Nat.pow_le_pow_right (by norm_num) (by omega)
  omega

theorem count_eq {head tail : Nat} (hh : head < cap) (ht : tail < cap) :
    count head tail cap = some ((tail + cap - head) % cap) := by
  obtain ⟨d, hd⟩ := h.dvd
  have hd1 : 1 ≤ d := by
    rcases d with _ | d
    · simp at hd
    · omega
  have hsplit : tail + 2 ^ 64 - head = (tail + cap - head) + cap * (d - 1) := by
    have : cap * d = cap * (d - 1) + cap := by
      rw [← Nat.mul_succ, Nat.succ_eq_add_one, Nat.sub_add_cancel hd1]
    omega
  rw [count, if_pos h.sizeOk_eq, wrappingSub, and_sub_one_eq_mod h.pow,
    Nat.mod_mod_of_dvd _ h.dvd, hsplit, Nat.add_mul_mod_self_left]

theorem wrapIndex_eq {idx n : Nat} (hi : idx < cap) (hn : n < cap) :
    wrapIndex (wrappingAdd idx n) cap = some ((idx + n) % cap) := by
  have hle := h.le
  rw [wrapIndex, if_pos h.sizeOk_eq, wrappingAdd, and_sub_one_eq_mod h.pow,
    Nat.mod_eq_of_lt (show idx + n < 2 ^ 64 by omega)]

end Size

/-- A cursor whose `assume!`s hold. -/
structure Cursor.Valid (c : Cursor) : Prop where
  size : Size c.capacity
  head_lt : c.head < c.capacity
  tail_lt : c.tail < c.capacity

namespace Cursor.Valid

variable {c : Cursor} (h : c.Valid)
include h

theorem invariants_eq : c.invariants = true := by
  have := h.size.two_le
  simp [Cursor.invariants, h.head_lt, h.tail_lt, this, h.size.count_eq h.head_lt h.tail_lt,
    Nat.mod_lt _ h.size.pos]

theorem len_eq : c.len = some ((c.tail + c.capacity - c.head) % c.capacity) := by
  rw [Cursor.len, if_pos h.invariants_eq, h.size.count_eq h.head_lt h.tail_lt]

theorem recvLen_eq : c.recvLen = some ((c.tail + c.capacity - c.head) % c.capacity) := by
  rw [Cursor.recvLen, if_pos h.invariants_eq, h.len_eq]

theorem isEmpty_eq : c.isEmpty = some (c.tail == c.head) := by
  rw [Cursor.isEmpty, if_pos h.invariants_eq]

theorem isFull_eq : c.isFull = some ((c.head + c.capacity - c.tail) % c.capacity == 1) := by
  rw [Cursor.isFull, if_pos h.invariants_eq, h.size.count_eq h.tail_lt h.head_lt, Option.map_some]

theorem usableCapacity_eq : c.usableCapacity = some (c.capacity - 1) := by
  rw [Cursor.usableCapacity, if_pos h.invariants_eq]

theorem sendCapacity_eq :
    c.sendCapacity = some (c.capacity - 1 - (c.tail + c.capacity - c.head) % c.capacity) := by
  have hlt := Nat.mod_lt (c.tail + c.capacity - c.head) h.size.pos
  rw [Cursor.sendCapacity, if_pos h.invariants_eq, h.usableCapacity_eq, Option.bind_some,
    h.recvLen_eq, Option.bind_some, if_pos (by omega)]

theorem incrementHead_eq {n : Nat} (hn : n ≤ c.capacity - 1) :
    c.incrementHead n = some { c with head := (c.head + n) % c.capacity } := by
  have hpos := h.size.pos
  have hv : ({ c with head := (c.head + n) % c.capacity } : Cursor).Valid :=
    ⟨h.size, Nat.mod_lt _ hpos, h.tail_lt⟩
  rw [Cursor.incrementHead, if_pos ⟨h.invariants_eq, hn⟩, Cursor.wrapAdd, if_pos h.invariants_eq,
    h.size.wrapIndex_eq h.head_lt (by omega), Option.bind_some, if_pos hv.invariants_eq]

theorem incrementTail_eq {n : Nat} (hn : n ≤ c.capacity - 1) :
    c.incrementTail n = some { c with tail := (c.tail + n) % c.capacity } := by
  have hpos := h.size.pos
  have hv : ({ c with tail := (c.tail + n) % c.capacity } : Cursor).Valid :=
    ⟨h.size, h.head_lt, Nat.mod_lt _ hpos⟩
  rw [Cursor.incrementTail, if_pos ⟨h.invariants_eq, hn⟩, Cursor.wrapAdd, if_pos h.invariants_eq,
    h.size.wrapIndex_eq h.tail_lt (by omega), Option.bind_some, if_pos hv.invariants_eq]

end Cursor.Valid

/-! ## The pairs of a valid cursor -/

namespace Pair

theorem getElem?_indices (p : Pair) (j : Nat) : p.indices[j]? = p.cell j := by
  rw [indices, List.getElem?_append, List.length_range', cell]
  by_cases h1 : j < p.head.len
  · rw [if_pos h1, if_pos h1, List.getElem?_range' h1, Nat.one_mul]
  · rw [if_neg h1, if_neg h1]
    by_cases h2 : j - p.head.len < p.tail.len
    · rw [if_pos h2, List.getElem?_range' h2, Nat.one_mul]
    · rw [if_neg h2, List.getElem?_eq_none (by simpa using h2)]

theorem indices_eq_map (p : Pair) {f : Nat → Nat} (hf : ∀ i, i < p.len → p.cell i = some (f i)) :
    p.indices = (List.range p.len).map f := by
  apply List.ext_getElem?
  intro j
  rw [getElem?_indices, List.getElem?_map]
  by_cases hj : j < p.len
  · rw [hf j hj, List.getElem?_range hj, Option.map_some]
  · rw [List.getElem?_eq_none (by simpa using hj), Option.map_none, cell, if_neg (by
      simp only [len] at hj; omega), if_neg (by simp only [len] at hj; omega)]

end Pair

/-- The number of filled cells of a cursor, as `len` computes it. -/
def Cursor.filled (c : Cursor) : Nat := (c.tail + c.capacity - c.head) % c.capacity

namespace Cursor.Valid

variable {c : Cursor} (h : c.Valid)
include h

theorem filled_lt : c.filled < c.capacity := Nat.mod_lt _ h.size.pos

theorem dataToPairs_spec :
    ∃ filled unfilled, dataToPairs c c.capacity = some (filled, unfilled) ∧
      filled.len = c.filled ∧
      (∀ i, i < c.filled → filled.cell i = some ((c.head + i) % c.capacity)) ∧
      (∀ i, i < c.capacity - c.filled → unfilled.cell i = some ((c.tail + i) % c.capacity)) := by
  have hh := h.head_lt
  have ht := h.tail_lt
  have hrecv : c.recvLen = some c.filled := h.recvLen_eq
  unfold dataToPairs
  rw [if_pos h.invariants_eq]
  by_cases hc : c.head ≤ c.tail
  · -- the filled cells lie between `head` and `tail`
    have hf : c.filled = c.tail - c.head := by
      rw [Cursor.filled, show c.tail + c.capacity - c.head = c.tail - c.head + c.capacity by omega,
        Nat.add_mod_right, Nat.mod_eq_of_lt (by omega)]
    simp only [Cursor.isContiguous, decide_eq_true hc, if_true, if_pos (And.intro ht.le hc),
      Option.bind_some, hrecv]
    refine ⟨_, _, if_pos (by simp [Pair.len, Span.len, hf]), ?_, ?_, ?_⟩
    · simp [Pair.len, Span.len, hf]
    · intro i hi
      rw [Pair.cell, if_pos (by simp [Span.len]; omega), Nat.mod_eq_of_lt (by omega)]
    · intro i hi
      rw [Pair.cell]
      split_ifs with h1 h2
      · rw [Nat.mod_eq_of_lt (by simp [Span.len] at h1; omega)]
      · simp only [Span.len] at h1 h2 ⊢
        rw [add_mod_of_lt (by omega), if_neg (by omega)]
        congr 1
        omega
      · simp only [Span.len] at h1 h2
        omega
  · -- the filled cells wrap past the end of the buffer
    have hf : c.filled = c.tail + c.capacity - c.head := Nat.mod_eq_of_lt (by omega)
    simp only [Cursor.isContiguous, decide_eq_false hc, Bool.false_eq_true, if_false,
      if_pos (And.intro hh.le (show c.tail ≤ c.head by omega)), Option.bind_some, hrecv]
    refine ⟨_, _, if_pos (by simp only [Pair.len, Span.len, hf]; omega), ?_, ?_, ?_⟩
    · simp only [Pair.len, Span.len, hf]
      omega
    · intro i hi
      rw [Pair.cell]
      split_ifs with h1 h2
      · rw [Nat.mod_eq_of_lt (by simp [Span.len] at h1; omega)]
      · simp only [Span.len] at h1 h2 ⊢
        rw [add_mod_of_lt (by omega), if_neg (by omega)]
        congr 1
        omega
      · simp only [Span.len] at h1 h2
        omega
    · intro i hi
      rw [Pair.cell, if_pos (by simp [Span.len]; omega), Nat.mod_eq_of_lt (by omega)]

end Cursor.Valid

end S2nQuic.Sync.Spsc
