import S2nQuic.Slice.Deque

/-!
# The byte ring buffer

`buffer/deque.rs` and its `writer::Storage` and `reader::Storage` impls (`buffer/deque/storage.rs`):
a fixed-capacity ring of bytes whose capacity is a power of two. A cell is a `MaybeUninit<u8>`,
here `Option UInt8` with `none` for a cell never written; `assume_init` of a cell that was never
written is undefined behaviour, and so a `none` of the model, as is every `assume!`, `assert!`,
`debug_assert!` and `unwrap` that fails.

The deque refines a bounded FIFO queue of bytes (`Spec`): at every step of a run of calls that keep
to the documented preconditions, the bytes it hands out are the front of the queue and what it
appends goes to the back.
-/

namespace S2nQuic.Buffer

open Ring

/-- A fixed-capacity ring buffer for bytes -/
structure Deque where
  bytes : List (Option UInt8)
  head : Nat
  len : Nat
deriving DecidableEq, Repr

/-- A `Vec<u8>`: its bytes and the capacity of its allocation. -/
structure Vec where
  data : List UInt8
  capacity : Nat
  len_le : data.length ≤ capacity

def Vec.fifo (buffer : Vec) : Fifo UInt8 :=
  ⟨nextPowerOfTwo buffer.capacity, buffer.data, buffer.len_le.trans (le_nextPowerOfTwo _)⟩

/-- `FillError`: the buffer does not have enough capacity for the provided fill amount. -/
inductive FillError where
  | mk
deriving DecidableEq, Repr

namespace Deque

/-- `From<Vec<u8>>`: the allocation of the vector, grown to a power of two, with its bytes first.
The `debug_assert!` that the new capacity is a power of two holds by
`isPowerOfTwo_nextPowerOfTwo`. -/
def fromVec (buffer : Vec) : Deque :=
  let len := buffer.data.length
  let capacity :=
    if buffer.capacity.isPowerOfTwo then buffer.capacity else nextPowerOfTwo buffer.capacity
  ⟨buffer.data.map some ++ List.replicate (capacity - len) none, 0, len⟩

def new (capacity : Nat) : Deque := ⟨List.replicate (nextPowerOfTwo capacity) none, 0, 0⟩

def capacity (self : Deque) : Nat := self.bytes.length

/-- The `assume!`s of `preconditions`. -/
def preconditions (self : Deque) : Prop :=
  Slice.Deque.invariants self.bytes self.head self.len = true ∧ self.capacity.isPowerOfTwo

instance (self : Deque) : Decidable self.preconditions :=
  inferInstanceAs (Decidable (_ ∧ _))

/-- The `debug_assert!` of `postconditions`. -/
def postconditions (self : Deque) : Prop := Slice.Deque.invariants self.bytes self.head self.len = true

instance (self : Deque) : Decidable self.postconditions :=
  inferInstanceAs (Decidable (_ = _))

def remainingCapacity (self : Deque) : Option Nat :=
  if self.preconditions then some (self.capacity - self.len) else none

def isEmpty (self : Deque) : Bool := self.len == 0

/-- Resets the filled bytes in the buffer -/
def clear (self : Deque) : Deque := { self with head := 0, len := 0 }

/-- Consumes `len` bytes from the head of the buffer -/
def consume (self : Deque) (len : Nat) : Option Deque :=
  if self.preconditions ∧ self.len ≥ len then
    if len ≥ self.len then some self.clear
    else do
      let head ← Slice.Deque.wrap self.bytes self.head len
      let self := { self with head, len := self.len - len }
      if self.postconditions then some self else none
  else none

/-- `assume_init`: the bytes of the cells, `none` if one was never written. -/
def assumeInit (cells : List (Option UInt8)) : Option (List UInt8) := cells.mapM id

def readPair (self : Deque) (p : Slice.Deque.Pair Slice.Deque.Span) :
    Option (Slice.Deque.Pair (List UInt8)) := do
  let head ← assumeInit (p.head.read self.bytes)
  let tail ← assumeInit (p.tail.read self.bytes)
  some ⟨head, tail⟩

/-- Returns the filled bytes in the buffer -/
def filled (self : Deque) : Option (Slice.Deque.Pair (List UInt8)) :=
  if self.preconditions then do
    let p ← Slice.Deque.filled self.bytes self.head self.len
    self.readPair p
  else none

/-- Returns and consumes `len` filled bytes in the buffer -/
def consumeFilled (self : Deque) (len : Nat) : Option (Deque × Slice.Deque.Pair (List UInt8)) :=
  if self.preconditions then do
    let head := self.head
    let self ← self.consume len
    if self.postconditions then do
      let p ← Slice.Deque.filled self.bytes head len
      let p ← self.readPair p
      some (self, p)
    else none
  else none

/-- Returns the unfilled bytes in the buffer -/
def unfilled (self : Deque) : Option (Slice.Deque.Pair Slice.Deque.Span) :=
  if self.preconditions then Slice.Deque.unfilled self.bytes self.head self.len else none

/-- Makes the buffer contiguous and contained in a single slice -/
def makeContiguous (self : Deque) : Option (Deque × List UInt8) :=
  if self.preconditions then do
    let (bytes, head) ← Slice.Deque.makeContiguous self.bytes self.head self.len
    let self := { self with bytes, head }
    if self.postconditions then do
      let p ← self.filled
      -- `debug_assert!(tail.is_empty())`
      if p.tail.isEmpty then some (self, p.head) else none
    else none
  else none

/-- Notifies the buffer that `len` bytes were written to it -/
def fill (self : Deque) (len : Nat) : Option (Except FillError Deque) := do
  let remaining ← self.remainingCapacity
  if remaining ≥ len then
    let self := { self with len := self.len + len }
    if self.postconditions then some (.ok self) else none
  else some (.error .mk)

/-! ## `writer::Storage` and `reader::Storage` -/

/-- `put_slice`: the bytes go into the unfilled parts, then `fill(bytes.len()).unwrap()`. -/
def putSlice (self : Deque) (bytes : List UInt8) : Option Deque := do
  let p ← self.unfilled
  let cells ← p.putSlice self.bytes (bytes.map some)
  match ← { self with bytes := cells }.fill bytes.length with
  | .ok self => some self
  | .error _ => none

/-- `put_uninit_slice`: `f` writes `payload_len` bytes into the head of the unfilled parts, given
here by what it writes or the error it returns, or nothing is written (`Ok(false)`) when that part
is shorter. The cells `f` may have written before an error lie outside the filled bytes and are not
modelled. -/
def putUninitSlice {ε : Type} (self : Deque) (payloadLen : Nat) (f : Except ε (List UInt8)) :
    Option (Except ε (Bool × Deque)) := do
  let p ← self.unfilled
  if p.head.len ≥ payloadLen then
    match f with
    | .error e => some (.error e)
    | .ok data =>
      -- `f` is handed `payload_len` cells from the start of the head part
      let cells := writeAt self.bytes p.head.start ((data.take payloadLen).map some)
      match ← { self with bytes := cells }.fill payloadLen with
      | .ok self => some (.ok (true, self))
      | .error _ => none
  else some (.ok (false, self))

/-- `read_chunk`: the filled head part, up to `watermark` bytes, consumed. -/
def readChunk (self : Deque) (watermark : Nat) : Option (Deque × List UInt8) :=
  if watermark > 0 ∧ !self.isEmpty then do
    let p ← self.filled
    -- `debug_assert!(!head.is_empty())`
    if p.head.isEmpty then none
    else
      let (self, p) ← self.consumeFilled (min p.head.length watermark)
      some (self, p.head)
  else some (self, [])

/-- `partial_copy_into`: as many bytes as `dest` accepts are consumed; when the filled head part is
shorter than that it goes to `dest` and the tail part is returned, else the head part is returned. -/
def partialCopyInto (self : Deque) (dest : Slice.Deque.Sink UInt8) :
    Option (Deque × Slice.Deque.Sink UInt8 × List UInt8) :=
  if dest.remainingCapacity > 0 ∧ !self.isEmpty then do
    let len := min self.len dest.remainingCapacity
    let p ← self.filled
    let shouldReturnTail := decide (p.head.length < len)
    let (self, p) ← self.consumeFilled len
    if shouldReturnTail then
      let dest ← dest.putSlice p.head
      some (self, dest, p.tail)
    else some (self, dest, p.head)
  else some (self, dest, [])

/-- `copy_into`: as many bytes as `dest` accepts are consumed and copied into it. -/
def copyInto (self : Deque) (dest : Slice.Deque.Sink UInt8) :
    Option (Deque × Slice.Deque.Sink UInt8) :=
  if dest.remainingCapacity > 0 ∧ !self.isEmpty then do
    let (self, p) ← self.consumeFilled (min self.len dest.remainingCapacity)
    let dest ← p.copyInto dest
    some (self, dest)
  else some (self, dest)

/-! ## Specs -/

/-- The buffer holds `items`: its `preconditions` hold and the `len` cells from `head` are those
bytes, each written. -/
structure Contents (deque : Deque) (items : List UInt8) : Prop where
  preconditions : deque.preconditions
  window_eq : window deque.bytes deque.head deque.len = items.map some

section Specs

variable {self : Deque} {items : List UInt8}

theorem assumeInit_map_some (l : List UInt8) : assumeInit (l.map some) = some l := by
  induction l with
  | nil => rfl
  | cons b l ih =>
    rw [assumeInit] at ih ⊢
    simp [List.mapM_cons, ih]

theorem preconditions_iff :
    self.preconditions ↔ (0 < self.capacity ∧ self.head < self.capacity ∧ self.len ≤ self.capacity) ∧
      self.capacity.isPowerOfTwo := by
  rw [preconditions, Slice.Deque.invariants_iff]
  rfl

theorem Contents.bounds (h : self.Contents items) :
    self.head < self.capacity ∧ self.len ≤ self.capacity :=
  ⟨(preconditions_iff.mp h.preconditions).1.2.1, (preconditions_iff.mp h.preconditions).1.2.2⟩

theorem Contents.len_eq (h : self.Contents items) : self.len = items.length := by
  have hw := congrArg List.length h.window_eq
  rwa [length_window _ h.bounds.2, List.length_map] at hw

theorem readPair_filledParts {head len : Nat} {xs : List UInt8}
    (hhead : head < self.capacity) (hlen : len ≤ self.capacity)
    (hw : window self.bytes head len = xs.map some) :
    self.readPair (Slice.Deque.filledParts self.capacity head len) =
      some ⟨xs.take (min len (self.capacity - head)), xs.drop (min len (self.capacity - head))⟩ := by
  have hread := Slice.Deque.read_filledParts (show head < self.bytes.length from hhead) hlen
  rw [capacity] at *
  have hheadLen : ((Slice.Deque.filledParts self.bytes.length head len).head.read self.bytes).length =
      min len (self.bytes.length - head) := by
    simp only [Slice.Deque.filledParts, Slice.Deque.Span.read]
    split_ifs <;> dsimp only <;> rw [length_cells (by omega)] <;> omega
  rw [Slice.Deque.Pair.read, hw] at hread
  obtain ⟨l₁, l₂, hxs, h₁, h₂⟩ := List.map_eq_append_iff.mp hread.symm
  have hl₁ : l₁ = xs.take (min len (self.bytes.length - head)) := by
    rw [hxs, ← hheadLen, ← h₁, List.length_map, List.take_left]
  have hl₂ : l₂ = xs.drop (min len (self.bytes.length - head)) := by
    rw [hxs, ← hheadLen, ← h₁, List.length_map, List.drop_left]
  rw [readPair, ← h₁, ← h₂, assumeInit_map_some, Option.bind_eq_bind, Option.bind_some,
    assumeInit_map_some, Option.bind_some, hl₁, hl₂]

theorem preconditions_of_cursors (h : self.preconditions) {head len : Nat} (hhead : head < self.capacity)
    (hlen : len ≤ self.capacity) : ({ self with head, len } : Deque).preconditions :=
  preconditions_iff.mpr ⟨⟨(preconditions_iff.mp h).1.1, hhead, hlen⟩, (preconditions_iff.mp h).2⟩

theorem Contents.clear (h : self.Contents items) : self.clear.Contents [] :=
  ⟨preconditions_of_cursors h.preconditions (by have := h.bounds; omega) (Nat.zero_le _),
    window_zero _ _⟩

theorem consume_spec (h : self.Contents items) {n : Nat} (hn : n ≤ self.len) :
    ∃ deque, self.consume n = some deque ∧ deque.bytes = self.bytes ∧ deque.Contents (items.drop n) := by
  obtain ⟨hhead, hlen⟩ := h.bounds
  have hlenEq := h.len_eq
  have hcap : self.capacity = self.bytes.length := rfl
  unfold consume
  rw [if_pos ⟨h.preconditions, hn⟩]
  by_cases hall : n ≥ self.len
  · rw [if_pos hall, List.drop_of_length_le (by omega)]
    exact ⟨self.clear, rfl, rfl, h.clear⟩
  · have hmod := Nat.mod_lt (self.head + n) (show 0 < self.capacity by omega)
    have hpre := preconditions_of_cursors h.preconditions hmod (show self.len - n ≤ self.capacity by omega)
    have hinv : Slice.Deque.invariants self.bytes self.head n = true :=
      Slice.Deque.invariants_iff.mpr ⟨(preconditions_iff.mp h.preconditions).1.1, hhead, by omega⟩
    rw [if_neg hall, Slice.Deque.wrap_eq hinv, Option.bind_eq_bind, Option.bind_some]
    dsimp only
    rw [← hcap, if_pos (show Deque.postconditions _ from hpre.1)]
    refine ⟨_, rfl, rfl, hpre, ?_⟩
    show window self.bytes ((self.head + n) % self.bytes.length) (self.len - n) = _
    rw [← drop_window hhead hlen (by omega), h.window_eq, List.map_drop]

theorem filled_spec (h : self.Contents items) :
    self.filled = some ⟨items.take (min self.len (self.capacity - self.head)),
      items.drop (min self.len (self.capacity - self.head))⟩ := by
  rw [filled, if_pos h.preconditions, Slice.Deque.filled_eq h.preconditions.1, Option.bind_eq_bind,
    Option.bind_some]
  exact readPair_filledParts h.bounds.1 h.bounds.2 h.window_eq

theorem consumeFilled_spec (h : self.Contents items) {n : Nat} (hn : n ≤ self.len) :
    ∃ deque, self.consumeFilled n = some (deque, ⟨(items.take n).take (min n (self.capacity - self.head)),
      (items.take n).drop (min n (self.capacity - self.head))⟩) ∧
      deque.bytes = self.bytes ∧ deque.Contents (items.drop n) := by
  obtain ⟨hhead, hlen⟩ := h.bounds
  obtain ⟨deque, hconsume, hbytes, hdeque⟩ := consume_spec h hn
  have hcap : deque.capacity = self.capacity := by rw [capacity, hbytes, capacity]
  have hlength : deque.bytes.length = deque.capacity := rfl
  have hinv : Slice.Deque.invariants deque.bytes self.head n = true :=
    Slice.Deque.invariants_iff.mpr ⟨by rw [hbytes]; exact (preconditions_iff.mp h.preconditions).1.1,
      by rw [hbytes]; exact hhead, by rw [hbytes]; exact hn.trans hlen⟩
  have hwindow : window deque.bytes self.head n = (items.take n).map some := by
    rw [hbytes, ← take_window _ _ hn, h.window_eq, List.map_take]
  refine ⟨deque, ?_, hbytes, hdeque⟩
  rw [consumeFilled, if_pos h.preconditions, Option.bind_eq_bind, hconsume, Option.bind_some,
    if_pos (show deque.postconditions from hdeque.preconditions.1), Option.bind_eq_bind,
    Slice.Deque.filled_eq hinv, Option.bind_some, hlength,
    readPair_filledParts (by rw [hcap]; exact hhead) (by rw [hcap]; omega) hwindow, Option.bind_eq_bind,
    Option.bind_some, hcap]

theorem unfilled_spec (h : self.preconditions) :
    self.unfilled = some (Slice.Deque.unfilledParts self.capacity self.head self.len) := by
  rw [unfilled, if_pos h, Slice.Deque.unfilled_eq h.1]
  rfl

theorem fill_spec (h : self.preconditions) {n : Nat} (hn : self.len + n ≤ self.capacity) :
    self.fill n = some (.ok { self with len := self.len + n }) := by
  have hpre := preconditions_of_cursors h (preconditions_iff.mp h).1.2.1 hn
  rw [fill, remainingCapacity, if_pos h, Option.bind_eq_bind, Option.bind_some, if_pos (by omega)]
  dsimp only
  rw [if_pos (show Deque.postconditions _ from hpre.1)]

theorem preconditions_of_cells (h : self.preconditions) {cells : List (Option UInt8)}
    (hcells : cells.length = self.bytes.length) : ({ self with bytes := cells } : Deque).preconditions := by
  obtain ⟨⟨h0, hh, hl⟩, hpow⟩ := preconditions_iff.mp h
  exact preconditions_iff.mpr ⟨⟨by simp only [capacity] at *; omega, by simp only [capacity] at *; omega,
    by simp only [capacity] at *; omega⟩, by simpa only [capacity, hcells] using hpow⟩

theorem Contents.write (h : self.Contents items) {cells : List (Option UInt8)} {bytes : List UInt8}
    (hcells : cells.length = self.bytes.length)
    (hwindow : window cells self.head (self.len + bytes.length) =
      window self.bytes self.head self.len ++ bytes.map some)
    (hb : items.length + bytes.length ≤ self.capacity) {n : Nat} (hn : n ≤ bytes.length) :
    ({ self with bytes := cells } : Deque).fill n =
        some (.ok { self with bytes := cells, len := self.len + n }) ∧
      ({ self with bytes := cells, len := self.len + n } : Deque).Contents (items ++ bytes.take n) := by
  have hpre := preconditions_of_cells h.preconditions hcells
  have hlenEq := h.len_eq
  refine ⟨fill_spec hpre (by simp only [capacity] at *; omega), ?_, ?_⟩
  · have hhead := h.bounds.1
    exact preconditions_of_cursors hpre (by simp only [capacity] at *; omega)
      (by simp only [capacity] at *; omega)
  · show window cells self.head (self.len + n) = _
    rw [← take_window cells self.head (show self.len + n ≤ self.len + bytes.length by omega), hwindow,
      h.window_eq, List.take_append, List.length_map, ← hlenEq, Nat.add_sub_cancel_left,
      List.take_of_length_le (by simp only [List.length_map]; omega), List.map_append, List.map_take]

theorem putSlice_spec (h : self.Contents items) {bytes : List UInt8}
    (hb : items.length + bytes.length ≤ self.capacity) :
    ∃ deque, self.putSlice bytes = some deque ∧ deque.capacity = self.capacity ∧
      deque.Contents (items ++ bytes) := by
  have hlenEq := h.len_eq
  obtain ⟨cells, hput, hcells, hwindow⟩ := Slice.Deque.putSlice_unfilledParts
    (show self.head < self.bytes.length from h.bounds.1)
    (show self.len + (bytes.map some).length ≤ self.bytes.length by
      simp only [List.length_map, capacity] at *; omega)
  rw [List.length_map] at hwindow
  obtain ⟨hfill, hcontents⟩ := h.write hcells hwindow hb le_rfl
  rw [List.take_length] at hcontents
  refine ⟨{ self with bytes := cells, len := self.len + bytes.length }, ?_, hcells, hcontents⟩
  rw [putSlice, unfilled_spec h.preconditions, Option.bind_eq_bind, Option.bind_some]
  erw [hput]
  rw [Option.bind_eq_bind, Option.bind_some, Option.bind_eq_bind, hfill, Option.bind_some]

theorem putUninitSlice_spec {ε : Type} (h : self.Contents items) {payloadLen : Nat}
    {f : Except ε (List UInt8)} (hn : items.length + payloadLen ≤ self.capacity)
    (hf : ∀ data, f = .ok data → payloadLen ≤ data.length) :
    self.putUninitSlice payloadLen f = some (.ok (false, self)) ∨
      (∃ e, f = .error e ∧ self.putUninitSlice payloadLen f = some (.error e)) ∨
      ∃ data deque, f = .ok data ∧ self.putUninitSlice payloadLen f = some (.ok (true, deque)) ∧
        deque.capacity = self.capacity ∧ deque.Contents (items ++ data.take payloadLen) := by
  have hlenEq := h.len_eq
  rw [putUninitSlice, unfilled_spec h.preconditions, Option.bind_eq_bind, Option.bind_some]
  by_cases hhead : (Slice.Deque.unfilledParts self.capacity self.head self.len).head.len ≥ payloadLen
  · rw [if_pos hhead]
    cases f with
    | error e => exact .inr (.inl ⟨e, rfl, rfl⟩)
    | ok data =>
      right; right
      have htake : (data.take payloadLen).length = payloadLen := by
        have := hf data rfl
        simp only [List.length_take]
        omega
      -- what `f` writes at the start of the head part is `put_slice` into the unfilled parts
      obtain ⟨cells, hput, hcells, hwindow⟩ := Slice.Deque.putSlice_unfilledParts
        (show self.head < self.bytes.length from h.bounds.1)
        (show self.len + ((data.take payloadLen).map some).length ≤ self.bytes.length by
          simp only [List.length_map, capacity] at *; omega)
      rw [Slice.Deque.putSlice_of_le_head (by rw [List.length_map, htake]; exact hhead),
        Option.some_inj] at hput
      rw [List.length_map] at hwindow
      obtain ⟨hfill, hcontents⟩ := h.write hcells hwindow (by rw [htake]; exact hn) le_rfl
      rw [List.take_length] at hcontents
      rw [htake] at hfill hcontents
      refine ⟨data, { self with bytes := cells, len := self.len + payloadLen }, rfl, ?_, hcells, hcontents⟩
      dsimp only
      erw [hput]
      rw [Option.bind_eq_bind, hfill, Option.bind_some]
  · rw [if_neg hhead]
    exact .inl rfl

theorem Contents.capacity_of_bytes {deque : Deque} (hbytes : deque.bytes = self.bytes) :
    deque.capacity = self.capacity := by
  rw [capacity, hbytes, capacity]

theorem readChunk_spec (h : self.Contents items) (watermark : Nat) :
    ∃ deque k, self.readChunk watermark = some (deque, items.take k) ∧ deque.capacity = self.capacity ∧
      deque.Contents (items.drop k) ∧ k ≤ watermark ∧ (0 < watermark → items ≠ [] → 0 < k) := by
  have hlenEq := h.len_eq
  obtain ⟨hhead, hlen⟩ := h.bounds
  unfold readChunk
  by_cases hread : watermark > 0 ∧ !self.isEmpty
  · have hpos : 0 < self.len := by simpa [isEmpty, Nat.pos_iff_ne_zero] using hread.2
    have hm : (items.take (min self.len (self.capacity - self.head))).length =
        min self.len (self.capacity - self.head) := by simp only [List.length_take]; omega
    rw [if_pos hread, filled_spec h, Option.bind_eq_bind, Option.bind_some,
      if_neg (by rw [List.isEmpty_iff, ← List.length_eq_zero_iff, hm]; omega), hm]
    obtain ⟨deque, hcf, hbytes, hdeque⟩ := consumeFilled_spec h
      (show min (min self.len (self.capacity - self.head)) watermark ≤ self.len by omega)
    rw [hcf, Option.bind_eq_bind, Option.bind_some]
    refine ⟨deque, min (min self.len (self.capacity - self.head)) watermark, ?_,
      Contents.capacity_of_bytes hbytes, hdeque, by omega, fun _ _ => by omega⟩
    have hmin : min (min (min self.len (self.capacity - self.head)) watermark) (self.capacity - self.head) =
        min (min self.len (self.capacity - self.head)) watermark := by omega
    rw [hmin, List.take_take, min_self]
  · rw [if_neg hread]
    refine ⟨self, 0, by rw [List.take_zero], rfl, by rwa [List.drop_zero], Nat.zero_le _, ?_⟩
    intro hw hne
    have hempty : self.len = 0 := by simpa [isEmpty, hw] using hread
    exact absurd (List.length_eq_zero_iff.mp (hlenEq ▸ hempty)) hne

theorem Contents.nothing_to_copy (h : self.Contents items) {c : Nat} (hcopy : ¬(c > 0 ∧ !self.isEmpty)) :
    items.take c = [] ∧ items.drop c = items := by
  rcases Nat.eq_zero_or_pos c with hc | hc
  · simp [hc]
  · have hempty : self.len = 0 := by simpa [isEmpty, hc] using hcopy
    have hitems : items = [] := List.length_eq_zero_iff.mp (h.len_eq ▸ hempty)
    simp [hitems]

theorem partialCopyInto_spec (h : self.Contents items) (dest : Slice.Deque.Sink UInt8) :
    ∃ deque dest' chunk, self.partialCopyInto dest = some (deque, dest', chunk) ∧
      dest'.received ++ chunk = dest.received ++ items.take dest.remainingCapacity ∧
      deque.capacity = self.capacity ∧ deque.Contents (items.drop dest.remainingCapacity) := by
  have hlenEq := h.len_eq
  obtain ⟨hhead, hlen⟩ := h.bounds
  unfold partialCopyInto
  by_cases hcopy : dest.remainingCapacity > 0 ∧ !self.isEmpty
  · obtain ⟨deque, hcf, hbytes, hdeque⟩ := consumeFilled_spec h
      (show min self.len dest.remainingCapacity ≤ self.len by omega)
    have hm : (items.take (min self.len (self.capacity - self.head))).length =
        min self.len (self.capacity - self.head) := by simp only [List.length_take]; omega
    rw [hlenEq, drop_min_length] at hdeque
    rw [if_pos hcopy, filled_spec h, Option.bind_eq_bind, Option.bind_some]
    dsimp only
    rw [hcf, Option.bind_eq_bind, Option.bind_some, hm]
    dsimp only
    by_cases htail : min self.len (self.capacity - self.head) < min self.len dest.remainingCapacity
    · -- the head part reaches the end of the cells: it goes to `dest`, the tail part is the chunk
      have hput : (((items.take (min self.len dest.remainingCapacity)).take
          (min (min self.len dest.remainingCapacity) (self.capacity - self.head))).length ≤
          dest.remainingCapacity) := by simp only [List.length_take]; omega
      rw [if_pos (by simpa using htail), Slice.Deque.Sink.putSlice, if_pos hput, Option.bind_eq_bind,
        Option.bind_some]
      refine ⟨deque, _, _, rfl, ?_, Contents.capacity_of_bytes hbytes, hdeque⟩
      rw [List.append_assoc, List.take_append_drop, hlenEq, take_min_length]
    · -- the head part holds all of them and is the chunk
      have hmin : min (min self.len dest.remainingCapacity) (self.capacity - self.head) =
          min self.len dest.remainingCapacity := by omega
      rw [if_neg (by simpa using htail)]
      refine ⟨deque, dest, _, rfl, ?_, Contents.capacity_of_bytes hbytes, hdeque⟩
      rw [hmin, List.take_take, min_self, hlenEq, take_min_length]
  · rw [if_neg hcopy]
    have hnone := h.nothing_to_copy hcopy
    refine ⟨self, dest, [], rfl, by rw [hnone.1], rfl, by rw [hnone.2]; exact h⟩

theorem copyInto_spec (h : self.Contents items) (dest : Slice.Deque.Sink UInt8) :
    ∃ deque dest', self.copyInto dest = some (deque, dest') ∧
      dest'.received = dest.received ++ items.take dest.remainingCapacity ∧
      deque.capacity = self.capacity ∧ deque.Contents (items.drop dest.remainingCapacity) := by
  have hlenEq := h.len_eq
  unfold copyInto
  by_cases hcopy : dest.remainingCapacity > 0 ∧ !self.isEmpty
  · obtain ⟨deque, hcf, hbytes, hdeque⟩ := consumeFilled_spec h
      (show min self.len dest.remainingCapacity ≤ self.len by omega)
    rw [hlenEq, drop_min_length] at hdeque
    rw [if_pos hcopy, hcf, Option.bind_eq_bind, Option.bind_some]
    dsimp only
    rw [Slice.Deque.Pair.copyInto_eq (by simp only [List.length_take, List.length_drop]; omega),
      Option.bind_eq_bind, Option.bind_some]
    refine ⟨deque, _, rfl, ?_, Contents.capacity_of_bytes hbytes, hdeque⟩
    rw [List.append_assoc, List.take_append_drop, hlenEq, take_min_length]
  · rw [if_neg hcopy]
    have hnone := h.nothing_to_copy hcopy
    refine ⟨self, dest, rfl, by rw [hnone.1, List.append_nil], rfl, by rw [hnone.2]; exact h⟩

theorem makeContiguous_spec (h : self.Contents items) :
    ∃ deque, self.makeContiguous = some (deque, items) ∧ deque.capacity = self.capacity ∧
      deque.Contents items ∧ deque.head + deque.len ≤ deque.capacity := by
  have hlenEq := h.len_eq
  obtain ⟨bytes, head, hmc, hlength, hhead, hend, hwindow⟩ :=
    Slice.Deque.makeContiguous_spec h.preconditions.1
  have hpre : ({ self with bytes, head } : Deque).preconditions :=
    preconditions_of_cursors (preconditions_of_cells h.preconditions hlength)
      (by simp only [capacity]; omega) (by have := h.bounds.2; simp only [capacity] at *; omega)
  have hc : ({ self with bytes, head } : Deque).Contents items := ⟨hpre, hwindow.trans h.window_eq⟩
  rw [makeContiguous, if_pos h.preconditions, Option.bind_eq_bind, hmc, Option.bind_some]
  dsimp only
  rw [if_pos (show Deque.postconditions _ from hpre.1), Option.bind_eq_bind, filled_spec hc,
    Option.bind_some]
  dsimp only
  have hmin : min self.len (bytes.length - head) = self.len := by omega
  rw [capacity, hmin, List.drop_of_length_le (by omega), List.take_of_length_le (by omega),
    if_pos List.isEmpty_nil]
  exact ⟨_, rfl, hlength, hc, by simp only [capacity]; omega⟩

end Specs

/-! ## Runs -/

/-- The calls on a deque: its `writer::Storage` and `reader::Storage` calls, a destination given by
the number of bytes it accepts, and its own calls. `fill` writes `written` into the slices
`unfilled()` returns, from their start, and then calls `fill(len)`. -/
inductive Op (ε : Type) where
  | putSlice (bytes : List UInt8)
  | putUninitSlice (payloadLen : Nat) (f : Except ε (List UInt8))
  | readChunk (watermark : Nat)
  | partialCopyInto (remainingCapacity : Nat)
  | copyInto (remainingCapacity : Nat)
  | consume (len : Nat)
  | consumeFilled (len : Nat)
  | fill (written : List UInt8) (len : Nat)
  | makeContiguous
  | clear

def step {ε : Type} (self : Deque) : Op ε → Option (Deque × List UInt8)
  | .putSlice bytes => do
    let self ← self.putSlice bytes
    some (self, [])
  | .putUninitSlice payloadLen f => do
    match ← self.putUninitSlice payloadLen f with
    | .ok (_, self) => some (self, [])
    | .error _ => some (self, [])
  | .readChunk watermark => self.readChunk watermark
  | .partialCopyInto remainingCapacity => do
    let (self, dest, chunk) ← self.partialCopyInto ⟨[], remainingCapacity⟩
    some (self, dest.received ++ chunk)
  | .copyInto remainingCapacity => do
    let (self, dest) ← self.copyInto ⟨[], remainingCapacity⟩
    some (self, dest.received)
  | .consume len => do
    let self ← self.consume len
    some (self, [])
  | .consumeFilled len => do
    let (self, p) ← self.consumeFilled len
    some (self, p.head ++ p.tail)
  | .fill written len => do
    let p ← self.unfilled
    let cells ← p.putSlice self.bytes (written.map some)
    let self := { self with bytes := cells }
    match ← self.fill len with
    | .ok self => some (self, [])
    | .error _ => some (self, [])
  | .makeContiguous => do
    let (self, _) ← self.makeContiguous
    some (self, [])
  | .clear => some (self.clear, [])

def run {ε : Type} (self : Deque) : List (Op ε) → Option (Deque × List UInt8)
  | [] => some (self, [])
  | op :: ops => do
    let (self, handed) ← self.step op
    let (self, rest) ← self.run ops
    some (self, handed ++ rest)

/-- The caller's side of each call as the source documents it: writes within the remaining capacity
(`f` and the caller of `fill` initialize the bytes they report), and `consume` and `consume_filled`
of at most `len()` bytes. -/
def Op.Allowed {ε : Type} (self : Deque) : Op ε → Prop
  | .putSlice bytes => self.len + bytes.length ≤ self.capacity
  | .putUninitSlice payloadLen f =>
    self.len + payloadLen ≤ self.capacity ∧ ∀ data, f = .ok data → payloadLen ≤ data.length
  | .consume len | .consumeFilled len => len ≤ self.len
  | .fill written len => self.len + written.length ≤ self.capacity ∧ len ≤ written.length
  | _ => True

def AllowedRun {ε : Type} : Deque → List (Op ε) → Prop
  | _, [] => True
  | self, op :: ops => op.Allowed self ∧ ∀ deque handed, self.step op = some (deque, handed) →
    AllowedRun deque ops

/-- `consume` and `clear` drop the bytes they take. -/
def Op.drops {ε : Type} : Op ε → Bool
  | .consume _ | .clear => true
  | _ => false

/-! ## The bounded FIFO the deque refines -/

/-- What a call does to a FIFO queue of bytes: the bytes it takes from the front, those of them it
hands out, and the bytes it appends at the back. -/
structure Effect where
  taken : List UInt8
  handed : List UInt8
  written : List UInt8

/-- What each call may take, hand out and append, given the items of the queue before it. -/
def Effect.Matches {ε : Type} (e : Effect) (items : List UInt8) : Op ε → Prop
  | .putSlice bytes => e.taken = [] ∧ e.handed = [] ∧ e.written = bytes
  | .putUninitSlice payloadLen f => e.taken = [] ∧ e.handed = [] ∧
    (e.written = [] ∨ ∃ data, f = .ok data ∧ e.written = data.take payloadLen)
  | .readChunk watermark => e.written = [] ∧ e.handed = e.taken ∧ e.taken.length ≤ watermark ∧
    (0 < watermark → items ≠ [] → e.taken ≠ [])
  | .partialCopyInto remainingCapacity | .copyInto remainingCapacity =>
    e.written = [] ∧ e.handed = e.taken ∧ e.taken = items.take remainingCapacity
  | .consume len => e.written = [] ∧ e.handed = [] ∧ e.taken = items.take len
  | .consumeFilled len => e.written = [] ∧ e.handed = e.taken ∧ e.taken = items.take len
  | .fill written len => e.taken = [] ∧ e.handed = [] ∧ e.written = written.take len
  | .makeContiguous => e.taken = [] ∧ e.handed = [] ∧ e.written = []
  | .clear => e.written = [] ∧ e.handed = [] ∧ e.taken = items

/-- One call on a bounded FIFO queue of bytes, from `q` to `q'` of the same capacity: the bytes taken
are a front of `q` and the bytes written go to its back. -/
def Spec {ε : Type} (q : Fifo UInt8) (op : Op ε) (e : Effect) (q' : Fifo UInt8) : Prop :=
  q'.capacity = q.capacity ∧ e.taken ++ q'.items = q.items ++ e.written ∧ e.Matches q.items op

/-- A run of the FIFO, with the effects of its calls joined in order. -/
inductive Spec.Run {ε : Type} : Fifo UInt8 → List (Op ε) → Effect → Fifo UInt8 → Prop
  | nil (q : Fifo UInt8) : Spec.Run q [] ⟨[], [], []⟩ q
  | cons {q q' q'' : Fifo UInt8} {op : Op ε} {ops : List (Op ε)} {e es : Effect} :
    Spec q op e q' → Spec.Run q' ops es q'' →
    Spec.Run q (op :: ops) ⟨e.taken ++ es.taken, e.handed ++ es.handed, e.written ++ es.written⟩ q''

theorem Spec.Run.conserve {ε : Type} {q q' : Fifo UInt8} {ops : List (Op ε)} {e : Effect}
    (h : Spec.Run q ops e q') : e.taken ++ q'.items = q.items ++ e.written := by
  induction h with
  | nil q => simp
  | cons hstep _ ih =>
    obtain ⟨-, hconserve, -⟩ := hstep
    dsimp only
    rw [List.append_assoc, ih, ← List.append_assoc, hconserve, List.append_assoc]

theorem Spec.Run.capacity_eq {ε : Type} {q q' : Fifo UInt8} {ops : List (Op ε)} {e : Effect}
    (h : Spec.Run q ops e q') : q'.capacity = q.capacity := by
  induction h with
  | nil q => rfl
  | cons hstep _ ih => rw [ih, hstep.1]

theorem Spec.handed_eq_taken {ε : Type} {q q' : Fifo UInt8} {op : Op ε} {e : Effect}
    (h : Spec q op e q') (hdrop : op.drops = false) : e.handed = e.taken := by
  obtain ⟨-, -, hop⟩ := h
  cases op with
  | putSlice => rw [hop.1, hop.2.1]
  | putUninitSlice => rw [hop.1, hop.2.1]
  | readChunk => exact hop.2.1
  | partialCopyInto => exact hop.2.1
  | copyInto => exact hop.2.1
  | consume => simp [Op.drops] at hdrop
  | consumeFilled => exact hop.2.1
  | fill => rw [hop.1, hop.2.1]
  | makeContiguous => rw [hop.1, hop.2.1]
  | clear => simp [Op.drops] at hdrop

theorem Spec.Run.handed_eq_taken {ε : Type} {q q' : Fifo UInt8} {ops : List (Op ε)} {e : Effect}
    (h : Spec.Run q ops e q') (hdrop : ∀ op ∈ ops, op.drops = false) : e.handed = e.taken := by
  induction h with
  | nil q => rfl
  | cons hstep _ ih =>
    dsimp only
    rw [hstep.handed_eq_taken (hdrop _ List.mem_cons_self),
      ih fun op hop => hdrop op (List.mem_cons_of_mem _ hop)]

/-! ## The deque refines the FIFO -/

/-- The deque holds the FIFO queue `q`, whose capacity is the number of its cells. -/
structure Refines (deque : Deque) (q : Fifo UInt8) : Prop where
  contents : deque.Contents q.items
  capacity_eq : q.capacity = deque.capacity

def Contents.fifo {deque : Deque} {items : List UInt8} (h : deque.Contents items) : Fifo UInt8 :=
  ⟨deque.capacity, items, by rw [← h.len_eq]; exact h.bounds.2⟩

section Refinement

variable {ε : Type} {self : Deque} {q : Fifo UInt8}

theorem Refines.spec_of (h : self.Refines q) (op : Op ε) (e : Effect) {deque : Deque}
    {items : List UInt8} (hc : deque.Contents items) (hcap : deque.capacity = self.capacity)
    (hconserve : e.taken ++ items = q.items ++ e.written) (hmatch : e.Matches q.items op) :
    ∃ q', Spec q op e q' ∧ deque.Refines q' :=
  ⟨hc.fifo, ⟨by rw [h.capacity_eq]; exact hcap, hconserve, hmatch⟩, ⟨hc, rfl⟩⟩

theorem Refines.step_simulates (h : self.Refines q) {op : Op ε} (hop : op.Allowed self) :
    ∃ deque handed, self.step op = some (deque, handed) ∧
      ∃ e q', e.handed = handed ∧ Spec q op e q' ∧ deque.Refines q' := by
  have hc := h.contents
  have hlenEq := hc.len_eq
  cases op with
  | putSlice bytes =>
    obtain ⟨deque, hput, hcap, hc'⟩ := putSlice_spec hc
      (show q.items.length + bytes.length ≤ self.capacity by simp only [Op.Allowed] at hop; omega)
    obtain ⟨q', hspec, hq'⟩ := h.spec_of (.putSlice bytes) ⟨[], [], bytes⟩ hc' hcap
      (List.nil_append _) ⟨rfl, rfl, rfl⟩
    exact ⟨deque, [], by rw [step, hput]; rfl, _, q', rfl, hspec, hq'⟩
  | putUninitSlice payloadLen f =>
    obtain ⟨hroom, hf⟩ := hop
    rcases putUninitSlice_spec hc (show q.items.length + payloadLen ≤ self.capacity by omega) hf with
      hput | ⟨e, -, hput⟩ | ⟨data, deque, rfl, hput, hcap, hc'⟩
    · obtain ⟨q', hspec, hq'⟩ := h.spec_of (.putUninitSlice payloadLen f) ⟨[], [], []⟩ hc rfl
        (by simp) ⟨rfl, rfl, .inl rfl⟩
      exact ⟨self, [], by rw [step, hput]; rfl, _, q', rfl, hspec, hq'⟩
    · obtain ⟨q', hspec, hq'⟩ := h.spec_of (.putUninitSlice payloadLen f) ⟨[], [], []⟩ hc rfl
        (by simp) ⟨rfl, rfl, .inl rfl⟩
      exact ⟨self, [], by rw [step, hput]; rfl, _, q', rfl, hspec, hq'⟩
    · obtain ⟨q', hspec, hq'⟩ := h.spec_of (.putUninitSlice payloadLen (.ok data))
        ⟨[], [], data.take payloadLen⟩ hc' hcap (List.nil_append _) ⟨rfl, rfl, .inr ⟨data, rfl, rfl⟩⟩
      exact ⟨deque, [], by rw [step, hput]; rfl, _, q', rfl, hspec, hq'⟩
  | readChunk watermark =>
    obtain ⟨deque, k, hread, hcap, hc', hk, hpos⟩ := readChunk_spec hc watermark
    obtain ⟨q', hspec, hq'⟩ := h.spec_of (.readChunk watermark) ⟨q.items.take k, q.items.take k, []⟩
      hc' hcap (by rw [List.take_append_drop, List.append_nil]) ⟨rfl, rfl, by simp only [List.length_take]; omega, fun hw hne => by
        simpa [List.take_eq_nil_iff, hne] using Nat.pos_iff_ne_zero.mp (hpos hw hne)⟩
    exact ⟨deque, _, hread, _, q', rfl, hspec, hq'⟩
  | partialCopyInto remainingCapacity =>
    obtain ⟨deque, dest, chunk, hcopy, hreceived, hcap, hc'⟩ :=
      partialCopyInto_spec hc ⟨[], remainingCapacity⟩
    obtain ⟨q', hspec, hq'⟩ := h.spec_of (.partialCopyInto remainingCapacity)
      ⟨q.items.take remainingCapacity, q.items.take remainingCapacity, []⟩ hc' hcap
      (by rw [List.take_append_drop, List.append_nil]) ⟨rfl, rfl, rfl⟩
    refine ⟨deque, _, by rw [step, hcopy]; rfl, _, q', ?_, hspec, hq'⟩
    simpa using hreceived.symm
  | copyInto remainingCapacity =>
    obtain ⟨deque, dest, hcopy, hreceived, hcap, hc'⟩ := copyInto_spec hc ⟨[], remainingCapacity⟩
    obtain ⟨q', hspec, hq'⟩ := h.spec_of (.copyInto remainingCapacity)
      ⟨q.items.take remainingCapacity, q.items.take remainingCapacity, []⟩ hc' hcap
      (by rw [List.take_append_drop, List.append_nil]) ⟨rfl, rfl, rfl⟩
    refine ⟨deque, _, by rw [step, hcopy]; rfl, _, q', ?_, hspec, hq'⟩
    simpa using hreceived.symm
  | consume len =>
    obtain ⟨deque, hcons, hbytes, hc'⟩ := consume_spec hc hop
    obtain ⟨q', hspec, hq'⟩ := h.spec_of (.consume len) ⟨q.items.take len, [], []⟩ hc'
      (Contents.capacity_of_bytes hbytes) (by rw [List.take_append_drop, List.append_nil])
      ⟨rfl, rfl, rfl⟩
    exact ⟨deque, [], by rw [step, hcons]; rfl, _, q', rfl, hspec, hq'⟩
  | consumeFilled len =>
    obtain ⟨deque, hcons, hbytes, hc'⟩ := consumeFilled_spec hc hop
    obtain ⟨q', hspec, hq'⟩ := h.spec_of (.consumeFilled len)
      ⟨q.items.take len, q.items.take len, []⟩ hc' (Contents.capacity_of_bytes hbytes)
      (by rw [List.take_append_drop, List.append_nil]) ⟨rfl, rfl, rfl⟩
    refine ⟨deque, _, by rw [step, hcons]; rfl, _, q', ?_, hspec, hq'⟩
    exact (List.take_append_drop _ _).symm
  | fill written len =>
    obtain ⟨hroom, hlen⟩ := hop
    obtain ⟨cells, hput, hcells, hwindow⟩ := Slice.Deque.putSlice_unfilledParts
      (show self.head < self.bytes.length from hc.bounds.1)
      (show self.len + (written.map some).length ≤ self.bytes.length by
        simp only [List.length_map, capacity] at *; omega)
    rw [List.length_map] at hwindow
    obtain ⟨hfill, hc'⟩ := hc.write hcells hwindow (by omega) hlen
    obtain ⟨q', hspec, hq'⟩ := h.spec_of (.fill written len) ⟨[], [], written.take len⟩
      hc' hcells (List.nil_append _) ⟨rfl, rfl, rfl⟩
    refine ⟨_, [], ?_, _, q', rfl, hspec, hq'⟩
    rw [step, unfilled_spec hc.preconditions, Option.bind_eq_bind, Option.bind_some]
    erw [hput]
    rw [Option.bind_eq_bind, Option.bind_some]
    dsimp only
    rw [Option.bind_eq_bind, hfill, Option.bind_some]
  | makeContiguous =>
    obtain ⟨deque, hmc, hcap, hc', -⟩ := makeContiguous_spec hc
    obtain ⟨q', hspec, hq'⟩ := h.spec_of .makeContiguous ⟨[], [], []⟩ hc' hcap
      (by simp) ⟨rfl, rfl, rfl⟩
    exact ⟨deque, [], by rw [step, hmc]; rfl, _, q', rfl, hspec, hq'⟩
  | clear =>
    obtain ⟨q', hspec, hq'⟩ := h.spec_of .clear ⟨q.items, [], []⟩ hc.clear rfl
      (by simp) ⟨rfl, rfl, rfl⟩
    exact ⟨self.clear, [], rfl, _, q', rfl, hspec, hq'⟩

theorem Refines.run_simulates (h : self.Refines q) {ops : List (Op ε)} (hallowed : AllowedRun self ops) :
    ∃ deque handed, self.run ops = some (deque, handed) ∧
      ∃ e q', e.handed = handed ∧ Spec.Run q ops e q' ∧ deque.Refines q' := by
  induction ops generalizing self q with
  | nil => exact ⟨self, [], rfl, ⟨[], [], []⟩, q, rfl, .nil q, h⟩
  | cons op ops ih =>
    obtain ⟨hop, hrest⟩ := hallowed
    obtain ⟨deque, handed, hstep, e, q', rfl, hspec, hq'⟩ := h.step_simulates hop
    obtain ⟨deque', rest, hrun, es, q'', rfl, hrun', hq''⟩ := ih hq' (hrest deque e.handed hstep)
    refine ⟨deque', e.handed ++ es.handed, ?_, _, q'', rfl, .cons hspec hrun', hq''⟩
    rw [run, hstep, Option.bind_eq_bind, Option.bind_some]
    dsimp only
    rw [hrun, Option.bind_some]

end Refinement

theorem AllowedRun.take {ε : Type} {self : Deque} {ops : List (Op ε)} (h : AllowedRun self ops)
    (k : Nat) : AllowedRun self (ops.take k) := by
  induction ops generalizing self k with
  | nil => simp [AllowedRun]
  | cons op ops ih =>
    cases k with
    | zero => trivial
    | succ k => exact ⟨h.1, fun deque handed hstep => ih (h.2 deque handed hstep) k⟩

/-- What the views of a buffer holding `items` show: `filled()` is the bytes in two slices,
`unfilled()` the other cells in two slices, apart from each other and from the filled ones, and
`make_contiguous()` the bytes in one slice. -/
def Views (deque : Deque) (items : List UInt8) : Prop :=
  (∃ p : Slice.Deque.Pair (List UInt8), deque.filled = some p ∧ p.head ++ p.tail = items) ∧
  (∃ f u, Slice.Deque.filled deque.bytes deque.head deque.len = some f ∧ deque.unfilled = some u ∧
    f.head.indices ∪ f.tail.indices ∪ (u.head.indices ∪ u.tail.indices) = Finset.range deque.capacity ∧
    Disjoint f.head.indices f.tail.indices ∧ Disjoint u.head.indices u.tail.indices ∧
    Disjoint (f.head.indices ∪ f.tail.indices) (u.head.indices ∪ u.tail.indices) ∧
    u.head.len + u.tail.len = deque.capacity - deque.len) ∧
  (∃ deque', deque.makeContiguous = some (deque', items) ∧ deque'.Contents items ∧
    deque'.capacity = deque.capacity)

theorem Contents.views {deque : Deque} {items : List UInt8} (h : deque.Contents items) :
    Views deque items := by
  obtain ⟨hhead, hlen⟩ := h.bounds
  obtain ⟨hparts, hf, hu, hfu, -, hulen⟩ := Slice.Deque.parts_partition hhead hlen
  obtain ⟨deque', hmc, hcap, hc', -⟩ := makeContiguous_spec h
  exact ⟨⟨_, filled_spec h, List.take_append_drop _ _⟩,
    ⟨_, _, Slice.Deque.filled_eq h.preconditions.1, unfilled_spec h.preconditions, hparts, hf, hu, hfu,
      hulen⟩, ⟨deque', hmc, hc', hcap⟩⟩

/-! ## Runs from a new buffer -/

/-- The empty queue of the capacity `new` gives. -/
def newFifo (capacity : Nat) : Fifo UInt8 := ⟨nextPowerOfTwo capacity, [], Nat.zero_le _⟩

theorem capacity_new (capacity : Nat) : (new capacity).capacity = nextPowerOfTwo capacity :=
  List.length_replicate

theorem capacity_fromVec (buffer : Vec) : (fromVec buffer).capacity = nextPowerOfTwo buffer.capacity := by
  have hlen := buffer.len_le.trans (le_nextPowerOfTwo buffer.capacity)
  simp only [fromVec, capacity, List.length_append, List.length_map, List.length_replicate]
  split_ifs with hp
  · rw [nextPowerOfTwo_of_isPowerOfTwo hp]
    have := buffer.len_le
    omega
  · omega

theorem new_refines (capacity : Nat) : (new capacity).Refines (newFifo capacity) := by
  have hp := isPowerOfTwo_nextPowerOfTwo capacity
  refine ⟨⟨preconditions_iff.mpr ⟨⟨?_, ?_, Nat.zero_le _⟩, ?_⟩, window_zero _ _⟩, (capacity_new capacity).symm⟩
  all_goals rw [capacity_new]
  · exact Nat.pos_of_isPowerOfTwo hp
  · exact Nat.pos_of_isPowerOfTwo hp
  · exact hp

theorem fromVec_refines (buffer : Vec) : (fromVec buffer).Refines buffer.fifo := by
  have hp := isPowerOfTwo_nextPowerOfTwo buffer.capacity
  have hlen := buffer.len_le.trans (le_nextPowerOfTwo buffer.capacity)
  have hpos := Nat.pos_of_isPowerOfTwo hp
  refine ⟨⟨preconditions_iff.mpr ⟨⟨?_, ?_, ?_⟩, ?_⟩, ?_⟩, (capacity_fromVec buffer).symm⟩
  all_goals try rw [capacity_fromVec]
  · exact hpos
  · exact hpos
  · exact hlen
  · exact hp
  · show window (buffer.data.map some ++ _) 0 buffer.data.length = _
    rw [window, List.rotate_zero, List.take_left' (List.length_map _)]
    rfl

/-- What every allowed run from `start`, a buffer holding `q`, does: the `preconditions` hold on
entry to every call, the run does not fail, and it is a run of the bounded FIFO from `q`, which
loses, duplicates and reorders nothing; the bytes handed out are the bytes taken when nothing is
dropped, `len()` is what was written less what was taken, within the capacity, and the views show
the queue. -/
def Simulates {ε : Type} (start : Deque) (q : Fifo UInt8) (ops : List (Op ε)) : Prop :=
  (∀ k, ∃ deque handed, start.run (ops.take k) = some (deque, handed) ∧ deque.preconditions) ∧
  ∃ deque handed e q', start.run ops = some (deque, handed) ∧ e.handed = handed ∧
    Spec.Run q ops e q' ∧ deque.Refines q' ∧
    e.taken ++ q'.items = q.items ++ e.written ∧
    ((∀ op ∈ ops, op.drops = false) → handed = e.taken) ∧
    deque.len + e.taken.length = q.items.length + e.written.length ∧
    deque.len ≤ deque.capacity ∧ deque.capacity = q.capacity ∧
    Views deque q'.items

theorem Refines.simulates {ε : Type} {start : Deque} {q : Fifo UInt8} (h : start.Refines q)
    {ops : List (Op ε)} (hallowed : AllowedRun start ops) : Simulates start q ops := by
  refine ⟨fun k => ?_, ?_⟩
  · obtain ⟨deque, handed, hrun, e, q', -, -, hq'⟩ := h.run_simulates (hallowed.take k)
    exact ⟨deque, handed, hrun, hq'.contents.preconditions⟩
  · obtain ⟨deque, handed, hrun, e, q', rfl, hspec, hq'⟩ := h.run_simulates hallowed
    have hconserve := hspec.conserve
    have hlen := hq'.contents.len_eq
    refine ⟨deque, e.handed, e, q', hrun, rfl, hspec, hq', hconserve, hspec.handed_eq_taken, ?_,
      hq'.contents.bounds.2, ?_, hq'.contents.views⟩
    · have hlength := congrArg List.length hconserve
      simp only [List.length_append] at hlength
      omega
    · rw [← hq'.capacity_eq, hspec.capacity_eq]

theorem deque_refines_bounded_fifo {ε : Type} (c : Nat) (buffer : Vec) (ops : List (Op ε)) :
    (IsLeast {p | p.isPowerOfTwo ∧ c ≤ p} (new c).capacity ∧
      (AllowedRun (new c) ops → Simulates (new c) (newFifo c) ops)) ∧
    (IsLeast {p | p.isPowerOfTwo ∧ buffer.capacity ≤ p} (fromVec buffer).capacity ∧
      (AllowedRun (fromVec buffer) ops → Simulates (fromVec buffer) buffer.fifo ops)) := by
  refine ⟨⟨?_, (new_refines c).simulates⟩, ⟨?_, (fromVec_refines buffer).simulates⟩⟩
  · rw [capacity_new]
    exact isLeast_nextPowerOfTwo c
  · rw [capacity_fromVec]
    exact isLeast_nextPowerOfTwo buffer.capacity

theorem deque_refines_bounded_fifo_put_read :
    Simulates (new 4) (newFifo 4) [(.putSlice [1, 2, 3] : Op Unit), .readChunk 2] :=
  (deque_refines_bounded_fifo 4 ⟨[], 0, le_rfl⟩ [(.putSlice [1, 2, 3] : Op Unit), .readChunk 2]).1.2
    ⟨show 0 + 3 ≤ (new 4).capacity by decide, fun _ _ _ => ⟨trivial, fun _ _ _ => trivial⟩⟩

end Deque

end S2nQuic.Buffer
