import S2nQuic.Lib.Ring

/-!
# Ring arithmetic over a slice

`slice/deque.rs` and the storage impls of `slice/deque/pair.rs`: a ring of `len` cells from `head`
stored in a slice, its filled and unfilled parts, the `Pair` of parts that a buffer reads from and
writes into, and `make_contiguous`, which moves the filled cells so that they start at one index
through `ptr::copy`, `ptr::copy_nonoverlapping`, `rotate_left` and `rotate_right`.

A slice is a list and a part is a range of indices into it. Each `assert!`, `debug_assert!`, slice
bound check and precondition of an unsafe copy in the source is a `none`.
-/

namespace S2nQuic.Slice.Deque

open Ring

variable {α : Type}

/-- A part `slice[start..stop]`. The empty slice `&mut []` that the source returns for a missing
part is `⟨0, 0⟩`. -/
structure Span where
  start : Nat
  stop : Nat
deriving DecidableEq, Repr

namespace Span

def len (s : Span) : Nat := s.stop - s.start

def read (l : List α) (s : Span) : List α := cells l s.start s.stop

end Span

/-- `Pair<Part>`: the head part, then the tail part. -/
structure Pair (Part : Type) where
  head : Part
  tail : Part
deriving DecidableEq, Repr

/-- The cells of both parts, in order (`Pair::iter`). -/
def Pair.read (l : List α) (p : Pair Span) : List α := p.head.read l ++ p.tail.read l

/-! ## The model -/

/-- Checks that the current state preserves the required invariants -/
def invariants (slice : List α) (head len : Nat) : Bool :=
  0 < slice.length && head < slice.length && len ≤ slice.length

def wrap (slice : List α) (head len : Nat) : Option Nat :=
  if invariants slice head len then
    let cursor := head + len
    some (if slice.length.isPowerOfTwo then cursor &&& (slice.length - 1) else cursor % slice.length)
  else none

/-- Returns the `tail` position for the current state -/
def tail (slice : List α) (head len : Nat) : Option Nat :=
  if invariants slice head len then wrap slice head len else none

/-- Returns `true` if the currently occupied elements are contiguous -/
def isContiguous (slice : List α) (head len : Nat) : Option Bool :=
  if invariants slice head len then some (head + len < slice.length) else none

/-- Returns the filled pair of slices for the current state -/
def filled (slice : List α) (head len : Nat) : Option (Pair Span) :=
  if invariants slice head len then do
    let tail ← tail slice head len
    if ← isContiguous slice head len then
      -- `&mut slice[head..tail]`, then `debug_assert_eq!(head.len(), len)`
      if head ≤ tail ∧ tail ≤ slice.length ∧ tail - head = len then some ⟨⟨head, tail⟩, ⟨0, 0⟩⟩
      else none
    else
      -- `split_at_mut(head)`, then `split_at_mut(tail)` of the cells before `head`
      if head ≤ slice.length ∧ tail ≤ head then
        let headPart : Span := ⟨head, slice.length⟩
        let tailPart : Span := ⟨0, tail⟩
        if (headPart.len = 0 → tailPart.len = 0) ∧ headPart.len + tailPart.len = len then
          some ⟨headPart, tailPart⟩
        else none
      else none
  else none

/-- Returns the unfilled pair of slices for the current state -/
def unfilled (slice : List α) (head len : Nat) : Option (Pair Span) :=
  if invariants slice head len then do
    let cap := slice.length
    let tail ← tail slice head len
    let remainingCapacity := cap - len
    if !(← isContiguous slice head len) then
      -- `&mut slice[tail..head]`, then `debug_assert_eq!(head.len(), remaining_capacity)`
      if tail ≤ head ∧ head ≤ cap ∧ head - tail = remainingCapacity then some ⟨⟨tail, head⟩, ⟨0, 0⟩⟩
      else none
    else
      -- `split_at_mut(tail)`, then `split_at_mut(head)` of the cells before `tail`
      if tail ≤ cap ∧ head ≤ tail then
        let headPart : Span := ⟨tail, cap⟩
        let tailPart : Span := ⟨0, head⟩
        if headPart.len ≠ 0 ∧ headPart.len + tailPart.len = remainingCapacity then
          some ⟨headPart, tailPart⟩
        else none
      else none
  else none

/-- Copies a contiguous block of memory len long from src to dst (`ptr::copy`: the source cells are
read before any is written). -/
def copy (slice : List α) (src dst len : Nat) : Option (List α) :=
  if dst + len ≤ slice.length ∧ src + len ≤ slice.length then
    some (writeAt slice dst (cells slice src (src + len)))
  else none

/-- Copies a contiguous block of memory len long from src to dst (`ptr::copy_nonoverlapping`, whose
blocks must not overlap). -/
def copyNonoverlapping (slice : List α) (src dst len : Nat) : Option (List α) :=
  if dst + len ≤ slice.length ∧ src + len ≤ slice.length ∧ (src + len ≤ dst ∨ dst + len ≤ src) then
    some (writeAt slice dst (cells slice src (src + len)))
  else none

/-- `slice[start..stop].rotate_left(mid)`, which panics past the end of the range. -/
def rotateLeft (slice : List α) (start stop mid : Nat) : Option (List α) :=
  if start ≤ stop ∧ stop ≤ slice.length ∧ mid ≤ stop - start then some (rotateRange slice start stop mid)
  else none

/-- `slice[start..stop].rotate_right(k)`, which is `rotate_left(len - k)`. -/
def rotateRight (slice : List α) (start stop k : Nat) : Option (List α) :=
  if start ≤ stop ∧ stop ≤ slice.length ∧ k ≤ stop - start then
    some (rotateRange slice start stop (stop - start - k))
  else none

/-- Forces all of the currently occupied elements to be contiguous; the new slice and `head_out`.
The subtractions do not wrap once `invariants` holds and the cells wrap past the end. -/
def makeContiguous (slice : List α) (head len : Nat) : Option (List α × Nat) :=
  if invariants slice head len then
    -- we only need to shuffle things if we're non-contiguous
    if head + len < slice.length then some (slice, head)
    else
      let cap := slice.length
      let free := cap - len
      let headLen := cap - head
      let tail := len - headLen
      let tailLen := tail
      if free ≥ headLen then do
        -- from: DEFGH....ABC, to: ABCDEFGH....
        let slice ← copy slice 0 headLen tailLen
        let slice ← copyNonoverlapping slice head 0 headLen
        some (slice, 0)
      else if free ≥ tailLen then do
        -- from: FGH....ABCDE, to: ...ABCDEFGH.
        let slice ← copy slice head tail headLen
        let slice ← copyNonoverlapping slice 0 (tail + headLen) tailLen
        some (slice, tail)
      else if headLen > tailLen then do
        -- copy the tail next to the head, then rotate `free..cap`
        let slice ← if free ≠ 0 then copy slice 0 free tailLen else some slice
        let slice ← rotateLeft slice free cap tailLen
        some (slice, free)
      else do
        -- copy the head next to the tail, then rotate `..len`
        let slice ← if free ≠ 0 then copy slice head tailLen headLen else some slice
        let slice ← rotateRight slice 0 len headLen
        some (slice, 0)
  else none

/-! ## Reading and writing through a pair -/

/-- A `writer::Storage` destination: what it has received and how many more items it accepts. -/
structure Sink (α : Type) where
  received : List α
  remainingCapacity : Nat

/-- `put_slice`: "The bytes MUST always be less than `remaining_capacity`". -/
def Sink.putSlice (dest : Sink α) (bytes : List α) : Option (Sink α) :=
  if bytes.length ≤ dest.remainingCapacity then
    some ⟨dest.received ++ bytes, dest.remainingCapacity - bytes.length⟩
  else none

/-- `copy_into` of a slice reader: as many items as the destination accepts. -/
def copyInto (part : List α) (dest : Sink α) : Option (Sink α) :=
  if part.isEmpty then some dest
  else dest.putSlice (part.take (min part.length dest.remainingCapacity))

/-- `reader::Storage::copy_into` for `Pair`: the head part, then the tail part. -/
def Pair.copyInto (p : Pair (List α)) (dest : Sink α) : Option (Sink α) := do
  let dest ← Deque.copyInto p.head dest
  Deque.copyInto p.tail dest

/-- `writer::Storage::put_slice` for a `Pair` of parts of `slice`: `bytes` are copied into the head
part as far as it goes, and the rest into the tail part. -/
def Pair.putSlice (slice : List α) (p : Pair Span) (bytes : List α) : Option (List α) :=
  -- `debug_assert!(bytes.len() <= self.remaining_capacity())`
  if bytes.length ≤ p.head.len + p.tail.len then
    let n := min bytes.length p.head.len
    let rest := bytes.drop n
    some (writeAt (writeAt slice p.head.start (bytes.take n)) p.tail.start
      (rest.take (min rest.length p.tail.len)))
  else none

/-! ## Specs -/

section Specs

variable {slice : List α} {head len : Nat}

theorem invariants_iff :
    invariants slice head len = true ↔ 0 < slice.length ∧ head < slice.length ∧ len ≤ slice.length := by
  simp [invariants, and_assoc]

theorem wrap_eq (h : invariants slice head len = true) :
    wrap slice head len = some ((head + len) % slice.length) := by
  unfold wrap
  rw [if_pos h]
  dsimp only
  split_ifs with hp
  · rw [and_sub_one_eq_mod hp]
  · rfl

theorem tail_eq (h : invariants slice head len = true) :
    tail slice head len = some ((head + len) % slice.length) := by
  rw [tail, if_pos h, wrap_eq h]

theorem isContiguous_eq (h : invariants slice head len = true) :
    isContiguous slice head len = some (decide (head + len < slice.length)) := by
  rw [isContiguous, if_pos h]

/-- The parts `filled` returns: `head..head + len`, or `head..cap` and `0..tail` once the cells
reach the end. -/
def filledParts (cap head len : Nat) : Pair Span :=
  if head + len < cap then ⟨⟨head, head + len⟩, ⟨0, 0⟩⟩ else ⟨⟨head, cap⟩, ⟨0, head + len - cap⟩⟩

/-- The parts `unfilled` returns: `tail..cap` and `..head`, or `tail..head` once the cells reach
the end. -/
def unfilledParts (cap head len : Nat) : Pair Span :=
  if head + len < cap then ⟨⟨head + len, cap⟩, ⟨0, head⟩⟩ else ⟨⟨head + len - cap, head⟩, ⟨0, 0⟩⟩

theorem filled_eq (h : invariants slice head len = true) :
    filled slice head len = some (filledParts slice.length head len) := by
  obtain ⟨-, hh, hl⟩ := invariants_iff.mp h
  simp only [filled, if_pos h, tail_eq h, isContiguous_eq h, Option.bind_eq_bind, Option.bind_some,
    filledParts]
  by_cases hc : head + len < slice.length
  · rw [Nat.mod_eq_of_lt hc]
    simp only [hc, decide_true, if_true]
    rw [if_pos (by omega)]
  · rw [Ring.add_mod_of_lt (by omega), if_neg hc]
    simp only [hc, decide_false, Bool.false_eq_true, if_false]
    rw [if_pos (by omega), if_pos (by simp only [Span.len]; omega)]

theorem unfilled_eq (h : invariants slice head len = true) :
    unfilled slice head len = some (unfilledParts slice.length head len) := by
  obtain ⟨-, hh, hl⟩ := invariants_iff.mp h
  simp only [unfilled, if_pos h, tail_eq h, isContiguous_eq h, Option.bind_eq_bind, Option.bind_some,
    unfilledParts]
  by_cases hc : head + len < slice.length
  · rw [Nat.mod_eq_of_lt hc]
    simp only [hc, decide_true, Bool.not_true, Bool.false_eq_true, if_false, if_true]
    rw [if_pos (by omega), if_pos (by simp only [Span.len]; omega)]
  · rw [Ring.add_mod_of_lt (by omega), if_neg hc]
    simp only [hc, decide_false, Bool.not_false, if_true, if_false]
    rw [if_pos (by omega)]

theorem read_filledParts (hh : head < slice.length) (hl : len ≤ slice.length) :
    (filledParts slice.length head len).read slice = window slice head len := by
  apply List.ext_getElem?
  intro i
  rw [getElem?_window hh hl]
  unfold filledParts
  split_ifs with hc
  all_goals
    simp (disch := omega) only [Pair.read, Span.read, List.getElem?_append, getElem?_cells, length_cells]
    split_ifs <;> first | rfl | omega | (congr 1; omega)

def Span.indices (s : Span) : Finset Nat := Finset.Ico s.start s.stop

theorem parts_partition {cap : Nat} (hh : head < cap) (hl : len ≤ cap) :
    let f := filledParts cap head len
    let u := unfilledParts cap head len
    f.head.indices ∪ f.tail.indices ∪ (u.head.indices ∪ u.tail.indices) = Finset.range cap ∧
      Disjoint f.head.indices f.tail.indices ∧ Disjoint u.head.indices u.tail.indices ∧
      Disjoint (f.head.indices ∪ f.tail.indices) (u.head.indices ∪ u.tail.indices) ∧
      f.head.len + f.tail.len = len ∧ u.head.len + u.tail.len = cap - len := by
  intro f u
  simp only [f, u, filledParts, unfilledParts]
  split_ifs with hc
  all_goals
    simp only [Span.indices, Span.len]
    refine ⟨?_, ?_, ?_, ?_, by omega, by omega⟩
    · ext x
      simp only [Finset.mem_union, Finset.mem_Ico, Finset.mem_range]
      omega
    all_goals
      rw [Finset.disjoint_left]
      intro x
      simp only [Finset.mem_union, Finset.mem_Ico]
      omega

theorem putSlice_eq {p : Pair Span} {bytes : List α} (hb : bytes.length ≤ p.head.len + p.tail.len) :
    p.putSlice slice bytes =
      some (writeAt (writeAt slice p.head.start (bytes.take (min bytes.length p.head.len))) p.tail.start
        (bytes.drop (min bytes.length p.head.len))) := by
  rw [Pair.putSlice, if_pos hb]
  dsimp only
  rw [List.take_of_length_le (show (bytes.drop (min bytes.length p.head.len)).length ≤ _ by
    simp only [List.length_drop]; omega)]

theorem putSlice_unfilledParts (hh : head < slice.length) {bytes : List α}
    (hb : len + bytes.length ≤ slice.length) :
    ∃ slice', (unfilledParts slice.length head len).putSlice slice bytes = some slice' ∧
      slice'.length = slice.length ∧
      window slice' head (len + bytes.length) = window slice head len ++ bytes := by
  have hl : len ≤ slice.length := by omega
  have hcap : bytes.length ≤ (unfilledParts slice.length head len).head.len +
      (unfilledParts slice.length head len).tail.len := by
    unfold unfilledParts
    split_ifs <;> simp only [Span.len] <;> omega
  refine ⟨_, putSlice_eq hcap, ?_⟩
  unfold unfilledParts
  split_ifs with hc
  · -- the free cells are `tail..cap`, then `..head`
    simp only [Span.len]
    generalize hn : min bytes.length (slice.length - (head + len)) = n
    have hw₁ : head + len + (bytes.take n).length ≤ slice.length := by simp only [List.length_take]; omega
    have hw₂ : 0 + (bytes.drop n).length ≤ (writeAt slice (head + len) (bytes.take n)).length := by
      rw [length_writeAt hw₁, List.length_drop]; omega
    have hlen : (writeAt (writeAt slice (head + len) (bytes.take n)) 0 (bytes.drop n)).length = slice.length := by
      rw [length_writeAt hw₂, length_writeAt hw₁]
    refine ⟨hlen, ?_⟩
    apply List.ext_getElem?
    intro i
    rw [getElem?_window (by rw [hlen]; exact hh) (by rw [hlen]; omega), hlen, List.getElem?_append,
      getElem?_window hh hl, length_window head hl]
    simp only [getElem?_writeAt hw₂, getElem?_writeAt hw₁, List.getElem?_take, List.getElem?_drop,
      List.length_take, List.length_drop]
    split_ifs <;> first | rfl | omega | (congr 1; omega) | exact (List.getElem?_eq_none (by omega)).symm
  · -- the free cells are `tail..head`
    simp only [Span.len]
    have hn : min bytes.length (head - (head + len - slice.length)) = bytes.length := by omega
    rw [hn, List.take_length, List.drop_length]
    have hw₁ : head + len - slice.length + bytes.length ≤ slice.length := by omega
    have hw₂ : 0 + ([] : List α).length ≤ (writeAt slice (head + len - slice.length) bytes).length := by
      simp
    have hlen : (writeAt (writeAt slice (head + len - slice.length) bytes) 0 []).length = slice.length := by
      rw [length_writeAt hw₂, length_writeAt hw₁]
    refine ⟨hlen, ?_⟩
    apply List.ext_getElem?
    intro i
    rw [getElem?_window (by rw [hlen]; exact hh) (by rw [hlen]; omega), hlen, List.getElem?_append,
      getElem?_window hh hl, length_window head hl]
    simp only [getElem?_writeAt hw₂, getElem?_writeAt hw₁, List.length_nil]
    split_ifs <;> first | rfl | omega | (congr 1; omega) | exact (List.getElem?_eq_none (by omega)).symm

theorem copy_spec (slice : List α) (src dst n : Nat) (hdst : dst + n ≤ slice.length) (hsrc : src + n ≤ slice.length) :
    ∃ slice', copy slice src dst n = some slice' ∧ slice'.length = slice.length ∧
      ∀ j, slice'[j]? = if dst ≤ j ∧ j < dst + n then slice[src + (j - dst)]? else slice[j]? := by
  have hw : dst + (cells slice src (src + n)).length ≤ slice.length := by rw [length_cells hsrc]; omega
  refine ⟨_, by rw [copy, if_pos ⟨hdst, hsrc⟩], length_writeAt hw, fun j => ?_⟩
  rw [getElem?_writeAt hw, length_cells hsrc, getElem?_cells]
  split_ifs <;> first | rfl | omega

theorem copyNonoverlapping_spec (slice : List α) (src dst n : Nat) (hdst : dst + n ≤ slice.length)
    (hsrc : src + n ≤ slice.length) (hdisj : src + n ≤ dst ∨ dst + n ≤ src) :
    ∃ slice', copyNonoverlapping slice src dst n = some slice' ∧ slice'.length = slice.length ∧
      ∀ j, slice'[j]? = if dst ≤ j ∧ j < dst + n then slice[src + (j - dst)]? else slice[j]? := by
  obtain ⟨slice', hcopy, hlen, hget⟩ := copy_spec slice src dst n hdst hsrc
  refine ⟨slice', ?_, hlen, hget⟩
  rw [copyNonoverlapping, if_pos ⟨hdst, hsrc, hdisj⟩, ← hcopy, copy, if_pos ⟨hdst, hsrc⟩]

theorem rotateLeft_spec (slice : List α) (start stop mid : Nat) (hs : start ≤ stop) (h : stop ≤ slice.length)
    (hmid : mid ≤ stop - start) :
    ∃ slice', rotateLeft slice start stop mid = some slice' ∧ slice'.length = slice.length ∧
      ∀ j, slice'[j]? = if start ≤ j ∧ j < stop then
        (if j + mid < stop then slice[j + mid]? else slice[j + mid - (stop - start)]?) else slice[j]? :=
  ⟨_, by rw [rotateLeft, if_pos ⟨hs, h, hmid⟩], length_rotateRange mid hs h,
    getElem?_rotateRange hs hmid h⟩

theorem rotateRight_spec (slice : List α) (start stop k : Nat) (hs : start ≤ stop) (h : stop ≤ slice.length)
    (hk : k ≤ stop - start) :
    ∃ slice', rotateRight slice start stop k = some slice' ∧ slice'.length = slice.length ∧
      ∀ j, slice'[j]? = if start ≤ j ∧ j < stop then
        (if j < start + k then slice[j + (stop - start) - k]? else slice[j - k]?) else slice[j]? := by
  refine ⟨_, by rw [rotateRight, if_pos ⟨hs, h, hk⟩], length_rotateRange _ hs h, fun j => ?_⟩
  rw [getElem?_rotateRange hs (by omega) h]
  split_ifs <;> first | rfl | omega | (congr 1; omega)

theorem makeContiguous_spec (h : invariants slice head len = true) :
    ∃ slice' head', makeContiguous slice head len = some (slice', head') ∧
      slice'.length = slice.length ∧ head' < slice.length ∧ head' + len ≤ slice.length ∧
      window slice' head' len = window slice head len := by
  obtain ⟨-, hh, hl⟩ := invariants_iff.mp h
  unfold makeContiguous
  rw [if_pos h]
  by_cases hc : head + len < slice.length
  · exact ⟨slice, head, by rw [if_pos hc], rfl, hh, hc.le, rfl⟩
  rw [if_neg hc]
  dsimp only
  -- the cells wrap: the head part `head..cap` and the tail part `..len - (cap - head)`
  split_ifs with hA hB hC hfree hfree
  · -- copy the tail behind the head's length, then the head to the front
    obtain ⟨X, hX, hXlen, hXget⟩ := copy_spec slice 0 (slice.length - head)
      (len - (slice.length - head)) (by omega) (by omega)
    obtain ⟨Y, hY, hYlen, hYget⟩ := copyNonoverlapping_spec X head 0 (slice.length - head)
      (by omega) (by omega) (by omega)
    refine ⟨Y, 0, by rw [hX, Option.bind_eq_bind, Option.bind_some, hY]; rfl, by omega, by omega, by omega, ?_⟩
    apply List.ext_getElem?
    intro i
    rw [getElem?_window (by omega) (by omega), getElem?_window hh hl, hYlen, hXlen]
    simp only [hYget, hXget]
    split_ifs <;> first | rfl | omega | (congr 1; omega)
  · -- move the head up behind the tail's length, then the tail after it
    obtain ⟨X, hX, hXlen, hXget⟩ := copy_spec slice head (len - (slice.length - head))
      (slice.length - head) (by omega) (by omega)
    obtain ⟨Y, hY, hYlen, hYget⟩ := copyNonoverlapping_spec X 0
      (len - (slice.length - head) + (slice.length - head)) (len - (slice.length - head))
      (by omega) (by omega) (by omega)
    refine ⟨Y, len - (slice.length - head), by rw [hX, Option.bind_eq_bind, Option.bind_some, hY]; rfl,
      by omega, by omega, by omega, ?_⟩
    apply List.ext_getElem?
    intro i
    rw [getElem?_window (by omega) (by omega), getElem?_window hh hl, hYlen, hXlen]
    simp only [hYget, hXget]
    split_ifs <;> first | rfl | omega | (congr 1; omega)
  · -- the tail is shorter: copy it next to the head, then rotate `free..cap`
    obtain ⟨X, hX, hXlen, hXget⟩ := copy_spec slice 0 (slice.length - len)
      (len - (slice.length - head)) (by omega) (by omega)
    obtain ⟨Y, hY, hYlen, hYget⟩ := rotateLeft_spec X (slice.length - len)
      slice.length (len - (slice.length - head)) (by omega) (by omega) (by omega)
    refine ⟨Y, slice.length - len, by rw [hX, Option.bind_eq_bind, Option.bind_some, hY]; rfl,
      by omega, by omega, by omega, ?_⟩
    apply List.ext_getElem?
    intro i
    rw [getElem?_window (by omega) (by omega), getElem?_window hh hl, hYlen, hXlen]
    simp only [hYget, hXget]
    split_ifs <;> first | rfl | omega | (congr 1; omega)
  · -- no free cell: the tail already ends where the head starts
    obtain ⟨Y, hY, hYlen, hYget⟩ := rotateLeft_spec slice (slice.length - len)
      slice.length (len - (slice.length - head)) (by omega) le_rfl (by omega)
    refine ⟨Y, slice.length - len, by rw [Option.bind_eq_bind, Option.bind_some, hY]; rfl,
      by omega, by omega, by omega, ?_⟩
    apply List.ext_getElem?
    intro i
    rw [getElem?_window (by omega) (by omega), getElem?_window hh hl, hYlen]
    simp only [hYget]
    split_ifs <;> first | rfl | omega | (congr 1; omega)
  · -- the head is shorter: copy it next to the tail, then rotate `..len`
    obtain ⟨X, hX, hXlen, hXget⟩ := copy_spec slice head (len - (slice.length - head))
      (slice.length - head) (by omega) (by omega)
    obtain ⟨Y, hY, hYlen, hYget⟩ := rotateRight_spec X 0 len
      (slice.length - head) (by omega) (by omega) (by omega)
    refine ⟨Y, 0, by rw [hX, Option.bind_eq_bind, Option.bind_some, hY]; rfl,
      by omega, by omega, by omega, ?_⟩
    apply List.ext_getElem?
    intro i
    rw [getElem?_window (by omega) (by omega), getElem?_window hh hl, hYlen, hXlen]
    simp only [hYget, hXget]
    split_ifs <;> first | rfl | omega | (congr 1; omega)
  · -- no free cell: the head already starts where the tail ends
    obtain ⟨Y, hY, hYlen, hYget⟩ := rotateRight_spec slice 0 len
      (slice.length - head) (by omega) (by omega) (by omega)
    refine ⟨Y, 0, by rw [Option.bind_eq_bind, Option.bind_some, hY]; rfl,
      by omega, by omega, by omega, ?_⟩
    apply List.ext_getElem?
    intro i
    rw [getElem?_window (by omega) (by omega), getElem?_window hh hl, hYlen]
    simp only [hYget]
    split_ifs <;> first | rfl | omega | (congr 1; omega)

theorem putSlice_of_le_head {p : Pair Span} {bytes : List α} (hb : bytes.length ≤ p.head.len) :
    p.putSlice slice bytes = some (writeAt slice p.head.start bytes) := by
  rw [putSlice_eq (by omega), min_eq_left hb, List.take_length, List.drop_length]
  congr 1
  simp [writeAt]

theorem copyInto_of_le {part : List α} {dest : Sink α} (h : part.length ≤ dest.remainingCapacity) :
    copyInto part dest = some ⟨dest.received ++ part, dest.remainingCapacity - part.length⟩ := by
  unfold copyInto
  split_ifs with hempty
  · rw [List.isEmpty_iff.mp hempty]
    simp
  · rw [min_eq_left h, List.take_length, Sink.putSlice, if_pos h]

theorem Pair.copyInto_eq {p : Pair (List α)} {dest : Sink α}
    (h : p.head.length + p.tail.length ≤ dest.remainingCapacity) :
    p.copyInto dest = some ⟨dest.received ++ p.head ++ p.tail,
      dest.remainingCapacity - p.head.length - p.tail.length⟩ := by
  rw [Pair.copyInto, copyInto_of_le (by omega), Option.bind_eq_bind, Option.bind_some,
    copyInto_of_le (by dsimp only; omega)]

end Specs

end S2nQuic.Slice.Deque
