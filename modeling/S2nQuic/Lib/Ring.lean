import Mathlib

/-!
# Ring buffers over lists

The cells of a ring from `head` on, wrapping past the end (`window`), and the writes a ring buffer
makes in its backing list: a block written at an index (`writeAt`; a `memmove` inside one list is
`writeAt` of the `cells` of the same list), and a range rotated in place (`rotateRange`). Each gets
its length and an element lemma over `l[i]?`, so that two lists are compared index by index with
`List.ext_getElem?` and no bound proof stands inside a statement.

The queue a ring buffer implements is `Fifo`: a list of items under a capacity. A ring of optional
cells holds a queue from an index on (`Holds`) when the queue's values come first and empty cells
after them; taking the first value and putting one after the last keep that shape.
-/

namespace Ring

variable {α : Type}

/-! ## Powers of two -/

/-- `usize::next_power_of_two`: `1` up to `1`, else one more than `MAX >> (n - 1).leading_zeros()`,
the power of two just past the bits of `n - 1`. -/
def nextPowerOfTwo (n : Nat) : Nat := if n ≤ 1 then 1 else 2 ^ (Nat.log2 (n - 1) + 1)

theorem isPowerOfTwo_nextPowerOfTwo (n : Nat) : (nextPowerOfTwo n).isPowerOfTwo := by
  unfold nextPowerOfTwo
  split_ifs
  · exact ⟨0, rfl⟩
  · exact ⟨_, rfl⟩

theorem le_nextPowerOfTwo (n : Nat) : n ≤ nextPowerOfTwo n := by
  unfold nextPowerOfTwo
  split_ifs with h
  · omega
  · have := @Nat.lt_log2_self (n - 1)
    omega

theorem nextPowerOfTwo_le {n p : Nat} (hp : p.isPowerOfTwo) (hn : n ≤ p) : nextPowerOfTwo n ≤ p := by
  obtain ⟨k, rfl⟩ := hp
  unfold nextPowerOfTwo
  split_ifs with h
  · exact Nat.one_le_two_pow
  · have hlog : Nat.log2 (n - 1) < k := (Nat.log2_lt (by omega)).mpr (by omega)
    exact Nat.pow_le_pow_right (by norm_num) hlog

theorem isLeast_nextPowerOfTwo (n : Nat) : IsLeast {p | p.isPowerOfTwo ∧ n ≤ p} (nextPowerOfTwo n) :=
  ⟨⟨isPowerOfTwo_nextPowerOfTwo n, le_nextPowerOfTwo n⟩, fun _ hp => nextPowerOfTwo_le hp.1 hp.2⟩

theorem nextPowerOfTwo_of_isPowerOfTwo {p : Nat} (hp : p.isPowerOfTwo) : nextPowerOfTwo p = p :=
  le_antisymm (nextPowerOfTwo_le hp le_rfl) (le_nextPowerOfTwo p)

theorem and_sub_one_eq_mod {p : Nat} (hp : p.isPowerOfTwo) (x : Nat) : x &&& (p - 1) = x % p := by
  obtain ⟨k, rfl⟩ := hp
  exact Nat.and_two_pow_sub_one_eq_mod x k

theorem add_mod_of_lt {x n : Nat} (h : x < 2 * n) : x % n = if x < n then x else x - n := by
  split_ifs with hx
  · exact Nat.mod_eq_of_lt hx
  · rw [Nat.mod_eq_sub_mod (by omega), Nat.mod_eq_of_lt (by omega)]

/-! ## The window of a ring -/

/-- The `len` cells from `head` on, wrapping past the end. -/
def window (l : List α) (head len : Nat) : List α := (l.rotate head).take len

theorem length_window {l : List α} {len : Nat} (head : Nat) (h : len ≤ l.length) :
    (window l head len).length = len := by
  simp [window, h]

theorem getElem?_window {l : List α} {head len : Nat} (hhead : head < l.length) (hlen : len ≤ l.length)
    (i : Nat) :
    (window l head len)[i]? =
      if i < len then (if i + head < l.length then l[i + head]? else l[i + head - l.length]?)
      else none := by
  unfold window
  rw [List.getElem?_take]
  split_ifs with hi
  · rw [List.getElem?_rotate (by omega), add_mod_of_lt (by omega), if_pos ‹_›]
  · rw [List.getElem?_rotate (by omega), add_mod_of_lt (by omega), if_neg ‹_›]
  · rfl

theorem window_zero (l : List α) (head : Nat) : window l head 0 = [] := by
  simp [window]

theorem take_window (l : List α) (head : Nat) {n len : Nat} (h : n ≤ len) :
    (window l head len).take n = window l head n := by
  rw [window, window, List.take_take, min_eq_left h]

theorem drop_window {l : List α} {head n len : Nat} (hhead : head < l.length) (hlen : len ≤ l.length)
    (hn : n < len) :
    (window l head len).drop n = window l ((head + n) % l.length) (len - n) := by
  have hmod := Nat.mod_lt (head + n) (show 0 < l.length by omega)
  apply List.ext_getElem?
  intro i
  rw [List.getElem?_drop, getElem?_window hhead hlen, getElem?_window hmod (by omega),
    add_mod_of_lt (show head + n < 2 * l.length by omega)]
  split_ifs <;> first | rfl | omega | (congr 1; omega)

theorem rotate_set {l : List α} {head d : Nat} (hhead : head < l.length) (hd : d < l.length)
    (x : α) : (l.set ((head + d) % l.length) x).rotate head = (l.rotate head).set d x := by
  apply List.ext_getElem?
  intro i
  rcases Nat.lt_or_ge i l.length with hi | hi
  · rw [List.getElem?_rotate (by simpa using hi), List.getElem?_set, List.getElem?_set,
      List.getElem?_rotate hi, List.length_set, List.length_rotate,
      add_mod_of_lt (show head + d < 2 * l.length by omega),
      add_mod_of_lt (show i + head < 2 * l.length by omega)]
    split_ifs <;> first | rfl | omega
  · rw [List.getElem?_eq_none (by simpa using hi), List.getElem?_eq_none (by simpa using hi)]

/-! ## Writes into the backing list -/

/-- `l` with `data` written from `start` on. -/
def writeAt (l : List α) (start : Nat) (data : List α) : List α :=
  l.take start ++ data ++ l.drop (start + data.length)

theorem length_writeAt {l : List α} {start : Nat} {data : List α}
    (h : start + data.length ≤ l.length) : (writeAt l start data).length = l.length := by
  simp only [writeAt, List.length_append, List.length_take, List.length_drop]
  omega

theorem getElem?_writeAt {l : List α} {start : Nat} {data : List α}
    (h : start + data.length ≤ l.length) (j : Nat) :
    (writeAt l start data)[j]? =
      if start ≤ j ∧ j < start + data.length then data[j - start]? else l[j]? := by
  have hmin : min start l.length = start := by omega
  simp only [writeAt, List.getElem?_append, List.getElem?_take, List.getElem?_drop, List.length_append,
    List.length_take, hmin]
  split_ifs with h1 h2 h3 h3 <;> first | rfl | omega | (congr 1; omega)

def cells (l : List α) (start stop : Nat) : List α := (l.drop start).take (stop - start)

theorem length_cells {l : List α} {start stop : Nat} (h : stop ≤ l.length) :
    (cells l start stop).length = stop - start := by
  simp only [cells, List.length_take, List.length_drop]
  omega

theorem getElem?_cells (l : List α) (start stop i : Nat) :
    (cells l start stop)[i]? = if i < stop - start then l[start + i]? else none := by
  simp only [cells, List.getElem?_take, List.getElem?_drop]

/-- `l` with the cells `[start, stop)` rotated left by `k`. -/
def rotateRange (l : List α) (start stop k : Nat) : List α :=
  l.take start ++ (cells l start stop).rotate k ++ l.drop stop

theorem length_rotateRange {l : List α} {start stop : Nat} (k : Nat) (hs : start ≤ stop)
    (h : stop ≤ l.length) : (rotateRange l start stop k).length = l.length := by
  simp only [rotateRange, List.length_append, List.length_take, List.length_rotate, length_cells h,
    List.length_drop]
  omega

theorem getElem?_rotateRange {l : List α} {start stop k : Nat} (hs : start ≤ stop) (hk : k ≤ stop - start)
    (h : stop ≤ l.length) (j : Nat) :
    (rotateRange l start stop k)[j]? =
      if start ≤ j ∧ j < stop then (if j + k < stop then l[j + k]? else l[j + k - (stop - start)]?)
      else l[j]? := by
  have hcells : (cells l start stop).length = stop - start := length_cells h
  have hmin : min start l.length = start := by omega
  simp only [rotateRange, List.getElem?_append, List.getElem?_take, List.getElem?_drop,
    List.length_append, List.length_take, List.length_rotate, hcells, hmin]
  -- three regions: before the range, the rotated range, after it
  rcases Nat.lt_or_ge j start with hlo | hlo
  · rw [if_pos (by omega), if_pos hlo, if_pos hlo, if_neg (by omega)]
  rcases Nat.lt_or_ge j stop with hhi | hhi
  · rw [if_pos (by omega), if_neg (by omega), if_pos ⟨hlo, hhi⟩, List.getElem?_rotate (by omega),
      hcells, getElem?_cells, if_pos (Nat.mod_lt _ (by omega)), add_mod_of_lt (by omega)]
    split_ifs <;> (congr 1; omega)
  · rw [if_neg (by omega), if_neg (by omega)]
    congr 1
    omega

theorem take_min_length (l : List α) (n : Nat) : l.take (min l.length n) = l.take n := by
  rcases le_total l.length n with h | h
  · rw [min_eq_left h, List.take_length, List.take_of_length_le h]
  · rw [min_eq_right h]

theorem drop_min_length (l : List α) (n : Nat) : l.drop (min l.length n) = l.drop n := by
  rcases le_total l.length n with h | h
  · rw [min_eq_left h, List.drop_length, List.drop_of_length_le h]
  · rw [min_eq_right h]

/-! ## A ring holding a queue -/

/-- From index `b` on, the cells hold the values `xs` and then only empty cells. -/
def Holds (l : List (Option α)) (b : Nat) (xs : List α) : Prop :=
  l.rotate b = xs.map some ++ List.replicate (l.length - xs.length) none

section Holds

variable {l : List (Option α)} {b : Nat} {xs : List α}

theorem Holds.length_le (h : Holds l b xs) : xs.length ≤ l.length := by
  have := congrArg List.length h
  simp only [List.length_rotate, List.length_append, List.length_map, List.length_replicate] at this
  omega

theorem Holds.mod_iff : Holds l (b % l.length) xs ↔ Holds l b xs := by
  unfold Holds
  rw [List.rotate_mod]

theorem holds_replicate (n b : Nat) : Holds (List.replicate n (none : Option α)) b [] := by
  simp [Holds, List.rotate_replicate]

theorem Holds.getElem? (h : Holds l b xs) {i : Nat} (hi : i < l.length) :
    l[(b + i) % l.length]? = some xs[i]? := by
  have hrot := congrArg (·[i]?) h
  simp only [List.getElem?_rotate hi] at hrot
  rw [Nat.add_comm b i, hrot, List.getElem?_append]
  by_cases hx : i < xs.length
  · rw [if_pos (by simpa using hx), List.getElem?_map, List.getElem?_eq_getElem hx]
    rfl
  · rw [if_neg (by simpa using hx), List.getElem?_replicate, if_pos (by simp; omega),
      List.getElem?_eq_none (by omega)]

theorem Holds.take {x : α} (h : Holds l b (x :: xs)) :
    Holds (l.set (b % l.length) none) (b + 1) xs := by
  have hlen := h.length_le
  have hb : b % l.length < l.length := Nat.mod_lt _ (by simp at hlen; omega)
  rw [← Holds.mod_iff] at h
  rw [← Holds.mod_iff, List.length_set, ← Nat.mod_add_mod]
  generalize b % l.length = b at h hb
  have hset : (l.set b none).rotate b = (l.rotate b).set 0 none := by
    simpa [Nat.mod_eq_of_lt hb] using
      rotate_set (x := none) hb (show 0 < l.length by simp at hlen; omega)
  unfold Holds
  rw [show (l.set b none).rotate ((b + 1) % l.length) = (l.set b none).rotate (b + 1) by
      rw [← List.rotate_mod (l.set b none) (b + 1), List.length_set], ← List.rotate_rotate, hset,
    h, List.length_set]
  simp only [List.map_cons, List.cons_append, List.set_cons_zero, List.rotate_cons_succ,
    List.rotate_zero, List.length_cons]
  rw [List.append_assoc, ← List.replicate_succ']
  congr 2
  simp only [List.length_cons] at hlen ⊢
  omega

theorem Holds.put (h : Holds l b xs) (hlt : xs.length < l.length) (v : α) :
    Holds (l.set ((b + xs.length) % l.length) (some v)) b (xs ++ [v]) := by
  have hb : b % l.length < l.length := Nat.mod_lt _ (by omega)
  rw [← Holds.mod_iff] at h
  rw [← Holds.mod_iff, List.length_set, ← Nat.mod_add_mod]
  generalize b % l.length = b at h hb
  unfold Holds
  rw [rotate_set hb hlt, h, List.length_set, List.set_append_right _ _ (by simp),
    List.length_map, Nat.sub_self]
  obtain ⟨k, hk⟩ : ∃ k, l.length - xs.length = k + 1 := ⟨l.length - xs.length - 1, by omega⟩
  rw [hk, List.replicate_succ, List.set_cons_zero, List.map_append, List.append_assoc,
    List.length_append, List.length_singleton, show l.length - (xs.length + 1) = k by omega]
  rfl

end Holds

/-! ## The queue a ring buffer implements -/

/-- A FIFO queue of at most `capacity` items. -/
structure Fifo (α : Type) where
  capacity : Nat
  items : List α
  length_le : items.length ≤ capacity

end Ring
