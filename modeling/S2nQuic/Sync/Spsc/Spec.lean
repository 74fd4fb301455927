import S2nQuic.Sync.Spsc.Channel

/-!
# What each method of a side does

One lemma per method of `state.rs`, `send.rs` and `recv.rs`, for a state whose cursor is valid and
whose header has as many cells as the cursor's capacity: the method does not fail, and what it
returns is read off the cursor's `filled` count. The cells a method moves are then followed in a
ring that holds a queue (`Ring.Holds`): taking the first `n` filled cells hands back the first `n`
values, reading them leaves them, and writing into the unfilled cells puts values after the last.
-/

namespace S2nQuic.Sync.Spsc

open Ring

variable {T : Type}

theorem Size.sub_mod_eq {cap a b : Nat} (h : Size cap) (hab : a ≤ b) (hb : b < a + cap) :
    (b % cap + cap - a % cap) % cap = b - a := by
  have hpos := h.pos
  have hb' : b % cap = (a % cap + (b - a)) % cap := by rw [Nat.mod_add_mod, Nat.add_sub_cancel' hab]
  rw [hb', add_mod_sub_mod (Nat.mod_lt _ hpos) (show b - a < cap by omega),
    Nat.mod_eq_of_lt (by omega)]

namespace Cursor.Valid

variable {c : Cursor} (h : c.Valid)
include h

theorem isFull_eq_filled : c.isFull = some (decide (c.filled + 1 = c.capacity)) := by
  have hh := h.head_lt
  have ht := h.tail_lt
  have h2 := h.size.two_le
  unfold MINIMUM_CAPACITY at h2
  rw [h.isFull_eq, Cursor.filled,
    add_mod_of_lt (show c.head + c.capacity - c.tail < 2 * c.capacity by omega),
    add_mod_of_lt (show c.tail + c.capacity - c.head < 2 * c.capacity by omega)]
  congr 1
  rw [Bool.eq_iff_iff, beq_iff_eq, decide_eq_true_eq]
  split_ifs <;> omega

theorem isEmpty_eq_filled : c.isEmpty = some (decide (c.filled = 0)) := by
  have hh := h.head_lt
  have ht := h.tail_lt
  rw [h.isEmpty_eq, Cursor.filled,
    add_mod_of_lt (show c.tail + c.capacity - c.head < 2 * c.capacity by omega)]
  congr 1
  rw [Bool.eq_iff_iff, beq_iff_eq, decide_eq_true_eq]
  split_ifs <;> omega

end Cursor.Valid

/-! ## The shared state -/

namespace State

variable {s : State T}

/-- The state once `acquire_capacity` has reloaded the receiver's `head`. -/
def loadHead (s : State T) : State T := { s with cursor := { s.cursor with head := s.header.head } }

/-- The state once `acquire_filled` has reloaded the sender's `tail`. -/
def loadTail (s : State T) : State T := { s with cursor := { s.cursor with tail := s.header.tail } }

/-- The state once `drop_contents` has refreshed both indices. -/
def refresh (s : State T) : State T :=
  { s with cursor := { s.cursor with head := s.header.head, tail := s.header.tail } }

@[simp] theorem loadHead_header (s : State T) : s.loadHead.header = s.header := rfl

@[simp] theorem loadTail_header (s : State T) : s.loadTail.header = s.header := rfl

theorem asPairs_spec (hv : s.cursor.Valid) (hd : s.header.data.length = s.cursor.capacity) :
    ∃ filled unfilled, s.asPairs = some (filled, unfilled) ∧ filled.len = s.cursor.filled ∧
      (∀ i, i < s.cursor.filled →
        filled.cell i = some ((s.cursor.head + i) % s.cursor.capacity)) ∧
      filled.indices =
        (List.range s.cursor.filled).map (fun i => (s.cursor.head + i) % s.cursor.capacity) ∧
      (∀ i, i < s.cursor.capacity - s.cursor.filled →
        unfilled.cell i = some ((s.cursor.tail + i) % s.cursor.capacity)) := by
  rw [asPairs, data, if_pos hd, Option.bind_some, hd]
  obtain ⟨filled, unfilled, hp, hlen, hf, hu⟩ := hv.dataToPairs_spec
  refine ⟨filled, unfilled, hp, hlen, hf, ?_, hu⟩
  rw [← hlen]
  exact filled.indices_eq_map fun i hi => hf i (hlen ▸ hi)

theorem new_spec {isZst : Bool} {capacity : Nat} (hcap : isZst = true ∨ capacity < 2 ^ 63) :
    ∃ cap, Size cap ∧ State.new isZst capacity =
      some (⟨⟨0, 0, true, List.replicate cap none⟩, Cursor.new cap⟩ : State T) := by
  cases isZst
  · have hlt : capacity < 2 ^ 63 := hcap.resolve_left Bool.false_ne_true
    have hmax : max (capacity + 1) MINIMUM_CAPACITY ≤ 2 ^ 63 := by
      unfold MINIMUM_CAPACITY
      omega
    refine ⟨_, ⟨isPowerOfTwo_nextPowerOfTwo _, le_trans (le_max_right _ _) (le_nextPowerOfTwo _),
      nextPowerOfTwo_le ⟨63, rfl⟩ hmax⟩, ?_⟩
    rw [State.new, if_neg Bool.false_ne_true, if_neg (not_lt.mpr hmax)]
  · exact ⟨2 ^ 63, ⟨⟨63, rfl⟩, Nat.le_of_ble_eq_true rfl, le_rfl⟩, rfl⟩

theorem acquireCapacity_of_closed (ho : s.header.open = false) :
    s.acquireCapacity = some (s, .error ⟨⟩) := by
  simp [acquireCapacity, ho]

theorem acquireCapacity_of_open (ho : s.header.open = true) (hv : s.loadHead.cursor.Valid) :
    s.acquireCapacity =
      some (s.loadHead, .ok !decide (s.loadHead.cursor.filled + 1 = s.cursor.capacity)) := by
  simp only [loadHead] at hv ⊢
  simp only [acquireCapacity, ho, Bool.not_true, Bool.false_eq_true, if_false,
    hv.isFull_eq_filled, Option.map_some]
  rfl

theorem acquireFilled_eq (hv : s.loadTail.cursor.Valid) :
    s.acquireFilled = some (s.loadTail,
      if s.loadTail.cursor.filled = 0 then (if s.header.open then .ok false else .error ⟨⟩)
      else .ok true) := by
  simp only [loadTail] at hv ⊢
  by_cases hf : Cursor.filled { s.cursor with tail := s.header.tail } = 0 <;>
    cases ho : s.header.open <;>
    simp [acquireFilled, hv.isEmpty_eq_filled, hf, ho]

theorem dropContents_eq (isZst : Bool) (hv : s.refresh.cursor.Valid)
    (hd : s.header.data.length = s.cursor.capacity) :
    s.dropContents isZst =
      if isZst then some (s.refresh, [])
      else (Pair.takeAll s.header.data ((List.range s.refresh.cursor.filled).map
          fun i => (s.header.head + i) % s.cursor.capacity)).map fun r =>
        (⟨{ s.header with data := r.1 }, s.refresh.cursor⟩, r.2) := by
  obtain ⟨filled, unfilled, hp, -, -, hidx, -⟩ := asPairs_spec (s := s.refresh) hv hd
  rw [dropContents]
  simp only [refresh] at hp hidx ⊢
  rw [hp, Option.bind_some, hidx]

end State

/-! ## The sender's slice -/

namespace SendSlice

variable {s : State T}

theorem writeFirst_eq (hv : s.cursor.Valid) (hd : s.header.data.length = s.cursor.capacity)
    (value : T) :
    writeFirst s value = some ⟨{ s.header with data := s.header.data.set s.cursor.tail (some value) },
      { s.cursor with tail := (s.cursor.tail + 1) % s.cursor.capacity }⟩ := by
  obtain ⟨filled, unfilled, hp, -, -, -, hu⟩ := s.asPairs_spec hv hd
  have hlt := hv.filled_lt
  have h2 := hv.size.two_le
  unfold MINIMUM_CAPACITY at h2
  have h0 : unfilled.cell 0 = some s.cursor.tail := by
    rw [hu 0 (by omega), Nat.add_zero, Nat.mod_eq_of_lt hv.tail_lt]
  rw [writeFirst, hp, Option.bind_some, Pair.write, h0, Option.map_some, Option.bind_some,
    hv.incrementTail_eq (by omega), Option.map_some]

theorem push_of_free (hv : s.cursor.Valid) (hf : s.cursor.filled + 1 ≠ s.cursor.capacity)
    (value : T) : push s value = (writeFirst s value).map fun s => (s, .ok ()) := by
  simp only [push, hv.isFull_eq_filled, decide_eq_false hf, Option.bind_some, Bool.false_eq_true,
    if_false]

theorem push_of_closed (hv : s.cursor.Valid) (hf : s.cursor.filled + 1 = s.cursor.capacity)
    (ho : s.header.open = false) (value : T) : push s value = some (s, .error .closed) := by
  simp only [push, hv.isFull_eq_filled, decide_eq_true hf, Option.bind_some, if_true,
    State.acquireCapacity_of_closed ho]

theorem push_of_open (hv : s.cursor.Valid) (hf : s.cursor.filled + 1 = s.cursor.capacity)
    (ho : s.header.open = true) (hl : s.loadHead.cursor.Valid) (value : T) :
    push s value =
      if s.loadHead.cursor.filled + 1 = s.cursor.capacity then
        some (s.loadHead, .error (.full value))
      else (writeFirst s.loadHead value).map fun s => (s, .ok ()) := by
  simp only [push, hv.isFull_eq_filled, decide_eq_true hf, Option.bind_some, if_true,
    State.acquireCapacity_of_open ho hl]
  by_cases hf' : s.loadHead.cursor.filled + 1 = s.cursor.capacity <;>
    simp only [hf', decide_true, decide_false, Bool.not_true, Bool.not_false, if_true, if_false]

theorem push_eq_full {s' : State T} {v v' : T} (h : push s v = some (s', .error (.full v'))) :
    s.header.open = true ∧ s' = s.loadHead ∧ s.loadHead.cursor.isFull = some true := by
  unfold push at h
  rcases hf : s.cursor.isFull with _ | _ | _
  · simp [hf] at h
  · -- a free cell in the cached cursor: the value is written
    simp only [hf, Option.bind_some, Bool.false_eq_true, if_false] at h
    obtain ⟨_, -, h⟩ := Option.map_eq_some_iff.mp h
    cases h
  · simp only [hf, Option.bind_some, if_true, State.acquireCapacity] at h
    cases ho : s.header.open
    · simp [ho] at h
    · simp only [ho, Bool.not_true, Bool.false_eq_true, if_false] at h
      change (s.loadHead.cursor.isFull.map fun isFull => (s.loadHead, Except.ok !isFull)).bind
        _ = _ at h
      rcases hl : s.loadHead.cursor.isFull with _ | _ | _
      · simp [hl] at h
      · -- the reload freed a cell: the value is written
        simp only [hl, Option.map_some, Option.bind_some, Bool.not_false] at h
        obtain ⟨_, -, h⟩ := Option.map_eq_some_iff.mp h
        cases h
      · simp only [hl, Option.map_some, Option.bind_some, Bool.not_true, Option.some.injEq,
          Prod.mk.injEq] at h
        exact ⟨rfl, h.1.symm, rfl⟩

theorem extend_of_closed (ho : s.header.open = false) (values : List T) :
    extend s values = some (s, .error ⟨⟩, 0) := by
  simp only [extend, State.acquireCapacity_of_closed ho, Option.bind_some]

theorem extend_of_full (ho : s.header.open = true) (hl : s.loadHead.cursor.Valid)
    (hf : s.loadHead.cursor.filled + 1 = s.cursor.capacity) (values : List T) :
    extend s values = some (s.loadHead, .ok (), 0) := by
  simp only [extend, State.acquireCapacity_of_open ho hl, decide_eq_true hf, Bool.not_true,
    Option.bind_some]

theorem extend_of_free (ho : s.header.open = true) (hl : s.loadHead.cursor.Valid)
    (hd : s.header.data.length = s.cursor.capacity)
    (hf : s.loadHead.cursor.filled + 1 ≠ s.cursor.capacity) (values : List T) :
    ∃ unfilled : Pair,
      (∀ i, i < s.cursor.capacity - s.loadHead.cursor.filled →
        unfilled.cell i = some ((s.cursor.tail + i) % s.cursor.capacity)) ∧
      extend s values =
        let written := values.take (s.cursor.capacity - 1 - s.loadHead.cursor.filled)
        (unfilled.writeFrom s.header.data 0 written).map fun data =>
          (⟨{ s.header with data }, { s.loadHead.cursor with
            tail := (s.cursor.tail + written.length) % s.cursor.capacity }⟩, .ok (),
            written.length) := by
  obtain ⟨filled, unfilled, hp, -, -, -, hu⟩ := State.asPairs_spec (s := s.loadHead) hl hd
  refine ⟨unfilled, hu, ?_⟩
  have hlt := hl.filled_lt
  have hsend : s.loadHead.cursor.sendCapacity =
      some (s.cursor.capacity - 1 - s.loadHead.cursor.filled) := hl.sendCapacity_eq
  simp only [extend, State.acquireCapacity_of_open ho hl, decide_eq_false hf, Bool.not_false,
    Option.bind_some]
  rw [hp, Option.bind_some, hsend, Option.bind_some]
  simp only [State.loadHead_header]
  cases unfilled.writeFrom s.header.data 0
    (values.take (s.cursor.capacity - 1 - s.loadHead.cursor.filled)) with
  | none => rfl
  | some data =>
    rw [Option.bind_some, Option.map_some, hl.incrementTail_eq (by
      simp only [List.length_take]
      exact le_trans (min_le_left _ _) (by simp only [State.loadHead] at hlt ⊢; omega)),
      Option.map_some]
    rfl

end SendSlice

/-! ## The receiver's slice -/

namespace RecvSlice

variable {s : State T}

theorem takeFirst_eq (hv : s.cursor.Valid) (hd : s.header.data.length = s.cursor.capacity)
    (hne : s.cursor.filled ≠ 0) {x : T} (hx : s.header.data[s.cursor.head]? = some (some x)) :
    takeFirst s = some (⟨{ s.header with data := s.header.data.set s.cursor.head none },
      { s.cursor with head := (s.cursor.head + 1) % s.cursor.capacity }⟩, x) := by
  obtain ⟨filled, unfilled, hp, -, hf, -, -⟩ := s.asPairs_spec hv hd
  have hlt := hv.filled_lt
  have h2 := hv.size.two_le
  unfold MINIMUM_CAPACITY at h2
  have h0 : filled.cell 0 = some s.cursor.head := by
    rw [hf 0 (by omega), Nat.add_zero, Nat.mod_eq_of_lt hv.head_lt]
  simp only [takeFirst, hp, Option.bind_some, Pair.take, h0, hx, Option.join_some,
    Option.map_some, hv.incrementHead_eq (n := 1) (by omega)]

theorem pop_of_ready (hv : s.cursor.Valid) (hne : s.cursor.filled ≠ 0) :
    pop s = (takeFirst s).map fun r => (r.1, some r.2) := by
  simp only [pop, hv.isEmpty_eq_filled, decide_eq_false hne, Option.bind_some, Bool.false_eq_true,
    if_false, if_true]

theorem pop_of_empty (hv : s.cursor.Valid) (he : s.cursor.filled = 0)
    (hl : s.loadTail.cursor.Valid) :
    pop s =
      if s.loadTail.cursor.filled = 0 then some (s.loadTail, none)
      else (takeFirst s.loadTail).map fun r => (r.1, some r.2) := by
  simp only [pop, hv.isEmpty_eq_filled, decide_eq_true he, Option.bind_some, if_true,
    State.acquireFilled_eq hl, Option.map_some]
  by_cases hf : s.loadTail.cursor.filled = 0
  · cases s.header.open <;> simp [hf, Except.toOption]
  · simp [hf, Except.toOption]

theorem peek_eq (hl : s.loadTail.cursor.Valid) (hd : s.header.data.length = s.cursor.capacity) :
    peek s = (Pair.readAll s.header.data ((List.range s.loadTail.cursor.filled).map
        fun i => (s.cursor.head + i) % s.cursor.capacity)).map fun values => (s.loadTail, values) := by
  obtain ⟨filled, unfilled, hp, -, -, hidx, -⟩ := State.asPairs_spec (s := s.loadTail) hl hd
  simp only [peek, State.acquireFilled_eq hl, Option.bind_some, hp, hidx]
  rfl

theorem clear_eq (hv : s.cursor.Valid) (hd : s.header.data.length = s.cursor.capacity) :
    clear s = (Pair.takeAll s.header.data ((List.range s.cursor.filled).map
        fun i => (s.cursor.head + i) % s.cursor.capacity)).map fun r =>
      (⟨{ s.header with data := r.1 },
        { s.cursor with head := (s.cursor.head + s.cursor.filled) % s.cursor.capacity }⟩,
        s.cursor.filled, r.2) := by
  obtain ⟨filled, unfilled, hp, hlen, -, hidx, -⟩ := s.asPairs_spec hv hd
  have hlt := hv.filled_lt
  rw [clear, hp, Option.bind_some, hidx, hlen, hv.incrementHead_eq (by omega)]
  cases Pair.takeAll _ _ <;> rfl

theorem release_eq (hv : s.cursor.Valid) (hd : s.header.data.length = s.cursor.capacity)
    {len : Nat} (hlen : len ≤ s.cursor.filled) :
    release s len = (Pair.takeAll s.header.data ((List.range len).map
        fun i => (s.cursor.head + i) % s.cursor.capacity)).map fun r =>
      (⟨{ s.header with data := r.1 },
        { s.cursor with head := (s.cursor.head + len) % s.cursor.capacity }⟩, r.2) := by
  obtain ⟨filled, unfilled, hp, hflen, -, hidx, -⟩ := s.asPairs_spec hv hd
  have hlt := hv.filled_lt
  rw [release, hp, Option.bind_some]
  dsimp only
  rw [if_pos (by omega), hidx, ← List.map_take, List.take_range, min_eq_left hlen,
    hv.incrementHead_eq (by omega)]
  cases Pair.takeAll _ _ <;> rfl

end RecvSlice

/-! ## Cells holding a queue -/

namespace Pair

variable {l : List (Option T)} {b : Nat} {xs : List T}

theorem takeAll_holds (n : Nat) :
    ∀ {l : List (Option T)} {b : Nat} {xs : List T}, Holds l b xs → n ≤ xs.length →
      ∃ l', takeAll l ((List.range n).map fun i => (b + i) % l.length) = some (l', xs.take n) ∧
        l'.length = l.length ∧ Holds l' (b + n) (xs.drop n) := by
  induction n with
  | zero => exact fun h _ => ⟨_, rfl, rfl, h⟩
  | succ n ih =>
    intro l b xs h hn
    obtain ⟨x, xs, rfl⟩ : ∃ x ys, xs = x :: ys := List.exists_cons_of_length_pos (by omega)
    have hx : l[b % l.length]? = some (some x) := by
      simpa using h.getElem? (i := 0) (by have := h.length_le; simp at this; omega)
    obtain ⟨l', hall, hlen, h'⟩ := ih h.take (by simp at hn; omega)
    rw [List.length_set] at hall hlen
    refine ⟨l', ?_, hlen, by simpa [Nat.add_assoc, Nat.add_comm 1 n] using h'⟩
    rw [List.range_succ_eq_map, List.map_cons, List.map_map, Nat.add_zero, takeAll, hx,
      Option.join_some, Option.bind_some]
    simp only [Function.comp_def, Nat.succ_eq_add_one, ← Nat.add_assoc, Nat.add_right_comm b _ 1]
    rw [hall, Option.map_some, List.take_succ_cons]

theorem writeFrom_holds (p : Pair) :
    ∀ (values : List T) {l : List (Option T)} {b k : Nat} {xs : List T}, Holds l b xs →
      xs.length + values.length ≤ l.length →
      (∀ i, i < values.length → p.cell (k + i) = some ((b + xs.length + i) % l.length)) →
      ∃ l', p.writeFrom l k values = some l' ∧ l'.length = l.length ∧ Holds l' b (xs ++ values)
  | [], l, _, _, _, h, _, _ => ⟨l, rfl, rfl, by rwa [List.append_nil]⟩
  | v :: values, l, b, k, xs, h, hlen, hcell => by
    have hput := h.put (by simp at hlen; omega) v
    have h0 : p.cell k = some ((b + xs.length) % l.length) := by simpa using hcell 0 (by simp)
    obtain ⟨l', hw, hl', h'⟩ := writeFrom_holds p values hput
      (by simp only [List.length_set, List.length_append, List.length_singleton]; simp at hlen; omega)
      (fun i hi => by
        rw [List.length_set, List.length_append, List.length_singleton, Nat.add_assoc k,
          Nat.add_comm 1 i, ← Nat.add_assoc k]
        simpa [Nat.add_assoc, Nat.add_comm 1 i] using hcell (i + 1) (by simp; omega))
    refine ⟨l', ?_, by rw [hl', List.length_set], by simpa using h'⟩
    rw [writeFrom, write, h0, Option.map_some, Option.bind_some, hw]

theorem readAll_holds (h : Holds l b xs) :
    ∀ {n : Nat}, n ≤ xs.length →
      readAll l ((List.range n).map fun i => (b + i) % l.length) = some (xs.take n)
  | 0, _ => rfl
  | n + 1, hn => by
    have hlen := h.length_le
    have hx : l[(b + n) % l.length]? = some (some xs[n]) := by
      rw [h.getElem? (by omega), List.getElem?_eq_getElem (by omega)]
    rw [readAll, List.range_succ, List.map_append, List.mapM_append, ← readAll,
      readAll_holds h (by omega)]
    simp only [List.map_cons, List.map_nil, List.mapM_cons, List.mapM_nil, hx, Option.join_some]
    rw [List.take_add_one, List.getElem?_eq_getElem (by omega)]
    rfl

end Pair

end S2nQuic.Sync.Spsc
