import S2nQuic.Lib.Ring
import S2nQuic.Lib.OrderedMap
import S2nQuic.Lib.Refinement

/-!
# The map of packets pending acknowledgement

`packet/number/map.rs`: a ring of slots, one for each packet number from `start` to `end`, read
from `index` on; the map is empty when `index` is the number of slots. The packet numbers of one
map are of one packet number space, so a key is the packet number's value (`as_u64`); they stay
below `2 ^ 62`, and `next` and `prev` at the call sites are `+ 1` and `- 1`. A `debug_assert!`,
`expect` or `unreachable!` that fails is a `none` of the model. `RemoveIter` is always drained (its
`Drop` drains it), so `remove_range` hands back everything it yields at once.

A map refines a partial function from packet numbers to values, read by `get`: over every run of
calls that insert above the stored packet numbers, each call changes `get` as the ordered map it
stands for changes, and `iter` and `remove_range` list entries in ascending order.
-/

namespace S2nQuic.Packet

open Ring

/-- Start with 8 sent packets at a time -/
def DEFAULT_CAPACITY : Nat := 8

/-- A data structure for tracking packets that are pending acknowledgement -/
structure Map (V : Type) where
  values : List (Option V)
  start : Nat
  «end» : Nat
  index : Nat
  capacity_pos : 0 < values.length

namespace Map

variable {V : Type}

/-- `Default`: `DEFAULT_CAPACITY` empty slots, with the index past them. -/
def default : Map V :=
  ⟨List.replicate DEFAULT_CAPACITY none, 0, 0, DEFAULT_CAPACITY, Nat.le_of_ble_eq_true rfl⟩

def isEmpty (self : Map V) : Bool := self.index == self.values.length

/-- `clear`: only the index moves; the slots keep what they hold. -/
def clear (self : Map V) : Map V := { self with index := self.values.length }

/-- `self.values[index] = value`. -/
def setValue (self : Map V) (index : Nat) (value : Option V) : Map V :=
  { self with
    values := self.values.set index value
    capacity_pos := by simpa using self.capacity_pos }

/-- The `loop` of `resize`: the capacity doubles until it is past `len`. -/
def grow (len newLen : Nat) (h : 0 < newLen) : Nat :=
  if len < newLen * 2 then newLen * 2 else grow len (newLen * 2) (by omega)
termination_by len + 1 - newLen

/-- `resize`: the slots from `index` to the end, then those before it, then empty slots up to the
new capacity; the index goes back to the first slot. -/
def resize (self : Map V) (len : Nat) : Map V where
  values := self.values.drop self.index ++ self.values.take self.index ++
    List.replicate (grow len self.values.length self.capacity_pos - self.values.length) none
  start := self.start
  «end» := self.end
  index := 0
  capacity_pos := by
    have := self.capacity_pos
    simp only [List.length_append, List.length_drop, List.length_take, List.length_replicate]
    omega

/-- The branch of `insert` and `insert_or_update` for an empty map: the packet number is the start
and the end, and its value goes to the first slot. -/
def insertEmpty (self : Map V) (packetNumber : Nat) (value : V) : Map V :=
  { self with start := packetNumber, «end» := packetNumber, index := 0 }.setValue 0 (some value)

/-- `insert`: the packet number must be above the stored ones. -/
def insert (self : Map V) (packetNumber : Nat) (value : V) : Option (Map V) :=
  if self.isEmpty then some (self.insertEmpty packetNumber value)
  else if self.start < packetNumber ∧ self.end < packetNumber then
    let distance := packetNumber - self.start
    if self.values.length ≤ distance then
      some { (self.resize distance).setValue distance (some value) with «end» := packetNumber }
    else
      some { self.setValue ((self.index + distance) % self.values.length) (some value) with
        «end» := packetNumber }
  else none

/-- `insert_or_update`: a stored value is updated, an empty slot filled. -/
def insertOrUpdate (self : Map V) (packetNumber : Nat) (value : V) (update : V → V) :
    Option (Map V) :=
  if self.isEmpty then some (self.insertEmpty packetNumber value)
  else if self.start ≤ packetNumber then
    let distance := packetNumber - self.start
    let (resized, index) :=
      if self.values.length ≤ distance then (self.resize distance, distance)
      else (self, (self.index + distance) % self.values.length)
    let entry := match resized.values[index]?.join with
      | some prev => some (update prev)
      | none => some value
    some { resized.setValue index entry with «end» := max self.end packetNumber }
  else none

/-- `pn_index`: no slot below the start (`checked_distance`), past the end, or in an empty map. -/
def pnIndex (self : Map V) (packetNumber : Nat) : Option Nat :=
  if self.isEmpty then none
  else if self.end < packetNumber then none
  else if packetNumber < self.start then none
  else some ((self.index + (packetNumber - self.start)) % self.values.length)

def get (self : Map V) (packetNumber : Nat) : Option V :=
  (self.pnIndex packetNumber).bind fun index => self.values[index]?.join

/-- `set_start`: the first occupied packet number from `packetNumber` on becomes the start. It
asserts on entry that the map is not empty and that `start <= packetNumber <= end`, which
`PacketNumberRange::new` asserts too; the `debug_assert!`s after the search hold by it. -/
def setStart (self : Map V) (packetNumber : Nat) : Option (Map V) :=
  if self.isEmpty ∨ packetNumber < self.start ∨ self.end < packetNumber then none else
  match (List.range' packetNumber (self.end + 1 - packetNumber)).find?
      (fun q => (self.get q).isSome) with
  | none => none
  | some q => (self.pnIndex q).map fun index => { self with index := index, start := q }

/-- `set_end`: the last occupied packet number up to `packetNumber` becomes the end, with the
entry assertions of `set_start`. -/
def setEnd (self : Map V) (packetNumber : Nat) : Option (Map V) :=
  if self.isEmpty ∨ packetNumber < self.start ∨ self.end < packetNumber then none else
  ((List.range' self.start (packetNumber + 1 - self.start)).reverse.find?
      (fun q => (self.get q).isSome)).map fun q => { self with «end» := q }

/-- `remove`: take the value, then move a bound that it held. -/
def remove (self : Map V) (packetNumber : Nat) : Option (Map V × Option V) :=
  match self.pnIndex packetNumber with
  | none => some (self, none)
  | some index =>
    match self.values[index]?.join with
    | none => some (self, none)
    | some info =>
      let taken := self.setValue index none
      if self.start = packetNumber then
        if self.end = packetNumber then some (taken.clear, some info)
        else (taken.setStart (packetNumber + 1)).map (·, some info)
      else if self.end = packetNumber then (taken.setEnd (packetNumber - 1)).map (·, some info)
      else some (taken, some info)

/-- `Iter::next` until it is exhausted: `remaining` slots from `index` on, numbered from
`packetNumber`. -/
def iterFrom (values : List (Option V)) : (packetNumber index remaining : Nat) → List (Nat × V)
  | _, _, 0 => []
  | packetNumber, index, remaining + 1 =>
    let rest := iterFrom values (packetNumber + 1) ((index + 1) % values.length) remaining
    match values[index]?.join with
    | some info => (packetNumber, info) :: rest
    | none => rest

/-- `iter`: the slots `start..=end`, from `index` on; `Iter::new` asserts that there are no more
of them than slots. -/
def iter (self : Map V) : Option (List (Nat × V)) :=
  if self.isEmpty then some []
  else if self.values.length < self.end - self.start + 1 then none
  else some (iterFrom self.values self.start self.index (self.end - self.start + 1))

/-- `RemoveIter::next` until it is exhausted: as `iterFrom`, taking each value. -/
def drain (self : Map V) : (packetNumber index remaining : Nat) → Map V × List (Nat × V)
  | _, _, 0 => (self, [])
  | packetNumber, index, remaining + 1 =>
    let (rest, removed) := (self.setValue index none).drain (packetNumber + 1)
      ((index + 1) % self.values.length) remaining
    match self.values[index]?.join with
    | some info => (rest, (packetNumber, info) :: removed)
    | none => (rest, removed)

/-- `RemoveIter::new`: the bounds move past the removed part and the walk starts at its first
packet number; a range that covers the map clears it. The result is the map after the bounds
move, the first and last packet numbers walked and the slot of the first. -/
def removePlan (self : Map V) (rangeStart rangeEnd : Nat) : Option (Map V × Nat × Nat × Nat) :=
  if rangeStart ≤ self.start then
    if self.end ≤ rangeEnd then some (self.clear, self.start, self.end, self.index)
    else (self.setStart (rangeEnd + 1)).map fun m => (m, self.start, rangeEnd, self.index)
  else
    if self.end ≤ rangeEnd then
      (self.pnIndex rangeStart).bind fun index =>
        (self.setEnd (rangeStart - 1)).map fun m => (m, rangeStart, self.end, index)
    else (self.pnIndex rangeStart).map fun index => (self, rangeStart, rangeEnd, index)

/-- `remove_range`, drained: the entries of `rangeStart..=rangeEnd` in the order they are yielded.
The range is a `PacketNumberRange`, whose `new` asserts `rangeStart <= rangeEnd`, and
`RemoveIter::new` asserts that it walks no more slots than there are. -/
def removeRange (self : Map V) (rangeStart rangeEnd : Nat) : Option (Map V × List (Nat × V)) :=
  if rangeEnd < rangeStart then none
  else if self.isEmpty then some (self, [])
  else if rangeEnd < self.start ∨ self.end < rangeStart then some (self, [])
  else (self.removePlan rangeStart rangeEnd).bind fun (m, first, last, index) =>
    if m.values.length < last - first + 1 then none
    else some (m.drain first index (last - first + 1))

/-! ## The ring from the index -/

section Ring

variable {self : Map V}

@[simp] theorem values_setValue (index : Nat) (value : Option V) :
    (self.setValue index value).values = self.values.set index value := rfl
@[simp] theorem start_setValue (index : Nat) (value : Option V) :
    (self.setValue index value).start = self.start := rfl
@[simp] theorem end_setValue (index : Nat) (value : Option V) :
    (self.setValue index value).end = self.end := rfl
@[simp] theorem index_setValue (index : Nat) (value : Option V) :
    (self.setValue index value).index = self.index := rfl
@[simp] theorem values_clear : self.clear.values = self.values := rfl
@[simp] theorem index_clear : self.clear.index = self.values.length := rfl

theorem length_setValue (index : Nat) (value : Option V) :
    (self.setValue index value).values.length = self.values.length := by
  simp

/-- The slots from `index` on, wrapping: the `k`-th is the slot of the packet number
`start + k`. -/
def ring (self : Map V) : List (Option V) := self.values.rotate self.index

/-- The value in the `k`-th slot of the ring. -/
def slot (self : Map V) (k : Nat) : Option V := (self.ring[k]?).join

@[simp] theorem length_ring : self.ring.length = self.values.length := List.length_rotate _ _

theorem slot_of_le (k : Nat) (hk : self.values.length ≤ k) : self.slot k = none := by
  rw [slot, List.getElem?_eq_none (by simpa using hk), Option.join_none]

theorem slot_setValue (hidx : self.index < self.values.length) {d : Nat}
    (hd : d < self.values.length) (x : Option V) (k : Nat) :
    (self.setValue ((self.index + d) % self.values.length) x).slot k =
      if k = d then x else self.slot k := by
  have hring : (self.setValue ((self.index + d) % self.values.length) x).ring = self.ring.set d x :=
    rotate_set hidx hd x
  rw [slot, hring, List.getElem?_set, slot]
  split_ifs with h1 h2 h3 <;> first | rfl | (subst_vars; simp_all)

theorem getElem?_values {k : Nat}
    (hk : k < self.values.length) :
    (self.values[(self.index + k) % self.values.length]?).join = self.slot k := by
  rw [slot, ring, List.getElem?_rotate hk, Nat.add_comm self.index]

theorem lt_grow (len newLen : Nat) (h : 0 < newLen) :
    len < grow len newLen h ∧ newLen < grow len newLen h := by
  fun_induction grow len newLen h with
  | case1 newLen h hlt => omega
  | case2 newLen h hge ih => omega

theorem ring_resize (hidx : self.index ≤ self.values.length) (len : Nat) :
    (self.resize len).ring =
      self.ring ++ List.replicate (grow len self.values.length self.capacity_pos -
        self.values.length) none := by
  simp only [ring, resize, List.rotate_zero, List.rotate_eq_drop_append_take hidx]

theorem slot_resize (hidx : self.index ≤ self.values.length) (len k : Nat) :
    (self.resize len).slot k = self.slot k := by
  rw [slot, ring_resize hidx, List.getElem?_append]
  split_ifs with hk
  · rfl
  · rw [List.getElem?_replicate, slot_of_le k (by simpa using hk)]
    split_ifs <;> rfl

@[simp] theorem length_resize (hidx : self.index ≤ self.values.length) (len : Nat) :
    (self.resize len).values.length = grow len self.values.length self.capacity_pos := by
  have := (lt_grow len self.values.length self.capacity_pos).2
  simp only [resize, List.length_append, List.length_drop, List.length_take,
    List.length_replicate]
  omega

end Ring

/-! ## The ring invariants -/

/-- The packet numbers `start..=end` fit in the slots from `index` on. -/
structure Bounds (m : Map V) : Prop where
  index_lt : m.index < m.values.length
  start_le : m.start ≤ m.end
  span_lt : m.end - m.start < m.values.length

/-- A non-empty map: the first and the last slot of its packet numbers are occupied, and every slot
past the last is empty. -/
structure Window (m : Map V) : Prop extends m.Bounds where
  first : (m.slot 0).isSome
  last : (m.slot (m.end - m.start)).isSome
  past : ∀ k, m.end - m.start < k → m.slot k = none

/-- The ring invariants: an empty map has only empty slots, a non-empty one a window. -/
def Inv (m : Map V) : Prop :=
  (m.isEmpty ∧ ∀ x ∈ m.values, x = none) ∨ m.Window

section Invariants

variable {self : Map V}

theorem Bounds.isEmpty_eq_false (h : self.Bounds) : self.isEmpty = false := by
  simp [isEmpty, h.index_lt.ne]

theorem get_of_isEmpty (h : self.isEmpty = true) (q : Nat) : self.get q = none := by
  simp [get, pnIndex, h]

theorem Bounds.pnIndex_eq (h : self.Bounds) {q : Nat} (h1 : self.start ≤ q) (h2 : q ≤ self.end) :
    self.pnIndex q = some ((self.index + (q - self.start)) % self.values.length) := by
  rw [pnIndex, if_neg (by simp [h.isEmpty_eq_false]), if_neg (by omega), if_neg (by omega)]

theorem Bounds.get_eq (h : self.Bounds) (q : Nat) :
    self.get q = if self.start ≤ q ∧ q ≤ self.end then self.slot (q - self.start) else none := by
  have hspan := h.span_lt
  unfold get pnIndex
  rw [if_neg (by simp [h.isEmpty_eq_false])]
  by_cases hq : self.start ≤ q ∧ q ≤ self.end
  · rw [if_neg (by omega), if_neg (by omega), if_pos hq, Option.bind_some,
      getElem?_values (by omega)]
  · rw [if_neg hq]
    split_ifs <;> first | rfl | omega

theorem Bounds.get_eq_of (h : self.Bounds) {s e : Nat} (hs : self.start = s) (he : self.end = e)
    (q : Nat) : self.get q = if s ≤ q ∧ q ≤ e then self.slot (q - s) else none := by
  subst hs he
  exact h.get_eq q

theorem Window.get_eq (h : self.Window) (q : Nat) :
    self.get q = if self.start ≤ q then self.slot (q - self.start) else none := by
  have := h.start_le
  rw [h.toBounds.get_eq]
  by_cases hq : self.start ≤ q
  · by_cases hqe : q ≤ self.end
    · rw [if_pos ⟨hq, hqe⟩, if_pos hq]
    · rw [if_neg (by omega), if_pos hq, h.past _ (by omega)]
  · rw [if_neg (by omega), if_neg hq]

theorem Window.get_start (h : self.Window) : (self.get self.start).isSome := by
  rw [h.get_eq, if_pos le_rfl, Nat.sub_self]
  exact h.first

theorem Window.get_end (h : self.Window) : (self.get self.end).isSome := by
  rw [h.get_eq, if_pos h.start_le]
  exact h.last

theorem Window.get_eq_none (h : self.Window) {q : Nat} (hq : q < self.start ∨ self.end < q) :
    self.get q = none := by
  rw [h.toBounds.get_eq, if_neg (by omega)]

theorem Window.bounds_spec (h : self.Window) :
    IsLeast {q | (self.get q).isSome} self.start ∧ IsGreatest {q | (self.get q).isSome} self.end := by
  refine ⟨⟨h.get_start, fun q hq => ?_⟩, ⟨h.get_end, fun q hq => ?_⟩⟩ <;> by_contra hout <;>
    simp only [Set.mem_setOf_eq, h.get_eq_none (q := q) (by omega), Option.isSome_none,
      Bool.false_eq_true] at hq

theorem Inv.isEmpty_iff (h : self.Inv) : self.isEmpty = true ↔ ∀ q, self.get q = none := by
  rcases h with ⟨he, -⟩ | hw
  · exact iff_of_true he (get_of_isEmpty he)
  · rw [hw.isEmpty_eq_false]
    simp only [Bool.false_eq_true, false_iff, not_forall]
    exact ⟨self.start, Option.isSome_iff_ne_none.mp hw.get_start⟩

end Invariants

/-! ## Insertion -/

section Insert

variable {self : Map V} {packetNumber : Nat} {value : V}

/-- The slots do not depend on the bounds. -/
@[simp] theorem slot_mk (m : Map V) (s e k : Nat) (h : 0 < m.values.length) :
    (Map.mk m.values s e m.index h).slot k = m.slot k := rfl

@[simp] theorem index_resize (len : Nat) : (self.resize len).index = 0 := rfl
@[simp] theorem start_resize (len : Nat) : (self.resize len).start = self.start := rfl
@[simp] theorem end_resize (len : Nat) : (self.resize len).end = self.end := rfl

@[simp] theorem start_insertEmpty : (self.insertEmpty packetNumber value).start = packetNumber := rfl
@[simp] theorem end_insertEmpty : (self.insertEmpty packetNumber value).end = packetNumber := rfl
@[simp] theorem index_insertEmpty : (self.insertEmpty packetNumber value).index = 0 := rfl

theorem slot_insertEmpty_of_pos {k : Nat} (hk : 0 < k) :
    (self.insertEmpty packetNumber value).slot k = (self.values[k]?).join := by
  simp only [insertEmpty, slot, ring, values_setValue, index_setValue, List.rotate_zero,
    List.getElem?_set, if_neg (show 0 ≠ k by omega)]

theorem slot_insertEmpty (hnone : ∀ x ∈ self.values, x = none) (k : Nat) :
    (self.insertEmpty packetNumber value).slot k = if k = 0 then some value else none := by
  rcases Nat.eq_zero_or_pos k with rfl | hk
  · simp [insertEmpty, slot, ring, self.capacity_pos]
  · rw [if_neg (by omega), slot_insertEmpty_of_pos hk]
    cases hx : self.values[k]? with
    | none => rfl
    | some x => rw [hnone x (List.mem_of_getElem? hx)]; rfl

theorem window_insertEmpty (hnone : ∀ x ∈ self.values, x = none) :
    (self.insertEmpty packetNumber value).Window ∧
      (self.insertEmpty packetNumber value).get = fun q =>
        if q = packetNumber then some value else none := by
  have hw : (self.insertEmpty packetNumber value).Window := by
    constructor
    · constructor
      · simpa [insertEmpty] using self.capacity_pos
      · simp
      · simpa [insertEmpty] using self.capacity_pos
    · simp [slot_insertEmpty hnone]
    · simp [slot_insertEmpty hnone]
    · intro k hk
      simp only [start_insertEmpty, end_insertEmpty, Nat.sub_self] at hk
      rw [slot_insertEmpty hnone, if_neg (by omega)]
  refine ⟨hw, funext fun q => ?_⟩
  rw [hw.get_eq, start_insertEmpty, slot_insertEmpty hnone]
  split_ifs <;> first | rfl | omega

theorem Window.extend (h : self.Window) {m : Map V} {d : Nat} (hidx : m.index < m.values.length)
    (hstart : m.start = self.start) (hend : m.end = self.start + d)
    (hpast : self.end - self.start < d) (hlen : d < m.values.length)
    (hslot : ∀ k, m.slot k = if k = d then some value else self.slot k) :
    m.Window ∧ m.get = Function.update self.get m.end (some value) := by
  have hle := h.start_le
  have hw : m.Window :=
    { index_lt := hidx
      start_le := by omega
      span_lt := by omega
      first := by rw [hslot, if_neg (by omega)]; exact h.first
      last := by rw [hslot, if_pos (by omega)]; rfl
      past := fun k hk => by rw [hslot, if_neg (by omega)]; exact h.past k (by omega) }
  refine ⟨hw, funext fun q => ?_⟩
  rw [hw.get_eq, Function.update_apply, h.get_eq, hslot, hstart]
  by_cases hq : self.start ≤ q
  · by_cases hqe : q = m.end
    · rw [if_pos hq, if_pos (by omega), if_pos hqe]
    · rw [if_pos hq, if_neg (by omega), if_neg hqe, if_pos hq]
  · rw [if_neg hq, if_neg (by omega), if_neg hq]

theorem Window.insert (h : self.Window) (hend : self.end < packetNumber) :
    ∃ m, self.insert packetNumber value = some m ∧ m.Window ∧
      m.get = Function.update self.get packetNumber (some value) := by
  have hle := h.start_le
  have hspan := h.span_lt
  have hidx := h.index_lt
  unfold Map.insert
  rw [if_neg (by simp [h.isEmpty_eq_false]), if_pos ⟨by omega, hend⟩]
  dsimp only
  split_ifs with hlen
  · -- the ring grows past the distance and starts over at the first slot
    have hgrow := lt_grow (packetNumber - self.start) self.values.length self.capacity_pos
    have hlenR := length_resize hidx.le (packetNumber - self.start)
    have hset : (self.resize (packetNumber - self.start)).setValue (packetNumber - self.start)
        (some value) = (self.resize (packetNumber - self.start)).setValue
          (((self.resize (packetNumber - self.start)).index + (packetNumber - self.start)) %
            (self.resize (packetNumber - self.start)).values.length) (some value) := by
      rw [index_resize, Nat.zero_add, hlenR, Nat.mod_eq_of_lt hgrow.1]
    refine ⟨_, rfl, h.extend (d := packetNumber - self.start) ?_ rfl ?_ ?_ ?_ ?_⟩
    · simp only [index_setValue, index_resize, values_setValue, List.length_set, hlenR]
      omega
    · simp only
      omega
    · omega
    · simp only [values_setValue, List.length_set, hlenR]
      omega
    · intro k
      have hk := @slot_setValue V (self.resize (packetNumber - self.start)) (by simp [hlenR]; omega)
        (packetNumber - self.start) (by simp [hlenR]; omega) (some value) k
      rw [← hset, slot_resize hidx.le] at hk
      exact hk
  · refine ⟨_, rfl, h.extend (d := packetNumber - self.start) ?_ rfl ?_ ?_ ?_ ?_⟩
    · simpa using hidx
    · simp only
      omega
    · omega
    · simp only [values_setValue, List.length_set]
      omega
    · exact slot_setValue hidx (by omega) (some value)

theorem Window.overwrite (h : self.Window) {m : Map V} {d : Nat} {x : V}
    (hidx : m.index < m.values.length) (hlen : m.values.length = self.values.length)
    (hstart : m.start = self.start) (hend : m.end = self.end) (hd : d ≤ self.end - self.start)
    (hslot : ∀ k, m.slot k = if k = d then some x else self.slot k) :
    m.Window ∧ m.get = Function.update self.get (self.start + d) (some x) := by
  have hle := h.start_le
  have hspan := h.span_lt
  have hw : m.Window :=
    { index_lt := hidx
      start_le := by omega
      span_lt := by omega
      first := by rw [hslot]; split_ifs; rfl; exact h.first
      last := by rw [hslot, hend, hstart]; split_ifs; rfl; exact h.last
      past := fun k hk => by rw [hslot, if_neg (by omega)]; exact h.past k (by omega) }
  refine ⟨hw, funext fun q => ?_⟩
  rw [hw.get_eq, Function.update_apply, h.get_eq, hslot, hstart]
  by_cases hq : self.start ≤ q
  · by_cases hqe : q = self.start + d
    · rw [if_pos hq, if_pos (by omega), if_pos hqe]
    · rw [if_pos hq, if_neg (by omega), if_neg hqe, if_pos hq]
  · rw [if_neg hq, if_neg (by omega), if_neg hq]

theorem Inv.insert (h : self.Inv) (habove : ∀ q, (self.get q).isSome → q < packetNumber) :
    ∃ m, self.insert packetNumber value = some m ∧ m.Inv ∧
      m.get = Function.update self.get packetNumber (some value) := by
  rcases h with ⟨he, hnone⟩ | hw
  · obtain ⟨hw', hget⟩ : (self.insertEmpty packetNumber value).Window ∧ _ :=
      window_insertEmpty hnone
    refine ⟨_, by simp [Map.insert, he], .inr hw', ?_⟩
    rw [hget]
    funext q
    rw [Function.update_apply, get_of_isEmpty he]
  · obtain ⟨m, hm, hw', hget⟩ : ∃ m, self.insert packetNumber value = some m ∧ _ :=
      hw.insert (habove _ hw.get_end)
    exact ⟨m, hm, .inr hw', hget⟩

/-- What `insert_or_update` stores: the update of a stored value, or the value. -/
def updated (update : V → V) (value : V) : Option V → V
  | some prev => update prev
  | none => value

theorem Inv.insertOrUpdate (h : self.Inv) {update : V → V}
    (hstart : self.isEmpty = true ∨ self.start ≤ packetNumber) :
    ∃ m, self.insertOrUpdate packetNumber value update = some m ∧ m.Inv ∧
      m.get = Function.update self.get packetNumber
        (some (updated update value (self.get packetNumber))) := by
  rcases h with ⟨he, hnone⟩ | hw
  · obtain ⟨hw', hget⟩ : (self.insertEmpty packetNumber value).Window ∧ _ :=
      window_insertEmpty hnone
    refine ⟨_, by simp [Map.insertOrUpdate, he], .inr hw', ?_⟩
    rw [hget, get_of_isEmpty he]
    funext q
    rw [Function.update_apply, get_of_isEmpty he]
    rfl
  have hne := hw.isEmpty_eq_false
  have hle := hw.start_le
  have hspan := hw.span_lt
  have hidx := hw.index_lt
  have hge : self.start ≤ packetNumber := by simpa [hne] using hstart
  unfold Map.insertOrUpdate
  rw [if_neg (by simp [hne]), if_pos hge]
  dsimp only
  split_ifs with hlen
  · -- past the last slot: as `insert`, after a resize, into an empty slot
    have hgrow := lt_grow (packetNumber - self.start) self.values.length self.capacity_pos
    have hlenR := length_resize hidx.le (packetNumber - self.start)
    have hgetp : self.get packetNumber = none := hw.get_eq_none (.inr (by omega))
    have hentry : ((self.resize (packetNumber - self.start)).values[packetNumber - self.start]?).join
        = none := by
      have hvals : (self.resize (packetNumber - self.start)).values =
          (self.resize (packetNumber - self.start)).ring := by
        simp [ring]
      rw [hvals, ring_resize hidx.le, List.getElem?_append_right (by simp; omega),
        List.getElem?_replicate]
      split_ifs <;> rfl
    simp only [hentry, hgetp]
    have hset : (self.resize (packetNumber - self.start)).setValue (packetNumber - self.start)
        (some value) = (self.resize (packetNumber - self.start)).setValue
          (((self.resize (packetNumber - self.start)).index + (packetNumber - self.start)) %
            (self.resize (packetNumber - self.start)).values.length) (some value) := by
      rw [index_resize, Nat.zero_add, hlenR, Nat.mod_eq_of_lt hgrow.1]
    obtain ⟨hw', hget⟩ := hw.extend (d := packetNumber - self.start)
      (m := { (self.resize (packetNumber - self.start)).setValue (packetNumber - self.start)
        (some value) with «end» := max self.end packetNumber })
      (by simp only [index_setValue, index_resize, values_setValue, List.length_set, hlenR]; omega)
      rfl (by simp only; omega) (by omega)
      (by simp only [values_setValue, List.length_set, hlenR]; omega)
      (fun k => by
        have hk := @slot_setValue V (self.resize (packetNumber - self.start))
          (by simp [hlenR]; omega) (packetNumber - self.start) (by simp [hlenR]; omega)
          (some value) k
        rw [← hset, slot_resize hidx.le] at hk
        exact hk)
    refine ⟨_, rfl, .inr hw', ?_⟩
    rw [hget, show max self.end packetNumber = packetNumber by omega]
    rfl
  · have hentry : (self.values[(self.index + (packetNumber - self.start)) %
        self.values.length]?).join = self.slot (packetNumber - self.start) :=
      getElem?_values (by omega)
    simp only [hentry]
    by_cases hin : packetNumber ≤ self.end
    · -- a packet number of the window: its slot is rewritten
      have hgetp : self.get packetNumber = self.slot (packetNumber - self.start) := by
        rw [hw.get_eq, if_pos hge]
      obtain ⟨hw', hget⟩ := hw.overwrite (d := packetNumber - self.start)
        (x := updated update value (self.slot (packetNumber - self.start)))
        (m := { self.setValue ((self.index + (packetNumber - self.start)) % self.values.length)
          (match self.slot (packetNumber - self.start) with
            | some prev => some (update prev)
            | none => some value) with «end» := max self.end packetNumber })
        (by simpa using hidx) (by simp) rfl (by simp only; omega) (by omega)
        (fun k => by
          rw [slot_mk, slot_setValue hidx (by omega)]
          split_ifs
          · cases self.slot (packetNumber - self.start) <;> rfl
          · rfl)
      refine ⟨_, rfl, .inr hw', ?_⟩
      rw [hget, hgetp, show self.start + (packetNumber - self.start) = packetNumber by omega]
    · -- past the end: as `insert`, into an empty slot
      have hnone : self.slot (packetNumber - self.start) = none := hw.past _ (by omega)
      have hgetp : self.get packetNumber = none := hw.get_eq_none (.inr (by omega))
      simp only [hnone, hgetp]
      obtain ⟨hw', hget⟩ := hw.extend (d := packetNumber - self.start)
        (m := { self.setValue ((self.index + (packetNumber - self.start)) % self.values.length)
          (some value) with «end» := max self.end packetNumber })
        (by simpa using hidx) rfl (by simp only; omega) (by omega)
        (by simp only [values_setValue, List.length_set]; omega)
        (slot_setValue hidx (by omega) (some value))
      refine ⟨_, rfl, .inr hw', ?_⟩
      rw [hget, show max self.end packetNumber = packetNumber by omega]
      rfl

end Insert

/-! ## Moving the bounds -/

section Bounds

variable {self u w : Map V}

theorem Bounds.setStart_spec (h : self.Bounds) {p : Nat} (hp : self.start ≤ p)
    (hend : p ≤ self.end) (hocc : (self.get self.end).isSome) :
    ∃ q, p ≤ q ∧ q ≤ self.end ∧ (self.get q).isSome ∧
      (∀ q', p ≤ q' → q' < q → self.get q' = none) ∧
      self.setStart p = some { self with
        index := (self.index + (q - self.start)) % self.values.length, start := q } := by
  unfold setStart
  rw [if_neg (by simp only [h.isEmpty_eq_false, Bool.false_eq_true, false_or]; omega)]
  cases hf : (List.range' p (self.end + 1 - p)).find? (fun q => (self.get q).isSome) with
  | none =>
    rw [List.find?_range'_eq_none] at hf
    have := hf self.end hend (by omega)
    simp [hocc] at this
  | some q =>
    obtain ⟨hq, hmem, hleast⟩ := List.find?_range'_eq_some.mp hf
    rw [List.mem_range'_1] at hmem
    refine ⟨q, hmem.1, by omega, hq, fun q' h1 h2 => ?_, ?_⟩
    · simpa using hleast q' h1 h2
    · simp only [h.pnIndex_eq (q := q) (by omega) (by omega), Option.map_some]

theorem Bounds.setEnd_spec (h : self.Bounds) {p : Nat} (hp : self.start ≤ p) (hend : p ≤ self.end)
    (hocc : (self.get self.start).isSome) :
    ∃ q, self.start ≤ q ∧ q ≤ p ∧ (self.get q).isSome ∧
      (∀ q', q < q' → q' ≤ p → self.get q' = none) ∧
      self.setEnd p = some { self with «end» := q } := by
  unfold setEnd
  rw [if_neg (by simp only [h.isEmpty_eq_false, Bool.false_eq_true, false_or]; omega)]
  cases hf : (List.range' self.start (p + 1 - self.start)).reverse.find?
      (fun q => (self.get q).isSome) with
  | none =>
    rw [List.find?_eq_none] at hf
    have := hf self.start (by simp [List.mem_range'_1]; omega)
    simp [hocc] at this
  | some q =>
    obtain ⟨hq, hmem, hgreatest⟩ := OrderedMap.find?_reverse_range'_eq_some.mp hf
    rw [List.mem_range'_1] at hmem
    refine ⟨q, hmem.1, by omega, hq, fun q' h1 h2 => ?_, rfl⟩
    simpa using hgreatest q' h1 (by omega)

theorem slot_shift (hvals : w.values = u.values) (hidx : w.index = (u.index + s) % u.values.length)
    {k : Nat} (hk : k < u.values.length) :
    w.slot k = u.slot ((k + s) % u.values.length) := by
  have hring : w.ring = u.ring.rotate s := by
    rw [ring, ring, hvals, hidx, List.rotate_mod, List.rotate_rotate]
  rw [slot, hring, List.getElem?_rotate (by simpa using hk), length_ring, slot]

theorem Bounds.window_shiftStart (h : u.Bounds) {s : Nat} (hs : s ≤ u.end - u.start)
    (hvals : w.values = u.values) (hidx : w.index = (u.index + s) % u.values.length)
    (hstart : w.start = u.start + s) (hend : w.end = u.end)
    (hfirst : (u.slot s).isSome) (hlast : (u.slot (u.end - u.start)).isSome)
    (hbefore : ∀ j < s, u.slot j = none)
    (hpast : ∀ k, u.end - u.start < k → u.slot k = none) :
    w.Window ∧ w.get = u.get := by
  have hspan := h.span_lt
  have hle := h.start_le
  have hlen : w.values.length = u.values.length := by rw [hvals]
  -- a slot of the new ring is the old one `s` on, wrapping into the slots before the start
  have hslot : ∀ k, k < u.values.length → w.slot k =
      if k + s < u.values.length then u.slot (k + s) else u.slot (k + s - u.values.length) := by
    intro k hk
    rw [slot_shift hvals hidx hk, add_mod_of_lt (by omega)]
    split_ifs <;> rfl
  have hb : w.Bounds :=
    { index_lt := by rw [hidx, hlen]; exact Nat.mod_lt _ (by omega)
      start_le := by omega
      span_lt := by omega }
  have hw : w.Window :=
    { toBounds := hb
      first := by rw [hslot 0 (by omega), if_pos (by omega), Nat.zero_add]; exact hfirst
      last := by
        rw [hslot _ (by omega), if_pos (by omega), hend, hstart,
          show u.end - (u.start + s) + s = u.end - u.start by omega]
        exact hlast
      past := fun k hk => by
        rcases Nat.lt_or_ge k u.values.length with hk' | hk'
        · rw [hslot k hk']
          split_ifs
          · exact hpast _ (by omega)
          · exact hbefore _ (by omega)
        · exact slot_of_le k (by omega) }
  refine ⟨hw, funext fun q => ?_⟩
  rw [hb.get_eq, h.get_eq, hstart, hend]
  by_cases hq : u.start + s ≤ q ∧ q ≤ u.end
  · rw [if_pos hq, if_pos (by omega), hslot _ (by omega), if_pos (by omega),
      show q - (u.start + s) + s = q - u.start by omega]
  · rw [if_neg hq]
    split_ifs with hq'
    · rw [hbefore _ (by omega)]
    · rfl

theorem Bounds.window_shiftEnd (h : u.Bounds) {e : Nat} (he : e ≤ u.end - u.start)
    (hvals : w.values = u.values) (hidx : w.index = u.index) (hstart : w.start = u.start)
    (hend : w.end = u.start + e) (hfirst : (u.slot 0).isSome) (hlast : (u.slot e).isSome)
    (hafter : ∀ k, e < k → u.slot k = none) :
    w.Window ∧ w.get = u.get := by
  have hspan := h.span_lt
  have hle := h.start_le
  have hslot : ∀ k, w.slot k = u.slot k := fun k => by rw [slot, slot, ring, ring, hvals, hidx]
  have hb : w.Bounds :=
    { index_lt := by rw [hidx, hvals]; exact h.index_lt
      start_le := by omega
      span_lt := by rw [hvals]; omega }
  have hw : w.Window :=
    { toBounds := hb
      first := by rw [hslot]; exact hfirst
      last := by rw [hslot, hend, hstart, show u.start + e - u.start = e by omega]; exact hlast
      past := fun k hk => by rw [hslot]; exact hafter k (by omega) }
  refine ⟨hw, funext fun q => ?_⟩
  rw [hb.get_eq, h.get_eq, hstart, hend]
  by_cases hq : u.start ≤ q ∧ q ≤ u.start + e
  · rw [if_pos hq, if_pos (by omega), hslot]
  · rw [if_neg hq]
    split_ifs with hq'
    · rw [hafter _ (by omega)]
    · rfl

theorem values_eq_none (h : ∀ k, self.slot k = none) : ∀ x ∈ self.values, x = none := by
  intro x hx
  have hxr : x ∈ self.ring := (List.mem_rotate).mpr hx
  obtain ⟨k, hk, rfl⟩ := List.getElem_of_mem hxr
  have := h k
  rw [slot, List.getElem?_eq_getElem hk, Option.join_some] at this
  exact this

end Bounds

/-! ## Removal -/

section Remove

variable {self : Map V}

theorem Window.get_take (h : self.Window) {d : Nat} (hd : d < self.values.length) :
    (self.setValue ((self.index + d) % self.values.length) none).get =
      Function.update self.get (self.start + d) none := by
  have hb : (self.setValue ((self.index + d) % self.values.length) none).Bounds :=
    { index_lt := by simpa using h.index_lt
      start_le := h.start_le
      span_lt := by simpa using h.span_lt }
  funext q
  rw [hb.get_eq_of (start_setValue _ _) (end_setValue _ _), Function.update_apply,
    h.toBounds.get_eq]
  by_cases hq : self.start ≤ q ∧ q ≤ self.end
  · rw [if_pos hq, if_pos hq, slot_setValue h.index_lt hd]
    by_cases hqd : q = self.start + d
    · rw [if_pos (by omega), if_pos hqd]
    · rw [if_neg (by omega), if_neg hqd]
  · rw [if_neg hq, if_neg hq]
    split_ifs <;> rfl

theorem Inv.remove (h : self.Inv) (packetNumber : Nat) :
    ∃ m, self.remove packetNumber = some (m, self.get packetNumber) ∧ m.Inv ∧
      m.get = Function.update self.get packetNumber none := by
  have hnothing : self.get packetNumber = none →
      Function.update self.get packetNumber none = self.get := fun hg =>
    Function.update_eq_self_iff.mpr hg.symm
  rcases h with ⟨he, hnone⟩ | hw
  · -- nothing to remove from an empty map
    have hg := get_of_isEmpty he packetNumber
    refine ⟨self, by simp [Map.remove, pnIndex, he, hg], .inl ⟨he, hnone⟩, (hnothing hg).symm⟩
  have hle := hw.start_le
  have hspan := hw.span_lt
  have hidx := hw.index_lt
  by_cases hq : self.start ≤ packetNumber ∧ packetNumber ≤ self.end
  swap
  · have hg := hw.get_eq_none (q := packetNumber) (by omega)
    have hpn : self.pnIndex packetNumber = none := by
      simp only [pnIndex, hw.isEmpty_eq_false, Bool.false_eq_true, if_false]
      split_ifs <;> first | rfl | omega
    refine ⟨self, ?_, .inr hw, (hnothing hg).symm⟩
    simp only [Map.remove, hpn, hg]
  have hpn := hw.pnIndex_eq hq.1 hq.2
  have hgetp : self.get packetNumber = self.slot (packetNumber - self.start) := by
    rw [hw.get_eq, if_pos hq.1]
  have hentry : (self.values[(self.index + (packetNumber - self.start)) %
      self.values.length]?).join = self.slot (packetNumber - self.start) :=
    getElem?_values (by omega)
  cases hs : self.slot (packetNumber - self.start) with
  | none =>
    refine ⟨self, ?_, .inr hw, (hnothing (hgetp.trans hs)).symm⟩
    simp only [Map.remove, hpn, hentry, hs, hgetp]
  | some info =>
    set taken := self.setValue ((self.index + (packetNumber - self.start)) %
      self.values.length) none with htaken
    have htstart : taken.start = self.start := rfl
    have htend : taken.end = self.end := rfl
    have htidx : taken.index = self.index := rfl
    have htlen : taken.values.length = self.values.length := length_setValue _ _
    have htb : taken.Bounds :=
      { index_lt := by rw [htidx, htlen]; exact hidx
        start_le := hle
        span_lt := by rw [htlen]; exact hspan }
    have htslot : ∀ k, taken.slot k =
        if k = packetNumber - self.start then none else self.slot k :=
      slot_setValue hidx (by omega) none
    have htgeteq : ∀ q, taken.get q =
        if self.start ≤ q ∧ q ≤ self.end then taken.slot (q - self.start) else none :=
      htb.get_eq_of htstart htend
    have htget : taken.get = Function.update self.get packetNumber none := by
      rw [htaken, hw.get_take (by omega), show self.start + (packetNumber - self.start) =
        packetNumber by omega]
    have htold : ∀ k, k ≠ packetNumber - self.start → taken.slot k = self.slot k := fun k hk => by
      rw [htslot, if_neg hk]
    have hremove : self.remove packetNumber =
        if self.start = packetNumber then
          if self.end = packetNumber then some (taken.clear, some info)
          else (taken.setStart (packetNumber + 1)).map (·, some info)
        else if self.end = packetNumber then (taken.setEnd (packetNumber - 1)).map (·, some info)
        else some (taken, some info) := by
      simp only [Map.remove, hpn, hentry, hs, taken]
    rw [hremove, hgetp, hs]
    by_cases hs1 : self.start = packetNumber
    · by_cases he1 : self.end = packetNumber
      · -- the only packet number: the map is cleared
        rw [if_pos hs1, if_pos he1]
        have hall : ∀ k, taken.slot k = none := fun k => by
          rw [htslot]
          split_ifs with hk
          · rfl
          · exact hw.past k (by omega)
        refine ⟨_, rfl, .inl ⟨by simp [isEmpty, clear], fun x hx =>
          values_eq_none hall x (by simpa using hx)⟩, ?_⟩
        rw [← htget]
        funext q
        rw [get_of_isEmpty (by simp [isEmpty, clear]), htgeteq, hall]
        split_ifs <;> rfl
      · -- the first packet number: the start moves to the next occupied one
        rw [if_pos hs1, if_neg he1]
        have hendocc : (taken.get taken.end).isSome := by
          rw [htget, Function.update_apply, htend, if_neg (by omega)]
          exact hw.get_end
        obtain ⟨q, hq1, hq2, hqocc, hleast, hset⟩ :=
          htb.setStart_spec (p := packetNumber + 1) (by omega) (by omega) hendocc
        rw [hset]
        rw [htgeteq, if_pos (by omega)] at hqocc
        obtain ⟨hw', hget'⟩ := htb.window_shiftStart (s := q - self.start)
          (w := { taken with
            index := (taken.index + (q - taken.start)) % taken.values.length
            start := q })
          (by omega) rfl (by rw [htstart]) (by simp only; omega) rfl hqocc
          (by rw [htend, htstart, htold _ (by omega)]; exact hw.last)
          (fun j hj => by
            rcases Nat.eq_zero_or_pos j with rfl | hj0
            · rw [htslot, if_pos (by omega)]
            · have := hleast (self.start + j) (by omega) (by omega)
              rwa [htgeteq, if_pos (by omega), show self.start + j - self.start = j by omega]
                at this)
          (fun k hk => by
            rw [htend, htstart] at hk
            rw [htold _ (by omega)]
            exact hw.past k hk)
        exact ⟨_, rfl, .inr hw', by rw [hget', htget]⟩
    · rw [if_neg hs1]
      by_cases he1 : self.end = packetNumber
      · -- the last packet number: the end moves back to the previous occupied one
        rw [if_pos he1]
        have hstartocc : (taken.get taken.start).isSome := by
          rw [htget, Function.update_apply, htstart, if_neg (by omega)]
          exact hw.get_start
        obtain ⟨q, hq1, hq2, hqocc, hgreatest, hset⟩ :=
          htb.setEnd_spec (p := packetNumber - 1) (by omega) (by omega) hstartocc
        rw [hset]
        rw [htgeteq, if_pos (by omega)] at hqocc
        obtain ⟨hw', hget'⟩ := htb.window_shiftEnd (e := q - self.start)
          (w := { taken with «end» := q }) (by omega) rfl rfl rfl (by simp only; omega)
          (by rw [htold _ (by omega)]; exact hw.first) hqocc
          (fun k hk => by
            rw [htslot]
            split_ifs with hkd
            · rfl
            · rcases Nat.lt_or_ge k (packetNumber - self.start) with hk' | hk'
              · have := hgreatest (self.start + k) (by omega) (by omega)
                rwa [htgeteq, if_pos (by omega), show self.start + k - self.start = k by omega,
                  htslot, if_neg hkd] at this
              · exact hw.past k (by omega))
        exact ⟨_, rfl, .inr hw', by rw [hget', htget]⟩
      · -- a packet number inside: the bounds stay
        rw [if_neg he1]
        have hw' : taken.Window :=
          { toBounds := htb
            first := by rw [htold _ (by omega)]; exact hw.first
            last := by rw [htend, htstart, htold _ (by omega)]; exact hw.last
            past := fun k hk => by
              rw [htend, htstart] at hk
              rw [htold _ (by omega)]
              exact hw.past k hk }
        exact ⟨_, rfl, .inr hw', htget⟩

end Remove

section Walk

/-! ## Walks over the ring

`Iter` and `RemoveIter` step one slot at a time, wrapping past the end of the list. Seen from a
base index `b`, the walk from the slot `o` past it reads the rotated list at `o, o + 1, …`, as long
as it stays within one turn. -/

/-- The entries of the slots `o..o + r` of a list, numbered from `p`. -/
def walk (l : List (Option V)) (p o r : Nat) : List (Nat × V) :=
  (List.range' o r).filterMap fun k => ((l[k]?).join).map (p + (k - o), ·)

theorem walk_succ (l : List (Option V)) (p o r : Nat) :
    walk l p o (r + 1) = (((l[o]?).join).map (p, ·)).toList ++ walk l (p + 1) (o + 1) r := by
  have hrest : walk l (p + 1) (o + 1) r =
      (List.range' (o + 1) r).filterMap fun k => ((l[k]?).join).map (p + (k - o), ·) := by
    apply List.filterMap_congr
    intro k hk
    rw [List.mem_range'_1] at hk
    rw [show p + 1 + (k - (o + 1)) = p + (k - o) by omega]
  rw [hrest, walk, List.range'_succ, List.filterMap_cons]
  cases (l[o]?).join <;> simp

theorem walk_congr {l l' : List (Option V)} {p o r : Nat}
    (h : ∀ k, o ≤ k → k < o + r → (l[k]?).join = (l'[k]?).join) : walk l p o r = walk l' p o r := by
  apply List.filterMap_congr
  intro k hk
  rw [List.mem_range'_1] at hk
  rw [h k hk.1 hk.2]

theorem mod_succ_walk {b o n : Nat} : ((b + o) % n + 1) % n = (b + (o + 1)) % n := by
  rw [Nat.mod_add_mod, Nat.add_assoc]

theorem getElem?_walk (l : List (Option V)) {b o : Nat} (ho : o < l.length) :
    l[(b + o) % l.length]? = (l.rotate b)[o]? := by
  rw [List.getElem?_rotate ho, Nat.add_comm o]

theorem iterFrom_succ (values : List (Option V)) (p i r : Nat) :
    iterFrom values p i (r + 1) = (((values[i]?).join).map (p, ·)).toList ++
      iterFrom values (p + 1) ((i + 1) % values.length) r := by
  simp only [iterFrom]
  cases (values[i]?).join <;> rfl

theorem iterFrom_eq (values : List (Option V)) {b o r : Nat} (hr : o + r ≤ values.length)
    (p : Nat) : iterFrom values p ((b + o) % values.length) r = walk (values.rotate b) p o r := by
  induction r generalizing o p with
  | zero => rfl
  | succ r ih =>
    rw [walk_succ, iterFrom_succ, mod_succ_walk, ih (by omega), getElem?_walk values (by omega)]

@[simp] theorem drain_zero (self : Map V) (p i : Nat) : self.drain p i 0 = (self, []) := rfl

theorem drain_succ_fst (self : Map V) (p i r : Nat) :
    (self.drain p i (r + 1)).1 =
      ((self.setValue i none).drain (p + 1) ((i + 1) % self.values.length) r).1 := by
  simp only [drain]
  split <;> rfl

theorem drain_succ_snd (self : Map V) (p i r : Nat) :
    (self.drain p i (r + 1)).2 = (((self.values[i]?).join).map (p, ·)).toList ++
      ((self.setValue i none).drain (p + 1) ((i + 1) % self.values.length) r).2 := by
  simp only [drain]
  cases self.values[i]?.join <;> rfl

theorem drain_fields (self : Map V) (p i r : Nat) :
    (self.drain p i r).1.start = self.start ∧ (self.drain p i r).1.end = self.end ∧
      (self.drain p i r).1.index = self.index ∧
      (self.drain p i r).1.values.length = self.values.length := by
  induction r generalizing self p i with
  | zero => simp
  | succ r ih =>
    rw [drain_succ_fst]
    obtain ⟨h1, h2, h3, h4⟩ := ih (self.setValue i none) (p + 1) ((i + 1) % self.values.length)
    exact ⟨h1, h2, h3, by rw [h4, length_setValue]⟩

theorem drain_slots (self : Map V) {b o r : Nat} (hb : b < self.values.length)
    (hr : o + r ≤ self.values.length) (p k : Nat) :
    (((self.drain p ((b + o) % self.values.length) r).1.values.rotate b)[k]?).join =
      if o ≤ k ∧ k < o + r then none else ((self.values.rotate b)[k]?).join := by
  induction r generalizing self o p with
  | zero => simp
  | succ r ih =>
    have hlen : (self.setValue ((b + o) % self.values.length) none).values.length =
        self.values.length := length_setValue _ _
    have hrest := ih (self.setValue ((b + o) % self.values.length) none) (o := o + 1)
      (by omega) (by omega) (p + 1)
    rw [hlen] at hrest
    rw [drain_succ_fst, mod_succ_walk, hrest, values_setValue, rotate_set hb (by omega),
      List.getElem?_set]
    split_ifs <;> first | rfl | omega

theorem drain_snd (self : Map V) {b o r : Nat} (hb : b < self.values.length)
    (hr : o + r ≤ self.values.length) (p : Nat) :
    (self.drain p ((b + o) % self.values.length) r).2 = walk (self.values.rotate b) p o r := by
  induction r generalizing self o p with
  | zero => rfl
  | succ r ih =>
    have hlen : (self.setValue ((b + o) % self.values.length) none).values.length =
        self.values.length := length_setValue _ _
    have hrest : walk ((self.setValue ((b + o) % self.values.length) none).values.rotate b)
        (p + 1) (o + 1) r = walk (self.values.rotate b) (p + 1) (o + 1) r := by
      apply walk_congr
      intro k hk _
      rw [values_setValue, rotate_set hb (by omega), List.getElem?_set_ne (by omega)]
    have hih := ih (self.setValue ((b + o) % self.values.length) none) (o := o + 1)
      (by omega) (by omega) (p + 1)
    rw [hlen] at hih
    rw [drain_succ_snd, walk_succ, mod_succ_walk, hih, hrest, getElem?_walk _ (by omega)]

theorem drain_congr {m w : Map V} (hv : m.values = w.values) (p i r : Nat) :
    (m.drain p i r).1.values = (w.drain p i r).1.values ∧ (m.drain p i r).2 = (w.drain p i r).2 := by
  induction r generalizing m w p i with
  | zero => exact ⟨hv, rfl⟩
  | succ r ih =>
    have hv' : (m.setValue i none).values = (w.setValue i none).values := by
      rw [values_setValue, values_setValue, hv]
    obtain ⟨h1, h2⟩ := ih hv' (p + 1) ((i + 1) % m.values.length)
    rw [drain_succ_fst, drain_succ_fst, drain_succ_snd, drain_succ_snd, ← hv, h1, h2]
    exact ⟨rfl, rfl⟩

end Walk

/-! ## Iteration and range removal -/

section RemoveRange

variable {self : Map V}

theorem Bounds.drain (h : self.Bounds) (p i r : Nat) : (self.drain p i r).1.Bounds := by
  obtain ⟨h1, h2, h3, h4⟩ := drain_fields self p i r
  exact ⟨by rw [h3, h4]; exact h.index_lt, by rw [h1, h2]; exact h.start_le,
    by rw [h1, h2, h4]; exact h.span_lt⟩

theorem slot_drain (hidx : self.index < self.values.length) {o r i : Nat}
    (hr : o + r ≤ self.values.length) (hi : i = (self.index + o) % self.values.length) (p k : Nat) :
    (self.drain p i r).1.slot k = if o ≤ k ∧ k < o + r then none else self.slot k := by
  subst hi
  rw [slot, ring, (drain_fields _ _ _ _).2.2.1, drain_slots self hidx hr]
  rfl

theorem Window.slot_eq_get (h : self.Window) (k : Nat) : self.slot k = self.get (self.start + k) := by
  rw [h.get_eq, if_pos (Nat.le_add_right _ _), Nat.add_sub_cancel_left]

theorem Window.walk_ring (h : self.Window) (o r : Nat) :
    walk self.ring (self.start + o) o r = OrderedMap.entries self.get (self.start + o) r := by
  rw [OrderedMap.entries, ← List.map_add_range', List.filterMap_map, walk]
  apply List.filterMap_congr
  intro k hk
  rw [List.mem_range'_1] at hk
  rw [Function.comp_apply, ← h.slot_eq_get, slot, show self.start + o + (k - o) = self.start + k by omega]

theorem Window.entries_eq_of_cover (h : self.Window) {lo n lo' n' : Nat} (hlo : lo ≤ lo')
    (hhi : lo' + n' ≤ lo + n)
    (hcover : ∀ q, lo ≤ q → q < lo + n → self.start ≤ q → q ≤ self.end → lo' ≤ q ∧ q < lo' + n') :
    OrderedMap.entries self.get lo n = OrderedMap.entries self.get lo' n' := by
  apply OrderedMap.entries_eq_of_none_outside hlo hhi
  intro q h1 h2 hout
  apply h.get_eq_none
  by_contra hin
  have := hcover q h1 h2 (by omega) (by omega)
  omega

section Drained

/-! The walk of `RemoveIter` over the packet numbers `max a start..=min b end` of a window, `o`
slots from its start, on a map with the window's slots. -/

variable (h : self.Window) {a b o r p i : Nat} (hr : o + r ≤ self.values.length)
  (ho : self.start + o = max a self.start) (hor : self.start + o + r = min b self.end + 1)
  (hi : i = (self.index + o) % self.values.length)
include h hr ho hor hi

theorem Window.drain_snd_eq (hp : p = self.start + o) {m : Map V} (hv : m.values = self.values)
    (hab : a ≤ b) : (m.drain p i r).2 = OrderedMap.entries self.get a (b + 1 - a) := by
  subst hp hi
  rw [(drain_congr hv _ _ _).2, drain_snd self h.index_lt hr]
  refine (h.walk_ring o r).trans (h.entries_eq_of_cover (by omega) (by omega) ?_).symm
  intro q h1 h2 h3 h4
  omega

theorem Window.get_drain : (self.drain p i r).1.get = OrderedMap.eraseRange self.get a b := by
  obtain ⟨h1, h2, -, -⟩ := drain_fields self p i r
  have hle := h.start_le
  funext q
  rw [(h.toBounds.drain _ _ _).get_eq_of h1 h2, OrderedMap.eraseRange, h.get_eq]
  by_cases hq : self.start ≤ q ∧ q ≤ self.end
  · rw [if_pos hq, slot_drain h.index_lt hr hi, if_pos hq.1]
    split_ifs <;> first | rfl | omega
  · rw [if_neg hq]
    split_ifs with hab hs
    · rfl
    · rw [h.past (q - self.start) (by omega)]
    · rfl

end Drained

theorem Window.iter_eq (h : self.Window) :
    self.iter = some (OrderedMap.entries self.get self.start (self.end - self.start + 1)) := by
  have hiter := iterFrom_eq self.values (b := self.index) (o := 0)
    (r := self.end - self.start + 1) (by have := h.span_lt; omega) self.start
  have hwalk := h.walk_ring 0 (self.end - self.start + 1)
  rw [Nat.add_zero, Nat.mod_eq_of_lt h.index_lt] at hiter
  rw [Nat.add_zero] at hwalk
  have hspan := h.span_lt
  rw [iter, if_neg (by simp [h.isEmpty_eq_false]), if_neg (by omega), hiter]
  exact congrArg some hwalk

theorem Window.removeRange_cover (h : self.Window) {a b : Nat} (ha : a ≤ self.start)
    (hb : self.end ≤ b) :
    ∃ m, self.removeRange a b = some (m, OrderedMap.entries self.get a (b + 1 - a)) ∧ m.Inv ∧
      m.get = OrderedMap.eraseRange self.get a b := by
  have hspan := h.span_lt
  have hle := h.start_le
  have hi : self.index = (self.index + 0) % self.values.length := by
    rw [Nat.add_zero, Nat.mod_eq_of_lt h.index_lt]
  obtain ⟨hvals, -⟩ := drain_congr (m := self.clear) (w := self) rfl self.start self.index
    (self.end - self.start + 1)
  obtain ⟨-, -, hidx, hlen⟩ := drain_fields self.clear self.start self.index
    (self.end - self.start + 1)
  refine ⟨(self.clear.drain self.start self.index (self.end - self.start + 1)).1, ?_,
    .inl ⟨?_, ?_⟩, ?_⟩
  · rw [removeRange, if_neg (by omega), if_neg (by simp [h.isEmpty_eq_false]), if_neg (by omega),
      removePlan, if_pos ha, if_pos hb, Option.bind_some]
    dsimp only
    rw [if_neg (by rw [values_clear]; omega)]
    refine congrArg some (Prod.ext rfl ?_)
    exact h.drain_snd_eq (a := a) (b := b) (o := 0) (p := self.start) (m := self.clear)
      (r := self.end - self.start + 1) (by omega) (by omega) (by omega) hi (by omega) rfl
      (by omega)
  · -- `clear` moved the index past the slots
    simp [isEmpty, hidx, hlen]
  · -- every slot of the range was taken, and the slots past it were empty
    rw [hvals]
    apply values_eq_none
    intro k
    rw [slot_drain h.index_lt (o := 0) (by omega) hi]
    split_ifs
    · rfl
    · exact h.past k (by omega)
  · funext q
    rw [get_of_isEmpty (by simp [isEmpty, hidx, hlen]), OrderedMap.eraseRange]
    split_ifs
    · rfl
    · exact (h.get_eq_none (by omega)).symm

theorem Window.removeRange_front (h : self.Window) {a b : Nat} (ha : a ≤ self.start)
    (hsb : self.start ≤ b) (hb : b < self.end) :
    ∃ m, self.removeRange a b = some (m, OrderedMap.entries self.get a (b + 1 - a)) ∧ m.Inv ∧
      m.get = OrderedMap.eraseRange self.get a b := by
  have hspan := h.span_lt
  have hle := h.start_le
  have hi : self.index = (self.index + 0) % self.values.length := by
    rw [Nat.add_zero, Nat.mod_eq_of_lt h.index_lt]
  obtain ⟨q, hq1, hq2, hqocc, hleast, hset⟩ :=
    h.toBounds.setStart_spec (p := b + 1) (by omega) (by omega) h.get_end
  set m0 : Map V := { self with
    index := (self.index + (q - self.start)) % self.values.length, start := q } with hm0
  obtain ⟨hvals, -⟩ := drain_congr (m := m0) (w := self) rfl self.start self.index
    (b - self.start + 1)
  obtain ⟨u1, u2, u3, u4⟩ := drain_fields self self.start self.index (b - self.start + 1)
  obtain ⟨w1, w2, w3, -⟩ := drain_fields m0 self.start self.index (b - self.start + 1)
  have hslot := slot_drain h.index_lt (o := 0) (r := b - self.start + 1) (by omega) hi self.start
  have hshift := (h.toBounds.drain self.start self.index (b - self.start + 1)).window_shiftStart
    (s := q - self.start) (w := (m0.drain self.start self.index (b - self.start + 1)).1)
    (by rw [u1, u2]; omega) hvals (by rw [w3, u3, u4])
    (by rw [w1, u1]; show q = _; omega) (by rw [w2, u2])
    (by rw [hslot, if_neg (by omega), h.slot_eq_get, show self.start + (q - self.start) = q by omega]
        exact hqocc)
    (by rw [u1, u2, hslot, if_neg (by omega)]; exact h.last)
    (fun j hj => by
      rw [hslot]
      split_ifs
      · rfl
      · rw [h.slot_eq_get]
        exact hleast _ (by omega) (by omega))
    (fun k hk => by
      rw [u1, u2] at hk
      rw [hslot, if_neg (by omega)]
      exact h.past k hk)
  refine ⟨_, ?_, .inr hshift.1,
    hshift.2.trans (h.get_drain (a := a) (b := b) (o := 0) (p := self.start) (r := b - self.start + 1)
      (by omega) (by omega) (by omega) hi)⟩
  rw [removeRange, if_neg (by omega), if_neg (by simp [h.isEmpty_eq_false]), if_neg (by omega),
    removePlan, if_pos ha, if_neg (by omega), hset, Option.map_some, Option.bind_some]
  dsimp only
  rw [if_neg (show ¬m0.values.length < b - self.start + 1 from by simp only [hm0]; omega)]
  refine congrArg some (Prod.ext rfl ?_)
  exact h.drain_snd_eq (a := a) (b := b) (o := 0) (p := self.start) (m := m0)
    (r := b - self.start + 1) (by omega) (by omega) (by omega) hi (by omega) rfl (by omega)

theorem Window.removeRange_back (h : self.Window) {a b : Nat} (ha : self.start < a)
    (hae : a ≤ self.end) (hb : self.end ≤ b) :
    ∃ m, self.removeRange a b = some (m, OrderedMap.entries self.get a (b + 1 - a)) ∧ m.Inv ∧
      m.get = OrderedMap.eraseRange self.get a b := by
  have hspan := h.span_lt
  have hle := h.start_le
  obtain ⟨q, hq1, hq2, hqocc, hgreatest, hset⟩ :=
    h.toBounds.setEnd_spec (p := a - 1) (by omega) (by omega) h.get_start
  set i := (self.index + (a - self.start)) % self.values.length with hi
  set m0 : Map V := { self with «end» := q } with hm0
  obtain ⟨hvals, -⟩ := drain_congr (m := m0) (w := self) rfl a i (self.end - a + 1)
  obtain ⟨u1, u2, u3, u4⟩ := drain_fields self a i (self.end - a + 1)
  obtain ⟨w1, w2, w3, -⟩ := drain_fields m0 a i (self.end - a + 1)
  have hslot := slot_drain h.index_lt (o := a - self.start) (r := self.end - a + 1) (by omega) hi a
  have hshift := (h.toBounds.drain a i (self.end - a + 1)).window_shiftEnd
    (e := q - self.start) (w := (m0.drain a i (self.end - a + 1)).1)
    (by rw [u1, u2]; omega) hvals (by rw [w3, u3]) (by rw [w1, u1])
    (by rw [w2, u1]; show q = _; omega)
    (by rw [hslot, if_neg (by omega)]; exact h.first)
    (by rw [hslot, if_neg (by omega), h.slot_eq_get, show self.start + (q - self.start) = q by omega]
        exact hqocc)
    (fun k hk => by
      rw [hslot]
      split_ifs
      · rfl
      · rcases Nat.lt_or_ge k (a - self.start) with hk' | hk'
        · rw [h.slot_eq_get]
          exact hgreatest _ (by omega) (by omega)
        · exact h.past k (by omega))
  refine ⟨_, ?_, .inr hshift.1,
    hshift.2.trans (h.get_drain (a := a) (b := b) (o := a - self.start) (p := a)
      (r := self.end - a + 1) (by omega) (by omega) (by omega) hi)⟩
  rw [removeRange, if_neg (by omega), if_neg (by simp [h.isEmpty_eq_false]), if_neg (by omega),
    removePlan, if_neg (by omega), if_pos hb, h.toBounds.pnIndex_eq (by omega) hae, Option.bind_some,
    hset, Option.map_some, Option.bind_some]
  dsimp only
  rw [if_neg (show ¬m0.values.length < self.end - a + 1 from by simp only [hm0]; omega)]
  refine congrArg some (Prod.ext rfl ?_)
  exact h.drain_snd_eq (a := a) (b := b) (o := a - self.start) (p := a) (m := m0)
    (r := self.end - a + 1) (by omega) (by omega) (by omega) hi (by omega) rfl (by omega)

theorem Window.removeRange_middle (h : self.Window) {a b : Nat} (ha : self.start < a)
    (hab : a ≤ b) (hb : b < self.end) :
    ∃ m, self.removeRange a b = some (m, OrderedMap.entries self.get a (b + 1 - a)) ∧ m.Inv ∧
      m.get = OrderedMap.eraseRange self.get a b := by
  have hspan := h.span_lt
  have hle := h.start_le
  set i := (self.index + (a - self.start)) % self.values.length with hi
  obtain ⟨u1, u2, -, -⟩ := drain_fields self a i (b - a + 1)
  have hslot := slot_drain h.index_lt (o := a - self.start) (r := b - a + 1) (by omega) hi a
  have hw : (self.drain a i (b - a + 1)).1.Window :=
    { toBounds := h.toBounds.drain a i (b - a + 1)
      first := by rw [hslot, if_neg (by omega)]; exact h.first
      last := by rw [u1, u2, hslot, if_neg (by omega)]; exact h.last
      past := fun k hk => by
        rw [u1, u2] at hk
        rw [hslot, if_neg (by omega)]
        exact h.past k hk }
  refine ⟨_, ?_, .inr hw,
    h.get_drain (a := a) (b := b) (o := a - self.start) (p := a) (r := b - a + 1)
      (by omega) (by omega) (by omega) hi⟩
  rw [removeRange, if_neg (by omega), if_neg (by simp [h.isEmpty_eq_false]), if_neg (by omega),
    removePlan, if_neg (by omega), if_neg (by omega), h.toBounds.pnIndex_eq (by omega) (by omega),
    Option.map_some, Option.bind_some]
  dsimp only
  rw [if_neg (by omega)]
  refine congrArg some (Prod.ext rfl ?_)
  exact h.drain_snd_eq (a := a) (b := b) (o := a - self.start) (p := a) (m := self)
    (r := b - a + 1) (by omega) (by omega) (by omega) hi (by omega) rfl hab

end RemoveRange

/-! ## Runs of calls -/

section Runs

variable {self : Map V}

theorem Inv.removeRange (h : self.Inv) {a b : Nat} (hab : a ≤ b) :
    ∃ m, self.removeRange a b = some (m, OrderedMap.entries self.get a (b + 1 - a)) ∧ m.Inv ∧
      m.get = OrderedMap.eraseRange self.get a b := by
  rcases h with ⟨he, hnone⟩ | hw
  · -- an empty map yields nothing and stays empty
    refine ⟨self, ?_, .inl ⟨he, hnone⟩, ?_⟩
    · rw [Map.removeRange, if_neg (by omega), if_pos he,
        OrderedMap.entries_eq_nil fun q _ _ => get_of_isEmpty he q]
    · funext q
      rw [OrderedMap.eraseRange, get_of_isEmpty he]
      split_ifs <;> rfl
  by_cases hdisj : b < self.start ∨ self.end < a
  · -- a range that misses the stored packet numbers leaves the map as it is
    refine ⟨self, ?_, .inr hw, ?_⟩
    · rw [Map.removeRange, if_neg (by omega), if_neg (by simp [hw.isEmpty_eq_false]), if_pos hdisj,
        OrderedMap.entries_eq_nil fun q h1 h2 => hw.get_eq_none (by omega)]
    · funext q
      rw [OrderedMap.eraseRange]
      split_ifs
      · exact hw.get_eq_none (q := q) (by omega)
      · rfl
  -- the four cases of `RemoveIter::new`
  rcases le_or_gt a self.start with ha | ha <;> rcases le_or_gt self.end b with hb | hb
  · exact hw.removeRange_cover ha hb
  · exact hw.removeRange_front ha (by omega) hb
  · exact hw.removeRange_back ha (by omega) hb
  · exact hw.removeRange_middle ha hab hb

theorem Inv.iter_entries (h : self.Inv) :
    ∃ entries, self.iter = some entries ∧ (∀ q v, (q, v) ∈ entries ↔ self.get q = some v) ∧
      (entries.map Prod.fst).Pairwise (· < ·) := by
  rcases h with ⟨he, -⟩ | hw
  · exact ⟨[], by rw [Map.iter, if_pos he], by simp [get_of_isEmpty he], List.Pairwise.nil⟩
  refine ⟨_, hw.iter_eq, fun q v => ?_, OrderedMap.pairwise_entries⟩
  rw [OrderedMap.mem_entries]
  constructor
  · exact fun ⟨_, _, hv⟩ => hv
  · intro hv
    have hin : ¬(q < self.start ∨ self.end < q) := fun hout => by
      rw [hw.get_eq_none hout] at hv
      cases hv
    exact ⟨by omega, by omega, hv⟩

/-- `iter` yields every stored entry once, in ascending packet-number order. -/
theorem Inv.iter_spec (h : self.Inv) :
    ∃ entries, self.iter = some entries ∧ (∀ q v, (q, v) ∈ entries ↔ self.get q = some v) ∧
      (entries.map Prod.fst).Pairwise (· < ·) :=
  h.iter_entries

def wrappedSample : Map Nat := ⟨[some 30, none, some 10, none], 7, 9, 2, Nat.le_of_ble_eq_true rfl⟩

theorem iter_spec_wrapped :
    ∃ entries, wrappedSample.iter = some entries ∧
      (∀ q v, (q, v) ∈ entries ↔ wrappedSample.get q = some v) ∧
      (entries.map Prod.fst).Pairwise (· < ·) :=
  Inv.iter_spec (.inr
    { index_lt := Nat.le_of_ble_eq_true rfl
      start_le := Nat.le_of_ble_eq_true rfl
      span_lt := Nat.le_of_ble_eq_true rfl
      first := rfl
      last := rfl
      past := fun k hk => by
        rcases Nat.lt_or_ge k 4 with h | h
        · obtain rfl : k = 3 := by simp [wrappedSample] at hk; omega
          rfl
        · exact slot_of_le k h })

/-- The calls that change a map. -/
inductive Call (V : Type) where
  | insert (packetNumber : Nat) (value : V)
  | insertOrUpdate (packetNumber : Nat) (value : V) (update : V → V)
  | remove (packetNumber : Nat)
  | removeRange (rangeStart rangeEnd : Nat)

/-- One call and what it hands back: the value `remove` takes, with its packet number, and the
entries `remove_range` yields. -/
def call (self : Map V) : Call V → Option (Map V × List (Nat × V))
  | .insert packetNumber value => (self.insert packetNumber value).map (·, [])
  | .insertOrUpdate packetNumber value update =>
    (self.insertOrUpdate packetNumber value update).map (·, [])
  | .remove packetNumber =>
    (self.remove packetNumber).map fun r => (r.1, (r.2.map (packetNumber, ·)).toList)
  | .removeRange rangeStart rangeEnd => self.removeRange rangeStart rangeEnd

def run (self : Map V) (calls : List (Call V)) : Option (Map V × List (Nat × V)) :=
  Refinement.run call self calls

def Call.apply (f : Nat → Option V) : Call V → (Nat → Option V) × List (Nat × V)
  | .insert packetNumber value => (Function.update f packetNumber (some value), [])
  | .insertOrUpdate packetNumber value update =>
    (Function.update f packetNumber (some (updated update value (f packetNumber))), [])
  | .remove packetNumber =>
    (Function.update f packetNumber none, ((f packetNumber).map (packetNumber, ·)).toList)
  | .removeRange rangeStart rangeEnd =>
    (OrderedMap.eraseRange f rangeStart rangeEnd,
      OrderedMap.entries f rangeStart (rangeEnd + 1 - rangeStart))

/-- The callers' side of the contract, as the `debug_assert!`s state it: `insert` above every
stored packet number, `insert_or_update` not below all of them, a `PacketNumberRange` in order. -/
def Call.Allowed (f : Nat → Option V) : Call V → Prop
  | .insert packetNumber _ => ∀ q, (f q).isSome → q < packetNumber
  | .insertOrUpdate packetNumber _ _ => (∀ q, f q = none) ∨ ∃ q ≤ packetNumber, (f q).isSome
  | .remove _ => True
  | .removeRange rangeStart rangeEnd => rangeStart ≤ rangeEnd

theorem Inv.isEmpty_or_start_le (h : self.Inv) {packetNumber : Nat}
    (hc : (∀ q, self.get q = none) ∨ ∃ q ≤ packetNumber, (self.get q).isSome) :
    self.isEmpty = true ∨ self.start ≤ packetNumber := by
  rcases h with ⟨he, -⟩ | hw
  · exact .inl he
  right
  rcases hc with hnone | ⟨q, hq, hocc⟩
  · have := hw.get_start
    rw [hnone] at this
    cases this
  · by_contra hlt
    rw [hw.get_eq_none (.inl (by omega))] at hocc
    cases hocc

theorem stepRefines_call :
    Refinement.StepRefines (call (V := V)) Call.apply Call.Allowed Inv get := by
  intro self c h hc
  cases c with
  | insert packetNumber value =>
    obtain ⟨m, hm, hinv, hget⟩ := h.insert hc
    exact ⟨m, by rw [call, hm]; rfl, hinv, hget⟩
  | insertOrUpdate packetNumber value update =>
    obtain ⟨m, hm, hinv, hget⟩ : ∃ m, self.insertOrUpdate packetNumber value update = some m ∧ _ :=
      h.insertOrUpdate (h.isEmpty_or_start_le hc)
    exact ⟨m, by rw [call, hm]; rfl, hinv, hget⟩
  | remove packetNumber =>
    obtain ⟨m, hm, hinv, hget⟩ := h.remove packetNumber
    exact ⟨m, by rw [call, hm]; rfl, hinv, hget⟩
  | removeRange rangeStart rangeEnd =>
    exact h.removeRange hc

theorem inv_default : (default : Map V).Inv :=
  .inl ⟨rfl, fun _ hx => List.eq_of_mem_replicate hx⟩

theorem get_default : (default : Map V).get = fun _ => none :=
  funext (get_of_isEmpty rfl)

/-- From `Map::default()`, every run of calls that keeps the callers' contract succeeds, keeps the
ring invariants, and behaves as the ordered map it stands for: after each call `get` reads that
map, and the values taken by `remove` and `remove_range` are those the ordered map hands back. -/
theorem run_default (calls : List (Call V))
    (hok : Refinement.Allowed Call.Allowed Call.apply (fun _ => none) calls) :
    ∃ m, (default : Map V).run calls =
        some (m, (Refinement.runSpec Call.apply (fun _ => none) calls).2) ∧ m.Inv ∧
      m.get = (Refinement.runSpec Call.apply (fun _ => none) calls).1 := by
  rw [← get_default] at hok ⊢
  exact Refinement.run_refines stepRefines_call calls default inv_default hok

theorem run_default_sample :
    ∃ m, (default : Map Nat).run [.insert 1 10, .insert 3 30, .insertOrUpdate 3 0 (· + 1),
        .remove 1, .removeRange 2 5] = some (m, [(1, 10), (3, 31)]) ∧ m.Inv := by
  obtain ⟨m, hrun, hinv, -⟩ := run_default [.insert 1 10, .insert 3 30,
    .insertOrUpdate 3 0 (· + 1), .remove 1, .removeRange 2 5]
    ⟨fun q hq => by simp at hq, fun q hq => by simp [Call.apply, Function.update_apply] at hq; omega,
      .inr ⟨3, le_rfl, rfl⟩, trivial, Nat.le_of_ble_eq_true rfl, trivial⟩
  exact ⟨m, hrun, hinv⟩


/-- From `Map::default()`, every run of calls that keeps the callers' contract agrees with the
ordered map it stands for, after every call: `get` reads that map, `remove` and `remove_range`
hand back its values, `is_empty` holds exactly when it is empty, the bounds `get_range` returns
are its least and greatest packet numbers, and `iter` yields its entries in ascending order; and
the ring invariants hold. -/
theorem default_refines_ordered_map (calls : List (Call V))
    (hok : Refinement.Allowed Call.Allowed Call.apply (fun _ => none) calls) :
    let spec : (Nat → Option V) × List (Nat × V) :=
      Refinement.runSpec Call.apply (fun _ => none) calls
    ∃ m, (default : Map V).run calls = some (m, spec.2) ∧ m.Inv ∧ m.get = spec.1 ∧
      (m.isEmpty = true ↔ ∀ q, spec.1 q = none) ∧
      (m.isEmpty = false →
        IsLeast {q | (spec.1 q).isSome} m.start ∧ IsGreatest {q | (spec.1 q).isSome} m.end) ∧
      ∃ entries, m.iter = some entries ∧ (∀ q v, (q, v) ∈ entries ↔ spec.1 q = some v) ∧
        (entries.map Prod.fst).Pairwise (· < ·) := by
  intro spec
  rw [← get_default] at hok
  obtain ⟨m, hrun, hinv, hget⟩ :=
    Refinement.run_refines stepRefines_call calls default inv_default hok
  rw [get_default] at hrun hget
  refine ⟨m, hrun, hinv, hget, hget ▸ hinv.isEmpty_iff, fun hne => ?_, hget ▸ hinv.iter_entries⟩
  rcases hinv with ⟨he, -⟩ | hw
  · rw [he] at hne
    cases hne
  · exact hget ▸ hw.bounds_spec

def sampleCalls : List (Call Nat) :=
  [.insert 1 10, .insert 3 30, .insertOrUpdate 3 0 (· + 1), .remove 1, .removeRange 2 5]

theorem default_refines_ordered_map_sample :
    let spec : (Nat → Option Nat) × List (Nat × Nat) :=
      Refinement.runSpec Call.apply (fun _ => none) sampleCalls
    ∃ m, (default : Map Nat).run sampleCalls = some (m, spec.2) ∧ m.Inv ∧ m.get = spec.1 ∧
      (m.isEmpty = true ↔ ∀ q, spec.1 q = none) ∧
      (m.isEmpty = false →
        IsLeast {q | (spec.1 q).isSome} m.start ∧ IsGreatest {q | (spec.1 q).isSome} m.end) ∧
      ∃ entries, m.iter = some entries ∧ (∀ q v, (q, v) ∈ entries ↔ spec.1 q = some v) ∧
        (entries.map Prod.fst).Pairwise (· < ·) :=
  default_refines_ordered_map sampleCalls
    ⟨fun q hq => by simp at hq, fun q hq => by simp [Call.apply, Function.update_apply] at hq; omega,
      .inr ⟨3, le_rfl, rfl⟩, trivial, Nat.le_of_ble_eq_true rfl, trivial⟩

end Runs

end Map

end S2nQuic.Packet
