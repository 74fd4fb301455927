import S2nQuic.Lib.IntervalList

/-!
# Intervals of an integer type

`IntervalSet<T>` is generic over `IntervalBound` types; every implementation in the crate is
an integer type (or a packet number or varint, ordered like one), so the bound type is the
natural numbers `0, …, MAX` for a parameter `MAX`. `step_up` fails at `MAX` and `step_down`
at zero; the saturating versions stay put there. An `Interval` is inclusive at both ends.
-/

namespace S2nQuic.IntervalSet
open IntervalList

inductive IntervalSetError
  | invalidInterval
  | limitExceeded
  deriving DecidableEq, Repr

/-- `core::ops::Bound`. -/
inductive Bound
  | included (v : Nat)
  | excluded (v : Nat)
  | unbounded
  deriving DecidableEq, Repr

structure Interval where
  start : Nat
  «end» : Nat
  deriving DecidableEq, Repr

instance : IntervalLike Interval where
  lo i := i.start
  hi i := i.«end»
  ofBounds s e := ⟨s, e⟩
  lo_ofBounds _ _ := rfl
  hi_ofBounds _ _ := rfl
  ofBounds_lo_hi _ := rfl

@[simp] theorem lo_eq (i : Interval) : IntervalLike.lo i = i.start := rfl

@[simp] theorem hi_eq (i : Interval) : IntervalLike.hi i = i.«end» := rfl

@[simp] theorem ofBounds_eq (s e : Nat) : (IntervalLike.ofBounds s e : Interval) = ⟨s, e⟩ := rfl

@[simp] theorem before_iff (a b : Interval) : Before a b ↔ a.«end» + 1 < b.start := Iff.rfl

section Bound

variable (MAX : Nat)

def stepUp (v : Nat) : Option Nat := if v < MAX then some (v + 1) else none

def stepDown (v : Nat) : Option Nat := if 0 < v then some (v - 1) else none

def stepUpSaturating (v : Nat) : Nat := (stepUp MAX v).getD v

def stepDownSaturating (v : Nat) : Nat := (stepDown v).getD v

theorem stepUpSaturating_of_lt {v : Nat} (h : v < MAX) : stepUpSaturating MAX v = v + 1 := by
  simp [stepUpSaturating, stepUp, h]

theorem stepDownSaturating_of_pos {v : Nat} (h : 0 < v) : stepDownSaturating v = v - 1 := by
  simp [stepDownSaturating, stepDown, h]

end Bound

namespace Interval

variable (MAX : Nat)

def isValid (i : Interval) : Bool := decide (i.start ≤ i.«end»)

/-- `Interval::from_range_bounds`. -/
def fromRangeBounds (startBound endBound : Bound) : Except IntervalSetError Interval := do
  let start ← match startBound with
    | .included start => pure start
    | .excluded start =>
      match stepDown start with
      | some v => pure v
      | none => throw .invalidInterval
    | .unbounded => throw .invalidInterval
  let «end» ← match endBound with
    | .included «end» => pure «end»
    | .excluded «end» =>
      match stepDown «end» with
      | some v => pure v
      | none => throw .invalidInterval
    | .unbounded => throw .invalidInterval
  let interval : Interval := ⟨start, «end»⟩
  if interval.isValid then pure interval else throw .invalidInterval

def startExclusive (i : Interval) : Nat := stepDownSaturating i.start

def endExclusive (i : Interval) : Nat := stepUpSaturating MAX i.«end»

/-- `Interval::len`: one plus `steps_between`. -/
def len (i : Interval) : Nat := 1 + (i.«end» - i.start)

def shouldCoalesce (self other : Interval) : Bool := decide (self.start ≤ other.endExclusive MAX)

-- below `MAX` the exclusive end is one past the end, so coalescing means touching or overlapping
theorem shouldCoalesce_of_lt (self : Interval) {other : Interval} (h : other.«end» < MAX) :
    self.shouldCoalesce MAX other = decide (self.start ≤ other.«end» + 1) := by
  simp [shouldCoalesce, endExclusive, stepUpSaturating_of_lt MAX h]

end Interval

/-- Every interval of `l` ends within the bound type. -/
def Bounded (MAX : Nat) (l : List Interval) : Prop := ∀ i ∈ l, i.«end» ≤ MAX

@[simp] theorem bounded_nil (MAX : Nat) : Bounded MAX [] := by simp [Bounded]

@[simp] theorem bounded_cons {MAX : Nat} {i : Interval} {l : List Interval} :
    Bounded MAX (i :: l) ↔ i.«end» ≤ MAX ∧ Bounded MAX l := by
  simp [Bounded]

@[simp] theorem bounded_append {MAX : Nat} {l₁ l₂ : List Interval} :
    Bounded MAX (l₁ ++ l₂) ↔ Bounded MAX l₁ ∧ Bounded MAX l₂ := by
  simp only [Bounded, List.mem_append]
  constructor
  · intro h
    exact ⟨fun i hi => h i (.inl hi), fun i hi => h i (.inr hi)⟩
  · rintro ⟨h₁, h₂⟩ i (hi | hi)
    · exact h₁ i hi
    · exact h₂ i hi

/-! ## The `usize` and `VecDeque` operations the set operations use -/

def USIZE_MAX : Nat := 2 ^ 64 - 1

/-- `core::ops::Range<usize>`. -/
structure Range where
  start : Nat
  «end» : Nat
  deriving DecidableEq, Repr

namespace Range

/-- `set_start` of an insertion or a removal: the replace range grows down to `start`. -/
def setStart (r : Range) (start : Nat) : Range := { r with start := min r.start start }

/-- `set_end` of an insertion or a removal: the replace range grows up to `end`. -/
def setEnd (r : Range) («end» : Nat) : Range := { r with «end» := max r.«end» «end» }

@[simp] theorem setStart_start (r : Range) (s : Nat) : (r.setStart s).start = min r.start s := rfl

@[simp] theorem setStart_end (r : Range) (s : Nat) : (r.setStart s).«end» = r.«end» := rfl

@[simp] theorem setEnd_start (r : Range) (e : Nat) : (r.setEnd e).start = r.start := rfl

@[simp] theorem setEnd_end (r : Range) (e : Nat) : (r.setEnd e).«end» = max r.«end» e := rfl

/-- A replace range between two slots: still unset (past slot `s`), or ending at slot `s`. -/
def Pending (r : Range) (s : Nat) : Prop := r.«end» ≤ s ∧ (s ≤ r.start ∨ r.«end» = s)

theorem pending_unset {s : Nat} (h : s ≤ USIZE_MAX) : Range.Pending ⟨USIZE_MAX, 0⟩ s :=
  ⟨Nat.zero_le _, .inl h⟩

theorem Pending.mark {r : Range} {s : Nat} (h : r.Pending s) :
    ((r.setStart s).setEnd (s + 1)).Pending (s + 1) := by
  simp only [Pending, setEnd_end, setStart_end, setEnd_start, setStart_start] at h ⊢
  omega

end Range

/-- `usize::checked_sub`. -/
def checkedSub (a b : Nat) : Option Nat := if b ≤ a then some (a - b) else none

/-- `VecDeque::drain(start..end)`, keeping what is left. -/
def drain {α : Type} (l : List α) (start «end» : Nat) : List α := l.take start ++ l.drop «end»

theorem insertIdx_eq_take_drop {α : Type} :
    ∀ (l : List α) (i : Nat) (a : α), i ≤ l.length → l.insertIdx i a = l.take i ++ a :: l.drop i
  | _, 0, _, _ => by simp
  | [], _ + 1, _, h => by simp at h
  | b :: l, i + 1, a, h => by
    simp [insertIdx_eq_take_drop l i a (by simpa using h)]

theorem drain_set {α : Type} {l : List α} {a : α} {i j : Nat} (hi : i < l.length) (hij : i < j) :
    drain (l.set i a) (i + 1) j = l.take i ++ a :: l.drop j := by
  have hlen : (l.take i).length = i := by simp; omega
  rw [drain, List.set_eq_take_append_cons_drop, if_pos hi, List.take_append, List.drop_append,
    hlen]
  obtain ⟨k, rfl⟩ : ∃ k, j = i + 1 + k := ⟨j - (i + 1), by omega⟩
  have hdrop : List.drop (i + 1 + k) (List.take i l) = [] := List.drop_eq_nil_of_le (by omega)
  have hk : i + 1 + k - i = k + 1 := by omega
  simp [List.take_of_length_le, hlen, hdrop, hk, List.drop_drop]

end S2nQuic.IntervalSet
