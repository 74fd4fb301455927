import S2nQuic.IntervalSet.Search

/-!
# Interval sets

`IntervalSet` (`interval_set/mod.rs`) keeps a set of values as a deque of intervals and an
optional limit on their number. `insert` and `remove` turn range bounds into an interval, find
the slot to start from (`index_for`) and run the scans of `insert.rs` and `remove.rs`; `union` and
`difference` run them over every interval of the other set (`set_operation`), each from the slot
the previous one returned; `intersection` runs `intersection::apply`.

Each mutating call is modelled as the set after the call together with its result. On a
canonical, bounded deque and without a limit, every call denotes the set operation it is named
after, with one exception: an excluded start bound steps down instead of up.
-/

-- the structure keeps the source's name inside the namespace of its module
set_option linter.dupNamespace false

namespace S2nQuic.IntervalSet

open IntervalList

/-- `IntervalSet<T>`: the intervals and the optional limit on their number. -/
structure IntervalSet where
  limit : Option Nat
  intervals : List Interval
  deriving DecidableEq, Repr

namespace IntervalSet

def new : IntervalSet := ⟨none, []⟩

def withLimit (limit : Nat) : IntervalSet := ⟨some limit, []⟩

def intervalLen (self : IntervalSet) : Nat := self.intervals.length

def isEmpty (self : IntervalSet) : Bool := self.intervals.isEmpty

def count (self : IntervalSet) : Nat := (self.intervals.map Interval.len).sum

def minValue (self : IntervalSet) : Option Nat := self.intervals.head?.map fun i => i.start

def maxValue (self : IntervalSet) : Option Nat := self.intervals.getLast?.map fun i => i.«end»

def popMin (self : IntervalSet) : Option Interval × IntervalSet :=
  (self.intervals.head?, { self with intervals := self.intervals.tail })

def contains (self : IntervalSet) (value : Nat) : Bool :=
  binarySearchWith self.intervals value (fun _ => true) (fun _ => false) (fun _ => false)

/-- `index_for`: a linear scan from the front is faster on short deques. -/
def indexFor (self : IntervalSet) (interval : Interval) : Nat :=
  if self.intervalLen < 16 then 0
  else binarySearchWith self.intervals interval.start id id id

variable (MAX : Nat)

/-- `insert` as `set_operation` calls it; it fails before touching the deque. -/
def insertAt (ranges : List Interval) (range : Interval) (index : Nat) (limit : Option Nat) :
    List Interval × Except IntervalSetError Nat :=
  match S2nQuic.IntervalSet.insert MAX ranges range index limit with
  | .ok (index, ranges') => (ranges', .ok index)
  | .error e => (ranges, .error e)

/-- `IntervalSet::insert`. -/
def insert (self : IntervalSet) (startBound endBound : Bound) :
    IntervalSet × Except IntervalSetError Unit :=
  match Interval.fromRangeBounds startBound endBound with
  | .error e => (self, .error e)
  | .ok interval =>
    if self.intervals.isEmpty then ({ self with intervals := [interval] }, .ok ())
    else
      match insertAt MAX self.intervals interval (self.indexFor interval) self.limit with
      | (intervals, .ok _) => ({ self with intervals }, .ok ())
      | (_, .error e) => (self, .error e)

/-- `IntervalSet::insert_front`: the scan starts at the front. -/
def insertFront (self : IntervalSet) (startBound endBound : Bound) :
    IntervalSet × Except IntervalSetError Unit :=
  match Interval.fromRangeBounds startBound endBound with
  | .error e => (self, .error e)
  | .ok interval =>
    if self.intervals.isEmpty then ({ self with intervals := [interval] }, .ok ())
    else
      match insertAt MAX self.intervals interval 0 self.limit with
      | (intervals, .ok _) => ({ self with intervals }, .ok ())
      | (_, .error e) => (self, .error e)

def insertValue (self : IntervalSet) (value : Nat) : IntervalSet × Except IntervalSetError Unit :=
  self.insert MAX (.included value) (.included value)

/-- `IntervalSet::remove`. A failed removal may have changed the deque already. -/
def remove (self : IntervalSet) (startBound endBound : Bound) :
    IntervalSet × Except IntervalSetError Unit :=
  match Interval.fromRangeBounds startBound endBound with
  | .error e => (self, .error e)
  | .ok interval =>
    if self.intervals.isEmpty then (self, .ok ())
    else
      match S2nQuic.IntervalSet.remove MAX self.intervals interval (self.indexFor interval)
          self.limit with
      | (intervals, .ok _) => ({ self with intervals }, .ok ())
      | (intervals, .error e) => ({ self with intervals }, .error e)

def removeValue (self : IntervalSet) (value : Nat) : IntervalSet × Except IntervalSetError Unit :=
  self.remove MAX (.included value) (.included value)

/-- `set_operation`: `apply` runs over the intervals of `other`, each call from the slot the
previous one returned and the first from `index_for`. -/
def setOperation (self other : IntervalSet)
    (apply : List Interval → Interval → Nat → Option Nat →
      List Interval × Except IntervalSetError Nat) :
    IntervalSet × Except IntervalSetError Unit :=
  match other.intervals with
  | [] => (self, .ok ())
  | interval :: _ =>
    let (intervals, result) := loop self.limit self.intervals (self.indexFor interval) other.intervals
    ({ self with intervals }, result)
where
  loop (limit : Option Nat) (intervals : List Interval) (index : Nat) :
      List Interval → List Interval × Except IntervalSetError Unit
    | [] => (intervals, .ok ())
    | interval :: rest =>
      match apply intervals interval index limit with
      | (intervals, .ok index) => loop limit intervals index rest
      | (intervals, .error e) => (intervals, .error e)

def union (self other : IntervalSet) : IntervalSet × Except IntervalSetError Unit :=
  if self.intervals.isEmpty then ({ self with intervals := other.intervals }, .ok ())
  else self.setOperation other (insertAt MAX)

def difference (self other : IntervalSet) : IntervalSet × Except IntervalSetError Unit :=
  if self.intervals.isEmpty then (self, .ok ())
  else self.setOperation other (S2nQuic.IntervalSet.remove MAX)

def intersection (self other : IntervalSet) : IntervalSet × Except IntervalSetError Unit :=
  ({ self with intervals := applyIntersection MAX self.intervals other.intervals }, .ok ())

/-! ## The representation invariant -/

/-- What `check_integrity` asserts: the intervals are canonical, and within the bound type. -/
structure WellFormed (self : IntervalSet) : Prop where
  canonical : Canonical self.intervals
  bounded : Bounded MAX self.intervals

variable {MAX}

theorem bounded_iff_subset {l : List Interval} (hl : Canonical l) :
    Bounded MAX l ↔ toSet l ⊆ Set.Iic MAX := by
  constructor
  · intro h v hv
    obtain ⟨i, hi, -, hvi⟩ := mem_toSet.mp hv
    exact le_trans hvi (h i hi)
  · intro h i hi
    have hv : i.«end» ∈ toSet l := mem_toSet.mpr ⟨i, hi, by simpa using hl.valid i hi, le_rfl⟩
    exact h hv

theorem length_le_usize {l : List Interval} (hl : Canonical l) (hlM : Bounded MAX l)
    (hMAX : MAX ≤ USIZE_MAX) : l.length ≤ USIZE_MAX := by
  have := two_mul_length_le (s := 0) (M := MAX) hl fun i hi => ⟨Nat.zero_le _, hlM i hi⟩
  unfold USIZE_MAX at hMAX ⊢
  omega

theorem contains_iff {self : IntervalSet} (h : Canonical self.intervals) (v : Nat) :
    self.contains v = true ↔ v ∈ toSet self.intervals := by
  obtain ⟨i, -, hr⟩ : ∃ i, Reports self.intervals v (fun _ => true) (fun _ => false)
      (fun _ => false) i (self.contains v) := binarySearchWith_spec h
  rcases hr with ⟨hv, hr⟩ | ⟨hv, hr | hr⟩ <;> simp only at hr <;> simp [hr, hv]

theorem indexFor_spec {self : IntervalSet} (h : Canonical self.intervals) (a : Interval) :
    ∀ x ∈ self.intervals.take (self.indexFor a), x.«end» + 1 < a.start := by
  unfold indexFor
  split_ifs
  · simp
  · obtain ⟨i, hpre, hr⟩ : ∃ i, Reports self.intervals a.start id id id i
        (binarySearchWith self.intervals a.start id id id) := binarySearchWith_spec h
    have : binarySearchWith self.intervals a.start id id id = i := by
      rcases hr with ⟨-, hr⟩ | ⟨-, hr | hr⟩ <;> exact hr
    rw [this]
    exact hpre

end IntervalSet

/-! ## Range bounds -/

namespace Bound

def AdmitsFrom : Bound → Nat → Prop
  | .included s, v => s ≤ v
  | .excluded s, v => s < v
  | .unbounded, _ => True

def AdmitsTo : Bound → Nat → Prop
  | .included e, v => v ≤ e
  | .excluded e, v => v < e
  | .unbounded, _ => True

end Bound

def rangeSet (MAX : Nat) (startBound endBound : Bound) : Set Nat :=
  {v | v ≤ MAX ∧ startBound.AdmitsFrom v ∧ endBound.AdmitsTo v}

theorem rangeSet_included {MAX s e : Nat} (he : e ≤ MAX) :
    rangeSet MAX (.included s) (.included e) = Set.Icc s e := by
  ext v
  simp only [rangeSet, Bound.AdmitsFrom, Bound.AdmitsTo, Set.mem_ofPred_eq, Set.mem_Icc]
  omega

/-- Bounds of the bound type that `from_range_bounds` converts faithfully: an included start and
a bounded end. -/
def Supported (MAX : Nat) : Bound → Bound → Prop
  | .included s, .included e => s ≤ MAX ∧ e ≤ MAX
  | .included s, .excluded e => s ≤ MAX ∧ e ≤ MAX
  | _, _ => False

theorem fromRangeBounds_spec {MAX : Nat} {a b : Bound} (h : Supported MAX a b) :
    (∃ i, Interval.fromRangeBounds a b = .ok i ∧ i.start ≤ i.«end» ∧ i.«end» ≤ MAX ∧
      Set.Icc i.start i.«end» = rangeSet MAX a b) ∨
    (∃ e, Interval.fromRangeBounds a b = .error e ∧ rangeSet MAX a b = ∅) := by
  rcases a with s | s | _ <;> rcases b with e | e | _ <;> simp only [Supported] at h
  · by_cases hse : s ≤ e
    · refine .inl ⟨⟨s, e⟩, by simp [Interval.fromRangeBounds, Interval.isValid, hse]; rfl, hse, h.2, ?_⟩
      ext v
      simp only [Set.mem_Icc, rangeSet, Bound.AdmitsFrom, Bound.AdmitsTo, Set.mem_ofPred_eq]
      omega
    · refine .inr ⟨.invalidInterval, by simp [Interval.fromRangeBounds, Interval.isValid, hse]; rfl, ?_⟩
      ext v
      simp only [rangeSet, Bound.AdmitsFrom, Bound.AdmitsTo, Set.mem_ofPred_eq,
        Set.mem_empty_iff_false, iff_false]
      omega
  · -- an excluded end steps down, and fails at zero
    by_cases hse : s + 1 ≤ e
    · refine .inl ⟨⟨s, e - 1⟩, by simp [Interval.fromRangeBounds, Interval.isValid, stepDown,
        show 0 < e by omega, show s ≤ e - 1 by omega]; rfl, by simp; omega, by simp; omega, ?_⟩
      ext v
      simp only [Set.mem_Icc, rangeSet, Bound.AdmitsFrom, Bound.AdmitsTo, Set.mem_ofPred_eq]
      omega
    · have hval : Interval.fromRangeBounds (.included s) (.excluded e) = .error .invalidInterval := by
        by_cases he : 0 < e
        · simp [Interval.fromRangeBounds, Interval.isValid, stepDown, he,
            show ¬ s ≤ e - 1 by omega]
          rfl
        · simp [Interval.fromRangeBounds, stepDown, he]
          rfl
      refine .inr ⟨.invalidInterval, hval, ?_⟩
      ext v
      simp only [rangeSet, Bound.AdmitsFrom, Bound.AdmitsTo, Set.mem_ofPred_eq,
        Set.mem_empty_iff_false, iff_false]
      omega

/-! ## The scans on a well-formed deque -/

section Scans

variable {MAX : Nat} {L : List Interval} {a : Interval}

theorem insert_wellFormed (hL : Canonical L) (hLM : Bounded MAX L) (ha : a.start ≤ a.«end»)
    (haM : a.«end» ≤ MAX) :
    Canonical (IntervalList.insert L a) ∧ Bounded MAX (IntervalList.insert L a) ∧
      toSet (IntervalList.insert L a) = toSet L ∪ Set.Icc a.start a.«end» := by
  obtain ⟨hc, hs⟩ := IntervalList.insert_spec hL (a := a) (by simpa using ha)
  simp only [lo_eq, hi_eq] at hs
  refine ⟨hc, (IntervalSet.bounded_iff_subset hc).mpr ?_, hs⟩
  rw [hs]
  exact Set.union_subset ((IntervalSet.bounded_iff_subset hL).mp hLM)
    fun v hv => le_trans hv.2 haM

theorem remove_wellFormed (hL : Canonical L) (hLM : Bounded MAX L) (ha : a.start ≤ a.«end») :
    Canonical (IntervalList.remove L a) ∧ Bounded MAX (IntervalList.remove L a) ∧
      toSet (IntervalList.remove L a) = toSet L \ Set.Icc a.start a.«end» := by
  obtain ⟨hc, hs⟩ := IntervalList.remove_spec (a := a) (by simpa using ha) hL
  simp only [lo_eq, hi_eq] at hs
  refine ⟨hc, (IntervalSet.bounded_iff_subset hc).mpr ?_, hs⟩
  rw [hs]
  exact Set.sdiff_subset.trans ((IntervalSet.bounded_iff_subset hL).mp hLM)

theorem insertAt_eq (hL : Canonical L) (hLM : Bounded MAX L) (ha : a.start ≤ a.«end»)
    (haM : a.«end» ≤ MAX) (hMAX : MAX ≤ USIZE_MAX) {idx : Nat}
    (hpre : ∀ x ∈ L.take idx, x.«end» + 1 < a.start) :
    ∃ k, IntervalSet.insertAt MAX L a idx none = (IntervalList.insert L a, .ok k) ∧
      ∀ x ∈ (IntervalList.insert L a).take k, x.«end» ≤ a.«end» := by
  obtain ⟨k, hk, hpost⟩ := insert_eq_union MAX hL hLM ha haM
    (IntervalSet.length_le_usize hL hLM hMAX) (by simpa using hpre)
  exact ⟨k, by simp [IntervalSet.insertAt, hk], hpost⟩

theorem loop_insertAt (hMAX : MAX ≤ USIZE_MAX) :
    ∀ (rest : List Interval) (a : Interval) (L : List Interval) (idx : Nat),
      Canonical L → Bounded MAX L → Canonical (a :: rest) → Bounded MAX (a :: rest) →
      (∀ x ∈ L.take idx, x.«end» + 1 < a.start) →
      ∃ L', IntervalSet.setOperation.loop (IntervalSet.insertAt MAX) none L idx (a :: rest) =
        (L', .ok ()) ∧ Canonical L' ∧ Bounded MAX L' ∧ toSet L' = toSet L ∪ toSet (a :: rest)
  | rest, a, L, idx, hL, hLM, hr, hrM, hpre => by
    obtain ⟨ha, hab, hrest⟩ := canonical_cons.mp hr
    obtain ⟨haM, hrestM⟩ := bounded_cons.mp hrM
    simp only [lo_eq, hi_eq] at ha
    obtain ⟨k, hk, hpost⟩ := insertAt_eq hL hLM ha haM hMAX hpre
    obtain ⟨hc, hb, hs⟩ := insert_wellFormed hL hLM ha haM
    rw [IntervalSet.setOperation.loop, hk]
    dsimp only
    cases rest with
    | nil => exact ⟨_, rfl, hc, hb, by rw [hs]; simp⟩
    | cons b rest =>
      have hnext : ∀ x ∈ (IntervalList.insert L a).take k, x.«end» + 1 < b.start := by
        intro x hx
        have := hab b (by simp)
        simp only [before_iff] at this
        have := hpost x hx
        omega
      obtain ⟨L', hL', hc', hb', hs'⟩ := loop_insertAt hMAX rest b _ k hc hb hrest hrestM hnext
      exact ⟨L', hL', hc', hb', by simp only [hs', hs, toSet_cons, lo_eq, hi_eq, Set.union_assoc]⟩

theorem loop_remove (hMAX : MAX ≤ USIZE_MAX) :
    ∀ (rest : List Interval) (a : Interval) (L : List Interval) (idx : Nat),
      Canonical L → Bounded MAX L → Canonical (a :: rest) → Bounded MAX (a :: rest) →
      (∀ x ∈ L.take idx, x.«end» < a.start) →
      ∃ L', IntervalSet.setOperation.loop (remove MAX) none L idx (a :: rest) =
        (L', .ok ()) ∧ Canonical L' ∧ Bounded MAX L' ∧ toSet L' = toSet L \ toSet (a :: rest)
  | rest, a, L, idx, hL, hLM, hr, hrM, hpre => by
    obtain ⟨ha, hab, hrest⟩ := canonical_cons.mp hr
    obtain ⟨haM, hrestM⟩ := bounded_cons.mp hrM
    simp only [lo_eq, hi_eq] at ha
    obtain ⟨k, hk, hpost⟩ := remove_eq_diff MAX hL hLM ha haM
      (IntervalSet.length_le_usize hL hLM hMAX) hpre
    obtain ⟨hc, hb, hs⟩ := remove_wellFormed hL hLM ha
    rw [IntervalSet.setOperation.loop, hk]
    dsimp only
    cases rest with
    | nil => exact ⟨_, rfl, hc, hb, by rw [hs]; simp⟩
    | cons b rest =>
      have hnext : ∀ x ∈ (IntervalList.remove L a).take k, x.«end» < b.start := by
        intro x hx
        have := hab b (by simp)
        simp only [before_iff] at this
        have := hpost x hx
        omega
      obtain ⟨L', hL', hc', hb', hs'⟩ := loop_remove hMAX rest b _ k hc hb hrest hrestM hnext
      exact ⟨L', hL', hc', hb', by simp only [hs', hs, toSet_cons, lo_eq, hi_eq, Set.sdiff_sdiff]⟩

end Scans

/-! ## Each call denotes its set operation -/

namespace IntervalSet

/-- A well-formed set without a limit whose intervals denote `S`. -/
structure Refines (MAX : Nat) (self : IntervalSet) (S : Set Nat) : Prop where
  wellFormed : self.WellFormed MAX
  noLimit : self.limit = none
  toSet_eq : toSet self.intervals = S

variable {MAX : Nat} {self other : IntervalSet} {S : Set Nat}

theorem refines_new : new.Refines MAX ∅ := ⟨⟨canonical_nil, bounded_nil MAX⟩, rfl, rfl⟩

theorem refines_singleton {i : Interval} (hi : i.start ≤ i.«end») (hiM : i.«end» ≤ MAX)
    (hlim : self.limit = none) :
    ({ self with intervals := [i] } : IntervalSet).Refines MAX (Set.Icc i.start i.«end») :=
  ⟨⟨canonical_cons.mpr ⟨by simpa using hi, by simp, canonical_nil⟩, by simp [hiM]⟩, hlim,
    by simp⟩

section Steps

variable (hMAX : MAX ≤ USIZE_MAX)
include hMAX

theorem Refines.insert (h : self.Refines MAX S) {a b : Bound} (hab : Supported MAX a b) :
    (self.insert MAX a b).1.Refines MAX (S ∪ rangeSet MAX a b) := by
  obtain ⟨⟨hc, hbd⟩, hlim, rfl⟩ := h
  rcases fromRangeBounds_spec hab with ⟨i, hi, hv, hiM, hset⟩ | ⟨e, he, hset⟩
  · unfold IntervalSet.insert
    rw [hi, ← hset]
    dsimp only
    split_ifs with hemp
    · rw [List.isEmpty_iff.mp hemp, toSet_nil, Set.empty_union]
      exact refines_singleton hv hiM hlim
    · -- the scan starts from `index_for`, past intervals that end before the new one
      obtain ⟨k, hk, -⟩ := insertAt_eq hc hbd hv hiM hMAX (indexFor_spec hc i)
      rw [hlim, hk]
      obtain ⟨hc', hb', hs'⟩ := insert_wellFormed hc hbd hv hiM
      exact ⟨⟨hc', hb'⟩, rfl, hs'⟩
  · simp only [IntervalSet.insert, he]
    exact ⟨⟨hc, hbd⟩, hlim, by rw [hset, Set.union_empty]⟩

theorem Refines.insertFront (h : self.Refines MAX S) {a b : Bound} (hab : Supported MAX a b) :
    (self.insertFront MAX a b).1.Refines MAX (S ∪ rangeSet MAX a b) := by
  obtain ⟨⟨hc, hbd⟩, hlim, rfl⟩ := h
  rcases fromRangeBounds_spec hab with ⟨i, hi, hv, hiM, hset⟩ | ⟨e, he, hset⟩
  · unfold IntervalSet.insertFront
    rw [hi, ← hset]
    dsimp only
    split_ifs with hemp
    · rw [List.isEmpty_iff.mp hemp, toSet_nil, Set.empty_union]
      exact refines_singleton hv hiM hlim
    · obtain ⟨k, hk, -⟩ := insertAt_eq hc hbd hv hiM hMAX
        (show ∀ x ∈ self.intervals.take 0, x.«end» + 1 < i.start by simp)
      rw [hlim, hk]
      obtain ⟨hc', hb', hs'⟩ := insert_wellFormed hc hbd hv hiM
      exact ⟨⟨hc', hb'⟩, rfl, hs'⟩
  · simp only [IntervalSet.insertFront, he]
    exact ⟨⟨hc, hbd⟩, hlim, by rw [hset, Set.union_empty]⟩

theorem Refines.remove (h : self.Refines MAX S) {a b : Bound} (hab : Supported MAX a b) :
    (self.remove MAX a b).1.Refines MAX (S \ rangeSet MAX a b) := by
  obtain ⟨⟨hc, hbd⟩, hlim, rfl⟩ := h
  rcases fromRangeBounds_spec hab with ⟨i, hi, hv, hiM, hset⟩ | ⟨e, he, hset⟩
  · unfold IntervalSet.remove
    rw [hi, ← hset]
    dsimp only
    split_ifs with hemp
    · exact ⟨⟨hc, hbd⟩, hlim, by simp [List.isEmpty_iff.mp hemp]⟩
    · obtain ⟨k, hk, -⟩ := remove_eq_diff MAX hc hbd hv hiM (length_le_usize hc hbd hMAX)
        fun x hx => by have := indexFor_spec hc i x hx; omega
      rw [hlim, hk]
      obtain ⟨hc', hb', hs'⟩ := remove_wellFormed hc hbd hv
      exact ⟨⟨hc', hb'⟩, rfl, hs'⟩
  · simp only [IntervalSet.remove, he]
    exact ⟨⟨hc, hbd⟩, hlim, by rw [hset, Set.sdiff_empty]⟩

theorem Refines.insertValue (h : self.Refines MAX S) {v : Nat} (hv : v ≤ MAX) :
    (self.insertValue MAX v).1.Refines MAX (S ∪ {v}) := by
  have hset : rangeSet MAX (.included v) (.included v) = {v} := by
    ext w
    simp only [rangeSet, Bound.AdmitsFrom, Bound.AdmitsTo, Set.mem_ofPred_eq,
      Set.mem_singleton_iff]
    omega
  have := h.insert hMAX (a := .included v) (b := .included v) ⟨hv, hv⟩
  rwa [hset] at this

theorem Refines.removeValue (h : self.Refines MAX S) {v : Nat} (hv : v ≤ MAX) :
    (self.removeValue MAX v).1.Refines MAX (S \ {v}) := by
  have hset : rangeSet MAX (.included v) (.included v) = {v} := by
    ext w
    simp only [rangeSet, Bound.AdmitsFrom, Bound.AdmitsTo, Set.mem_ofPred_eq,
      Set.mem_singleton_iff]
    omega
  have := h.remove hMAX (a := .included v) (b := .included v) ⟨hv, hv⟩
  rwa [hset] at this

theorem Refines.union (h : self.Refines MAX S) (ho : other.WellFormed MAX) :
    (self.union MAX other).1.Refines MAX (S ∪ toSet other.intervals) := by
  obtain ⟨⟨hc, hbd⟩, hlim, rfl⟩ := h
  obtain ⟨hoc, hob⟩ := ho
  unfold IntervalSet.union
  split_ifs with hemp
  · exact ⟨⟨hoc, hob⟩, hlim, by simp [List.isEmpty_iff.mp hemp]⟩
  · unfold setOperation
    rcases ho' : other.intervals with _ | ⟨a, rest⟩
    · exact ⟨⟨hc, hbd⟩, hlim, by simp⟩
    · rw [ho'] at hoc hob
      obtain ⟨L', hL', hc', hb', hs'⟩ :=
        loop_insertAt hMAX rest a _ _ hc hbd hoc hob (indexFor_spec hc a)
      dsimp only
      rw [hlim, hL']
      exact ⟨⟨hc', hb'⟩, rfl, hs'⟩

theorem Refines.difference (h : self.Refines MAX S) (ho : other.WellFormed MAX) :
    (self.difference MAX other).1.Refines MAX (S \ toSet other.intervals) := by
  obtain ⟨⟨hc, hbd⟩, hlim, rfl⟩ := h
  obtain ⟨hoc, hob⟩ := ho
  unfold IntervalSet.difference
  split_ifs with hemp
  · exact ⟨⟨hc, hbd⟩, hlim, by simp [List.isEmpty_iff.mp hemp]⟩
  · unfold setOperation
    rcases ho' : other.intervals with _ | ⟨a, rest⟩
    · exact ⟨⟨hc, hbd⟩, hlim, by simp⟩
    · rw [ho'] at hoc hob
      obtain ⟨L', hL', hc', hb', hs'⟩ := loop_remove hMAX rest a _ _ hc hbd hoc hob
        fun x hx => by have := indexFor_spec hc a x hx; omega
      dsimp only
      rw [hlim, hL']
      exact ⟨⟨hc', hb'⟩, rfl, hs'⟩

end Steps

theorem Refines.intersection (h : self.Refines MAX S) (ho : other.WellFormed MAX) :
    (self.intersection MAX other).1.Refines MAX (S ∩ toSet other.intervals) := by
  obtain ⟨⟨hc, hbd⟩, hlim, rfl⟩ := h
  obtain ⟨hoc, hob⟩ := ho
  obtain ⟨hc', hs'⟩ := inter_spec hc hoc
  refine ⟨⟨?_, ?_⟩, hlim, ?_⟩ <;> simp only [IntervalSet.intersection] <;>
    rw [applyIntersection_eq MAX hc hoc hbd hob]
  · exact hc'
  · rw [bounded_iff_subset hc', hs']
    exact Set.inter_subset_left.trans ((bounded_iff_subset hc).mp hbd)
  · exact hs'

theorem Refines.popMin (h : self.Refines MAX S) : self.popMin.2.Refines MAX (S \ firstRun S) := by
  obtain ⟨⟨hc, hbd⟩, hlim, rfl⟩ := h
  simp only [IntervalSet.popMin]
  cases hl : self.intervals with
  | nil => exact ⟨⟨canonical_nil, bounded_nil MAX⟩, hlim, by simp [firstRun]⟩
  | cons i l =>
    rw [hl] at hc hbd
    refine ⟨⟨(canonical_cons.mp hc).2.2, (bounded_cons.mp hbd).2⟩, hlim, ?_⟩
    rw [List.tail_cons, firstRun_toSet hc, toSet_tail hc]

/-! ## Runs of calls -/

/-- The calls that change a set. -/
inductive Op
  | insert (startBound endBound : Bound)
  | insertFront (startBound endBound : Bound)
  | insertValue (value : Nat)
  | remove (startBound endBound : Bound)
  | removeValue (value : Nat)
  | union (other : IntervalSet)
  | difference (other : IntervalSet)
  | intersection (other : IntervalSet)
  | popMin

namespace Op

def apply (MAX : Nat) (self : IntervalSet) : Op → IntervalSet
  | .insert a b => (self.insert MAX a b).1
  | .insertFront a b => (self.insertFront MAX a b).1
  | .insertValue v => (self.insertValue MAX v).1
  | .remove a b => (self.remove MAX a b).1
  | .removeValue v => (self.removeValue MAX v).1
  | .union o => (self.union MAX o).1
  | .difference o => (self.difference MAX o).1
  | .intersection o => (self.intersection MAX o).1
  | .popMin => self.popMin.2

/-- What the call should do to the set of values. -/
def denote (MAX : Nat) (S : Set Nat) : Op → Set Nat
  | .insert a b | .insertFront a b => S ∪ rangeSet MAX a b
  | .insertValue v => S ∪ {v}
  | .remove a b => S \ rangeSet MAX a b
  | .removeValue v => S \ {v}
  | .union o => S ∪ toSet o.intervals
  | .difference o => S \ toSet o.intervals
  | .intersection o => S ∩ toSet o.intervals
  | .popMin => S \ firstRun S

def Valid (MAX : Nat) : Op → Prop
  | .insert a b | .insertFront a b | .remove a b => Supported MAX a b
  | .insertValue v | .removeValue v => v ≤ MAX
  | .union o | .difference o | .intersection o => o.WellFormed MAX
  | .popMin => True

end Op

def run (MAX : Nat) (self : IntervalSet) (ops : List Op) : IntervalSet := ops.foldl (Op.apply MAX) self

def denoteRun (MAX : Nat) (S : Set Nat) (ops : List Op) : Set Nat := ops.foldl (Op.denote MAX) S

section Runs

variable (hMAX : MAX ≤ USIZE_MAX)
include hMAX

theorem Refines.apply (h : self.Refines MAX S) {op : Op} (hop : op.Valid MAX) :
    (op.apply MAX self).Refines MAX (op.denote MAX S) := by
  cases op with
  | insert a b => exact h.insert hMAX hop
  | insertFront a b => exact h.insertFront hMAX hop
  | insertValue v => exact h.insertValue hMAX hop
  | remove a b => exact h.remove hMAX hop
  | removeValue v => exact h.removeValue hMAX hop
  | union o => exact h.union hMAX hop
  | difference o => exact h.difference hMAX hop
  | intersection o => exact h.intersection hop
  | popMin => exact h.popMin

theorem Refines.run : ∀ {ops : List Op} {self : IntervalSet} {S : Set Nat},
    self.Refines MAX S → (∀ op ∈ ops, op.Valid MAX) →
      (run MAX self ops).Refines MAX (denoteRun MAX S ops)
  | [], _, _, h, _ => h
  | op :: ops, _, _, h, hops => by
    have h' := h.apply hMAX (hops op (by simp))
    have hops' : ∀ op' ∈ ops, op'.Valid MAX := fun op' hop' => hops op' (List.mem_cons_of_mem op hop')
    have hrest := Refines.run h' hops'
    exact hrest

end Runs

/-! ## What a well-formed set reports -/

theorem count_eq_ncard (h : self.WellFormed MAX) : self.count = (toSet self.intervals).ncard := by
  obtain ⟨hc, -⟩ := h
  rw [count, ncard_toSet hc]
  congr 1
  refine List.map_congr_left fun i hi => ?_
  have := hc.valid i hi
  simp only [lo_eq, hi_eq] at this ⊢
  simp only [Interval.len]
  omega

theorem intervalLen_eq_ncard (h : self.WellFormed MAX) :
    self.intervalLen = (runStarts (toSet self.intervals)).ncard := by
  obtain ⟨hc, -⟩ := h
  exact (ncard_runStarts hc).symm

/-- `intersection_iter`. -/
def intersectionIter (self other : IntervalSet) : Intersection :=
  Intersection.new self.intervals other.intervals

/-- The intersection iterator yields the intersection in canonical form. -/
theorem intersectionIter_spec (h : self.WellFormed MAX) (ho : other.WellFormed MAX) :
    let items : List Interval := Intersection.items MAX
      (self.intervals.length + other.intervals.length) (self.intersectionIter other)
    Canonical items ∧ toSet items = toSet self.intervals ∩ toSet other.intervals := by
  obtain ⟨hc, hb⟩ := h
  obtain ⟨hoc, hob⟩ := ho
  simp only [intersectionIter]
  rw [Intersection.items_new MAX hc hoc hb hob]
  exact inter_spec hc hoc

theorem intersectionIter_spec_overlap :
    let items : List Interval := Intersection.items 255 (1 + 1)
      ((⟨none, [⟨0, 5⟩]⟩ : IntervalSet).intersectionIter ⟨none, [⟨3, 9⟩]⟩)
    Canonical items ∧
      toSet items = toSet ([⟨0, 5⟩] : List Interval) ∩ toSet ([⟨3, 9⟩] : List Interval) := by
  have h : (⟨none, [⟨0, 5⟩]⟩ : IntervalSet).WellFormed 255 :=
    ⟨canonical_cons.mpr ⟨by simp, by simp, canonical_nil⟩, by simp [Bounded]⟩
  have ho : (⟨none, [⟨3, 9⟩]⟩ : IntervalSet).WellFormed 255 :=
    ⟨canonical_cons.mpr ⟨by simp, by simp, canonical_nil⟩, by simp [Bounded]⟩
  exact intersectionIter_spec h ho

/-- Every set that valid calls build from an empty one is well formed, holds exactly the values
the calls should leave, counts them, and has one interval per maximal run of them. -/
theorem reachable_spec (hMAX : MAX ≤ USIZE_MAX) {ops : List Op} (hops : ∀ op ∈ ops, op.Valid MAX) :
    let s : IntervalSet := run MAX new ops
    s.WellFormed MAX ∧ (∀ v, s.contains v = true ↔ v ∈ denoteRun MAX ∅ ops) ∧
      s.count = (denoteRun MAX ∅ ops).ncard ∧
      s.intervalLen = (runStarts (denoteRun MAX ∅ ops)).ncard := by
  obtain ⟨hwf, -, hS⟩ := refines_new.run hMAX hops
  obtain ⟨hc, hb⟩ := hwf
  refine ⟨⟨hc, hb⟩, fun v => ?_, ?_, ?_⟩
  · rw [contains_iff hc, hS]
  · rw [count_eq_ncard ⟨hc, hb⟩, hS]
  · rw [intervalLen_eq_ncard ⟨hc, hb⟩, hS]

theorem reachable_spec_three_values :
    (run 255 new [.insertValue 3, .insertValue 4, .removeValue 3, .insertValue 10]).count =
      (denoteRun 255 ∅ [.insertValue 3, .insertValue 4, .removeValue 3, .insertValue 10]).ncard := by
  have hops : ∀ op ∈ ([.insertValue 3, .insertValue 4, .removeValue 3, .insertValue 10] : List Op),
      op.Valid 255 := by
    intro op hop
    simp only [List.mem_cons, List.not_mem_nil, or_false] at hop
    rcases hop with rfl | rfl | rfl | rfl <;> simp [Op.Valid]
  exact (reachable_spec (by simp [USIZE_MAX] : (255 : Nat) ≤ USIZE_MAX) hops).2.2.1

/-- `from_range_bounds` steps an excluded start down instead of up: inserting `(3, 5]` into an
empty set stores `[2, 5]`, so the set then contains `2`, which the range does not. -/
theorem insert_excluded_start_contains_below :
    let s : IntervalSet := (IntervalSet.new.insert 255 (.excluded 3) (.included 5)).1
    s.intervals = [⟨2, 5⟩] ∧ s.contains 2 = true ∧ 2 ∉ rangeSet 255 (.excluded 3) (.included 5) := by
  have hs : (IntervalSet.new.insert 255 (.excluded 3) (.included 5)).1.intervals = [⟨2, 5⟩] := rfl
  refine ⟨hs, ?_, by simp [rangeSet, Bound.AdmitsFrom]⟩
  have hc : Canonical (IntervalSet.new.insert 255 (.excluded 3) (.included 5)).1.intervals := by
    rw [hs]
    exact canonical_cons.mpr ⟨by simp, by simp, canonical_nil⟩
  rw [contains_iff hc, hs]
  simp

end IntervalSet

end S2nQuic.IntervalSet
