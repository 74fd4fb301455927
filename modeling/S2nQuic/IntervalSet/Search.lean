import S2nQuic.IntervalSet.Intersection

/-!
# Binary search

`IntervalSet::binary_search_with` (`interval_set/mod.rs`) narrows a window `base .. base + size`
of the intervals, comparing the middle one with the value, until one interval is left, and then
reports through one of three callbacks whether that interval holds the value, lies above it or
lies below it. On a canonical list the window always holds the interval that contains the value,
and every interval before `base` ends more than one value below it.
-/

namespace S2nQuic.IntervalSet

open IntervalList

namespace Interval

/-- `PartialOrd<T> for Interval<T>`: an interval compares equal to the values it holds. The
source wraps the result in a `Some` that is never `None`. -/
def partialCmp (self : Interval) (value : Nat) : Ordering :=
  match compare self.start value, compare self.«end» value with
  | .eq, _ => .eq
  | _, .eq => .eq
  | .gt, .lt => .eq
  | .lt, .gt => .eq
  | .lt, .lt => .lt
  | .gt, .gt => .gt

theorem partialCmp_of_le {i : Interval} (h : i.start ≤ i.«end») (v : Nat) :
    i.partialCmp v = if v < i.start then .gt else if i.«end» < v then .lt else .eq := by
  unfold partialCmp
  cases h₁ : compare i.start v <;> cases h₂ : compare i.«end» v <;>
    simp only [Nat.compare_eq_lt, Nat.compare_eq_eq, Nat.compare_eq_gt] at h₁ h₂ <;>
    split_ifs <;> first | rfl | omega

variable {i : Interval} {v : Nat}

theorem partialCmp_eq_eq (h : i.start ≤ i.«end») :
    i.partialCmp v = .eq ↔ i.start ≤ v ∧ v ≤ i.«end» := by
  rw [partialCmp_of_le h]
  split_ifs <;> simp <;> omega

theorem partialCmp_eq_gt (h : i.start ≤ i.«end») : i.partialCmp v = .gt ↔ v < i.start := by
  rw [partialCmp_of_le h]
  split_ifs <;> simp <;> omega

theorem partialCmp_eq_lt (h : i.start ≤ i.«end») : i.partialCmp v = .lt ↔ i.«end» < v := by
  rw [partialCmp_of_le h]
  split_ifs <;> simp <;> omega

end Interval

variable {V : Type}

/-- `binary_search_with`. The source indexes the deque directly; the window stays inside it, so
the default of `getD` is never read. -/
def binarySearchWith (intervals : List Interval) (value : Nat) (onEqual onGreater onLess : Nat → V) :
    V :=
  if intervals.length = 0 then onGreater 0 else loop intervals.length 0
where
  loop (size base : Nat) : V :=
    if 1 < size then
      let half := size / 2
      let mid := base + half
      match (intervals.getD mid ⟨0, 0⟩).partialCmp value with
      | .eq => onEqual mid
      | .gt => loop (size - half) base
      | .lt => loop (size - half) mid
    else
      match (intervals.getD base ⟨0, 0⟩).partialCmp value with
      | .eq => onEqual base
      | .gt => onGreater base
      | .lt => onLess base
  termination_by size
  decreasing_by all_goals omega

/-! ## The search window -/

/-- The window holds every interval that contains `v`, and the intervals before it end more
than one value below `v`. -/
structure Window (l : List Interval) (v size base : Nat) : Prop where
  size_pos : 0 < size
  le_length : base + size ≤ l.length
  holds : ∀ j (hj : j < l.length), l[j].start ≤ v → v ≤ l[j].«end» → base ≤ j ∧ j < base + size
  below : ∀ j (hj : j < l.length), j < base → l[j].«end» + 1 < v

variable {l : List Interval} {v size base : Nat}

theorem window_length (hl : l ≠ []) : Window l v l.length 0 :=
  ⟨List.length_pos_of_ne_nil hl, by simp, fun j hj _ _ => ⟨Nat.zero_le j, by omega⟩,
    fun _ _ hj => absurd hj (Nat.not_lt_zero _)⟩

theorem getD_of_lt {i : Nat} (hi : i < l.length) (d : Interval) : l.getD i d = l[i] := by
  simp [List.getD_eq_getElem?_getD, hi]

theorem canonical_valid (hl : Canonical l) {j : Nat} (hj : j < l.length) :
    l[j].start ≤ l[j].«end» := by
  simpa using hl.valid _ (List.getElem_mem hj)

theorem Window.of_gt (hl : Canonical l) (h : Window l v size base) (hs : 1 < size)
    (hm : base + size / 2 < l.length) (hgt : v < l[base + size / 2].start) :
    Window l v (size - size / 2) base := by
  refine ⟨by omega, by have := h.le_length; omega, fun j hj h₁ h₂ => ?_, h.below⟩
  obtain ⟨hb, -⟩ := h.holds j hj h₁ h₂
  refine ⟨hb, ?_⟩
  by_contra hge
  rcases Nat.lt_or_ge (base + size / 2) j with hlt | hle
  · have := hl.before_getElem hm hj hlt
    simp at this
    have := canonical_valid hl hm
    omega
  · have : j = base + size / 2 := by omega
    subst this
    omega

theorem Window.of_lt (hl : Canonical l) (h : Window l v size base) (hs : 1 < size)
    (hm : base + size / 2 < l.length) (hlt : l[base + size / 2].«end» < v) :
    Window l v (size - size / 2) (base + size / 2) := by
  refine ⟨by omega, by have := h.le_length; omega, fun j hj h₁ h₂ => ?_, fun j hj hjm => ?_⟩
  · obtain ⟨-, hb⟩ := h.holds j hj h₁ h₂
    refine ⟨?_, by omega⟩
    by_contra hgt
    rcases Nat.lt_or_ge j (base + size / 2) with hjm | hjm
    · have := hl.before_getElem hj hm hjm
      simp at this
      have := canonical_valid hl hm
      omega
    · omega
  · have := hl.before_getElem hj hm hjm
    simp at this
    have := canonical_valid hl hm
    omega

theorem forall_mem_take {i : Nat} (h : ∀ j (hj : j < l.length), j < i → l[j].«end» + 1 < v) :
    ∀ x ∈ l.take i, x.«end» + 1 < v := by
  intro x hx
  obtain ⟨j, hj, rfl⟩ := List.mem_take_iff_getElem.mp hx
  exact h j (by omega) (by omega)

/-- What the search reports at slot `i`: `on_equal` exactly when the list holds `v`, and every
interval before slot `i` ends more than one value below `v`. -/
def Reports (l : List Interval) (v : Nat) (onEqual onGreater onLess : Nat → V) (i : Nat)
    (r : V) : Prop :=
  (∀ x ∈ l.take i, x.«end» + 1 < v) ∧
    ((v ∈ toSet l ∧ r = onEqual i) ∨ (v ∉ toSet l ∧ (r = onGreater i ∨ r = onLess i)))

variable {onEqual onGreater onLess : Nat → V}

theorem reports_of_holds (hl : Canonical l) {i : Nat} (hi : i < l.length)
    (h₁ : l[i].start ≤ v) (h₂ : v ≤ l[i].«end») :
    Reports l v onEqual onGreater onLess i (onEqual i) := by
  refine ⟨forall_mem_take fun j hj hji => ?_, .inl ⟨mem_toSet_iff_getElem.mpr ⟨i, hi, h₁, h₂⟩, rfl⟩⟩
  have := hl.before_getElem hj hi hji
  simp at this
  omega

theorem not_mem_of_window (h : Window l v 1 base) (hb : base < l.length)
    (hv : ¬ (l[base].start ≤ v ∧ v ≤ l[base].«end»)) : v ∉ toSet l := by
  intro hmem
  obtain ⟨j, hj, h₁, h₂⟩ := mem_toSet_iff_getElem.mp hmem
  have := h.holds j hj h₁ h₂
  have : j = base := by omega
  subst this
  exact hv ⟨h₁, h₂⟩

theorem loop_spec (hl : Canonical l) (h : Window l v size base) :
    ∃ i, Reports l v onEqual onGreater onLess i
      (binarySearchWith.loop l v onEqual onGreater onLess size base) := by
  -- one case per arm of the loop; the window carries what the arms need
  induction size, base using binarySearchWith.loop.induct l v with
  | case1 size base hs half mid hcmp =>
    have hm : base + size / 2 < l.length := by have := h.le_length; omega
    refine ⟨base + size / 2, ?_⟩
    rw [binarySearchWith.loop, if_pos hs]
    dsimp only at hcmp ⊢
    rw [hcmp]
    rw [getD_of_lt hm, Interval.partialCmp_eq_eq (canonical_valid hl hm)] at hcmp
    exact reports_of_holds hl hm hcmp.1 hcmp.2
  | case2 size base hs half mid hcmp ih =>
    have hm : base + size / 2 < l.length := by have := h.le_length; omega
    rw [binarySearchWith.loop, if_pos hs]
    dsimp only at hcmp ⊢
    rw [hcmp]
    rw [getD_of_lt hm, Interval.partialCmp_eq_gt (canonical_valid hl hm)] at hcmp
    exact ih (h.of_gt hl hs hm hcmp)
  | case3 size base hs half mid hcmp ih =>
    have hm : base + size / 2 < l.length := by have := h.le_length; omega
    rw [binarySearchWith.loop, if_pos hs]
    dsimp only at hcmp ⊢
    rw [hcmp]
    rw [getD_of_lt hm, Interval.partialCmp_eq_lt (canonical_valid hl hm)] at hcmp
    exact ih (h.of_lt hl hs hm hcmp)
  | case4 size base hs hcmp =>
    obtain rfl : size = 1 := by have := h.size_pos; omega
    have hb : base < l.length := by have := h.le_length; omega
    refine ⟨base, ?_⟩
    rw [binarySearchWith.loop, if_neg hs, hcmp]
    rw [getD_of_lt hb, Interval.partialCmp_eq_eq (canonical_valid hl hb)] at hcmp
    exact reports_of_holds hl hb hcmp.1 hcmp.2
  | case5 size base hs hcmp =>
    obtain rfl : size = 1 := by have := h.size_pos; omega
    have hb : base < l.length := by have := h.le_length; omega
    refine ⟨base, ?_⟩
    rw [binarySearchWith.loop, if_neg hs, hcmp]
    rw [getD_of_lt hb, Interval.partialCmp_eq_gt (canonical_valid hl hb)] at hcmp
    exact ⟨forall_mem_take h.below, .inr ⟨not_mem_of_window h hb (by omega), .inl rfl⟩⟩
  | case6 size base hs hcmp =>
    obtain rfl : size = 1 := by have := h.size_pos; omega
    have hb : base < l.length := by have := h.le_length; omega
    refine ⟨base, ?_⟩
    rw [binarySearchWith.loop, if_neg hs, hcmp]
    rw [getD_of_lt hb, Interval.partialCmp_eq_lt (canonical_valid hl hb)] at hcmp
    exact ⟨forall_mem_take h.below, .inr ⟨not_mem_of_window h hb (by omega), .inr rfl⟩⟩

theorem binarySearchWith_spec (hl : Canonical l) :
    ∃ i, Reports l v onEqual onGreater onLess i (binarySearchWith l v onEqual onGreater onLess) := by
  unfold binarySearchWith
  split_ifs with h0
  · obtain rfl : l = [] := List.eq_nil_of_length_eq_zero h0
    exact ⟨0, by simp, .inr ⟨by simp, .inl rfl⟩⟩
  · exact loop_spec hl (window_length (List.ne_nil_of_length_pos (by omega)))

end S2nQuic.IntervalSet
