import S2nQuic.IntervalSet.Interval

/-!
# Inserting an interval

`insert` (`interval_set/insert.rs`) scans the intervals from a start index. It collects in
`replace_range` the slots that the new interval touches and grows the interval over them, then
replaces those slots by the grown interval. On a canonical list this is the canonical union
`IntervalList.insert`. The index it returns is a valid start index for the next, later,
interval of a union.
-/

namespace S2nQuic.IntervalSet

structure Insertion where
  replaceRange : Range
  deriving DecidableEq, Repr

namespace Insertion

def setStart (self : Insertion) (start : Nat) : Insertion := ⟨self.replaceRange.setStart start⟩

def setEnd (self : Insertion) («end» : Nat) : Insertion := ⟨self.replaceRange.setEnd «end»⟩

@[simp] theorem replaceRange_setStart (self : Insertion) (s : Nat) :
    (self.setStart s).replaceRange = self.replaceRange.setStart s := rfl

@[simp] theorem replaceRange_setEnd (self : Insertion) (e : Nat) :
    (self.setEnd e).replaceRange = self.replaceRange.setEnd e := rfl

variable (MAX : Nat)

/-- `Insertion::scan` from slot `slotIndex`: the early return, and the insertion and `range_a`
as the loop leaves them. -/
def scan (self : Insertion) (slotIndex : Nat) :
    List Interval → Interval → Option Nat × Insertion × Interval
  | [], rangeA => (none, self, rangeA)
  | rangeB :: ranges, rangeA =>
    match compare rangeA.start rangeB.start, compare rangeA.«end» rangeB.«end» with
    -- `range_a` lies inside `range_b`: nothing changes
    | .eq, .eq | .gt, .eq => (some (slotIndex + 1), self, rangeA)
    | .eq, .lt | .gt, .lt => (some slotIndex, self, rangeA)
    | .gt, .gt =>
      if rangeA.shouldCoalesce MAX rangeB then
        scan ((self.setStart slotIndex).setEnd (slotIndex + 1)) (slotIndex + 1) ranges
          { rangeA with start := rangeB.start }
      else scan self (slotIndex + 1) ranges rangeA
    | .eq, .gt | .lt, .gt =>
      scan ((self.setStart slotIndex).setEnd (slotIndex + 1)) (slotIndex + 1) ranges rangeA
    | .lt, .eq => (none, (self.setStart slotIndex).setEnd (slotIndex + 1), rangeA)
    | .lt, .lt =>
      if rangeB.shouldCoalesce MAX rangeA then
        (none, (self.setStart slotIndex).setEnd (slotIndex + 1),
          { rangeA with «end» := rangeB.«end» })
      else (none, (self.setStart slotIndex).setEnd slotIndex, rangeA)

/-- `Insertion::apply`: the index of the inserted interval and the intervals afterwards. -/
def apply (self : Insertion) (ranges : List Interval) (range : Interval) (limit : Option Nat) :
    Except IntervalSetError (Nat × List Interval) :=
  let replaceRange := self.replaceRange
  let prevLen := ranges.length
  let ensureCanInsert : Except IntervalSetError Unit :=
    let underLimit := match limit with
      | some limit => decide (limit > prevLen)
      | none => true
    if underLimit then .ok () else .error .limitExceeded
  let index := replaceRange.start
  match checkedSub replaceRange.«end» index with
  | none => do
    ensureCanInsert
    pure (prevLen, ranges ++ [range])
  | some 0 => do
    ensureCanInsert
    pure (index, ranges.insertIdx index range)
  | some 1 => pure (index, ranges.set index range)
  | some 2 => pure (index, (ranges.set index range).eraseIdx (index + 1))
  | some _ => pure (index, drain (ranges.set index range) (index + 1) replaceRange.«end»)

/-- The end of `insert`: an early return of the scan leaves the intervals as they are,
otherwise the insertion is applied. -/
def complete (ranges : List Interval) (limit : Option Nat) :
    Option Nat × Insertion × Interval → Except IntervalSetError (Nat × List Interval)
  | (some index, _, _) => .ok (index, ranges)
  | (none, insertion, range) => insertion.apply ranges range limit

/-! ## Applying the insertion -/

theorem apply_none {self : Insertion} {ranges : List Interval} {range : Interval}
    (h : self.replaceRange.«end» ≤ ranges.length) :
    self.apply ranges range none =
      if self.replaceRange.«end» < self.replaceRange.start then
        .ok (ranges.length, ranges ++ [range])
      else .ok (self.replaceRange.start,
        ranges.take self.replaceRange.start ++ range :: ranges.drop self.replaceRange.«end») := by
  obtain ⟨⟨st, en⟩⟩ := self
  simp only at h ⊢
  unfold apply
  by_cases hlt : en < st
  · have hc : checkedSub en st = none := by simp [checkedSub]; omega
    simp [hc, hlt]
  · obtain ⟨n, rfl⟩ : ∃ n, en = st + n := ⟨en - st, by omega⟩
    have hc : checkedSub (st + n) st = some n := by simp [checkedSub]
    have hst : st < ranges.length ∨ n = 0 := by omega
    simp only [hc, if_neg hlt]
    -- each count replaces the slots `st..st + n`; 1 and 2 are the source's shortcuts
    match n with
    | 0 =>
      simp [pure, Except.pure, bind, Except.bind,
        insertIdx_eq_take_drop _ _ _ (by omega : st ≤ ranges.length)]
    | 1 => simp [pure, Except.pure, List.set_eq_take_append_cons_drop, show st < ranges.length by omega]
    | 2 =>
      have := drain_set (a := range) (j := st + 2) (by omega : st < ranges.length) (by omega)
      simp only [drain] at this
      simp [pure, Except.pure, List.eraseIdx_eq_take_drop_succ, this]
    | n + 3 =>
      simp [pure, Except.pure, drain_set (by omega : st < ranges.length) (by omega : st < st + (n + 3))]

theorem take_append_min {pre : List Interval} (rest : List Interval) (st : Nat) :
    (pre ++ rest).take (min st pre.length) = pre.take st := by
  rw [List.take_append_of_le_length (by omega)]
  rcases Nat.le_total st pre.length with h | h
  · rw [Nat.min_eq_left h]
  · rw [Nat.min_eq_right h, List.take_length, List.take_of_length_le h]

theorem complete_mark {pre l : List Interval} {b a : Interval} {self : Insertion}
    (hp : self.replaceRange.Pending pre.length) :
    complete (pre ++ b :: l) none (none, (self.setStart pre.length).setEnd (pre.length + 1), a) =
      .ok (min self.replaceRange.start pre.length, pre.take self.replaceRange.start ++ a :: l) := by
  obtain ⟨hend, -⟩ := hp
  have hdrop : (pre ++ b :: l).drop (pre.length + 1) = l := by
    rw [← List.singleton_append, ← List.append_assoc]
    exact List.drop_left' (by simp)
  simp only [complete]
  rw [apply_none (by simp; omega), if_neg (by simp)]
  simp only [replaceRange_setEnd, replaceRange_setStart, Range.setEnd_end, Range.setStart_end,
    Range.setEnd_start, Range.setStart_start]
  rw [Nat.max_eq_right (by omega), hdrop, take_append_min]

theorem complete_before {pre l : List Interval} {b a : Interval} {self : Insertion}
    (hp : self.replaceRange.Pending pre.length) :
    complete (pre ++ b :: l) none (none, (self.setStart pre.length).setEnd pre.length, a) =
      .ok (min self.replaceRange.start pre.length,
        pre.take self.replaceRange.start ++ a :: b :: l) := by
  obtain ⟨hend, -⟩ := hp
  simp only [complete]
  rw [apply_none (by simp; omega), if_neg (by simp)]
  simp only [replaceRange_setEnd, replaceRange_setStart, Range.setEnd_end, Range.setStart_end,
    Range.setEnd_start, Range.setStart_start]
  rw [Nat.max_eq_right hend, List.drop_left' rfl, take_append_min]

/-! ## The scan -/

theorem complete_scan_of_lt :
    ∀ (l pre : List Interval) (self : Insertion) (a : Interval),
      self.replaceRange.Pending pre.length →
      IntervalList.Canonical l → Bounded MAX l → a.start ≤ a.«end» → a.«end» ≤ MAX →
      (∀ b ∈ l, a.start < b.start) →
      complete (pre ++ l) none (self.scan MAX pre.length l a) =
        .ok (min self.replaceRange.start pre.length,
          pre.take self.replaceRange.start ++ IntervalList.insert l a)
  | [], pre, self, a, hp, _, _, _, _, _ => by
    obtain ⟨hend, hstart⟩ := hp
    simp only [scan, complete, List.append_nil]
    rw [apply_none hend]
    split_ifs with hlt
    · -- the range was never set: the interval is appended
      have hle : pre.length ≤ self.replaceRange.start := by omega
      simp [List.take_of_length_le hle, Nat.min_eq_right hle, IntervalList.insert]
    · have hend' : self.replaceRange.«end» = pre.length := by omega
      simp [hend', Nat.min_eq_left (by omega : self.replaceRange.start ≤ pre.length),
        IntervalList.insert]
  | b :: l, pre, self, a, hp, hl, hlM, ha, haM, hlt => by
    obtain ⟨hb, hbl, hl'⟩ := IntervalList.canonical_cons.mp hl
    simp only [lo_eq, hi_eq] at hb
    have hab : a.start < b.start := hlt b (by simp)
    have hbM : b.«end» ≤ MAX := hlM b (by simp)
    have hba : ¬ IntervalList.Before b a := by simp; omega
    rcases Nat.lt_trichotomy a.«end» b.«end» with he | he | he
    · -- `a` ends inside `b` or before it: the scan stops at `b`
      have hcoal := Interval.shouldCoalesce_of_lt MAX b (by omega : a.«end» < MAX)
      simp only [scan, Nat.compare_eq_lt.mpr hab, Nat.compare_eq_lt.mpr he, hcoal]
      by_cases htouch : b.start ≤ a.«end» + 1
      · simp only [htouch, decide_true, if_true, complete_mark hp]
        have hafter : ∀ c ∈ l, IntervalList.Before (⟨a.start, b.«end»⟩ : Interval) c := by
          intro c hc; simpa using hbl c hc
        rw [IntervalList.insert_cons_of_touching hba (by simp; omega),
          IntervalList.insert_of_forall_before (by simp; omega) hl'
            (by simpa [Nat.min_eq_left hab.le, Nat.max_eq_right he.le] using hafter)]
        simp [Nat.min_eq_left hab.le, Nat.max_eq_right he.le]
      · simp only [htouch, decide_false, Bool.false_eq_true, if_false, complete_before hp]
        rw [IntervalList.insert_of_before (by simpa using ha) hb (by simp; omega)]
    · -- `a` ends with `b`: `b` is replaced and the scan stops
      simp only [scan, Nat.compare_eq_lt.mpr hab, Nat.compare_eq_eq.mpr he, complete_mark hp]
      have hafter : ∀ c ∈ l, IntervalList.Before a c := by
        intro c hc; have := hbl c hc; simp at this ⊢; omega
      have hm : (⟨min a.start b.start, max a.«end» b.«end»⟩ : Interval) = a := by
        rw [Nat.min_eq_left hab.le, he, Nat.max_self, ← he]
      rw [IntervalList.insert_cons_of_touching hba (by simp; omega)]
      simp only [lo_eq, hi_eq, ofBounds_eq, hm]
      rw [IntervalList.insert_of_forall_before (by simpa using ha) hl' hafter]
    · -- `a` covers `b`: `b` is marked for replacement and the scan goes on
      simp only [scan, Nat.compare_eq_lt.mpr hab, Nat.compare_eq_gt.mpr he]
      have ih := complete_scan_of_lt l (pre ++ [b]) ((self.setStart pre.length).setEnd
        (pre.length + 1)) a (by simpa using hp.mark) hl' (fun c hc => hlM c (by simp [hc])) ha haM
        (fun c hc => hab.trans (by have := hbl c hc; simp at this; omega))
      simp only [List.length_append, List.length_singleton, List.append_assoc,
        List.singleton_append, replaceRange_setEnd, replaceRange_setStart, Range.setEnd_start,
        Range.setStart_start] at ih
      rw [ih, IntervalList.insert_cons_of_touching hba (by simp; omega)]
      simp [Nat.min_eq_left hab.le, Nat.max_eq_left he.le, take_append_min [b]]

theorem take_length_append {pre rest : List Interval} {x : Interval}
    (hx : x ∈ (pre ++ rest).take pre.length) : x ∈ pre := by
  rwa [List.take_left' rfl] at hx

theorem complete_scan_after_mark {l pre : List Interval} {b a : Interval}
    (hs : pre.length ≤ USIZE_MAX) (hl : IntervalList.Canonical l) (hlM : Bounded MAX l)
    (ha : a.start ≤ a.«end») (haM : a.«end» ≤ MAX) (hlt : ∀ c ∈ l, a.start < c.start) :
    complete (pre ++ b :: l) none
        (scan MAX (((Insertion.mk ⟨USIZE_MAX, 0⟩).setStart pre.length).setEnd (pre.length + 1))
          (pre.length + 1) l a) =
      .ok (pre.length, pre ++ IntervalList.insert l a) := by
  have hlen : (pre ++ [b]).length = pre.length + 1 := by simp
  have hp : (((Insertion.mk ⟨USIZE_MAX, 0⟩).setStart pre.length).setEnd
      (pre.length + 1)).replaceRange.Pending (pre ++ [b]).length := by
    rw [hlen]
    exact (Range.pending_unset hs).mark
  have hst : (((Insertion.mk ⟨USIZE_MAX, 0⟩).setStart pre.length).setEnd
      (pre.length + 1)).replaceRange.start = pre.length := by
    simp [Nat.min_eq_right hs]
  have h := complete_scan_of_lt MAX l (pre ++ [b]) _ a hp hl hlM ha haM hlt
  rw [hlen, hst, List.append_assoc, List.singleton_append, Nat.min_eq_left (Nat.le_succ _),
    List.take_left' rfl] at h
  exact h

theorem complete_scan_unset :
    ∀ (l pre : List Interval) (a : Interval), (pre ++ l).length ≤ USIZE_MAX →
      IntervalList.Canonical l → Bounded MAX l → a.start ≤ a.«end» → a.«end» ≤ MAX →
      ∃ k, complete (pre ++ l) none ((Insertion.mk ⟨USIZE_MAX, 0⟩).scan MAX pre.length l a) =
          .ok (k, pre ++ IntervalList.insert l a) ∧
        ∀ x ∈ (pre ++ IntervalList.insert l a).take k, x ∈ pre ∨ x.«end» ≤ a.«end»
  | [], pre, a, hlen, _, _, ha, haM => by
    have hs : pre.length ≤ USIZE_MAX := by simpa using hlen
    have h := complete_scan_of_lt MAX [] pre (Insertion.mk ⟨USIZE_MAX, 0⟩) a (Range.pending_unset hs)
      IntervalList.canonical_nil (by simp [Bounded]) ha haM (by simp)
    simp only [Nat.min_eq_right hs, List.take_of_length_le hs] at h
    exact ⟨pre.length, h, fun x hx => .inl (take_length_append hx)⟩
  | b :: l, pre, a, hlen, hl, hlM, ha, haM => by
    have hs : pre.length ≤ USIZE_MAX := by simp at hlen; omega
    have hp : Range.Pending ⟨USIZE_MAX, 0⟩ pre.length := Range.pending_unset hs
    obtain ⟨hb, hbl, hl'⟩ := IntervalList.canonical_cons.mp hl
    simp only [lo_eq, hi_eq] at hb
    have hbM : b.«end» ≤ MAX := hlM b (by simp)
    have hlM' : Bounded MAX l := fun c hc => hlM c (by simp [hc])
    have hlt : ∀ c ∈ l, b.start < c.start := fun c hc => by have := hbl c hc; simp at this; omega
    rcases Nat.lt_or_ge a.start b.start with hs' | hs'
    · -- `a` starts first: from `b` on the scan is the one of `complete_scan_of_lt`
      have h := complete_scan_of_lt MAX (b :: l) pre _ a hp hl hlM ha haM (by
        intro c hc
        rcases List.mem_cons.mp hc with rfl | hc
        · exact hs'
        · exact hs'.trans (hlt c hc))
      simp only [Nat.min_eq_right hs, List.take_of_length_le hs] at h
      exact ⟨pre.length, h, fun x hx => .inl (take_length_append hx)⟩
    have hsc : compare a.start b.start = .eq ∨ compare a.start b.start = .gt := by
      rcases Nat.lt_or_eq_of_le hs' with h | h
      · exact .inr (Nat.compare_eq_gt.mpr h)
      · exact .inl (Nat.compare_eq_eq.mpr h.symm)
    rcases Nat.lt_trichotomy a.«end» b.«end» with he | he | he
    · -- `a` lies inside `b` and ends before it: the early return at slot `s`
      have hscan : (Insertion.mk ⟨USIZE_MAX, 0⟩).scan MAX pre.length (b :: l) a =
          (some pre.length, ⟨⟨USIZE_MAX, 0⟩⟩, a) := by
        rcases hsc with hsc | hsc <;> simp only [scan, hsc, Nat.compare_eq_lt.mpr he]
      rw [hscan, IntervalList.insert_of_sub hl ha (by simpa using hs') (by simp; omega)]
      exact ⟨pre.length, rfl, fun x hx => .inl (take_length_append hx)⟩
    · -- `a` lies inside `b` and ends with it: the early return at slot `s + 1`
      have hscan : (Insertion.mk ⟨USIZE_MAX, 0⟩).scan MAX pre.length (b :: l) a =
          (some (pre.length + 1), ⟨⟨USIZE_MAX, 0⟩⟩, a) := by
        rcases hsc with hsc | hsc <;> simp only [scan, hsc, Nat.compare_eq_eq.mpr he]
      rw [hscan, IntervalList.insert_of_sub hl ha (by simpa using hs') (by simp; omega)]
      refine ⟨pre.length + 1, rfl, fun x hx => ?_⟩
      rw [← List.singleton_append, ← List.append_assoc, List.take_left' (by simp)] at hx
      rcases List.mem_append.mp hx with hx | hx
      · exact .inl hx
      · obtain rfl := List.mem_singleton.mp hx
        exact .inr he.symm.le
    rcases hsc with hsc | hsc
    · -- same start, `a` ends later: `b` is marked and the scan goes on past it
      have hse : a.start = b.start := Nat.compare_eq_eq.mp hsc
      have h := complete_scan_after_mark MAX (b := b) hs hl' hlM' ha haM
        (fun c hc => hse ▸ hlt c hc)
      simp only [scan, hsc, Nat.compare_eq_gt.mpr he]
      rw [IntervalList.insert_cons_of_touching (by simp; omega) (by simp; omega)]
      simp only [lo_eq, hi_eq, ofBounds_eq, ← hse, Nat.min_self, Nat.max_eq_left he.le]
      rw [h]
      exact ⟨pre.length, rfl, fun x hx => .inl (take_length_append hx)⟩
    · have hcoal := Interval.shouldCoalesce_of_lt MAX a (by omega : b.«end» < MAX)
      simp only [scan, hsc, Nat.compare_eq_gt.mpr he, hcoal]
      by_cases htouch : a.start ≤ b.«end» + 1
      · -- `a` overlaps the end of `b`: it grows to `b`'s start and the scan goes on
        have h := complete_scan_after_mark MAX (b := b) (a := ⟨b.start, a.«end»⟩) hs hl' hlM'
          (by simp; omega) haM (fun c hc => hlt c hc)
        simp only [htouch, decide_true, if_true]
        rw [IntervalList.insert_cons_of_touching (by simp; omega) (by simp; omega)]
        simp only [lo_eq, hi_eq, ofBounds_eq, Nat.min_eq_right hs'.le, Nat.max_eq_left he.le]
        rw [h]
        exact ⟨pre.length, rfl, fun x hx => .inl (take_length_append hx)⟩
      · -- `b` lies before `a`: it is passed
        have hba : IntervalList.Before b a := by simp; omega
        obtain ⟨k, hk, hkx⟩ := complete_scan_unset l (pre ++ [b]) a (by simpa using hlen)
          hl' hlM' ha haM
        simp only [List.length_append, List.length_singleton, List.append_assoc,
          List.singleton_append] at hk hkx
        simp only [htouch, decide_false, Bool.false_eq_true, if_false]
        rw [IntervalList.insert, if_pos hba]
        refine ⟨k, hk, fun x hx => ?_⟩
        rcases hkx x hx with hx | hx
        · rcases List.mem_append.mp hx with hx | hx
          · exact .inl hx
          · obtain rfl := List.mem_singleton.mp hx
            exact .inr (by omega)
        · exact .inr hx

end Insertion

variable (MAX : Nat)

/-- `insert` of `insert.rs`; the replace range starts as the invalid `usize::MAX..0`. -/
def insert (ranges : List Interval) (range : Interval) (startIndex : Nat)
    (limit : Option Nat) : Except IntervalSetError (Nat × List Interval) :=
  Insertion.complete ranges limit
    ((Insertion.mk ⟨USIZE_MAX, 0⟩).scan MAX startIndex (ranges.drop startIndex) range)

theorem insert_eq_union {L : List Interval} {a : Interval} {idx : Nat}
    (hL : IntervalList.Canonical L) (hLM : Bounded MAX L) (ha : a.start ≤ a.«end»)
    (haM : a.«end» ≤ MAX) (hlen : L.length ≤ USIZE_MAX)
    (hpre : ∀ x ∈ L.take idx, IntervalList.Before x a) :
    ∃ k, insert MAX L a idx none = .ok (k, IntervalList.insert L a) ∧
      ∀ x ∈ (IntervalList.insert L a).take k, x.«end» ≤ a.«end» := by
  have hsplit : L.take idx ++ L.drop idx = L := List.take_append_drop idx L
  -- past the end the scan sees no interval, so its slot index does not matter
  have hscan : (Insertion.mk ⟨USIZE_MAX, 0⟩).scan MAX idx (L.drop idx) a =
      (Insertion.mk ⟨USIZE_MAX, 0⟩).scan MAX (L.take idx).length (L.drop idx) a := by
    rcases Nat.lt_or_ge L.length idx with h | h
    · rw [List.drop_eq_nil_of_le h.le]
      rfl
    · rw [List.length_take_of_le h]
  have hunion : L.take idx ++ IntervalList.insert (L.drop idx) a = IntervalList.insert L a := by
    rw [← IntervalList.insert_append_of_before _ _ hpre, hsplit]
  obtain ⟨-, hdrop, -⟩ := IntervalList.canonical_append.mp (hsplit.symm ▸ hL)
  obtain ⟨k, hk, hkx⟩ := Insertion.complete_scan_unset MAX (L.drop idx) (L.take idx) a
    (by rw [hsplit]; exact hlen) hdrop (fun c hc => hLM c (List.mem_of_mem_drop hc)) ha haM
  rw [hsplit, ← hscan, hunion] at hk
  rw [hunion] at hkx
  refine ⟨k, hk, fun x hx => ?_⟩
  rcases hkx x hx with hx | hx
  · have := hpre x hx
    simp at this
    omega
  · exact hx

end S2nQuic.IntervalSet
