import S2nQuic.IntervalSet.Insert

/-!
# Removing an interval

`remove` (`interval_set/remove.rs`) scans the intervals from a start index. It cuts in place
the intervals that the removed interval overlaps at one end, collects in `replace_range` the
slots it covers, and records in `push_range` the upper part of an interval that it splits in
two. `apply` then drains the covered slots or inserts the recorded part. On a canonical list
this is the canonical difference `IntervalList.remove`.
-/

namespace S2nQuic.IntervalSet

structure Removal where
  replaceRange : Range
  pushRange : Option Interval
  canPushRange : Bool
  deriving DecidableEq, Repr

namespace Removal

def setStart (self : Removal) (start : Nat) : Removal :=
  { self with replaceRange := self.replaceRange.setStart start }

def setEnd (self : Removal) («end» : Nat) : Removal :=
  { self with replaceRange := self.replaceRange.setEnd «end» }

/-- `Removal::push_range` (the field keeps the name): records the split-off part, and fails
when the limit leaves no room for it. -/
def setPushRange (self : Removal) (start «end» : Nat) : Option Unit × Removal :=
  let self := { self with pushRange := some ⟨start, «end»⟩ }
  (if self.canPushRange then some () else none, self)

@[simp] theorem replaceRange_setStart (self : Removal) (s : Nat) :
    (self.setStart s).replaceRange = self.replaceRange.setStart s := rfl

@[simp] theorem replaceRange_setEnd (self : Removal) (e : Nat) :
    (self.setEnd e).replaceRange = self.replaceRange.setEnd e := rfl

@[simp] theorem pushRange_setStart (self : Removal) (s : Nat) :
    (self.setStart s).pushRange = self.pushRange := rfl

@[simp] theorem pushRange_setEnd (self : Removal) (e : Nat) :
    (self.setEnd e).pushRange = self.pushRange := rfl

@[simp] theorem canPushRange_setStart (self : Removal) (s : Nat) :
    (self.setStart s).canPushRange = self.canPushRange := rfl

@[simp] theorem canPushRange_setEnd (self : Removal) (e : Nat) :
    (self.setEnd e).canPushRange = self.canPushRange := rfl

variable (MAX : Nat)

/-- `Removal::scan` from slot `slotIndex`: the early return, the removal as the loop leaves it,
and the scanned intervals with the changes the loop makes to them in place. -/
def scan (self : Removal) (slotIndex : Nat) :
    List Interval → Interval → Option Nat × Removal × List Interval
  | [], _ => (none, self, [])
  | rangeB :: ranges, rangeA =>
    match compare rangeA.start rangeB.start, compare rangeA.«end» rangeB.«end» with
    | .eq, .lt =>
      (some slotIndex, self, { rangeB with start := rangeA.endExclusive MAX } :: ranges)
    | .gt, .eq =>
      (some (slotIndex + 1), self, { rangeB with «end» := rangeA.startExclusive } :: ranges)
    | .gt, .lt =>
      match self.setPushRange (rangeA.endExclusive MAX) rangeB.«end» with
      -- the `?` leaves the loop before `range_b` changes
      | (none, self) => (none, self, rangeB :: ranges)
      | (some (), self) =>
        (none, (self.setStart (slotIndex + 1)).setEnd (slotIndex + 1),
          { rangeB with «end» := rangeA.startExclusive } :: ranges)
    | .gt, .gt =>
      if rangeA.shouldCoalesce MAX rangeB then
        let r := scan (self.setStart (slotIndex + 1)) (slotIndex + 1) ranges rangeA
        (r.1, r.2.1, { rangeB with «end» := rangeA.startExclusive } :: r.2.2)
      else
        let r := scan self (slotIndex + 1) ranges rangeA
        (r.1, r.2.1, rangeB :: r.2.2)
    | .eq, .gt | .lt, .gt =>
      let r := scan ((self.setStart slotIndex).setEnd (slotIndex + 1)) (slotIndex + 1) ranges rangeA
      (r.1, r.2.1, rangeB :: r.2.2)
    | .eq, .eq | .lt, .eq =>
      (none, (self.setStart slotIndex).setEnd (slotIndex + 1), rangeB :: ranges)
    | .lt, .lt =>
      if rangeB.shouldCoalesce MAX rangeA then
        (none, self.setEnd slotIndex, { rangeB with start := rangeA.endExclusive MAX } :: ranges)
      else (none, self, rangeB :: ranges)

/-- `Removal::apply`: the index to resume from and the intervals afterwards. -/
def apply (self : Removal) (ranges : List Interval) :
    Except IntervalSetError (Nat × List Interval) :=
  let replaceRange := self.replaceRange
  let index := replaceRange.start
  match self.pushRange with
  | some interval =>
    if self.canPushRange then .ok (index, ranges.insertIdx index interval)
    else .error .limitExceeded
  | none =>
    match checkedSub replaceRange.«end» index with
    | none => .ok (0, ranges)
    | some 0 => .ok (index, ranges)
    | some 1 => .ok (index, ranges.eraseIdx index)
    | some _ => .ok (index, drain ranges replaceRange.start replaceRange.«end»)

/-- The end of `remove` after the scan, with `pre` the slots before the start index. The scan
has already changed intervals in place, so they stay changed when `apply` fails. -/
def complete (pre : List Interval) :
    Option Nat × Removal × List Interval → List Interval × Except IntervalSetError Nat
  | (some index, _, rest) => (pre ++ rest, .ok index)
  | (none, removal, rest) =>
    match removal.apply (pre ++ rest) with
    | .ok (index, ranges) => (ranges, .ok index)
    | .error e => (pre ++ rest, .error e)

/-! ## Applying the removal -/

theorem apply_of_pushRange_none {self : Removal} {ranges : List Interval}
    (h : self.pushRange = none) :
    self.apply ranges =
      if self.replaceRange.«end» < self.replaceRange.start then .ok (0, ranges)
      else .ok (self.replaceRange.start,
        ranges.take self.replaceRange.start ++ ranges.drop self.replaceRange.«end») := by
  obtain ⟨⟨st, en⟩, push, can⟩ := self
  subst h
  unfold apply
  by_cases hlt : en < st
  · have hc : checkedSub en st = none := by simp [checkedSub]; omega
    simp [hc, hlt]
  · obtain ⟨n, rfl⟩ : ∃ n, en = st + n := ⟨en - st, by omega⟩
    have hc : checkedSub (st + n) st = some n := by simp [checkedSub]
    simp only [hc, if_neg hlt]
    -- each count drains the slots `st..st + n`; 0 and 1 are the source's shortcuts
    rcases n with _ | _ | n
    · simp
    · simp [List.eraseIdx_eq_take_drop_succ]
    · simp [drain]

theorem complete_cons (pre : List Interval) (b : Interval)
    (r : Option Nat × Removal × List Interval) :
    complete pre (r.1, r.2.1, b :: r.2.2) = complete (pre ++ [b]) r := by
  obtain ⟨index, removal, rest⟩ := r
  have hL : pre ++ b :: rest = pre ++ [b] ++ rest := by simp
  cases index <;> simp only [complete, hL]

theorem complete_none (pre rest : List Interval) (self : Removal)
    (hpush : self.pushRange = none) (hp : self.replaceRange.Pending pre.length) :
    ∃ k, complete pre (none, self, rest) =
        (pre.take self.replaceRange.start ++ rest, .ok k) ∧
      (k = 0 ∨ k = min self.replaceRange.start pre.length) := by
  obtain ⟨hend, hstart⟩ := hp
  simp only [complete, apply_of_pushRange_none hpush]
  split_ifs with hlt
  · -- never set: nothing is drained
    have hle : pre.length ≤ self.replaceRange.start := by omega
    exact ⟨0, by simp [List.take_of_length_le hle], .inl rfl⟩
  · have hend' : self.replaceRange.«end» = pre.length := by omega
    have hle : self.replaceRange.start ≤ pre.length := by omega
    refine ⟨self.replaceRange.start, ?_, .inr (Nat.min_eq_left hle).symm⟩
    rw [hend', List.take_append_of_le_length hle, List.drop_left' rfl]

/-! ## The scan -/

theorem complete_scan_of_lt :
    ∀ (l pre : List Interval) (self : Removal) (a : Interval), self.pushRange = none →
      self.replaceRange.Pending pre.length → IntervalList.Canonical l → Bounded MAX l →
      a.start ≤ a.«end» → a.«end» ≤ MAX → (∀ b ∈ l, a.start < b.start) →
      ∃ k, complete pre (self.scan MAX pre.length l a) =
          (pre.take self.replaceRange.start ++ IntervalList.remove l a, .ok k) ∧
        (k = 0 ∨ k = min self.replaceRange.start pre.length)
  | [], pre, self, a, hpush, hp, _, _, _, _, _ => by
    simpa [scan, IntervalList.remove] using complete_none pre [] self hpush hp
  | b :: l, pre, self, a, hpush, hp, hl, hlM, ha, haM, hlt => by
    obtain ⟨hb, hbl, hl'⟩ := IntervalList.canonical_cons.mp hl
    simp only [lo_eq, hi_eq] at hb
    have hab : a.start < b.start := hlt b (by simp)
    have hbM : b.«end» ≤ MAX := hlM b (by simp)
    have hafter : ∀ c ∈ l, b.«end» + 1 < c.start := fun c hc => by simpa using hbl c hc
    rcases Nat.lt_trichotomy a.«end» b.«end» with he | he | he
    · have hcoal := Interval.shouldCoalesce_of_lt MAX b (by omega : a.«end» < MAX)
      have hexcl : a.endExclusive MAX = a.«end» + 1 := stepUpSaturating_of_lt MAX (by omega)
      simp only [scan, Nat.compare_eq_lt.mpr hab, Nat.compare_eq_lt.mpr he, hcoal]
      by_cases htouch : b.start ≤ a.«end» + 1
      · -- `a` overlaps the start of `b` (or ends right before it): `b` now starts after `a`
        have hp' : (self.setEnd pre.length).replaceRange.Pending pre.length := by
          obtain ⟨hend, -⟩ := hp
          simp only [replaceRange_setEnd, Range.Pending, Range.setEnd_end, Range.setEnd_start]
          omega
        obtain ⟨k, hk, hk'⟩ := complete_none pre ({ b with start := a.endExclusive MAX } :: l)
          (self.setEnd pre.length) (by simpa using hpush) hp'
        simp only [replaceRange_setEnd, Range.setEnd_start] at hk hk'
        simp only [htouch, decide_true, if_true, hk]
        refine ⟨k, ?_, hk'⟩
        rcases Nat.lt_or_ge a.«end» b.start with hgap | hmeet
        · -- `b` starts right after `a`: it stays as it was
          have hbeq : { b with start := a.endExclusive MAX } = b := by
            rw [hexcl, show a.«end» + 1 = b.start by omega]
          rw [hbeq, IntervalList.remove, if_neg (by simp; omega), if_pos (by simpa using hgap)]
        · rw [IntervalList.remove_cons_of_meets_head (by simpa using ha) hl (by simp; omega)
            (by simpa using hmeet) (by simp; omega)]
          simp [IntervalList.cut, hexcl, he, Nat.not_lt.mpr hab.le]
      · -- `b` lies after `a`: the scan stops
        obtain ⟨k, hk, hk'⟩ := complete_none pre (b :: l) self hpush hp
        simp only [htouch, decide_false, Bool.false_eq_true, if_false, hk]
        refine ⟨k, ?_, hk'⟩
        rw [IntervalList.remove, if_neg (by simp; omega), if_pos (by simp; omega)]
    · -- `a` ends with `b`: `b` is drained and the scan stops
      have hcut : IntervalList.cut b a = [] := by
        simp [IntervalList.cut, Nat.not_lt.mpr hab.le, he]
      have hstep := complete_cons pre b (none, (self.setStart pre.length).setEnd (pre.length + 1), l)
      obtain ⟨k, hk, hk'⟩ := complete_none (pre ++ [b]) l
        ((self.setStart pre.length).setEnd (pre.length + 1)) (by simpa using hpush)
        (by simpa using hp.mark)
      simp only [replaceRange_setEnd, replaceRange_setStart, Range.setEnd_start,
        Range.setStart_start, List.length_append, List.length_singleton] at hk hk'
      simp only [scan, Nat.compare_eq_lt.mpr hab, Nat.compare_eq_eq.mpr he]
      refine ⟨k, ?_, ?_⟩
      · rw [hstep, hk, Insertion.take_append_min,
          IntervalList.remove_cons_of_meets_head (by simpa using ha) hl (by simp; omega)
            (by simp; omega) (by simp; omega), hcut]
        rfl
      · rwa [Nat.min_eq_left (by omega : min self.replaceRange.start pre.length ≤ pre.length + 1)]
          at hk'
    · -- `a` covers `b`: `b` is drained and the scan goes on
      have hcut : IntervalList.cut b a = [] := by
        simp [IntervalList.cut, Nat.not_lt.mpr hab.le, Nat.not_lt.mpr he.le]
      let self' := (self.setStart pre.length).setEnd (pre.length + 1)
      have hlen : (pre ++ [b]).length = pre.length + 1 := by simp
      have hst : self'.replaceRange.start = min self.replaceRange.start pre.length := by simp [self']
      obtain ⟨k, hk, hk'⟩ := complete_scan_of_lt l (pre ++ [b]) self' a (by simpa [self'] using hpush)
        (by rw [hlen]; exact hp.mark) hl' (fun c hc => hlM c (by simp [hc])) ha haM
        (fun c hc => hab.trans (by have := hafter c hc; omega))
      rw [hlen, hst] at hk hk'
      simp only [scan, Nat.compare_eq_lt.mpr hab, Nat.compare_eq_gt.mpr he]
      refine ⟨k, ?_, ?_⟩
      · rw [complete_cons, hk, Insertion.take_append_min,
          IntervalList.remove_cons_of_meets (by simp; omega) (by simp; omega), hcut]
        rfl
      · rwa [Nat.min_eq_left (by omega : min self.replaceRange.start pre.length ≤ pre.length + 1)]
          at hk'

/-- The removal `remove` starts from: the unset range `usize::MAX..0`, nothing split off, and
room for a split when there is no limit. -/
def init (canPushRange : Bool) : Removal := ⟨⟨USIZE_MAX, 0⟩, none, canPushRange⟩

theorem complete_scan_init_of_lt {l pre : List Interval} {a : Interval} (can : Bool)
    (hs : pre.length ≤ USIZE_MAX) (hl : IntervalList.Canonical l) (hlM : Bounded MAX l)
    (ha : a.start ≤ a.«end») (haM : a.«end» ≤ MAX) (hpre : ∀ x ∈ pre, x.«end» < a.start)
    (hlt : ∀ c ∈ l, a.start < c.start) :
    ∃ k, complete pre ((init can).scan MAX pre.length l a) =
        (pre ++ IntervalList.remove l a, .ok k) ∧
      ∀ x ∈ (pre ++ IntervalList.remove l a).take k, x.«end» < a.start := by
  obtain ⟨k, hk, hk'⟩ := complete_scan_of_lt MAX l pre (init can) a rfl (Range.pending_unset hs) hl
    hlM ha haM hlt
  have hst : (init can).replaceRange.start = USIZE_MAX := rfl
  rw [hst, List.take_of_length_le hs] at hk
  refine ⟨k, hk, fun x hx => ?_⟩
  rcases hk' with rfl | rfl
  · simp at hx
  · rw [hst, Nat.min_eq_right hs, List.take_left' rfl] at hx
    exact hpre x hx

theorem insertIdx_succ_append (pre rest : List Interval) (b x : Interval) :
    (pre ++ b :: rest).insertIdx (pre.length + 1) x = pre ++ b :: x :: rest := by
  rw [insertIdx_eq_take_drop _ _ _ (by simp), ← List.singleton_append, ← List.append_assoc,
    List.take_left' (by simp), List.drop_left' (by simp)]
  simp

theorem take_succ_append {pre rest : List Interval} {b x : Interval}
    (hx : x ∈ (pre ++ b :: rest).take (pre.length + 1)) : x ∈ pre ∨ x = b := by
  rw [← List.singleton_append, ← List.append_assoc, List.take_left' (by simp)] at hx
  simpa using hx

theorem complete_scan_unset :
    ∀ (l pre : List Interval) (a : Interval), (pre ++ l).length ≤ USIZE_MAX →
      IntervalList.Canonical l → Bounded MAX l → a.start ≤ a.«end» → a.«end» ≤ MAX →
      (∀ x ∈ pre, x.«end» < a.start) →
      ∃ k, complete pre ((init true).scan MAX pre.length l a) =
          (pre ++ IntervalList.remove l a, .ok k) ∧
        ∀ x ∈ (pre ++ IntervalList.remove l a).take k, x.«end» < a.start
  | [], pre, a, hlen, hl, hlM, ha, haM, hpre =>
    complete_scan_init_of_lt MAX true (by simpa using hlen) hl hlM ha haM hpre (by simp)
  | b :: l, pre, a, hlen, hl, hlM, ha, haM, hpre => by
    have hs1 : pre.length + 1 ≤ USIZE_MAX := by simp at hlen; omega
    have hs : pre.length ≤ USIZE_MAX := by omega
    obtain ⟨hb, hbl, hl'⟩ := IntervalList.canonical_cons.mp hl
    simp only [lo_eq, hi_eq] at hb
    have hbM : b.«end» ≤ MAX := hlM b (by simp)
    have hlM' : Bounded MAX l := fun c hc => hlM c (by simp [hc])
    have hafter : ∀ c ∈ l, b.«end» + 1 < c.start := fun c hc => by simpa using hbl c hc
    have hlen' : (pre ++ [b]).length = pre.length + 1 := by simp
    rcases Nat.lt_or_ge a.start b.start with hs' | hs'
    · -- `a` starts first: nothing to cut before it
      refine complete_scan_init_of_lt MAX true hs hl hlM ha haM hpre (fun c hc => ?_)
      rcases List.mem_cons.mp hc with rfl | hc
      · exact hs'
      · exact hs'.trans (by have := hafter c hc; omega)
    -- cutting `b` down to end before `a`
    have hcutb : ({ b with «end» := a.startExclusive } : Interval) = ⟨b.start, a.start - 1⟩ := by
      rcases Nat.eq_zero_or_pos a.start with h0 | h0
      · simp [Interval.startExclusive, stepDownSaturating, stepDown, h0]
      · simp [Interval.startExclusive, stepDownSaturating_of_pos h0]
    rcases Nat.lt_or_eq_of_le hs' with hgt | heq
    · -- `a` starts inside or after `b`
      have hsc := Nat.compare_eq_gt.mpr hgt
      rcases Nat.lt_trichotomy a.«end» b.«end» with he | he | he
      · -- `a` lies strictly inside `b`: `b` is split in two
        have hexcl : a.endExclusive MAX = a.«end» + 1 := stepUpSaturating_of_lt MAX (by omega)
        simp only [scan, hsc, Nat.compare_eq_lt.mpr he, setPushRange, init, if_true, complete,
          apply, replaceRange_setEnd, replaceRange_setStart, pushRange_setEnd, pushRange_setStart,
          Range.setEnd_start, Range.setStart_start, canPushRange_setEnd, canPushRange_setStart,
          Nat.min_eq_right hs1, hcutb, hexcl, insertIdx_succ_append]
        have hrem : IntervalList.remove (b :: l) a =
            ⟨b.start, a.start - 1⟩ :: ⟨a.«end» + 1, b.«end»⟩ :: l := by
          rw [IntervalList.remove_cons_of_meets_head (by simpa using ha) hl (by simp; omega)
            (by simp; omega) (by simp; omega)]
          simp [IntervalList.cut, hgt, he]
        rw [hrem]
        refine ⟨pre.length + 1, rfl, fun x hx => ?_⟩
        rcases take_succ_append hx with hx | rfl
        · exact hpre x hx
        · simp; omega
      · -- `a` ends with `b`: `b` is cut to end before `a` and the scan returns
        simp only [scan, hsc, Nat.compare_eq_eq.mpr he, complete, hcutb]
        have hrem : IntervalList.remove (b :: l) a = ⟨b.start, a.start - 1⟩ :: l := by
          rw [IntervalList.remove_cons_of_meets_head (by simpa using ha) hl (by simp; omega)
            (by simp; omega) (by simp; omega)]
          simp [IntervalList.cut, hgt, he]
        rw [hrem]
        refine ⟨pre.length + 1, rfl, fun x hx => ?_⟩
        rcases take_succ_append hx with hx | rfl
        · exact hpre x hx
        · simp; omega
      · have hcoal := Interval.shouldCoalesce_of_lt MAX a (by omega : b.«end» < MAX)
        simp only [scan, hsc, Nat.compare_eq_gt.mpr he, hcoal]
        by_cases htouch : a.start ≤ b.«end» + 1
        · -- `a` overlaps the end of `b`, or starts right after it: `b` is cut, the scan goes on
          simp only [htouch, decide_true, if_true, hcutb]
          rw [complete_cons]
          have hlen'' : (pre ++ [(⟨b.start, a.start - 1⟩ : Interval)]).length = pre.length + 1 := by
            simp
          have hst : ((init true).setStart (pre.length + 1)).replaceRange.start = pre.length + 1 := by
            simp [init, Nat.min_eq_right hs1]
          obtain ⟨k, hk, hk'⟩ := complete_scan_of_lt MAX l (pre ++ [⟨b.start, a.start - 1⟩])
            ((init true).setStart (pre.length + 1)) a rfl
            (by rw [hlen'']; simp [Range.Pending, init]; omega) hl' hlM' ha haM
            (fun c hc => by have := hafter c hc; omega)
          rw [hlen'', hst, List.take_of_length_le (by simp)] at hk
          rw [hlen'', hst, Nat.min_self] at hk'
          have hrem : IntervalList.remove (b :: l) a =
              ⟨b.start, a.start - 1⟩ :: IntervalList.remove l a := by
            rcases Nat.lt_or_ge b.«end» a.start with hgap | hmeet
            · have hbeq : (⟨b.start, a.start - 1⟩ : Interval) = b := by
                rw [show a.start - 1 = b.«end» by omega]
              rw [hbeq, IntervalList.remove, if_pos (by simpa using hgap)]
            · rw [IntervalList.remove_cons_of_meets (by simpa using hmeet) (by simp; omega)]
              simp [IntervalList.cut, hgt, Nat.not_lt.mpr he.le]
          rw [hk, hrem]
          refine ⟨k, by simp, fun x hx => ?_⟩
          rcases hk' with rfl | rfl
          · simp at hx
          · rcases take_succ_append hx with hx | rfl
            · exact hpre x hx
            · simp; omega
        · -- `b` lies before `a`: it is passed
          simp only [htouch, decide_false, Bool.false_eq_true, if_false]
          rw [complete_cons]
          obtain ⟨k, hk, hk'⟩ := complete_scan_unset l (pre ++ [b]) a (by simpa using hlen) hl'
            hlM' ha haM (fun x hx => by
              rcases List.mem_append.mp hx with hx | hx
              · exact hpre x hx
              · obtain rfl := List.mem_singleton.mp hx
                omega)
          rw [hlen'] at hk
          have hrem : IntervalList.remove (b :: l) a = b :: IntervalList.remove l a := by
            rw [IntervalList.remove, if_pos (by simp; omega)]
          rw [hk, hrem]
          refine ⟨k, by simp, fun x hx => hk' x (by simpa using hx)⟩
    · -- `a` starts with `b`
      have hsc := Nat.compare_eq_eq.mpr heq.symm
      have hst : (((init true).setStart pre.length).setEnd (pre.length + 1)).replaceRange.start =
          pre.length := by
        simp [init, Nat.min_eq_right hs]
      have hp : (((init true).setStart pre.length).setEnd
          (pre.length + 1)).replaceRange.Pending (pre ++ [b]).length := by
        rw [hlen']
        exact (Range.pending_unset hs).mark
      rcases Nat.lt_trichotomy a.«end» b.«end» with he | he | he
      · -- `b` now starts after `a` and the scan returns
        have hexcl : a.endExclusive MAX = a.«end» + 1 := stepUpSaturating_of_lt MAX (by omega)
        simp only [scan, hsc, Nat.compare_eq_lt.mpr he, complete, hexcl]
        have hrem : IntervalList.remove (b :: l) a = ⟨a.«end» + 1, b.«end»⟩ :: l := by
          rw [IntervalList.remove_cons_of_meets_head (by simpa using ha) hl (by simp; omega)
            (by simp; omega) (by simp; omega)]
          simp [IntervalList.cut, heq, he]
        rw [hrem]
        exact ⟨pre.length, rfl, fun x hx => hpre x (Insertion.take_length_append hx)⟩
      · -- `a` is `b`: it is drained and the scan stops
        simp only [scan, hsc, Nat.compare_eq_eq.mpr he]
        have hstep := complete_cons pre b
          (none, ((init true).setStart pre.length).setEnd (pre.length + 1), l)
        obtain ⟨k, hk, hk'⟩ := complete_none (pre ++ [b]) l
          (((init true).setStart pre.length).setEnd (pre.length + 1)) rfl hp
        rw [hst, List.take_left' rfl] at hk
        rw [hst, hlen', Nat.min_eq_left (Nat.le_succ _)] at hk'
        have hrem : IntervalList.remove (b :: l) a = l := by
          rw [IntervalList.remove_cons_of_meets_head (by simpa using ha) hl (by simp; omega)
            (by simp; omega) (by simp; omega)]
          simp [IntervalList.cut, heq, he]
        refine ⟨k, by rw [hstep, hk, hrem], fun x hx => ?_⟩
        rcases hk' with rfl | rfl
        · simp at hx
        · rw [hrem] at hx
          exact hpre x (Insertion.take_length_append hx)
      · -- `a` covers `b`: `b` is drained and the scan goes on
        simp only [scan, hsc, Nat.compare_eq_gt.mpr he]
        rw [complete_cons]
        obtain ⟨k, hk, hk'⟩ := complete_scan_of_lt MAX l (pre ++ [b])
          (((init true).setStart pre.length).setEnd (pre.length + 1)) a rfl hp hl' hlM' ha haM
          (fun c hc => by have := hafter c hc; omega)
        rw [hst, hlen', List.take_left' rfl] at hk
        rw [hst, hlen', Nat.min_eq_left (Nat.le_succ _)] at hk'
        have hrem : IntervalList.remove (b :: l) a = IntervalList.remove l a := by
          rw [IntervalList.remove_cons_of_meets (by simp; omega) (by simp; omega)]
          simp [IntervalList.cut, heq, Nat.not_lt.mpr he.le]
        refine ⟨k, by rw [hk, hrem], fun x hx => ?_⟩
        rcases hk' with rfl | rfl
        · simp at hx
        · rw [hrem] at hx
          exact hpre x (Insertion.take_length_append hx)

end Removal

variable (MAX : Nat)

/-- `remove` of `remove.rs`: the intervals afterwards and the index to resume from. -/
def remove (ranges : List Interval) (range : Interval) (startIndex : Nat) (limit : Option Nat) :
    List Interval × Except IntervalSetError Nat :=
  let canPushRange := (limit.map fun l => decide (l > ranges.length + 1)).getD true
  Removal.complete (ranges.take startIndex)
    ((Removal.init canPushRange).scan MAX startIndex
      (ranges.drop startIndex) range)

theorem remove_eq_diff {L : List Interval} {a : Interval} {idx : Nat}
    (hL : IntervalList.Canonical L) (hLM : Bounded MAX L) (ha : a.start ≤ a.«end»)
    (haM : a.«end» ≤ MAX) (hlen : L.length ≤ USIZE_MAX)
    (hpre : ∀ x ∈ L.take idx, x.«end» < a.start) :
    ∃ k, remove MAX L a idx none = (IntervalList.remove L a, .ok k) ∧
      ∀ x ∈ (IntervalList.remove L a).take k, x.«end» < a.start := by
  have hsplit : L.take idx ++ L.drop idx = L := List.take_append_drop idx L
  have hscan : (Removal.init true).scan MAX idx (L.drop idx) a =
      (Removal.init true).scan MAX (L.take idx).length (L.drop idx) a := by
    rcases Nat.lt_or_ge L.length idx with h | h
    · rw [List.drop_eq_nil_of_le h.le]
      rfl
    · rw [List.length_take_of_le h]
  have hdiff : L.take idx ++ IntervalList.remove (L.drop idx) a = IntervalList.remove L a := by
    rw [← IntervalList.remove_append_of_lt _ _ (by simpa using hpre), hsplit]
  obtain ⟨-, hdrop, -⟩ := IntervalList.canonical_append.mp (hsplit.symm ▸ hL)
  obtain ⟨k, hk, hkx⟩ := Removal.complete_scan_unset MAX (L.drop idx) (L.take idx) a
    (by rw [hsplit]; exact hlen) hdrop (fun c hc => hLM c (List.mem_of_mem_drop hc)) ha haM hpre
  rw [← hscan, hdiff] at hk
  rw [hdiff] at hkx
  exact ⟨k, hk, hkx⟩

end S2nQuic.IntervalSet
