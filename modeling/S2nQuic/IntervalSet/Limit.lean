import S2nQuic.IntervalSet.Set

/-!
# Interval sets with a limit

With a limit, `insert` refuses to open a new slot when the deque already holds `limit`
intervals, and `remove` refuses to split an interval unless the deque has room for two more
(`len() + 1 < limit`). On a canonical deque each refusal leaves the deque as it was, and each
call that goes through computes what it computes without a limit: the scans never look at
the limit, and the one step that does (`ensure_can_insert`, `can_push_range`) comes before
any change. `Ranges` of the ACK manager build on this.
-/

-- the results on sets sit in the namespace of the structure, as in `Set`
set_option linter.dupNamespace false

namespace S2nQuic.IntervalSet

open IntervalList

variable (MAX : Nat)

/-- The source's `under_limit`; `can_push_range` is the same test against `len() + 1`. -/
def underLimit (limit : Option Nat) (len : Nat) : Bool :=
  (limit.map fun limit => decide (limit > len)).getD true

theorem Interval.start_le_of_shouldCoalesce {a b : Interval}
    (h : a.shouldCoalesce MAX b = true) : a.start ≤ b.«end» + 1 := by
  simp only [Interval.shouldCoalesce, Interval.endExclusive, stepUpSaturating, stepUp] at h
  split_ifs at h <;> simp at h <;> omega

namespace Insertion

theorem apply_eq_ite (self : Insertion) (ranges : List Interval) (range : Interval)
    (limit : Option Nat) :
    self.apply ranges range limit =
      if self.replaceRange.«end» ≤ self.replaceRange.start ∧
          underLimit limit ranges.length = false then .error .limitExceeded
      else self.apply ranges range none := by
  obtain ⟨⟨st, en⟩⟩ := self
  rcases limit with _ | n
  · simp [underLimit]
  · simp only [apply, underLimit, Option.map_some, Option.getD_some]
    by_cases hlt : en < st
    · have hc : checkedSub en st = none := by simp [checkedSub]; omega
      by_cases hn : n > ranges.length <;> simp [hc, hn, show en ≤ st by omega]
    · obtain ⟨m, rfl⟩ : ∃ m, en = st + m := ⟨en - st, by omega⟩
      have hc : checkedSub (st + m) st = some m := by simp [checkedSub]
      rw [hc]
      rcases m with _ | _ | _ | m
      · by_cases hn : n > ranges.length <;> simp [hn]
      · simp
      · simp
      · simp

theorem scan_end_le : ∀ (l : List Interval) (self : Insertion) (s : Nat) (a : Interval),
    (self.scan MAX s l a).2.1.replaceRange.«end» ≤ max self.replaceRange.«end» (s + l.length)
  | [], self, s, a => by simp [scan]
  | b :: l, self, s, a => by
    have ih := fun self' a' => scan_end_le l self' (s + 1) a'
    simp only [List.length_cons]
    unfold scan
    split
    all_goals (try split)
    all_goals first
      | (try simp only [replaceRange_setEnd, replaceRange_setStart, Range.setEnd_end,
          Range.setStart_end]); omega
      | (refine (ih _ _).trans ?_
         try simp only [replaceRange_setEnd, replaceRange_setStart, Range.setEnd_end,
          Range.setStart_end]
         omega)

theorem length_apply_none {self : Insertion} {ranges : List Interval} {range : Interval}
    {k : Nat} {r : List Interval} (hend : self.replaceRange.«end» ≤ ranges.length)
    (h : self.apply ranges range none = .ok (k, r)) :
    r.length = ranges.length + 1 ↔ self.replaceRange.«end» ≤ self.replaceRange.start := by
  rw [apply_none hend] at h
  split_ifs at h with hlt
  · obtain ⟨-, rfl⟩ := Prod.mk.inj (Except.ok.inj h)
    simpa using hlt.le
  · obtain ⟨-, rfl⟩ := Prod.mk.inj (Except.ok.inj h)
    simp only [List.length_append, List.length_take, List.length_cons, List.length_drop]
    constructor <;> intro <;> omega

end Insertion

theorem insert_eq_ite {L : List Interval} {a : Interval} {idx : Nat} (limit : Option Nat)
    (hL : Canonical L) (hLM : Bounded MAX L) (ha : a.start ≤ a.«end») (haM : a.«end» ≤ MAX)
    (hlen : L.length ≤ USIZE_MAX) (hpre : ∀ x ∈ L.take idx, Before x a) :
    ∃ k, insert MAX L a idx limit =
      if (IntervalList.insert L a).length = L.length + 1 ∧ underLimit limit L.length = false then
        .error .limitExceeded
      else .ok (k, IntervalList.insert L a) := by
  obtain ⟨k, hk, -⟩ := insert_eq_union MAX hL hLM ha haM hlen hpre
  refine ⟨k, ?_⟩
  -- the scan does not look at the limit; only `apply` does
  unfold insert at hk ⊢
  have hend := Insertion.scan_end_le MAX (L.drop idx) ⟨⟨USIZE_MAX, 0⟩⟩ idx a
  rcases hs : (Insertion.mk ⟨USIZE_MAX, 0⟩).scan MAX idx (L.drop idx) a with
    ⟨_ | index, ins, range⟩
  · rw [hs] at hk hend
    simp only [Insertion.complete] at hk ⊢
    have hbound : ins.replaceRange.«end» ≤ L.length := by
      by_cases hidx : idx ≤ L.length
      · simp only [List.length_drop] at hend
        omega
      · rw [List.drop_eq_nil_of_le (by omega)] at hs
        simp only [Insertion.scan, Prod.mk.injEq] at hs
        rw [← hs.2.1]
        exact Nat.zero_le _
    rw [Insertion.apply_eq_ite, hk]
    simp only [Insertion.length_apply_none hbound hk]
  · rw [hs] at hk
    simp only [Insertion.complete] at hk ⊢
    obtain ⟨rfl, hL'⟩ := Prod.mk.inj (Except.ok.inj hk)
    rw [← hL', if_neg (by omega)]

namespace Removal

theorem length_scan : ∀ (l : List Interval) (self : Removal) (s : Nat) (a : Interval),
    (self.scan MAX s l a).2.2.length = l.length
  | [], _, _, _ => rfl
  | b :: l, self, s, a => by
    unfold scan
    split
    all_goals (try split)
    all_goals (try simp only [List.length_cons, length_scan l])

theorem pushRange_scan_of_lt : ∀ (l : List Interval) (self : Removal) (s : Nat) (a : Interval),
    (∀ b ∈ l, a.start < b.start) → (self.scan MAX s l a).2.1.pushRange = self.pushRange
  | [], _, _, _, _ => rfl
  | b :: l, self, s, a, h => by
    have hlt : compare a.start b.start = .lt := Nat.compare_eq_lt.mpr (h b (by simp))
    have ih := fun self' => pushRange_scan_of_lt l self' (s + 1) a (fun c hc => h c (by simp [hc]))
    unfold scan
    rcases compare a.«end» b.«end» <;> simp only [hlt]
    · split <;> simp
    · simp
    · simp [ih]

theorem scan_of_pushRange : ∀ (l : List Interval) (self : Removal) (s : Nat) (a : Interval),
    IntervalList.Canonical l → self.pushRange = none → self.canPushRange = false →
    (self.scan MAX s l a).2.1.pushRange ≠ none → (self.scan MAX s l a).2.2 = l
  | [], _, _, _, _, _, _, h => rfl
  | b :: l, self, s, a, hl, hpush, hcan, h => by
    obtain ⟨hb, hbl, hl'⟩ := IntervalList.canonical_cons.mp hl
    have hafter : ∀ c ∈ l, b.«end» + 1 < c.start := fun c hc => by simpa using hbl c hc
    have hstays : ∀ self' : Removal, a.start ≤ b.«end» + 1 → (self'.scan MAX (s + 1) l a).2.1.pushRange =
        self'.pushRange := fun self' h' =>
      pushRange_scan_of_lt MAX l self' (s + 1) a (fun c hc => by have := hafter c hc; omega)
    unfold scan at h ⊢
    rcases h1 : compare a.start b.start <;> rcases h2 : compare a.«end» b.«end» <;>
      simp only [h1, h2] at h ⊢
    case gt.lt =>
      -- the split is refused before `b` is cut
      simp [setPushRange, hcan]
    case gt.gt =>
      split_ifs at h ⊢ with hc
      · exact absurd (by rw [hstays _ (Interval.start_le_of_shouldCoalesce MAX hc)]; simpa using hpush) h
      · simp only [List.cons.injEq, true_and]
        exact scan_of_pushRange l self (s + 1) a hl' hpush hcan h
    case lt.gt | eq.gt =>
      have hle : a.start ≤ b.«end» + 1 := by
        have := Nat.compare_ne_gt.mp (show compare a.start b.start ≠ .gt by simp [h1])
        simp only [lo_eq, hi_eq] at hb
        omega
      exact absurd (by rw [hstays _ hle]; simpa using hpush) h
    case lt.lt => split_ifs at h <;> simp [hpush] at h
    all_goals simp [hpush] at h


theorem scan_canPushRange : ∀ (l : List Interval) (t f : Removal) (s : Nat) (a : Interval),
    t.replaceRange = f.replaceRange → t.pushRange = none → f.pushRange = none →
    t.canPushRange = true → f.canPushRange = false →
    ((f.scan MAX s l a).2.1.pushRange = none ∧ (t.scan MAX s l a).2.1.pushRange = none ∧
      (t.scan MAX s l a).1 = (f.scan MAX s l a).1 ∧
      (t.scan MAX s l a).2.1.replaceRange = (f.scan MAX s l a).2.1.replaceRange ∧
      (t.scan MAX s l a).2.2 = (f.scan MAX s l a).2.2) ∨
    ((f.scan MAX s l a).1 = none ∧ (f.scan MAX s l a).2.1.pushRange ≠ none ∧
      (t.scan MAX s l a).1 = none ∧ (t.scan MAX s l a).2.1.pushRange ≠ none ∧
      (t.scan MAX s l a).2.1.replaceRange.start ≤ s + l.length)
  | [], t, f, s, a, hr, ht, hf, _, _ => .inl ⟨hf, ht, rfl, hr, rfl⟩
  | b :: l, t, f, s, a, hr, ht, hf, htc, hfc => by
    have ih := fun t' f' => scan_canPushRange l t' f' (s + 1) a
    have hnext : ∀ t' f' : Removal, t'.replaceRange = f'.replaceRange → t'.pushRange = none →
        f'.pushRange = none → t'.canPushRange = true → f'.canPushRange = false → ∀ x : Interval,
        (((f'.scan MAX (s + 1) l a).2.1.pushRange = none ∧
            (t'.scan MAX (s + 1) l a).2.1.pushRange = none ∧
            (t'.scan MAX (s + 1) l a).1 = (f'.scan MAX (s + 1) l a).1 ∧
            (t'.scan MAX (s + 1) l a).2.1.replaceRange = (f'.scan MAX (s + 1) l a).2.1.replaceRange ∧
            x :: (t'.scan MAX (s + 1) l a).2.2 = x :: (f'.scan MAX (s + 1) l a).2.2) ∨
          ((f'.scan MAX (s + 1) l a).1 = none ∧ (f'.scan MAX (s + 1) l a).2.1.pushRange ≠ none ∧
            (t'.scan MAX (s + 1) l a).1 = none ∧ (t'.scan MAX (s + 1) l a).2.1.pushRange ≠ none ∧
            (t'.scan MAX (s + 1) l a).2.1.replaceRange.start ≤ s + (b :: l).length)) := by
      intro t' f' hr' ht' hf' htc' hfc' x
      rcases scan_canPushRange l t' f' (s + 1) a hr' ht' hf' htc' hfc' with h | h
      · exact .inl ⟨h.1, h.2.1, h.2.2.1, h.2.2.2.1, by rw [h.2.2.2.2]⟩
      · refine .inr ⟨h.1, h.2.1, h.2.2.1, h.2.2.2.1, ?_⟩
        have := h.2.2.2.2
        simp only [List.length_cons]
        omega
    unfold scan
    rcases compare a.start b.start <;> rcases compare a.«end» b.«end» <;> simp only
    case gt.lt =>
      -- only here does the room matter: `f` records the split and stops, `t` also cuts `b`
      simp only [setPushRange, hfc, htc, if_true, Bool.false_eq_true, if_false,
        pushRange_setEnd, pushRange_setStart, replaceRange_setEnd, replaceRange_setStart,
        Range.setEnd_start, Range.setStart_start, List.length_cons]
      exact .inr ⟨trivial, by simp, trivial, by simp, by omega⟩
    case lt.gt | eq.gt =>
      exact hnext _ _ (by simp [hr]) (by simpa using ht) (by simpa using hf) (by simpa using htc)
        (by simpa using hfc) b
    case gt.gt =>
      split_ifs
      · exact hnext _ _ (by simp [hr]) (by simpa using ht) (by simpa using hf)
          (by simpa using htc) (by simpa using hfc) _
      · exact hnext _ _ hr ht hf htc hfc b
    case lt.lt => split_ifs <;> simp [ht, hf, hr]
    all_goals simp [ht, hf, hr]

theorem canPushRange_scan : ∀ (l : List Interval) (self : Removal) (s : Nat) (a : Interval),
    (self.scan MAX s l a).2.1.canPushRange = self.canPushRange
  | [], _, _, _ => rfl
  | b :: l, self, s, a => by
    unfold scan
    rcases compare a.start b.start <;> rcases compare a.«end» b.«end» <;> simp only
    case gt.lt => cases hc : self.canPushRange <;> simp [setPushRange, hc]
    all_goals (try split) <;> simp [canPushRange_scan l]

theorem complete_congr {pre rest : List Interval} {index : Option Nat} {r r' : Removal}
    (h : r.pushRange = none) (h' : r'.pushRange = none) (hr : r.replaceRange = r'.replaceRange) :
    complete pre (index, r, rest) = complete pre (index, r', rest) := by
  cases index <;> simp [complete, apply, h, h', hr]

theorem length_complete_le {pre rest : List Interval} {index : Option Nat} {r : Removal}
    (h : r.pushRange = none) : (complete pre (index, r, rest)).1.length ≤ (pre ++ rest).length := by
  cases index with
  | some i => simp [complete]
  | none =>
    simp only [complete, apply_of_pushRange_none h]
    split_ifs
    · exact le_rfl
    · simp only [List.length_append, List.length_take, List.length_drop]
      omega

theorem complete_of_pushRange_some {pre rest : List Interval} {r : Removal} {iv : Interval}
    (h : r.pushRange = some iv) :
    complete pre (none, r, rest) =
      if r.canPushRange then ((pre ++ rest).insertIdx r.replaceRange.start iv, .ok r.replaceRange.start)
      else (pre ++ rest, .error .limitExceeded) := by
  simp only [complete, apply, h]
  split_ifs <;> rfl

end Removal

theorem remove_eq_ite {L : List Interval} {a : Interval} {idx : Nat} (limit : Option Nat)
    (hL : Canonical L) (hLM : Bounded MAX L) (ha : a.start ≤ a.«end») (haM : a.«end» ≤ MAX)
    (hlen : L.length ≤ USIZE_MAX) (hpre : ∀ x ∈ L.take idx, x.«end» < a.start) :
    ∃ k, remove MAX L a idx limit =
      if (IntervalList.remove L a).length = L.length + 1 ∧
          underLimit limit (L.length + 1) = false then (L, .error .limitExceeded)
      else (IntervalList.remove L a, .ok k) := by
  obtain ⟨k, hk, -⟩ := remove_eq_diff MAX hL hLM ha haM hlen hpre
  refine ⟨k, ?_⟩
  unfold remove at hk ⊢
  simp only [Option.map_none, Option.getD_none] at hk
  change Removal.complete _ ((Removal.init (underLimit limit (L.length + 1))).scan MAX idx _ a) = _
  cases hcan : underLimit limit (L.length + 1)
  · have hdrop : Canonical (L.drop idx) := (canonical_append.mp (by rwa [List.take_append_drop])).2.1
    have hsplit : (L.take idx).length + (L.drop idx).length = L.length := by
      rw [← List.length_append, List.take_append_drop]
    generalize hrt : (Removal.init true).scan MAX idx (L.drop idx) a = rt at hk
    generalize hrf : (Removal.init false).scan MAX idx (L.drop idx) a = rf
    obtain ⟨x, r, y⟩ := rf
    obtain ⟨x', r', y'⟩ := rt
    have hy' : y'.length = (L.drop idx).length := by
      rw [← Removal.length_scan MAX (L.drop idx) (.init true) idx a, hrt]
    rcases hrt ▸ hrf ▸ Removal.scan_canPushRange MAX (L.drop idx) (.init true) (.init false) idx a
      rfl rfl rfl rfl rfl with ⟨hf, ht, h1, h2, h3⟩ | ⟨rfl, hf, rfl, ht, hst⟩
    · -- no split: the two scans end alike, and the difference keeps at most the slots it had
      dsimp only at hf ht h1 h2 h3
      subst h1 h3
      have hle : (Removal.complete (L.take idx) (x', r', y')).1.length ≤ (L.take idx ++ y').length :=
        Removal.length_complete_le ht
      simp only [hk, List.length_append, hy', hsplit] at hle
      rw [if_neg (by omega), Removal.complete_congr hf ht h2.symm, hk]
    · -- a split: refused here, and the difference has one interval more
      dsimp only at hf ht hst
      obtain ⟨iv, hiv⟩ := Option.ne_none_iff_exists'.mp hf
      obtain ⟨iv', hiv'⟩ := Option.ne_none_iff_exists'.mp ht
      have hcan' : r.canPushRange = false := by
        have := Removal.canPushRange_scan MAX (L.drop idx) (.init false) idx a
        rw [hrf] at this
        exact this
      have hcant : r'.canPushRange = true := by
        have := Removal.canPushRange_scan MAX (L.drop idx) (.init true) idx a
        rw [hrt] at this
        exact this
      have hy : y = L.drop idx := by
        have := Removal.scan_of_pushRange MAX (L.drop idx) (.init false) idx a hdrop rfl rfl
        rw [hrf] at this
        exact this hf
      rw [Removal.complete_of_pushRange_some hiv', hcant, if_pos rfl] at hk
      have hidx : idx ≤ L.length := by
        by_contra hgt
        rw [List.drop_eq_nil_of_le (by omega)] at hrf
        simp only [Removal.scan, Prod.mk.injEq] at hrf
        exact hf (by rw [← hrf.2.1]; rfl)
      have hpre' : (L.take idx ++ y').length = L.length := by
        rw [List.length_append, hy', hsplit]
      have hlen' : (IntervalList.remove L a).length = L.length + 1 := by
        obtain ⟨hL', -⟩ := Prod.mk.inj hk
        simp only [List.length_drop] at hst
        rw [← hL', List.length_insertIdx_of_le_length (by omega), hpre']
      rw [if_pos ⟨hlen', rfl⟩, Removal.complete_of_pushRange_some hiv, hcan', hy,
        List.take_append_drop]
      rfl
  · simpa using hk

def Bound.InType (MAX : Nat) : Bound → Prop
  | .included v | .excluded v => v ≤ MAX
  | .unbounded => True

variable {MAX}

theorem Interval.fromRangeBounds_ok {a b : Bound} {i : Interval} (hb : b.InType MAX)
    (h : Interval.fromRangeBounds a b = .ok i) : i.start ≤ i.«end» ∧ i.«end» ≤ MAX := by
  unfold Interval.fromRangeBounds at h
  rcases a with s | s | _ <;> rcases b with e | e | _ <;>
    simp only [stepDown, Interval.isValid, decide_eq_true_eq, pure, Except.pure, bind,
      Except.bind, throw, throwThe, MonadExceptOf.throw] at h <;> simp only [Bound.InType] at hb
  all_goals (repeat' (first | split_ifs at h | simp only at h)) <;> cases h <;> dsimp only <;> omega

theorem Interval.fromRangeBounds_error {a b : Bound} {e : IntervalSetError}
    (h : Interval.fromRangeBounds a b = .error e) : e = .invalidInterval := by
  unfold Interval.fromRangeBounds at h
  rcases a with s | s | _ <;> rcases b with t | t | _ <;>
    simp only [stepDown, Interval.isValid, decide_eq_true_eq, pure, Except.pure, bind,
      Except.bind, throw, throwThe, MonadExceptOf.throw] at h
  all_goals (repeat' (first | split_ifs at h | simp only at h)) <;> cases h <;> rfl

theorem underLimit_zero {limit : Option Nat} (h : limit ≠ some 0) : underLimit limit 0 = true := by
  rcases limit with _ | n
  · rfl
  · simp only [underLimit, Option.map_some, Option.getD_some, decide_eq_true_eq]
    exact Nat.pos_of_ne_zero fun hn => h (by rw [hn])

namespace IntervalSet

variable {self : IntervalSet}

theorem insert_limit_eq (hMAX : MAX ≤ USIZE_MAX) (hwf : self.WellFormed MAX)
    (hpos : self.limit ≠ some 0) {a b : Bound} {i : Interval}
    (hi : Interval.fromRangeBounds a b = .ok i) (hb : b.InType MAX) :
    self.insert MAX a b =
      if (IntervalList.insert self.intervals i).length = self.intervals.length + 1 ∧
          underLimit self.limit self.intervals.length = false then (self, .error .limitExceeded)
      else ({ self with intervals := IntervalList.insert self.intervals i }, .ok ()) := by
  obtain ⟨hc, hbd⟩ := hwf
  obtain ⟨hv, hiM⟩ := Interval.fromRangeBounds_ok hb hi
  unfold IntervalSet.insert
  rw [hi]
  dsimp only
  by_cases hemp : self.intervals = []
  · -- the empty deque takes the interval whatever the limit
    simp only [hemp, List.isEmpty_nil, if_true, IntervalList.insert, List.length_singleton,
      List.length_nil, underLimit_zero hpos]
    rfl
  · rw [if_neg (by simpa using hemp)]
    obtain ⟨k, hk⟩ := insert_eq_ite MAX self.limit hc hbd hv hiM (length_le_usize hc hbd hMAX)
      (fun x hx => by simpa [IntervalList.Before] using indexFor_spec hc i x hx)
    simp only [insertAt, hk]
    split_ifs <;> rfl

theorem insertFront_limit_eq (hMAX : MAX ≤ USIZE_MAX) (hwf : self.WellFormed MAX)
    (hpos : self.limit ≠ some 0) {a b : Bound} {i : Interval}
    (hi : Interval.fromRangeBounds a b = .ok i) (hb : b.InType MAX) :
    self.insertFront MAX a b =
      if (IntervalList.insert self.intervals i).length = self.intervals.length + 1 ∧
          underLimit self.limit self.intervals.length = false then (self, .error .limitExceeded)
      else ({ self with intervals := IntervalList.insert self.intervals i }, .ok ()) := by
  obtain ⟨hc, hbd⟩ := hwf
  obtain ⟨hv, hiM⟩ := Interval.fromRangeBounds_ok hb hi
  unfold IntervalSet.insertFront
  rw [hi]
  dsimp only
  by_cases hemp : self.intervals = []
  · simp only [hemp, List.isEmpty_nil, if_true, IntervalList.insert, List.length_singleton,
      List.length_nil, underLimit_zero hpos]
    rfl
  · rw [if_neg (by simpa using hemp)]
    obtain ⟨k, hk⟩ := insert_eq_ite MAX self.limit hc hbd hv hiM (length_le_usize hc hbd hMAX)
      (show ∀ x ∈ self.intervals.take 0, IntervalList.Before x i by simp)
    simp only [insertAt, hk]
    split_ifs <;> rfl

theorem remove_limit_eq (hMAX : MAX ≤ USIZE_MAX) (hwf : self.WellFormed MAX) {a b : Bound}
    {i : Interval} (hi : Interval.fromRangeBounds a b = .ok i) (hb : b.InType MAX) :
    self.remove MAX a b =
      if (IntervalList.remove self.intervals i).length = self.intervals.length + 1 ∧
          underLimit self.limit (self.intervals.length + 1) = false then
        (self, .error .limitExceeded)
      else ({ self with intervals := IntervalList.remove self.intervals i }, .ok ()) := by
  obtain ⟨hc, hbd⟩ := hwf
  obtain ⟨hv, hiM⟩ := Interval.fromRangeBounds_ok hb hi
  unfold IntervalSet.remove
  rw [hi]
  dsimp only
  by_cases hemp : self.intervals = []
  · -- nothing to remove from an empty deque
    obtain ⟨limit, intervals⟩ := self
    simp only at hemp
    subst hemp
    simp [IntervalList.remove]
  · rw [if_neg (by simpa using hemp)]
    obtain ⟨k, hk⟩ := remove_eq_ite MAX self.limit hc hbd hv hiM (length_le_usize hc hbd hMAX)
      (fun x hx => by have := indexFor_spec hc i x hx; omega)
    simp only [hk]
    split_ifs <;> rfl

/-- What a call on a set with limit `L` may do: go through within the limit, the same call
then changing nothing; or fail and leave the set as it was, with `LimitExceeded`, or with
`InvalidInterval`, which it returns exactly when the bounds give no interval. -/
def LimitOutcome (call : IntervalSet → IntervalSet × Except IntervalSetError Unit)
    (a b : Bound) (L : Nat) (self : IntervalSet) : Prop :=
  ((∃ self', call self = (self', .ok ()) ∧ self'.intervalLen ≤ L ∧
      call self' = (self', .ok ())) ∨
    call self = (self, .error .limitExceeded) ∨ call self = (self, .error .invalidInterval)) ∧
  (call self = (self, .error .invalidInterval) ↔ ∃ e, Interval.fromRangeBounds a b = .error e)

section Outcome

variable (hMAX : MAX ≤ USIZE_MAX) {L : Nat} (hwf : self.WellFormed MAX)
  (hlim : self.limit = some L) (hL : 0 < L) (hlen : self.intervalLen ≤ L) {a b : Bound}
  (hb : b.InType MAX)
include hMAX hwf hlim hL hlen hb

theorem insert_limitOutcome : LimitOutcome (·.insert MAX a b) a b L self := by
  rcases hi : Interval.fromRangeBounds a b with e | i
  · -- bounds that give no interval
    have hcall : self.insert MAX a b = (self, .error .invalidInterval) := by
      simp [IntervalSet.insert, hi, Interval.fromRangeBounds_error hi]
    exact ⟨.inr (.inr hcall), iff_of_true hcall ⟨e, hi⟩⟩
  obtain ⟨hv, hiM⟩ := Interval.fromRangeBounds_ok hb hi
  obtain ⟨hc, hbd⟩ := hwf
  obtain ⟨hc', hb', hs'⟩ := insert_wellFormed hc hbd hv hiM
  have hpos : self.limit ≠ some 0 := by rw [hlim]; simpa using hL.ne'
  unfold LimitOutcome
  dsimp only
  rw [insert_limit_eq hMAX ⟨hc, hbd⟩ hpos hi hb]
  split_ifs with hfull
  · exact ⟨.inr (.inl rfl), by simp [hi]⟩
  refine ⟨.inl ⟨_, rfl, ?_, ?_⟩, by simp [hi]⟩
  · -- a new slot only opens below the limit
    have := length_insert_le self.intervals i
    simp only [hlim, underLimit, Option.map_some, Option.getD_some, decide_eq_false_iff_not,
      not_lt, intervalLen] at hfull hlen ⊢
    omega
  · -- the same call again: the interval is covered now, so the union changes nothing
    have hself : IntervalList.insert (IntervalList.insert self.intervals i) i =
        IntervalList.insert self.intervals i :=
      insert_eq_self hc' (by simpa using hv) (by simp [hs'])
    rw [insert_limit_eq hMAX ⟨hc', hb'⟩ (by simpa using hpos) hi hb]
    simp only [hself]
    rw [if_neg (by omega)]

-- a removal never opens a slot, so it does not need the limit to be positive
omit hL in
theorem remove_limitOutcome : LimitOutcome (·.remove MAX a b) a b L self := by
  rcases hi : Interval.fromRangeBounds a b with e | i
  · have hcall : self.remove MAX a b = (self, .error .invalidInterval) := by
      simp [IntervalSet.remove, hi, Interval.fromRangeBounds_error hi]
    exact ⟨.inr (.inr hcall), iff_of_true hcall ⟨e, hi⟩⟩
  obtain ⟨hv, -⟩ := Interval.fromRangeBounds_ok hb hi
  obtain ⟨hc, hbd⟩ := hwf
  obtain ⟨hc', hb', hs'⟩ := remove_wellFormed hc hbd hv
  unfold LimitOutcome
  dsimp only
  rw [remove_limit_eq hMAX ⟨hc, hbd⟩ hi hb]
  split_ifs with hfull
  · exact ⟨.inr (.inl rfl), by simp [hi]⟩
  refine ⟨.inl ⟨_, rfl, ?_, ?_⟩, by simp [hi]⟩
  · -- an interval is only split with room for two more
    have := length_remove_le (a := i) (by simpa using hv) hc
    simp only [hlim, underLimit, Option.map_some, Option.getD_some, decide_eq_false_iff_not,
      not_lt, intervalLen] at hfull hlen ⊢
    omega
  · -- the same call again: nothing of the interval is left, so the difference changes nothing
    have hself : IntervalList.remove (IntervalList.remove self.intervals i) i =
        IntervalList.remove self.intervals i :=
      remove_eq_self hc' (by simpa using hv) (by simpa [hs'] using Set.disjoint_sdiff_left)
    rw [remove_limit_eq hMAX ⟨hc', hb'⟩ hi hb]
    simp only [hself]
    rw [if_neg (by omega)]

end Outcome

/-- On a well-formed set with a positive limit `L` and at most `L` intervals, `insert` and
`remove` either go through within the limit, and then the same call again changes nothing, or
fail and leave the set as it was: with `LimitExceeded`, or with `InvalidInterval`, exactly when
the bounds give no interval. -/
theorem insert_remove_limitOutcome (hMAX : MAX ≤ USIZE_MAX) {L : Nat}
    (hwf : self.WellFormed MAX) (hlim : self.limit = some L) (hL : 0 < L)
    (hlen : self.intervalLen ≤ L) {a b : Bound} (hb : b.InType MAX) :
    LimitOutcome (·.insert MAX a b) a b L self ∧ LimitOutcome (·.remove MAX a b) a b L self :=
  ⟨insert_limitOutcome hMAX hwf hlim hL hlen hb, remove_limitOutcome hMAX hwf hlim hlen hb⟩

theorem insert_remove_limitOutcome_full :
    LimitOutcome (·.insert 255 (.included 5) (.included 7)) (.included 5) (.included 7) 1
        ⟨some 1, [⟨0, 3⟩]⟩ ∧
      LimitOutcome (·.remove 255 (.included 5) (.included 7)) (.included 5) (.included 7) 1
        ⟨some 1, [⟨0, 3⟩]⟩ :=
  insert_remove_limitOutcome (by simp [USIZE_MAX])
    ⟨canonical_cons.mpr ⟨by simp, by simp, canonical_nil⟩, by simp [Bounded]⟩ rfl (by decide)
    (by decide) (show 7 ≤ 255 by decide)

/-- An empty range fails with `InvalidInterval`, not `LimitExceeded`, whatever the limit. -/
theorem insert_empty_range_invalidInterval :
    (withLimit 1).insert 255 (.included 5) (.excluded 5) = (withLimit 1, .error .invalidInterval) :=
  rfl

end IntervalSet

end S2nQuic.IntervalSet
