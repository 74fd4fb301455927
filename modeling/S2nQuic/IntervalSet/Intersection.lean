import S2nQuic.IntervalSet.Remove

/-!
# Intersection

`Intersection` (`interval_set/intersection.rs`) is an iterator over the intervals of the
intersection of two sets: it walks both lists, yields the overlap of the current pair, and
cuts the interval that goes on to start past the overlap. `apply` computes the intersection in
place in the first list. Both compute the canonical intersection `IntervalList.inter`; the
in-place version starts a split-off rest two values past the overlap, which the gap of the
other list makes no difference to.
-/

namespace S2nQuic.IntervalSet

structure Intersection where
  setA : List Interval
  setB : List Interval
  intervalA : Option Interval
  intervalB : Option Interval
  deriving DecidableEq, Repr

namespace Intersection

def new (setA setB : List Interval) : Intersection :=
  ⟨setA.tail, setB.tail, setA.head?, setB.head?⟩

variable (MAX : Nat)

/-- The loop of `Intersection::next` on the current pair: the item, and the iterator after. -/
def nextLoop (setA setB : List Interval) (intervalA intervalB : Interval) :
    Option Interval × Intersection :=
  match compare intervalA.start intervalB.start, compare intervalA.«end» intervalB.«end» with
  | .eq, .lt | .gt, .lt =>
    (some intervalA, ⟨setA.tail, setB, setA.head?,
      some { intervalB with start := intervalA.endExclusive MAX }⟩)
  | .eq, .gt | .lt, .gt =>
    (some intervalB, ⟨setA, setB.tail,
      some { intervalA with start := intervalB.endExclusive MAX }, setB.head?⟩)
  | .gt, .eq | .eq, .eq => (some intervalA, ⟨setA.tail, setB.tail, setA.head?, setB.head?⟩)
  | .lt, .eq => (some intervalB, ⟨setA.tail, setB.tail, setA.head?, setB.head?⟩)
  | .gt, .gt =>
    if intervalA.start ≤ intervalB.«end» then
      let item := { intervalA with «end» := intervalB.«end» }
      (some item, ⟨setA, setB.tail, some { intervalA with start := item.endExclusive MAX },
        setB.head?⟩)
    else
      match setB with
      -- the `?` returns before `interval_b` changes
      | [] => (none, ⟨setA, [], some intervalA, some intervalB⟩)
      | b :: setB => nextLoop setA setB intervalA b
  | .lt, .lt =>
    if intervalA.«end» ≥ intervalB.start then
      let item := { intervalB with «end» := intervalA.«end» }
      (some item, ⟨setA.tail, setB, setA.head?,
        some { intervalB with start := item.endExclusive MAX }⟩)
    else
      match setA with
      | [] => (none, ⟨[], setB, some intervalA, some intervalB⟩)
      | a :: setA => nextLoop setA setB a intervalB
termination_by setA.length + setB.length

/-- `Intersection::next`. -/
def next (self : Intersection) : Option Interval × Intersection :=
  match self.intervalA, self.intervalB with
  | some intervalA, some intervalB => nextLoop MAX self.setA self.setB intervalA intervalB
  | _, _ => (none, self)

/-- The items of the iterator, for at most `fuel` calls of `next`. -/
def items : Nat → Intersection → List Interval
  | 0, _ => []
  | fuel + 1, self =>
    match next MAX self with
    | (some item, self) => item :: items fuel self
    | (none, _) => []

/-! ## The iterator computes the canonical intersection -/

/-- The intervals of `set_a` still ahead, the current one first. -/
def fullA (self : Intersection) : List Interval := self.intervalA.toList ++ self.setA

def fullB (self : Intersection) : List Interval := self.intervalB.toList ++ self.setB

def remaining (self : Intersection) : List Interval := IntervalList.inter self.fullA self.fullB

/-- A consistent iterator: what is ahead in each set is canonical and within the bound type,
and a set has no current interval only once it is exhausted. -/
structure Valid (self : Intersection) : Prop where
  canonicalA : IntervalList.Canonical self.fullA
  canonicalB : IntervalList.Canonical self.fullB
  boundedA : Bounded MAX self.fullA
  boundedB : Bounded MAX self.fullB
  exhaustedA : self.intervalA = none → self.setA = []
  exhaustedB : self.intervalB = none → self.setB = []

theorem head?_toList_append_tail (l : List Interval) : l.head?.toList ++ l.tail = l := by
  cases l <;> rfl

theorem valid_mk {la lb : List Interval} (ha : IntervalList.Canonical la)
    (hb : IntervalList.Canonical lb) (haM : Bounded MAX la) (hbM : Bounded MAX lb) :
    (Intersection.mk la.tail lb.tail la.head? lb.head?).Valid MAX := by
  refine ⟨?_, ?_, ?_, ?_, ?_, ?_⟩ <;> simp only [fullA, fullB, head?_toList_append_tail]
  · exact ha
  · exact hb
  · exact haM
  · exact hbM
  · intro h; cases la <;> simp_all
  · intro h; cases lb <;> simp_all

@[simp] theorem remaining_mk (la lb : List Interval) :
    (Intersection.mk la.tail lb.tail la.head? lb.head?).remaining = IntervalList.inter la lb := by
  simp [remaining, fullA, fullB, head?_toList_append_tail]

@[simp] theorem length_fullA_mk (la lb : List Interval) :
    (Intersection.mk la.tail lb.tail la.head? lb.head?).fullA.length = la.length := by
  simp [fullA, head?_toList_append_tail]

@[simp] theorem length_fullB_mk (la lb : List Interval) :
    (Intersection.mk la.tail lb.tail la.head? lb.head?).fullB.length = lb.length := by
  simp [fullB, head?_toList_append_tail]

theorem trim_spec {b : Interval} {l : List Interval} (h : IntervalList.Canonical (b :: l))
    (hM : Bounded MAX (b :: l)) {x : Nat} (hx : x ≤ b.«end») :
    IntervalList.Canonical ((⟨x, b.«end»⟩ : Interval) :: l) ∧
      Bounded MAX ((⟨x, b.«end»⟩ : Interval) :: l) := by
  refine ⟨by simpa using IntervalList.canonical_trim h (x := x) (by simpa using hx), ?_⟩
  simp only [bounded_cons] at hM ⊢
  exact hM

theorem nextLoop_spec (setA setB : List Interval) (a b : Interval)
    (hA : IntervalList.Canonical (a :: setA)) (hB : IntervalList.Canonical (b :: setB))
    (hAM : Bounded MAX (a :: setA)) (hBM : Bounded MAX (b :: setB)) :
    ((nextLoop MAX setA setB a b).1 = none ∧ IntervalList.inter (a :: setA) (b :: setB) = []) ∨
      ∃ x it, nextLoop MAX setA setB a b = (some x, it) ∧
        IntervalList.inter (a :: setA) (b :: setB) = x :: it.remaining ∧ it.Valid MAX ∧
        it.fullA.length + it.fullB.length < setA.length + setB.length + 2 := by
  obtain ⟨ha, haf, hA'⟩ := IntervalList.canonical_cons.mp hA
  obtain ⟨hb, hbf, hB'⟩ := IntervalList.canonical_cons.mp hB
  simp only [lo_eq, hi_eq] at ha hb
  have haf' : ∀ c ∈ setA, a.«end» + 1 < c.start := fun c hc => by simpa using haf c hc
  have hbf' : ∀ c ∈ setB, b.«end» + 1 < c.start := fun c hc => by simpa using hbf c hc
  obtain ⟨haM, hAM'⟩ := bounded_cons.mp hAM
  obtain ⟨hbM, hBM'⟩ := bounded_cons.mp hBM
  have yield : ∀ (x : Interval) (la lb : List Interval), IntervalList.Canonical la →
      IntervalList.Canonical lb → Bounded MAX la → Bounded MAX lb →
      la.length + lb.length < setA.length + setB.length + 2 →
      nextLoop MAX setA setB a b = (some x, ⟨la.tail, lb.tail, la.head?, lb.head?⟩) →
      IntervalList.inter (a :: setA) (b :: setB) = x :: IntervalList.inter la lb →
      ((nextLoop MAX setA setB a b).1 = none ∧ IntervalList.inter (a :: setA) (b :: setB) = []) ∨
        ∃ x it, nextLoop MAX setA setB a b = (some x, it) ∧
          IntervalList.inter (a :: setA) (b :: setB) = x :: it.remaining ∧ it.Valid MAX ∧
          it.fullA.length + it.fullB.length < setA.length + setB.length + 2 := by
    intro x la lb hla hlb hlaM hlbM hlen hnext hinter
    exact .inr ⟨x, _, hnext, by rw [hinter, remaining_mk], valid_mk MAX hla hlb hlaM hlbM,
      by simpa using hlen⟩
  rcases Nat.lt_trichotomy a.«end» b.«end» with he | he | he
  · have hexcl : a.endExclusive MAX = a.«end» + 1 := stepUpSaturating_of_lt MAX (by omega)
    obtain ⟨htB, htBM⟩ := trim_spec MAX hB hBM (x := a.«end» + 1) (by omega)
    rcases Nat.lt_or_ge a.start b.start with hs | hs
    · by_cases hov : b.start ≤ a.«end»
      · -- `a` overlaps the start of `b`: the overlap, then `b` cut past `a`
        refine yield ⟨b.start, a.«end»⟩ setA (⟨a.«end» + 1, b.«end»⟩ :: setB) hA' htB hAM' htBM
          (by simp; omega) ?_ ?_
        · rw [nextLoop.eq_def]
          simp [Nat.compare_eq_lt.mpr hs, Nat.compare_eq_lt.mpr he, hov, Interval.endExclusive,
            stepUpSaturating_of_lt MAX (by omega : a.«end» < MAX)]
        · rw [IntervalList.inter_cons_of_overlap (by simp; omega) (by simp; omega)]
          simp [Nat.max_eq_right hs.le, Nat.min_eq_left he.le, he]
      · -- `a` lies before `b`: on to the next interval of `set_a`
        have hinter : ∀ l, IntervalList.inter (a :: l) (b :: setB) =
            IntervalList.inter l (b :: setB) := fun l =>
          IntervalList.inter_cons_of_hi_lt (by simp; omega)
        rcases hsa : setA with _ | ⟨a', setA'⟩
        · refine .inl ⟨?_, by rw [hinter, IntervalList.inter]⟩
          rw [nextLoop.eq_def]
          simp [Nat.compare_eq_lt.mpr hs, Nat.compare_eq_lt.mpr he, hov]
        · have hnext : nextLoop MAX (a' :: setA') setB a b = nextLoop MAX setA' setB a' b := by
            rw [nextLoop.eq_def]
            simp [Nat.compare_eq_lt.mpr hs, Nat.compare_eq_lt.mpr he, hov]
          rw [hnext, hinter]
          rcases nextLoop_spec setA' setB a' b (hsa ▸ hA') hB (hsa ▸ hAM') hBM with h | ⟨x, it, h₁, h₂, h₃, h₄⟩
          · exact .inl h
          · exact .inr ⟨x, it, h₁, h₂, h₃, by simp; omega⟩
    · -- `a` lies inside `b` and ends first: `a`, then `b` cut past it
      have hnext : nextLoop MAX setA setB a b =
          (some a, ⟨setA.tail, setB, setA.head?, some ⟨a.«end» + 1, b.«end»⟩⟩) := by
        rw [nextLoop.eq_def]
        rcases Nat.lt_or_eq_of_le hs with hs | hs
        · simp [Nat.compare_eq_gt.mpr hs, Nat.compare_eq_lt.mpr he, hexcl]
        · simp [← hs, Nat.compare_eq_lt.mpr he, hexcl]
      refine yield a setA (⟨a.«end» + 1, b.«end»⟩ :: setB) hA' htB hAM' htBM (by simp; omega)
        hnext ?_
      rw [IntervalList.inter_cons_of_overlap (by simp; omega) (by simp; omega)]
      simp only [lo_eq, hi_eq, ofBounds_eq, Nat.max_eq_left hs, Nat.min_eq_left he.le, if_pos he]
  · -- both end together: the overlap, then both sets move on
    have hboth : ∀ x, IntervalList.inter (a :: setA) (b :: setB) = x :: IntervalList.inter setA setB →
        nextLoop MAX setA setB a b = (some x, ⟨setA.tail, setB.tail, setA.head?, setB.head?⟩) →
        ((nextLoop MAX setA setB a b).1 = none ∧
            IntervalList.inter (a :: setA) (b :: setB) = []) ∨
          ∃ x it, nextLoop MAX setA setB a b = (some x, it) ∧
            IntervalList.inter (a :: setA) (b :: setB) = x :: it.remaining ∧ it.Valid MAX ∧
            it.fullA.length + it.fullB.length < setA.length + setB.length + 2 :=
      fun x hinter hnext => yield x setA setB hA' hB' hAM' hBM' (by omega) hnext hinter
    have hinter : IntervalList.inter (a :: setA) (b :: setB) = _ :=
      IntervalList.inter_cons_of_overlap (by simp; omega) (by simp; omega)
    simp only [lo_eq, hi_eq, he, lt_irrefl, if_false, Nat.min_self] at hinter
    rcases Nat.lt_or_ge a.start b.start with hs | hs
    · refine hboth b ?_ ?_
      · rw [hinter, Nat.max_eq_right hs.le]
        rfl
      · rw [nextLoop.eq_def]
        simp [Nat.compare_eq_lt.mpr hs, he]
    · refine hboth a ?_ ?_
      · rw [hinter, Nat.max_eq_left hs, ← he]
        rfl
      · rw [nextLoop.eq_def]
        rcases Nat.lt_or_eq_of_le hs with hs | hs
        · simp [Nat.compare_eq_gt.mpr hs, he]
        · simp [← hs, he]
  · have hexcl : b.endExclusive MAX = b.«end» + 1 := stepUpSaturating_of_lt MAX (by omega)
    obtain ⟨htA, htAM⟩ := trim_spec MAX hA hAM (x := b.«end» + 1) (by omega)
    rcases Nat.lt_or_ge b.start a.start with hs | hs
    · by_cases hov : a.start ≤ b.«end»
      · -- `a` overlaps the end of `b`: the overlap, then `a` cut past `b`
        refine yield ⟨a.start, b.«end»⟩ (⟨b.«end» + 1, a.«end»⟩ :: setA) setB htA hB' htAM hBM'
          (by simp; omega) ?_ ?_
        · rw [nextLoop.eq_def]
          simp [Nat.compare_eq_gt.mpr hs, Nat.compare_eq_gt.mpr he, hov, Interval.endExclusive,
            stepUpSaturating_of_lt MAX (by omega : b.«end» < MAX)]
        · rw [IntervalList.inter_cons_of_overlap (by simp; omega) (by simp; omega)]
          simp [Nat.max_eq_left hs.le, Nat.min_eq_right he.le, he, Nat.not_lt.mpr he.le]
      · -- `b` lies before `a`: on to the next interval of `set_b`
        have hinter : ∀ l, IntervalList.inter (a :: setA) (b :: l) =
            IntervalList.inter (a :: setA) l := fun l =>
          IntervalList.inter_cons_of_lt_lo (by simp; omega) (by simp; omega)
        rcases hsb : setB with _ | ⟨b', setB'⟩
        · refine .inl ⟨?_, by rw [hinter]; simp⟩
          rw [nextLoop.eq_def]
          simp [Nat.compare_eq_gt.mpr hs, Nat.compare_eq_gt.mpr he, hov]
        · have hnext : nextLoop MAX setA (b' :: setB') a b = nextLoop MAX setA setB' a b' := by
            rw [nextLoop.eq_def]
            simp [Nat.compare_eq_gt.mpr hs, Nat.compare_eq_gt.mpr he, hov]
          rw [hnext, hinter]
          rcases nextLoop_spec setA setB' a b' hA (hsb ▸ hB') hAM (hsb ▸ hBM') with h | ⟨x, it, h₁, h₂, h₃, h₄⟩
          · exact .inl h
          · exact .inr ⟨x, it, h₁, h₂, h₃, by simp; omega⟩
    · -- `b` lies inside `a` and ends first: `b`, then `a` cut past it
      have hnext : nextLoop MAX setA setB a b =
          (some b, ⟨setA, setB.tail, some ⟨b.«end» + 1, a.«end»⟩, setB.head?⟩) := by
        rw [nextLoop.eq_def]
        rcases Nat.lt_or_eq_of_le hs with hs | hs
        · simp [Nat.compare_eq_lt.mpr hs, Nat.compare_eq_gt.mpr he, hexcl]
        · simp [hs, Nat.compare_eq_gt.mpr he, hexcl]
      refine yield b (⟨b.«end» + 1, a.«end»⟩ :: setA) setB htA hB' htAM hBM' (by simp; omega)
        hnext ?_
      rw [IntervalList.inter_cons_of_overlap (by simp; omega) (by simp; omega)]
      simp only [lo_eq, hi_eq, ofBounds_eq, Nat.max_eq_right hs, Nat.min_eq_right he.le,
        if_neg (Nat.not_lt.mpr he.le), if_pos he]
termination_by setA.length + setB.length
decreasing_by
  all_goals first
    | (rw [hsa]; simp)
    | (rw [hsb]; simp)

theorem items_eq : ∀ (fuel : Nat) (it : Intersection), it.Valid MAX →
    it.fullA.length + it.fullB.length ≤ fuel → items MAX fuel it = it.remaining
  | 0, it, _, hlen => by
    have hA : it.fullA = [] := List.eq_nil_of_length_eq_zero (by omega)
    rw [items, remaining, hA, IntervalList.inter]
  | fuel + 1, ⟨setA, setB, intervalA, intervalB⟩, ⟨hA, hB, hAM, hBM, hexA, hexB⟩, hlen => by
    cases intervalA with
    | none =>
      have hA : setA = [] := hexA rfl
      simp [items, next, remaining, fullA, hA, IntervalList.inter]
    | some a =>
    cases intervalB with
    | none =>
      have hB : setB = [] := hexB rfl
      simp [items, next, remaining, fullB, hB]
    | some b =>
    simp only [fullA, fullB, Option.toList_some, List.singleton_append] at hA hB hAM hBM hlen
    have hnext : next MAX ⟨setA, setB, some a, some b⟩ = nextLoop MAX setA setB a b := rfl
    rw [items, hnext]
    rcases nextLoop_spec MAX setA setB a b hA hB hAM hBM with ⟨h₁, h₂⟩ | ⟨x, it, h₁, h₂, h₃, h₄⟩
    · rcases hn : nextLoop MAX setA setB a b with ⟨o, it⟩
      rw [hn] at h₁
      simp only at h₁
      subst h₁
      simpa [remaining, fullA, fullB] using h₂.symm
    · rw [h₁]
      dsimp only
      rw [items_eq fuel it h₃ (by simp at hlen; omega)]
      simpa [remaining, fullA, fullB] using h₂.symm

theorem items_new {setA setB : List Interval} (hA : IntervalList.Canonical setA)
    (hB : IntervalList.Canonical setB) (hAM : Bounded MAX setA) (hBM : Bounded MAX setB) :
    items MAX (setA.length + setB.length) (new setA setB) = IntervalList.inter setA setB := by
  rw [new, items_eq MAX _ _ (valid_mk MAX hA hB hAM hBM) (by simp), remaining_mk]

end Intersection

variable (MAX : Nat)

/-- `split_off_a!`: the part of `interval_a` past `interval_b`, after a gap of one value, goes
in after slot `aIndex` when it is not empty. -/
def splitOffA (setA : List Interval) (aIndex : Nat) (intervalA intervalB : Interval) :
    List Interval :=
  let newIntervalA : Interval :=
    ⟨stepUpSaturating MAX (intervalB.endExclusive MAX), intervalA.«end»⟩
  if newIntervalA.isValid then setA.insertIdx (aIndex + 1) newIntervalA else setA

theorem length_splitOffA_le (setA : List Interval) (aIndex : Nat) (intervalA intervalB : Interval) :
    (splitOffA MAX setA aIndex intervalA intervalB).length ≤ setA.length + 1 := by
  unfold splitOffA
  dsimp only
  split
  · rw [List.length_insertIdx]
    split <;> omega
  · omega

/-- The loop of `intersection::apply`, from slot `aIndex` of `set_a` and with `interval_b` the
current interval of `set_b`. -/
def applyLoop (setA : List Interval) (aIndex : Nat) (intervalB : Interval)
    (setB : List Interval) : List Interval :=
  match h : setA[aIndex]? with
  | none => setA
  | some intervalA =>
    match compare intervalA.start intervalB.start, compare intervalA.«end» intervalB.«end» with
    | .eq, .lt | .gt, .lt => applyLoop setA (aIndex + 1) intervalB setB
    | .eq, .gt | .lt, .gt =>
      let setA' := (splitOffA MAX setA aIndex intervalA intervalB).set aIndex intervalB
      match setB with
      | [] => setA'.take (aIndex + 1)
      | b :: setB => applyLoop setA' (aIndex + 1) b setB
    | .gt, .eq | .eq, .eq =>
      match setB with
      | [] => setA.take (aIndex + 1)
      | b :: setB => applyLoop setA (aIndex + 1) b setB
    | .lt, .eq =>
      let setA' := setA.set aIndex { intervalA with start := intervalB.start }
      match setB with
      | [] => setA'.take (aIndex + 1)
      | b :: setB => applyLoop setA' (aIndex + 1) b setB
    | .gt, .gt =>
      if intervalA.start ≤ intervalB.«end» then
        let setA' := (splitOffA MAX setA aIndex intervalA intervalB).set aIndex
          { intervalA with «end» := intervalB.«end» }
        match setB with
        | [] => setA'.take (aIndex + 1)
        | b :: setB => applyLoop setA' (aIndex + 1) b setB
      else
        match setB with
        | [] => setA.take aIndex
        | b :: setB => applyLoop setA aIndex b setB
    | .lt, .lt =>
      if intervalA.«end» ≥ intervalB.start then
        applyLoop (setA.set aIndex { intervalA with start := intervalB.start }) (aIndex + 1)
          intervalB setB
      else applyLoop (setA.eraseIdx aIndex) aIndex intervalB setB
termination_by setA.length - aIndex + setB.length
decreasing_by
  -- `a_index` moves on, or `set_a` loses the slot, or `set_b` moves on; a split-off part comes
  -- with a step of both
  all_goals
    have := (List.getElem?_eq_some_iff.mp h).1
    first
      | (have hlen := length_splitOffA_le MAX setA aIndex intervalA intervalB
         simp_all <;> omega)
      | (simp_all [List.length_eraseIdx_of_lt] <;> omega)

/-- `intersection::apply`: the intersection of `set_a` with `set_b`, in place in `set_a`. -/
def applyIntersection (setA setB : List Interval) : List Interval :=
  if setA.isEmpty then setA
  else
    match setB with
    | [] => []
    | b :: setB => applyLoop MAX setA 0 b setB

/-! ## `apply` computes the intersection -/

section Apply

open IntervalList

variable {pre rest bs : List Interval} {a b x : Interval}

theorem splitOffA_set (h : b.«end» + 1 < MAX) :
    (splitOffA MAX (pre ++ a :: rest) pre.length a b).set pre.length x =
      pre ++ x :: ((if b.«end» + 2 ≤ a.«end» then [⟨b.«end» + 2, a.«end»⟩] else []) ++ rest) := by
  have hs : stepUpSaturating MAX (b.endExclusive MAX) = b.«end» + 2 := by
    rw [Interval.endExclusive, stepUpSaturating_of_lt MAX (show b.«end» < MAX by omega),
      stepUpSaturating_of_lt MAX h]
  unfold splitOffA
  simp only [hs, Interval.isValid]
  split_ifs with hv hv'
  · rw [insertIdx_eq_take_drop _ _ _ (by simp), List.take_length_add_append]
    simp
  · simp at hv; omega
  · simp at hv; omega
  · simp

theorem take_splitOffA_set :
    ((splitOffA MAX (pre ++ a :: rest) pre.length a b).set pre.length x).take (pre.length + 1) =
      pre ++ [x] := by
  unfold splitOffA
  dsimp only
  split
  · rw [insertIdx_eq_take_drop _ _ _ (by simp), List.take_length_add_append]
    simp [List.take_length_add_append]
  · simp [List.take_length_add_append]

theorem inter_cons_of_end_lt (hr : Canonical (a :: rest)) (hb : Canonical (b :: bs))
    (h₁ : b.start ≤ a.«end») (h : a.«end» < b.«end») :
    inter (a :: rest) (b :: bs) = ⟨max a.start b.start, a.«end»⟩ :: inter rest (b :: bs) := by
  have ha : a.start ≤ a.«end» := by simpa using (canonical_cons.mp hr).1
  rw [inter_cons_of_overlap (by simp; omega) (by simp; omega)]
  simp only [lo_eq, hi_eq, ofBounds_eq, if_pos h, min_eq_left h.le]
  rw [inter_trim_right (canonical_cons.mp hr).2.2 hb (x := a.«end» + 1) (by simp; omega)
    (by simp; omega) (fun v hv _ => by have := lt_of_mem_tail hr hv; simp at this; omega)]
  rfl

theorem inter_cons_of_end_eq (hr : Canonical (a :: rest)) (hb : Canonical (b :: bs))
    (h : a.«end» = b.«end») :
    inter (a :: rest) (b :: bs) = ⟨max a.start b.start, a.«end»⟩ :: inter rest bs := by
  have ha : a.start ≤ a.«end» := by simpa using (canonical_cons.mp hr).1
  have hb₀ : b.start ≤ b.«end» := by simpa using (canonical_cons.mp hb).1
  rw [inter_cons_of_overlap (by simp; omega) (by simp; omega)]
  simp [h]

theorem inter_cons_of_lt_end (hr : Canonical (a :: rest)) (hb : Canonical (b :: bs))
    (h₁ : a.start ≤ b.«end») (h : b.«end» < a.«end») :
    inter (a :: rest) (b :: bs) = ⟨max a.start b.start, b.«end»⟩ ::
      inter ((if b.«end» + 2 ≤ a.«end» then [⟨b.«end» + 2, a.«end»⟩] else []) ++ rest) bs := by
  have hb₀ : b.start ≤ b.«end» := by simpa using (canonical_cons.mp hb).1
  rw [inter_cons_of_overlap (by simp; omega) (by simp; omega)]
  simp only [lo_eq, hi_eq, ofBounds_eq, if_neg (not_lt.mpr h.le), if_pos h, min_eq_right h.le]
  have hr' : Canonical ((⟨b.«end» + 1, a.«end»⟩ : Interval) :: rest) := by
    simpa using canonical_trim hr (x := b.«end» + 1) (by simp; omega)
  have hbs : ∀ v ∈ toSet bs, b.«end» + 1 < v := fun v hv => by
    simpa using lt_of_mem_tail hb hv
  congr 1
  split_ifs with h₂
  · -- `b.end + 1` is in the gap after `b`, so the split-off rest may start past it
    rw [inter_trim_left hr' (canonical_cons.mp hb).2.2 (x := b.«end» + 2) (by simp)
      (by simpa using h₂) (fun v hv _ => by have := hbs v hv; omega)]
    rfl
  · -- the rest is the single value `b.end + 1`, which `set_b` lacks
    rw [inter_drop_left hr' (canonical_cons.mp hb).2.2 (fun v hv => by
      have := hbs v hv; simp; omega)]
    rfl

theorem canonical_splitRest (hr : Canonical (a :: rest)) :
    Canonical ((if b.«end» + 2 ≤ a.«end» then [⟨b.«end» + 2, a.«end»⟩] else []) ++ rest) := by
  split_ifs with h
  · simpa using canonical_trim hr (x := b.«end» + 2) (by simpa using h)
  · simpa using (canonical_cons.mp hr).2.2

theorem bounded_splitRest (hr : Bounded MAX (a :: rest)) :
    Bounded MAX ((if b.«end» + 2 ≤ a.«end» then [⟨b.«end» + 2, a.«end»⟩] else []) ++ rest) := by
  split_ifs <;> simp_all

theorem applyLoop_eq (pre rest : List Interval) (b : Interval) (bs : List Interval)
    (hr : Canonical rest) (hb : Canonical (b :: bs)) (hrM : Bounded MAX rest)
    (hbM : Bounded MAX (b :: bs)) :
    applyLoop MAX (pre ++ rest) pre.length b bs = pre ++ inter rest (b :: bs) := by
  rw [applyLoop.eq_def]
  split
  · -- past the last slot of `set_a`
    rename_i h
    obtain rfl : rest = [] := by simpa using h
    rw [inter]
  rename_i x hx
  cases rest with
  | nil => simp at hx
  | cons a rest =>
  obtain rfl : a = x := by simpa using hx
  obtain ⟨ha, -, hr'⟩ := canonical_cons.mp hr
  obtain ⟨hb₀, -, hbs⟩ := canonical_cons.mp hb
  simp only [lo_eq, hi_eq] at ha hb₀
  obtain ⟨haM, hrM'⟩ := bounded_cons.mp hrM
  obtain ⟨hbM₀, hbsM⟩ := bounded_cons.mp hbM
  cases hcs : compare a.start b.start <;> cases hce : compare a.«end» b.«end» <;>
    simp only [Nat.compare_eq_lt, Nat.compare_eq_eq, Nat.compare_eq_gt] at hcs hce <;> dsimp only
  case eq.lt | gt.lt =>
    -- `a` lies in `b`: it stays, and `set_a` moves on
    rw [inter_cons_of_end_lt hr hb (by omega) hce, max_eq_left (by omega)]
    simpa using applyLoop_eq (pre ++ [a]) rest b bs hr' hb hrM' hbM
  case eq.gt | lt.gt =>
    -- `b` lies in `a`: `b` takes the slot, the rest of `a` is split off, both sets move on
    rw [inter_cons_of_lt_end hr hb (by omega) hce, max_eq_right (by omega)]
    cases bs with
    | nil =>
      rw [take_splitOffA_set]
      simp
    | cons b' bs =>
      have hlt : b.«end» + 1 < MAX := by
        have := (canonical_cons.mp hb).2.1 b' (by simp)
        have := (canonical_cons.mp hbs).1
        simp at *
        omega
      rw [splitOffA_set MAX hlt]
      simpa using applyLoop_eq (pre ++ [b]) _ b' bs (canonical_splitRest hr) hbs
        (bounded_splitRest MAX hrM) hbsM
  case gt.eq | eq.eq =>
    rw [inter_cons_of_end_eq hr hb hce, max_eq_left (by omega)]
    cases bs with
    | nil => simp [List.take_length_add_append]
    | cons b' bs => simpa using applyLoop_eq (pre ++ [a]) rest b' bs hr' hbs hrM' hbsM
  case lt.eq =>
    -- `a` ends with `b`: `a` is cut to start with `b`, both sets move on
    rw [inter_cons_of_end_eq hr hb hce, max_eq_right (by omega)]
    cases bs with
    | nil => simp [List.take_length_add_append]
    | cons b' bs => simpa using applyLoop_eq (pre ++ [(⟨b.start, a.«end»⟩ : Interval)]) rest b' bs hr' hbs hrM' hbsM
  case gt.gt =>
    split_ifs with hov
    · -- `a` overlaps the end of `b`: the overlap takes the slot, the rest of `a` is split off
      rw [inter_cons_of_lt_end hr hb hov hce, max_eq_left (by omega)]
      cases bs with
      | nil =>
        rw [take_splitOffA_set]
        simp
      | cons b' bs =>
        have hlt : b.«end» + 1 < MAX := by
          have := (canonical_cons.mp hb).2.1 b' (by simp)
          have := (canonical_cons.mp hbs).1
          simp at *
          omega
        rw [splitOffA_set MAX hlt]
        simpa using applyLoop_eq (pre ++ [(⟨a.start, b.«end»⟩ : Interval)]) _ b' bs (canonical_splitRest hr) hbs
          (bounded_splitRest MAX hrM) hbsM
    · -- `b` lies before `a`: `set_b` moves on
      rw [inter_cons_of_lt_lo (by simp; omega) (by simp; omega)]
      cases bs with
      | nil => simp
      | cons b' bs => exact applyLoop_eq pre (a :: rest) b' bs hr hbs hrM hbsM
  case lt.lt =>
    split_ifs with hov
    · -- `a` overlaps the start of `b`: `a` is cut to start with `b`, `set_a` moves on
      rw [inter_cons_of_end_lt hr hb hov hce, max_eq_right (by omega)]
      simpa using applyLoop_eq (pre ++ [(⟨b.start, a.«end»⟩ : Interval)]) rest b bs hr' hb hrM' hbM
    · -- `a` lies before `b`: it leaves `set_a`
      rw [inter_cons_of_hi_lt (by simp; omega), List.eraseIdx_append_of_length_le le_rfl]
      simpa using applyLoop_eq pre rest b bs hr' hb hrM' hbM
termination_by rest.length + bs.length
decreasing_by
  all_goals
    subst_vars
    simp only [List.length_cons, List.length_append]
    first
      | omega
      | (split <;> simp <;> omega)

theorem applyIntersection_eq {setA setB : List Interval} (hA : Canonical setA)
    (hB : Canonical setB) (hAM : Bounded MAX setA) (hBM : Bounded MAX setB) :
    applyIntersection MAX setA setB = inter setA setB := by
  unfold applyIntersection
  split_ifs with h
  · obtain rfl : setA = [] := List.isEmpty_iff.mp h
    cases setB <;> rw [inter]
  · cases setB with
    | nil => simp
    | cons b bs => simpa using applyLoop_eq MAX [] setA b bs hA hB hAM hBM

end Apply

end S2nQuic.IntervalSet
