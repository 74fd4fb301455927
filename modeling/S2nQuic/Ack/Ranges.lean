import S2nQuic.IntervalSet.Limit
import S2nQuic.Packet.Number

/-!
# ACK ranges

`ack::Ranges` (`ack/ranges.rs`) keeps the packet numbers received in one space as an interval
set with a limit; the set holds their values. `insert_packet_number_range` inserts a range, and
when the set is full it pops the lowest interval: if that interval lies below the range, the
range goes in and the error reports the interval dropped; otherwise the interval goes back in
front and the range is refused.

Each call stays within the limit, and what it loses lies below everything it keeps. Over a run
of calls this no longer holds: a low range inserted after a merge freed a slot is kept, while a
higher one dropped earlier is not.
-/

namespace S2nQuic.Ack

open IntervalSet IntervalList Packet Varint

/-- `Ranges`, over the values of the packet numbers of its space. -/
structure Ranges where
  intervalSet : IntervalSet
  deriving DecidableEq, Repr

inductive Error
  | rangeInsertionFailed (min max : Nat)
  | lowestRangeDropped (min max : Nat)
  deriving DecidableEq, Repr

namespace Ranges

/-- `Ranges::new`; its `expect` panics on a zero limit. -/
def new (limit : Nat) : Option Ranges :=
  if limit = 0 then none else some ⟨IntervalSet.withLimit limit⟩

/-- `insert_packet_number_range`. It returns `none` at its two `debug_assert!`s: that the range
goes in once the lowest interval is gone, and that a full set has a lowest interval. -/
def insertPacketNumberRange (self : Ranges) (pnRange : PacketNumberRange) :
    Option (Ranges × Except Error Unit) :=
  let start := pnRange.start.asU64
  let «end» := pnRange.«end».asU64
  match self.intervalSet.insert maxVarintValue (.included start) (.included «end») with
  | (intervalSet, .ok ()) => some (⟨intervalSet⟩, .ok ())
  | (intervalSet, .error _) =>
    match intervalSet.popMin with
    | (some min, intervalSet) =>
      if min.partialCmp start = .lt then
        match intervalSet.insert maxVarintValue (.included start) (.included «end») with
        | (intervalSet, .ok ()) =>
          some (⟨intervalSet⟩, .error (.lowestRangeDropped min.start min.«end»))
        | (_, .error _) => none
      else
        -- the range lies below the lowest interval, which goes back in front
        let intervalSet :=
          (intervalSet.insertFront maxVarintValue (.included min.start) (.included min.«end»)).1
        some (⟨intervalSet⟩, .error (.rangeInsertionFailed start «end»))
    | (none, _) => none

/-- `insert_packet_number`. -/
def insertPacketNumber (self : Ranges) (packetNumber : PacketNumber) :
    Option (Ranges × Except Error Unit) :=
  self.insertPacketNumberRange ⟨packetNumber, packetNumber, rfl, le_rfl⟩

def insertAll (self : Ranges) : List PacketNumberRange → Option Ranges
  | [] => some self
  | pnRange :: rest =>
    match self.insertPacketNumberRange pnRange with
    | some (self, _) => self.insertAll rest
    | none => none

/-- What `new` and the insertions keep: a well-formed set of packet numbers under its positive
limit `L`, with at most `L` intervals. -/
structure Valid (self : Ranges) (L : Nat) : Prop where
  wellFormed : self.intervalSet.WellFormed maxVarintValue
  limit_eq : self.intervalSet.limit = some L
  limit_pos : 0 < L
  len_le : self.intervalSet.intervalLen ≤ L

theorem new_valid {limit : Nat} {self : Ranges} (h : new limit = some self) : self.Valid limit := by
  unfold new at h
  split_ifs at h with h0
  obtain rfl := Option.some.inj h
  exact ⟨⟨canonical_nil, bounded_nil _⟩, rfl, Nat.pos_of_ne_zero h0, Nat.zero_le _⟩

theorem maxVarintValue_le_usize : maxVarintValue ≤ USIZE_MAX := by
  simp [maxVarintValue, USIZE_MAX]

theorem fromRangeBounds_included {s e : Nat} (h : s ≤ e) :
    Interval.fromRangeBounds (.included s) (.included e) = .ok ⟨s, e⟩ := by
  simp [Interval.fromRangeBounds, Interval.isValid, h]
  rfl

theorem underLimit_some (L len : Nat) : underLimit (some L) len = decide (len < L) := rfl

/-- The contract of one insertion, from the intervals `l` and the range `[s, e]` to the
intervals `l'` and the result: which result comes exactly when, and that what is lost lies
below everything kept. -/
def InsertOutcome (l : List Interval) (s e : Nat) (l' : List Interval)
    (res : Except Error Unit) : Prop :=
  (res = .ok () ↔ toSet l' = toSet l ∪ Set.Icc s e) ∧
  (∀ mn mx, res = .error (.lowestRangeDropped mn mx) ↔
    l.head? = some ⟨mn, mx⟩ ∧ mx < s ∧ toSet l' = toSet l \ Set.Icc mn mx ∪ Set.Icc s e) ∧
  (res = .error (.rangeInsertionFailed s e) ↔
    (∀ i ∈ l, e < i.start) ∧ toSet l' = toSet l) ∧
  (res = .ok () ∨ (∃ mn mx, res = .error (.lowestRangeDropped mn mx)) ∨
    res = .error (.rangeInsertionFailed s e)) ∧
  ∀ v ∈ toSet l ∪ Set.Icc s e, v ∉ toSet l' → ∀ w ∈ toSet l', v < w

section Outcome

variable {l rest : List Interval} {m : Interval} {s e : Nat}

theorem union_ne_of_lowest_below (hc : Canonical (m :: rest)) (hms : m.«end» < s) :
    toSet (m :: rest) ∪ Set.Icc s e ≠ toSet (m :: rest) \ Set.Icc m.start m.«end» ∪ Set.Icc s e := by
  intro h
  have hm : m.start ≤ m.«end» := by simpa using (canonical_cons.mp hc).1
  have hmem : m.start ∈ toSet (m :: rest) ∪ Set.Icc s e := .inl (.inl ⟨by simp, by simpa using hm⟩)
  rw [h] at hmem
  rcases hmem with ⟨-, hnot⟩ | hI
  · exact hnot ⟨le_rfl, hm⟩
  · exact absurd hI.1 (by omega)

theorem union_ne_of_below (hbelow : ∀ i ∈ l, e < i.start) (hse : s ≤ e) :
    toSet l ∪ Set.Icc s e ≠ toSet l := by
  intro h
  have hs : s ∈ toSet l := h ▸ .inr ⟨le_rfl, hse⟩
  obtain ⟨i, hi, hlo, -⟩ := mem_toSet.mp hs
  have := hbelow i hi
  simp only [lo_eq] at hlo
  omega

theorem forall_lt_start (hc : Canonical (m :: rest)) (h : e < m.start) :
    ∀ i ∈ m :: rest, e < i.start := by
  intro i hi
  rcases List.mem_cons.mp hi with rfl | hi
  · exact h
  · have := (canonical_cons.mp hc).2.1 i hi
    have hm := (canonical_cons.mp hc).1
    simp only [before_iff, lo_eq, hi_eq] at this hm
    omega

theorem insertOutcome_ok (hc : Canonical l) (hse : s ≤ e) :
    InsertOutcome l s e (IntervalList.insert l ⟨s, e⟩) (.ok ()) := by
  have hset : toSet (IntervalList.insert l ⟨s, e⟩) = toSet l ∪ Set.Icc s e := by
    simpa using (insert_spec hc (a := (⟨s, e⟩ : Interval)) (by simpa using hse)).2
  refine ⟨by simp [hset], fun mn mx => ?_, ?_, .inl rfl, ?_⟩
  · simp only [reduceCtorEq, false_iff, not_and]
    intro hhead hmx hS
    obtain ⟨m, rest, rfl⟩ : ∃ m rest, l = m :: rest := by
      cases l with
      | nil => simp at hhead
      | cons m rest => exact ⟨m, rest, rfl⟩
    obtain rfl := Option.some.inj hhead
    exact union_ne_of_lowest_below hc hmx (hset ▸ hS)
  · simp only [reduceCtorEq, false_iff, not_and, hset]
    exact fun hbelow => union_ne_of_below hbelow hse
  · intro v hv hv'
    exact absurd (hset ▸ hv) hv'

theorem insertOutcome_dropped (hc : Canonical (m :: rest)) (hms : m.«end» < s) (hse : s ≤ e) :
    InsertOutcome (m :: rest) s e (IntervalList.insert rest ⟨s, e⟩)
      (.error (.lowestRangeDropped m.start m.«end»)) := by
  obtain ⟨hm, -, hrest⟩ := canonical_cons.mp hc
  simp only [lo_eq, hi_eq] at hm
  have hset : toSet (IntervalList.insert rest ⟨s, e⟩) =
      toSet (m :: rest) \ Set.Icc m.start m.«end» ∪ Set.Icc s e := by
    rw [(insert_spec hrest (a := (⟨s, e⟩ : Interval)) (by simpa using hse)).2, toSet_tail hc]
    simp
  refine ⟨?_, fun mn mx => ?_, ?_, .inr (.inl ⟨_, _, rfl⟩), ?_⟩
  · simp only [reduceCtorEq, false_iff, hset]
    exact (union_ne_of_lowest_below hc hms).symm
  · simp only [Except.error.injEq, Error.lowestRangeDropped.injEq, List.head?_cons,
      Option.some.injEq]
    constructor
    · rintro ⟨rfl, rfl⟩
      exact ⟨rfl, hms, hset⟩
    · rintro ⟨rfl, -, -⟩
      exact ⟨rfl, rfl⟩
  · simp only [Except.error.injEq, reduceCtorEq, false_iff, not_and]
    intro hbelow
    have := hbelow m (by simp)
    omega
  · -- only the dropped interval is lost, and everything kept lies above it
    intro v hv hv' w hw
    have hvm : v ≤ m.«end» := by
      rw [hset] at hv'
      rcases hv with hv | hv
      · by_contra hgt
        exact hv' (.inl ⟨hv, fun hin => hgt hin.2⟩)
      · exact absurd (.inr hv) hv'
    have htail := toSet_tail hc
    simp only [lo_eq, hi_eq] at htail
    rw [hset, ← htail] at hw
    rcases hw with hw | hw
    · have := lt_of_mem_tail hc hw
      simp only [hi_eq] at this
      omega
    · have := hw.1
      omega

theorem insertOutcome_failed (hc : Canonical (m :: rest)) (hbelow : e + 1 < m.start)
    (hse : s ≤ e) :
    InsertOutcome (m :: rest) s e (m :: rest) (.error (.rangeInsertionFailed s e)) := by
  have hall := forall_lt_start hc (show e < m.start by omega)
  have hm : m.start ≤ m.«end» := by simpa using (canonical_cons.mp hc).1
  refine ⟨?_, fun mn mx => ?_, iff_of_true rfl ⟨hall, rfl⟩, .inr (.inr rfl), ?_⟩
  · simp only [reduceCtorEq, false_iff]
    exact (union_ne_of_below hall hse).symm
  · simp only [Except.error.injEq, reduceCtorEq, false_iff, not_and, List.head?_cons,
      Option.some.injEq]
    rintro rfl hmx
    simp only at hm hbelow
    omega
  · -- only values of the range are lost, and every interval lies above it
    intro v hv hv' w hw
    rcases hv with hv | hv
    · exact absurd hv hv'
    obtain ⟨i, hi, hlo, -⟩ := mem_toSet.mp hw
    have := hall i hi
    simp only [lo_eq] at hlo
    have := hv.2
    omega

end Outcome

section Insert

variable {self : Ranges} {L : Nat}

theorem insertPacketNumberRange_cases (h : self.Valid L) (r : PacketNumberRange) :
    let s := r.start.asU64
    let e := r.«end».asU64
    let l := self.intervalSet.intervals
    (self.insertPacketNumberRange r =
        some (⟨{ self.intervalSet with intervals := IntervalList.insert l ⟨s, e⟩ }⟩, .ok ()) ∧
      (⟨{ self.intervalSet with intervals := IntervalList.insert l ⟨s, e⟩ }⟩ : Ranges).Valid L) ∨
    (∃ m rest, l = m :: rest ∧ m.«end» < s ∧
      self.insertPacketNumberRange r =
        some (⟨{ self.intervalSet with intervals := IntervalList.insert rest ⟨s, e⟩ }⟩,
          .error (.lowestRangeDropped m.start m.«end»)) ∧
      (⟨{ self.intervalSet with intervals := IntervalList.insert rest ⟨s, e⟩ }⟩ : Ranges).Valid L) ∨
    (∃ m rest, l = m :: rest ∧ e + 1 < m.start ∧
      self.insertPacketNumberRange r = some (self, .error (.rangeInsertionFailed s e))) := by
  obtain ⟨⟨limit, ints⟩⟩ := self
  obtain ⟨⟨hc, hbd⟩, hlim, hL, hlen⟩ := h
  dsimp only at hlim hlen ⊢
  set s := r.start.asU64
  set e := r.«end».asU64
  simp only [IntervalSet.intervalLen] at hlen
  subst hlim
  have hb : Bound.InType maxVarintValue (.included e) := r.«end».value.le_max
  have hse : s ≤ e := r.le
  have hi := fromRangeBounds_included hse
  have hpos : some L ≠ some 0 := by simpa using hL.ne'
  have hfirst := IntervalSet.insert_limit_eq maxVarintValue_le_usize ⟨hc, hbd⟩ hpos hi hb
  unfold insertPacketNumberRange
  dsimp only at hfirst ⊢
  rw [hfirst]
  by_cases hfull : (IntervalList.insert ints ⟨s, e⟩).length = ints.length + 1 ∧
      underLimit (some L) ints.length = false
  swap
  · -- there is room, or the range merges with what is there
    rw [if_neg hfull]
    obtain ⟨hc', hb', -⟩ := insert_wellFormed hc hbd (a := ⟨s, e⟩) hse hb
    refine .inl ⟨rfl, ⟨hc', hb'⟩, rfl, hL, ?_⟩
    have := length_insert_le ints ⟨s, e⟩
    simp only [IntervalSet.intervalLen]
    rw [underLimit_some] at hfull
    simp only [decide_eq_false_iff_not, not_lt] at hfull
    omega
  -- the set is full and the range needs a slot of its own: pop the lowest interval
  rw [if_pos hfull]
  obtain ⟨hnew, hunder⟩ := hfull
  rw [underLimit_some, decide_eq_false_iff_not, not_lt] at hunder
  obtain ⟨m, rest, rfl⟩ : ∃ m rest, ints = m :: rest := by
    cases ints with
    | nil => simp at hunder; omega
    | cons m rest => exact ⟨m, rest, rfl⟩
  obtain ⟨hm, hmrest, hrest⟩ := canonical_cons.mp hc
  obtain ⟨hmM, hrestM⟩ := bounded_cons.mp hbd
  simp only [List.length_cons] at hlen hunder
  simp only [lo_eq, hi_eq] at hm
  simp only [IntervalSet.popMin, List.head?_cons, List.tail_cons]
  have hwf' : IntervalSet.WellFormed maxVarintValue ⟨some L, rest⟩ := ⟨hrest, hrestM⟩
  have hroom : underLimit (some L) rest.length = true := by
    rw [underLimit_some, decide_eq_true_eq]
    omega
  by_cases hlt : m.partialCmp s = .lt
  · -- the lowest interval lies below the range: it is dropped and the range goes in
    rw [if_pos hlt, IntervalSet.insert_limit_eq maxVarintValue_le_usize hwf' hpos hi hb,
      if_neg (by simp [hroom])]
    obtain ⟨hc', hb', -⟩ := insert_wellFormed hrest hrestM (a := ⟨s, e⟩) hse hb
    refine .inr (.inl ⟨m, rest, rfl, (Interval.partialCmp_eq_lt hm).mp hlt, rfl, ⟨hc', hb'⟩, rfl,
      hL, ?_⟩)
    have := length_insert_le rest ⟨s, e⟩
    simp only [IntervalSet.intervalLen]
    omega
  · -- the range lies below the lowest interval, apart from it: the interval goes back
    have hsm : s ≤ m.«end» := by
      have := (Interval.partialCmp_eq_lt hm).not.mp hlt
      omega
    have hbelow : e + 1 < m.start := by
      have := (length_insert_eq_iff hc).mp hnew m (by simp)
      simp only [before_iff] at this
      omega
    have hfront : IntervalList.insert rest ⟨m.start, m.«end»⟩ = m :: rest :=
      insert_of_forall_before (by simpa using hm) hrest hmrest
    rw [if_neg hlt, IntervalSet.insertFront_limit_eq maxVarintValue_le_usize hwf' hpos
      (fromRangeBounds_included hm) (show m.«end» ≤ maxVarintValue from hmM), hfront,
      if_neg (by simp [hroom])]
    exact .inr (.inr ⟨m, rest, rfl, hbelow, rfl⟩)

/-- On a valid `Ranges`, `insert_packet_number_range` never panics, keeps the set valid, and
meets `InsertOutcome`: `Ok` exactly when the set becomes the union with the range,
`LowestRangeDropped` exactly when the lowest interval lay below the range and gave way to it,
and `RangeInsertionFailed` exactly when the range lay below every interval and nothing changed.
What one call loses lies below everything it keeps. -/
theorem insertPacketNumberRange_sheds_lowest (h : self.Valid L) (r : PacketNumberRange) :
    ∃ self' res, self.insertPacketNumberRange r = some (self', res) ∧ self'.Valid L ∧
      InsertOutcome self.intervalSet.intervals r.start.asU64 r.«end».asU64
        self'.intervalSet.intervals res := by
  obtain ⟨⟨hc, -⟩, -⟩ := id h
  have hse := r.le
  rcases insertPacketNumberRange_cases h r with ⟨heq, hv⟩ | ⟨m, rest, hl, hms, heq, hv⟩ |
    ⟨m, rest, hl, hbelow, heq⟩
  · exact ⟨_, _, heq, hv, insertOutcome_ok hc hse⟩
  · rw [hl] at hc ⊢
    exact ⟨_, _, heq, hv, insertOutcome_dropped hc hms hse⟩
  · rw [hl] at hc
    refine ⟨_, _, heq, h, ?_⟩
    rw [hl]
    exact insertOutcome_failed hc hbelow hse

theorem insertPacketNumberRange_sheds_lowest_ten :
    ∃ self' res, (⟨⟨some 1, [⟨10, 10⟩]⟩⟩ : Ranges).insertPacketNumberRange
        ⟨⟨.initial, ⟨20, by decide⟩⟩, ⟨.initial, ⟨20, by decide⟩⟩, rfl, le_rfl⟩ =
          some (self', res) ∧
      self'.Valid 1 ∧ InsertOutcome [⟨10, 10⟩] 20 20 self'.intervalSet.intervals res :=
  insertPacketNumberRange_sheds_lowest
    ⟨⟨canonical_cons.mpr ⟨by simp, by simp, canonical_nil⟩, by simp [maxVarintValue]⟩, rfl,
      by decide, by decide⟩ _

theorem insertPacketNumberRange_valid (h : self.Valid L) (r : PacketNumberRange) :
    ∃ self' res, self.insertPacketNumberRange r = some (self', res) ∧ self'.Valid L := by
  rcases insertPacketNumberRange_cases h r with ⟨heq, hv⟩ | ⟨_, _, _, _, heq, hv⟩ |
    ⟨_, _, _, _, heq⟩
  · exact ⟨_, _, heq, hv⟩
  · exact ⟨_, _, heq, hv⟩
  · exact ⟨_, _, heq, h⟩

end Insert

theorem insertAll_valid {L : Nat} :
    ∀ (rs : List PacketNumberRange) {self : Ranges}, self.Valid L →
      ∃ self', self.insertAll rs = some self' ∧ self'.Valid L
  | [], self, h => ⟨self, rfl, h⟩
  | r :: rs, self, h => by
    obtain ⟨self', res, heq, hv⟩ := insertPacketNumberRange_valid h r
    simp only [insertAll, heq]
    exact insertAll_valid rs hv

theorem new_insertAll_valid {limit : Nat} {ranges : Ranges} (h : new limit = some ranges)
    (rs : List PacketNumberRange) :
    ∃ ranges', ranges.insertAll rs = some ranges' ∧ ranges'.Valid limit :=
  insertAll_valid rs (new_valid h)

theorem new_insertAll_valid_limit_two :
    ∃ ranges ranges', new 2 = some ranges ∧ ranges.insertAll
      [⟨⟨.initial, ⟨10, by decide⟩⟩, ⟨.initial, ⟨10, by decide⟩⟩, rfl, le_rfl⟩,
       ⟨⟨.initial, ⟨20, by decide⟩⟩, ⟨.initial, ⟨20, by decide⟩⟩, rfl, le_rfl⟩,
       ⟨⟨.initial, ⟨30, by decide⟩⟩, ⟨.initial, ⟨30, by decide⟩⟩, rfl, le_rfl⟩] = some ranges' ∧
      ranges'.Valid 2 := by
  obtain ⟨ranges, hnew⟩ : ∃ ranges, new 2 = some ranges := ⟨_, rfl⟩
  obtain ⟨ranges', hins, hv⟩ := new_insertAll_valid hnew
    [⟨⟨.initial, ⟨10, by decide⟩⟩, ⟨.initial, ⟨10, by decide⟩⟩, rfl, le_rfl⟩,
     ⟨⟨.initial, ⟨20, by decide⟩⟩, ⟨.initial, ⟨20, by decide⟩⟩, rfl, le_rfl⟩,
     ⟨⟨.initial, ⟨30, by decide⟩⟩, ⟨.initial, ⟨30, by decide⟩⟩, rfl, le_rfl⟩]
  exact ⟨ranges, ranges', hnew, hins, hv⟩

/-- Over a run the highest packet numbers are not what is kept: with a limit of two, `10` is
dropped for `30`, the range `21..=29` then merges `20` and `30` into one interval, and `5` is
kept below the dropped `10`. -/
theorem insertAll_keeps_five_drops_ten :
    ((new 2).bind fun ranges => ranges.insertAll
      [⟨⟨.initial, ⟨10, by decide⟩⟩, ⟨.initial, ⟨10, by decide⟩⟩, rfl, le_rfl⟩,
       ⟨⟨.initial, ⟨20, by decide⟩⟩, ⟨.initial, ⟨20, by decide⟩⟩, rfl, le_rfl⟩,
       ⟨⟨.initial, ⟨30, by decide⟩⟩, ⟨.initial, ⟨30, by decide⟩⟩, rfl, le_rfl⟩,
       ⟨⟨.initial, ⟨21, by decide⟩⟩, ⟨.initial, ⟨29, by decide⟩⟩, rfl, by decide⟩,
       ⟨⟨.initial, ⟨5, by decide⟩⟩, ⟨.initial, ⟨5, by decide⟩⟩, rfl, le_rfl⟩]).map
      (·.intervalSet.intervals) = some [⟨5, 5⟩, ⟨20, 30⟩] := by
  decide

end Ranges

end S2nQuic.Ack
