import S2nQuic.Time

/-!
# Token buckets

`TokenBucket` (`s2n-quic-core/src/time/token_bucket.rs`) hands out up to `max` credits and
adds `refill_amount` of them back each `refill_interval`, on a timer its owner polls.
`on_timeout` runs the refills that are due in a `while` loop. Each pass of the loop adds
credits or moves the timer forward, except a pass that adds nothing and moves the timer by
less than the timestamp's microsecond: the loop then repeats that pass for ever, and the
model returns `none` there, as it does at a failed `debug_assert!`.

The `u64` counters are natural numbers. The one sum, `current.saturating_add(refill_amount)`,
is taken below `max` and capped by `max` right after, so saturating at `u64::MAX` changes
nothing.
-/

namespace S2nQuic

structure TokenBucket where
  current : Nat
  refillAmount : Nat
  refillInterval : Duration
  refillTimer : Timer
  max : Nat
  deriving DecidableEq, Repr

namespace TokenBucket

/-- `Builder`, with the values of `Builder::default`. -/
structure Builder where
  max : Nat := 100
  refillInterval : Duration := 1000000000
  refillAmount : Nat := 5

/-- `Builder::build`: a full bucket whose timer is not armed. -/
def Builder.build (self : Builder) : TokenBucket where
  current := self.max
  max := self.max
  refillAmount := self.refillAmount
  refillInterval := self.refillInterval
  refillTimer := {}

/-- The `while` loop of `on_timeout`, from the test `current < max` that opens each pass. -/
def refill (self : TokenBucket) (now : Timestamp) : Option TokenBucket :=
  if _hlt : self.current < self.max then
    match _htimer : self.refillTimer.expiration with
    | some target =>
      if _helapsed : !target.hasElapsed now then some self
      else
        let current := min self.max (self.current + self.refillAmount)
        if _hmax : current = self.max then
          some { self with current, refillTimer := self.refillTimer.cancel }
        else
          let next := Timestamp.addDuration target self.refillInterval
          -- a pass that changes nothing is run again for ever
          if _hstuck : current = self.current ∧ next = target then none
          else refill { self with current, refillTimer := self.refillTimer.set next } now
    | none =>
      -- no timer yet: arm it one interval from now
      some { self with refillTimer := self.refillTimer.set (Timestamp.addDuration now self.refillInterval) }
  else some self
termination_by (self.max - self.current, now + kGranularity - self.refillTimer.expiration.getD 0)
decreasing_by
  simp only [Timer.set, _htimer, Option.getD_some, Prod.lex_def]
  have hle : target ≤ next := Timestamp.le_addDuration target self.refillInterval
  have hnow : target < now + kGranularity := by simpa [Timestamp.hasElapsed] using _helapsed
  simp only [Timestamp] at *
  omega

/-- `invariants`: its two `debug_assert!`s. -/
def invariants (self : TokenBucket) : Option TokenBucket :=
  if self.current ≤ self.max ∧ self.refillTimer.isArmed = decide (self.current < self.max) then
    some self
  else none

def onTimeout (self : TokenBucket) (now : Timestamp) : Option TokenBucket :=
  (self.refill now).bind invariants

/-- `take`: the credits handed out, at most `amount`, and the bucket after. -/
def take (self : TokenBucket) (amount : Nat) (now : Timestamp) : Option (Nat × TokenBucket) :=
  if amount = 0 then (self.onTimeout now).map ((0, ·))
  else
    -- try to refill the bucket if the whole amount is not there
    (if self.current < amount then self.onTimeout now else some self).bind fun self =>
      let credits := min amount self.current
      ({ self with current := self.current - credits } : TokenBucket).onTimeout now |>.map
        ((credits, ·))

/-- `set_refill_interval`: a pending refill is moved to one new interval after the time the
old interval started from. -/
def setRefillInterval (self : TokenBucket) (newInterval : Duration) : TokenBucket :=
  if self.refillInterval = newInterval then self
  else
    let prevInterval := self.refillInterval
    let self := { self with refillInterval := newInterval }
    match self.refillTimer.expiration with
    | some target =>
      match Timestamp.checkedSub target prevInterval with
      | some now =>
        { self with refillTimer := self.refillTimer.set (Timestamp.addDuration now newInterval) }
      | none => self
    | none => self

/-! ## What the loop keeps -/

/-- What `invariants` asserts: never above `max`, and the timer armed exactly while the bucket
is short. -/
structure Inv (bucket : TokenBucket) : Prop where
  current_le : bucket.current ≤ bucket.max
  isArmed_iff : bucket.refillTimer.isArmed = true ↔ bucket.current < bucket.max

/-- A bucket the loop may start from: `take` leaves one after handing out credits. -/
structure Fillable (bucket : TokenBucket) : Prop where
  current_le : bucket.current ≤ bucket.max
  not_armed : bucket.current = bucket.max → bucket.refillTimer.isArmed = false

/-- Each pass of the loop adds credits or moves the timer by a microsecond or more, or the
bucket holds nothing at all. -/
def Progresses (bucket : TokenBucket) : Prop :=
  0 < bucket.refillAmount ∨ 1000 ≤ bucket.refillInterval ∨ bucket.max = 0

/-- Two buckets of one capacity and refill rate. -/
structure SameRate (bucket bucket' : TokenBucket) : Prop where
  max_eq : bucket'.max = bucket.max
  refillAmount_eq : bucket'.refillAmount = bucket.refillAmount
  refillInterval_eq : bucket'.refillInterval = bucket.refillInterval

theorem SameRate.refl (bucket : TokenBucket) : SameRate bucket bucket := ⟨rfl, rfl, rfl⟩

theorem SameRate.trans {b₁ b₂ b₃ : TokenBucket} (h₁ : SameRate b₁ b₂) (h₂ : SameRate b₂ b₃) :
    SameRate b₁ b₃ :=
  ⟨h₂.max_eq.trans h₁.max_eq, h₂.refillAmount_eq.trans h₁.refillAmount_eq,
    h₂.refillInterval_eq.trans h₁.refillInterval_eq⟩

theorem SameRate.progresses {bucket bucket' : TokenBucket} (h : SameRate bucket bucket')
    (hp : bucket.Progresses) : bucket'.Progresses := by
  unfold Progresses
  rw [h.max_eq, h.refillAmount_eq, h.refillInterval_eq]
  exact hp

theorem inv_build (builder : Builder) : builder.build.Inv :=
  ⟨le_rfl, by simp [Builder.build, Timer.isArmed]⟩

theorem Inv.fillable {bucket : TokenBucket} (h : bucket.Inv) : bucket.Fillable :=
  ⟨h.current_le, fun heq => by simpa [heq] using h.isArmed_iff⟩

theorem Inv.fillable_sub {bucket : TokenBucket} (h : bucket.Inv) (credits : Nat) :
    Fillable { bucket with current := bucket.current - credits } := by
  have hle := h.current_le
  refine ⟨by dsimp only; omega, fun hfull => ?_⟩
  have hmax : bucket.current = bucket.max := by dsimp only at hfull; omega
  simpa [hmax] using h.isArmed_iff

theorem Fillable.inv_of_full {bucket : TokenBucket} (h : bucket.Fillable)
    (hfull : bucket.current = bucket.max) : bucket.Inv :=
  ⟨h.current_le, by simp [h.not_armed hfull, hfull]⟩

theorem isArmed_of_expiration {timer : Timer} {target : Timestamp}
    (h : timer.expiration = some target) : timer.isArmed = true := by
  simp [Timer.isArmed, h]

theorem refill_spec {bucket : TokenBucket} (now : Timestamp) (hp : bucket.Progresses)
    (hf : bucket.Fillable) :
    ∃ bucket', bucket.refill now = some bucket' ∧ bucket'.Inv ∧ SameRate bucket bucket' := by
  fun_induction refill bucket now with
  | case1 bucket hlt target htimer _ =>
    have harmed := isArmed_of_expiration htimer
    exact ⟨bucket, rfl, ⟨hf.current_le, by simp [harmed, hlt]⟩, .refl bucket⟩
  | case2 bucket hlt target htimer _ current hmax =>
    exact ⟨_, rfl, ⟨by simp [hmax], by simp [Timer.cancel, Timer.isArmed, hmax]⟩, ⟨rfl, rfl, rfl⟩⟩
  | case3 bucket hlt target htimer helapsed current hmax next hstuck =>
    exfalso
    obtain ⟨hcur, hnext⟩ := hstuck
    rcases hp with hamount | hinterval | hzero
    · have : bucket.current < current := lt_min hlt (by omega)
      omega
    · have hmoves := Timestamp.lt_addDuration target hinterval
      simp only [next] at hnext
      rw [hnext] at hmoves
      exact lt_irrefl _ hmoves
    · omega
  | case4 bucket hlt target htimer helapsed current hmax next hstuck ih =>
    have hle : current ≤ bucket.max := min_le_left _ _
    obtain ⟨bucket', hrefill, hinv, hrate⟩ := ih hp ⟨hle, fun h => absurd h hmax⟩
    exact ⟨bucket', hrefill, hinv, ⟨hrate.max_eq, hrate.refillAmount_eq, hrate.refillInterval_eq⟩⟩
  | case5 bucket hlt htimer =>
    exact ⟨_, rfl, ⟨hf.current_le, by simp [hlt]⟩, ⟨rfl, rfl, rfl⟩⟩
  | case6 bucket hge =>
    exact ⟨bucket, rfl, hf.inv_of_full (by have := hf.current_le; omega), .refl bucket⟩

theorem invariants_of_inv {bucket : TokenBucket} (h : bucket.Inv) :
    bucket.invariants = some bucket := by
  have harmed : bucket.refillTimer.isArmed = decide (bucket.current < bucket.max) := by
    rw [Bool.eq_iff_iff, decide_eq_true_iff]
    exact h.isArmed_iff
  simp [invariants, h.current_le, harmed]

theorem onTimeout_spec {bucket : TokenBucket} (now : Timestamp) (hp : bucket.Progresses)
    (hf : bucket.Fillable) :
    ∃ bucket', bucket.onTimeout now = some bucket' ∧ bucket'.Inv ∧ SameRate bucket bucket' := by
  obtain ⟨bucket', hrefill, hinv, hrate⟩ := refill_spec now hp hf
  exact ⟨bucket', by simp [onTimeout, hrefill, invariants_of_inv hinv], hinv, hrate⟩

theorem take_spec {bucket : TokenBucket} (amount : Nat) (now : Timestamp)
    (hp : bucket.Progresses) (h : bucket.Inv) :
    ∃ credits bucket', bucket.take amount now = some (credits, bucket') ∧ credits ≤ amount ∧
      bucket'.Inv ∧ SameRate bucket bucket' := by
  unfold take
  by_cases hzero : amount = 0
  · obtain ⟨bucket', hb, hinv, hrate⟩ := onTimeout_spec now hp h.fillable
    exact ⟨0, bucket', by simp [hzero, hb], Nat.zero_le _, hinv, hrate⟩
  · -- first the refill when the bucket is short, then the credits, then the refill after them
    obtain ⟨b₁, hb₁, hinv₁, hrate₁⟩ : ∃ b₁, (if bucket.current < amount then bucket.onTimeout now
        else some bucket) = some b₁ ∧ b₁.Inv ∧ SameRate bucket b₁ := by
      split_ifs
      · exact onTimeout_spec now hp h.fillable
      · exact ⟨bucket, rfl, h, .refl bucket⟩
    have hp₁ : Progresses { b₁ with current := b₁.current - min amount b₁.current } :=
      hrate₁.progresses hp
    obtain ⟨b₂, hb₂, hinv₂, hrate₂⟩ :=
      onTimeout_spec now hp₁ (hinv₁.fillable_sub (min amount b₁.current))
    refine ⟨min amount b₁.current, b₂, ?_, min_le_left _ _, hinv₂,
      hrate₁.trans ⟨hrate₂.max_eq, hrate₂.refillAmount_eq, hrate₂.refillInterval_eq⟩⟩
    simp only [if_neg hzero, hb₁, Option.bind_some, hb₂, Option.map_some]

theorem setRefillInterval_eq (bucket : TokenBucket) (newInterval : Duration) :
    ∃ interval timer, bucket.setRefillInterval newInterval =
      { bucket with refillInterval := interval, refillTimer := timer } ∧
        timer.isArmed = bucket.refillTimer.isArmed := by
  unfold setRefillInterval
  split_ifs
  · exact ⟨bucket.refillInterval, bucket.refillTimer, rfl, rfl⟩
  · rcases htimer : bucket.refillTimer.expiration with _ | target
    · exact ⟨newInterval, bucket.refillTimer, by simp [htimer], rfl⟩
    · rcases hsub : Timestamp.checkedSub target bucket.refillInterval with _ | now
      · exact ⟨newInterval, bucket.refillTimer, by simp [htimer, hsub], rfl⟩
      · exact ⟨newInterval, bucket.refillTimer.set (Timestamp.addDuration now newInterval),
          by simp [htimer, hsub], by simp [isArmed_of_expiration htimer]⟩

theorem Inv.setRefillInterval {bucket : TokenBucket} (h : bucket.Inv) (newInterval : Duration) :
    (bucket.setRefillInterval newInterval).Inv ∧
      (bucket.setRefillInterval newInterval).max = bucket.max ∧
      (bucket.setRefillInterval newInterval).refillAmount = bucket.refillAmount := by
  obtain ⟨interval, timer, heq, harmed⟩ := setRefillInterval_eq bucket newInterval
  rw [heq]
  exact ⟨⟨h.current_le, by rw [harmed]; exact h.isArmed_iff⟩, rfl, rfl⟩

/-! ## A refill that moves nothing -/

theorem refill_of_unarmed {bucket : TokenBucket} (now : Timestamp)
    (hlt : bucket.current < bucket.max) (htimer : bucket.refillTimer.expiration = none) :
    bucket.refill now = some { bucket with
      refillTimer := bucket.refillTimer.set (Timestamp.addDuration now bucket.refillInterval) } := by
  rw [refill, dif_pos hlt]
  split
  · next target htarget =>
    rw [htimer] at htarget
    cases htarget
  · rfl

theorem refill_stuck {bucket : TokenBucket} {now target : Timestamp}
    (hamount : bucket.refillAmount = 0) (hinterval : bucket.refillInterval < 1000)
    (hlt : bucket.current < bucket.max) (htimer : bucket.refillTimer.expiration = some target)
    (htarget : 0 < target) (hdue : target.hasElapsed now = true) :
    { bucket with
        current := min bucket.max (bucket.current + bucket.refillAmount)
        refillTimer := bucket.refillTimer.set (target.addDuration bucket.refillInterval) } =
      bucket ∧ bucket.onTimeout now = none := by
  have hcur : min bucket.max (bucket.current + bucket.refillAmount) = bucket.current := by
    rw [hamount, Nat.add_zero]
    exact min_eq_right hlt.le
  have hnext : target.addDuration bucket.refillInterval = target :=
    Timestamp.addDuration_of_lt htarget hinterval
  have htimer' : bucket.refillTimer.set target = bucket.refillTimer := by
    simp only [Timer.set, ← htimer]
  refine ⟨by rw [hcur, hnext, htimer'], ?_⟩
  unfold onTimeout
  rw [refill, dif_pos hlt]
  split
  · next target' htarget' =>
    rw [htimer] at htarget'
    cases htarget'
    simp [hdue, hcur, hnext, Nat.ne_of_lt hlt]
  · next hnone =>
    rw [htimer] at hnone
    cases hnone

/-- A bucket built with no refill amount and an interval under a microsecond: once a `take`
has emptied it, the next `take` at the same time never returns. -/
theorem take_hangs_below_a_microsecond (max : Nat) (interval : Duration) (now : Timestamp)
    (hmax : 0 < max) (hinterval : interval < 1000) (hnow : 0 < now) :
    ∃ bucket, (Builder.build ⟨max, interval, 0⟩).take max now = some (max, bucket) ∧
      bucket.take 1 now = none := by
  have hnext : now.addDuration interval = now := Timestamp.addDuration_of_lt hnow hinterval
  let emptied : TokenBucket := ⟨0, 0, interval, ⟨some now⟩, max⟩
  have harm : (⟨0, 0, interval, {}, max⟩ : TokenBucket).refill now = some emptied := by
    rw [refill_of_unarmed now hmax rfl]
    simp [hnext, Timer.set, emptied]
  have hfirst : (Builder.build ⟨max, interval, 0⟩).take max now = some (max, emptied) := by
    have hinv : emptied.invariants = some emptied := by
      simp [invariants, Timer.isArmed, emptied, hmax]
    simp [take, onTimeout, Builder.build, Nat.ne_of_gt hmax, harm, hinv]
  refine ⟨emptied, hfirst, ?_⟩
  have hdue : now.hasElapsed now = true := by simp [Timestamp.hasElapsed, kGranularity]
  have hstuck : emptied.onTimeout now = none :=
    (refill_stuck (show emptied.refillAmount = 0 from rfl) hinterval hmax rfl hnow hdue).2
  simp [take, emptied, hstuck]

theorem take_hangs_below_a_microsecond_one :
    (0 : Nat) < 1 ∧ (1 : Duration) < 1000 ∧ (0 : Timestamp) < 1 ∧
      ∃ bucket, (Builder.build ⟨1, 1, 0⟩).take 1 1 = some (1, bucket) ∧
        bucket.take 1 1 = none :=
  ⟨by decide, by decide, by decide,
    take_hangs_below_a_microsecond 1 1 1 (by decide) (by decide) (by decide)⟩

end TokenBucket

end S2nQuic
