import Mathlib

/-!
# Timestamps and polled timers

A `Timestamp` is a count of microseconds. A timestamp has elapsed once it lies less than the
timer granularity `K_GRANULARITY` (one millisecond) in the future. A `Timer` is an optional
expiration that its owner polls: polling an expired timer cancels it and reports it ready
once.
-/

namespace S2nQuic

abbrev Timestamp := Nat

/-- `K_GRANULARITY` in microseconds. -/
def kGranularity : Nat := 1000

/-- `Timestamp::has_elapsed`. -/
def Timestamp.hasElapsed (self now : Timestamp) : Bool :=
  decide (self < now + kGranularity)

/-- `core::time::Duration`, counted in nanoseconds. -/
abbrev Duration := Nat

namespace Timestamp

/-- `as_duration_impl`: the microseconds since the epoch, as a `Duration`. -/
def asDurationImpl (self : Timestamp) : Duration := self * 1000

/-- `from_duration_impl`: the whole microseconds of `duration`; zero is rounded up to one
microsecond after the epoch. -/
def fromDurationImpl (duration : Duration) : Timestamp := max (duration / 1000) 1

/-- `impl Add<Duration> for Timestamp`. -/
def addDuration (self : Timestamp) (rhs : Duration) : Timestamp :=
  fromDurationImpl (asDurationImpl self + rhs)

/-- `checked_sub`: `none` when the duration reaches back past the epoch. -/
def checkedSub (self : Timestamp) (duration : Duration) : Option Timestamp :=
  if duration ≤ asDurationImpl self then some (fromDurationImpl (asDurationImpl self - duration))
  else none

/-- `impl Sub for Timestamp`: the `Duration` since `rhs`; `Duration` subtraction panics when
`rhs` is the later. -/
def sub (self rhs : Timestamp) : Option Duration :=
  if asDurationImpl rhs ≤ asDurationImpl self then some (asDurationImpl self - asDurationImpl rhs)
  else none

theorem sub_of_le {self rhs : Timestamp} (h : rhs ≤ self) :
    self.sub rhs = some (asDurationImpl self - asDurationImpl rhs) :=
  if_pos (Nat.mul_le_mul_right 1000 h)

-- `omega` reads `Nat` only: the proofs below unfold the two names for it.
theorem le_addDuration (self : Timestamp) (rhs : Duration) : self ≤ addDuration self rhs := by
  unfold addDuration fromDurationImpl asDurationImpl
  simp only [Timestamp, Duration] at *
  have : self ≤ (self * 1000 + rhs) / 1000 := (Nat.le_div_iff_mul_le (by norm_num)).mpr (by omega)
  omega

theorem lt_addDuration (self : Timestamp) {rhs : Duration} (h : 1000 ≤ rhs) :
    self < addDuration self rhs := by
  unfold addDuration fromDurationImpl asDurationImpl
  simp only [Timestamp, Duration] at *
  have : self + 1 ≤ (self * 1000 + rhs) / 1000 :=
    (Nat.le_div_iff_mul_le (by norm_num)).mpr (by omega)
  omega

theorem addDuration_le_addDuration {self other : Timestamp} (h : self ≤ other) (rhs : Duration) :
    addDuration self rhs ≤ addDuration other rhs := by
  unfold addDuration fromDurationImpl asDurationImpl
  exact max_le_max (Nat.div_le_div_right (Nat.add_le_add_right (Nat.mul_le_mul_right 1000 h) rhs))
    le_rfl

theorem hasElapsed_of_le {self other now : Timestamp} (h : self ≤ other)
    (hother : other.hasElapsed now = true) : self.hasElapsed now = true := by
  unfold Timestamp.hasElapsed at *
  exact decide_eq_true (Nat.lt_of_le_of_lt h (of_decide_eq_true hother))

theorem addDuration_of_lt {self : Timestamp} {rhs : Duration} (hself : 0 < self) (h : rhs < 1000) :
    addDuration self rhs = self := by
  unfold addDuration fromDurationImpl asDurationImpl
  have hdiv : (self * 1000 + rhs) / 1000 = self := by
    rw [Nat.add_comm, Nat.add_mul_div_right _ _ (by norm_num), Nat.div_eq_of_lt h, Nat.zero_add]
  rw [hdiv]
  exact max_eq_left hself

end Timestamp

structure Timer where
  expiration : Option Timestamp := none
  deriving DecidableEq, Repr

namespace Timer

def set (_timer : Timer) (time : Timestamp) : Timer := ⟨some time⟩

def cancel (_timer : Timer) : Timer := ⟨none⟩

def isExpired (timer : Timer) (currentTime : Timestamp) : Bool :=
  match timer.expiration with
  | some timeout => timeout.hasElapsed currentTime
  | none => false

def isArmed (timer : Timer) : Bool := timer.expiration.isSome

/-- `poll_expiration`: whether the timer was ready, and the timer afterwards. -/
def pollExpiration (timer : Timer) (currentTime : Timestamp) : Bool × Timer :=
  if timer.isExpired currentTime then (true, timer.cancel) else (false, timer)

@[simp] theorem isArmed_set (timer : Timer) (time : Timestamp) : (timer.set time).isArmed = true :=
  rfl

@[simp] theorem isArmed_cancel (timer : Timer) : timer.cancel.isArmed = false := rfl

theorem pollExpiration_cases (timer : Timer) (t : Timestamp) :
    (timer.isExpired t = true ∧ timer.pollExpiration t = (true, timer.cancel)) ∨
      (timer.isExpired t = false ∧ timer.pollExpiration t = (false, timer)) := by
  unfold pollExpiration
  cases h : timer.isExpired t
  · exact .inr ⟨rfl, rfl⟩
  · exact .inl ⟨rfl, rfl⟩

end Timer

end S2nQuic
