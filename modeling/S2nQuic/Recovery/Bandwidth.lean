import S2nQuic.Time
import S2nQuic.Lib.Word

/-!
# Bandwidth

`Bandwidth` (`recovery/bandwidth/estimator.rs`) keeps a rate as its inverse, the nanoseconds a
kibibyte takes, in a `u64`: `ZERO` is `u64::MAX` and `INFINITY` is `0`, and the order is the
reverse of the stored value. `new` and `Mul<Duration>` take `Duration::as_nanos() as u64`, which
keeps the low 64 bits, and shift it left by `KIBIBYTE_SHIFT`, which drops the bits past the word:
from `2 ^ 54` nanoseconds on, the interval they work with wraps (`Word.shifted`).
`Div<Bandwidth> for u64` multiplies with saturation.

The other fields of a rate sample and `Mul<Ratio<u64>>` are left out.
-/

namespace S2nQuic.Recovery

structure Bandwidth where
  nanosPerKibibyte : UInt64
  deriving DecidableEq

namespace Bandwidth

def KIBIBYTE_SHIFT : UInt64 := 10

def ZERO : Bandwidth := ⟨UInt64.ofNat (2 ^ 64 - 1)⟩

def INFINITY : Bandwidth := ⟨0⟩

/-- `Bandwidth::new`: the nanoseconds of `bytes` over `interval`, scaled to a kibibyte. -/
def new (bytes : UInt64) (interval : Duration) : Bandwidth :=
  let interval := UInt64.ofNat interval <<< KIBIBYTE_SHIFT
  if interval = 0 ∨ bytes = 0 then ZERO else ⟨interval / bytes⟩

def asBytesPerSecond (self : Bandwidth) : UInt64 :=
  if self = INFINITY then UInt64.ofNat (2 ^ 64 - 1)
  else (UInt64.ofNat 1000000000 <<< KIBIBYTE_SHIFT) / self.nanosPerKibibyte

/-- `Ord`: the more nanoseconds a kibibyte takes, the lower the bandwidth. -/
def cmp (self other : Bandwidth) : Ordering :=
  (compare self.nanosPerKibibyte other.nanosPerKibibyte).swap

instance : LE Bandwidth := ⟨fun a b => a.cmp b ≠ .gt⟩

instance (a b : Bandwidth) : Decidable (a ≤ b) := inferInstanceAs (Decidable (a.cmp b ≠ .gt))

/-- `Mul<Duration>`: the bytes sent over `rhs`. -/
def mulDuration (self : Bandwidth) (rhs : Duration) : UInt64 :=
  if self = INFINITY then UInt64.ofNat (2 ^ 64 - 1)
  else if rhs = 0 then 0
  else
    let interval := UInt64.ofNat rhs <<< KIBIBYTE_SHIFT
    if interval = 0 then UInt64.ofNat (2 ^ 64 - 1) else interval / self.nanosPerKibibyte

/-- `Div<Bandwidth> for u64`: the time `bytes` take, `Duration::from_nanos` of a `u64`. -/
def divBandwidth (bytes : UInt64) (rhs : Bandwidth) : Duration :=
  (Word.saturatingMul rhs.nanosPerKibibyte bytes >>> KIBIBYTE_SHIFT).toNat

/-- The two fields of `RateSample` that `delivery_rate` reads. -/
structure RateSample where
  interval : Duration
  deliveredBytes : UInt64

def RateSample.deliveryRate (self : RateSample) : Bandwidth := new self.deliveredBytes self.interval

/-! ## The operations as arithmetic on `Nat`

The lemmas bind intervals as `Nat`, which `Duration` abbreviates, so that `omega` reads them. -/

section Nat

/-- The interval `new` and `Mul<Duration>` divide: the count's low 64 bits, shifted. -/
def shiftedInterval (interval : Duration) : Nat := Word.shifted 10 interval

theorem toNat_shiftedInterval (interval : Nat) :
    (UInt64.ofNat interval <<< KIBIBYTE_SHIFT).toNat = shiftedInterval interval :=
  Word.toNat_ofNat_shiftLeft interval (by decide)

theorem shiftedInterval_lt (interval : Nat) : shiftedInterval interval < 2 ^ 64 :=
  Word.shifted_lt 10 interval

theorem shiftedInterval_of_lt {interval : Nat} (h : interval < 2 ^ 54) :
    shiftedInterval interval = interval * 2 ^ 10 :=
  Word.shifted_of_lt (by norm_num) h

theorem shiftedInterval_le (interval : Nat) : shiftedInterval interval ≤ interval * 2 ^ 10 :=
  (Word.shifted_le 10 interval).trans (Nat.mul_le_mul_right _ (Nat.mod_le _ _))

theorem le_of_shiftedInterval_eq_zero {interval : Nat} (hpos : 0 < interval)
    (h : shiftedInterval interval = 0) : 2 ^ 54 ≤ interval := by
  by_contra hlt
  rw [shiftedInterval_of_lt (by omega)] at h
  omega

theorem shiftedInterval_add_pow (interval : Nat) :
    shiftedInterval (interval + 2 ^ 54) = shiftedInterval interval :=
  Word.shifted_add_pow interval (k := 10) (by norm_num)

theorem toNat_le_max (x : UInt64) : x.toNat ≤ 2 ^ 64 - 1 :=
  Nat.le_sub_one_of_lt x.toNat_lt_size

theorem eq_INFINITY_iff (self : Bandwidth) : self = INFINITY ↔ self.nanosPerKibibyte.toNat = 0 := by
  constructor
  · rintro rfl
    rfl
  · intro h
    cases self
    simp only [INFINITY, Bandwidth.mk.injEq]
    exact UInt64.toNat_inj.mp h

theorem ext_toNat {a b : Bandwidth} (h : a.nanosPerKibibyte.toNat = b.nanosPerKibibyte.toNat) :
    a = b := by
  cases a
  cases b
  rw [Bandwidth.mk.injEq]
  exact UInt64.toNat_inj.mp h

theorem toNat_new (bytes : UInt64) (interval : Nat) :
    (new bytes interval).nanosPerKibibyte.toNat =
      if shiftedInterval interval = 0 ∨ bytes.toNat = 0 then 2 ^ 64 - 1
      else shiftedInterval interval / bytes.toNat := by
  have hzero : UInt64.ofNat interval <<< KIBIBYTE_SHIFT = 0 ↔ shiftedInterval interval = 0 := by
    rw [← toNat_shiftedInterval, ← UInt64.toNat_inj, UInt64.toNat_zero]
  have hbytes : bytes = 0 ↔ bytes.toNat = 0 := by rw [← UInt64.toNat_inj, UInt64.toNat_zero]
  unfold new
  dsimp only
  by_cases hcond : shiftedInterval interval = 0 ∨ bytes.toNat = 0
  · rw [if_pos (hcond.imp hzero.mpr hbytes.mpr), if_pos hcond]
    rfl
  · rw [if_neg (fun h => hcond (h.imp hzero.mp hbytes.mp)), if_neg hcond, UInt64.toNat_div,
      toNat_shiftedInterval]

theorem toNat_mulDuration (self : Bandwidth) (rhs : Nat) :
    (self.mulDuration rhs).toNat =
      if self.nanosPerKibibyte.toNat = 0 then 2 ^ 64 - 1
      else if rhs = 0 then 0
      else if shiftedInterval rhs = 0 then 2 ^ 64 - 1
      else shiftedInterval rhs / self.nanosPerKibibyte.toNat := by
  have hzero : UInt64.ofNat rhs <<< KIBIBYTE_SHIFT = 0 ↔ shiftedInterval rhs = 0 := by
    rw [← toNat_shiftedInterval, ← UInt64.toNat_inj, UInt64.toNat_zero]
  unfold mulDuration
  dsimp only
  by_cases hinf : self.nanosPerKibibyte.toNat = 0
  · rw [if_pos ((eq_INFINITY_iff self).mpr hinf), if_pos hinf]
    rfl
  rw [if_neg (mt (eq_INFINITY_iff self).mp hinf), if_neg hinf]
  by_cases hrhs : rhs = 0
  · rw [if_pos hrhs, if_pos hrhs]
    rfl
  rw [if_neg hrhs, if_neg hrhs]
  by_cases hint : shiftedInterval rhs = 0
  · rw [if_pos (hzero.mpr hint), if_pos hint]
    rfl
  · rw [if_neg (mt hzero.mp hint), if_neg hint, UInt64.toNat_div, toNat_shiftedInterval]

theorem divBandwidth_eq (bytes : UInt64) (rhs : Bandwidth) :
    divBandwidth bytes rhs =
      min (rhs.nanosPerKibibyte.toNat * bytes.toNat) (2 ^ 64 - 1) / 2 ^ 10 := by
  rw [divBandwidth, UInt64.toNat_shiftRight, Word.toNat_saturatingMul, Nat.shiftRight_eq_div_pow]
  rfl

theorem le_iff (a b : Bandwidth) : a ≤ b ↔ b.nanosPerKibibyte.toNat ≤ a.nanosPerKibibyte.toNat := by
  show (compare a.nanosPerKibibyte b.nanosPerKibibyte).swap ≠ .gt ↔ _
  rw [Ne, Ordering.swap_eq_gt, Std.compare_eq_lt, UInt64.not_lt, UInt64.le_iff_toNat_le]

end Nat

/-! ## Monotonicity and rounding -/

section Monotone

theorem new_le_new_of_le_bytes {b₁ b₂ : UInt64} (h : b₁.toNat ≤ b₂.toNat) (interval : Nat) :
    new b₁ interval ≤ new b₂ interval := by
  rw [le_iff, toNat_new, toNat_new]
  by_cases hzero : shiftedInterval interval = 0 ∨ b₁.toNat = 0
  · rw [if_pos hzero]
    split_ifs
    · exact le_rfl
    · exact (Nat.div_le_self _ _).trans (Nat.le_sub_one_of_lt (shiftedInterval_lt interval))
  · rw [if_neg hzero, if_neg (by omega)]
    exact Nat.div_le_div_left h (by omega)

theorem new_le_new_of_le_interval {d₁ d₂ : Nat} (hpos : 0 < d₁) (h : d₁ ≤ d₂)
    (hfit : d₂ < 2 ^ 54) (bytes : UInt64) : new bytes d₂ ≤ new bytes d₁ := by
  rw [le_iff, toNat_new, toNat_new, shiftedInterval_of_lt (h.trans_lt hfit),
    shiftedInterval_of_lt hfit]
  by_cases hb : bytes.toNat = 0
  · simp [hb]
  · rw [if_neg (by omega), if_neg (by omega)]
    exact Nat.div_le_div_right (Nat.mul_le_mul_right _ h)

theorem le_mulDuration_new {bytes : UInt64} {interval : Nat} (hbytes : 0 < bytes.toNat)
    (hpos : 0 < interval) : bytes.toNat ≤ ((new bytes interval).mulDuration interval).toNat := by
  rw [toNat_mulDuration]
  by_cases hint : shiftedInterval interval = 0
  · -- the interval wrapped to zero: `new` gives `ZERO`, and the product saturates
    have hnpk : (new bytes interval).nanosPerKibibyte.toNat = 2 ^ 64 - 1 := by
      rw [toNat_new, if_pos (.inl hint)]
    rw [hnpk, if_neg (by norm_num), if_neg (by omega), if_pos hint]
    exact toNat_le_max bytes
  have hnpk : (new bytes interval).nanosPerKibibyte.toNat = shiftedInterval interval / bytes.toNat := by
    rw [toNat_new, if_neg (by omega)]
  rw [hnpk]
  by_cases hdiv : shiftedInterval interval / bytes.toNat = 0
  · rw [if_pos hdiv]
    exact toNat_le_max bytes
  -- `I / (I / b) ≥ b` for the floor quotient `I / b`
  rw [if_neg hdiv, if_neg (by omega), if_neg hint, Nat.le_div_iff_mul_le (Nat.pos_of_ne_zero hdiv),
    Nat.mul_comm]
  exact Nat.div_mul_le_self _ _

theorem divBandwidth_new_le {bytes : UInt64} {interval : Nat} (hbytes : 0 < bytes.toNat)
    (hpos : 0 < interval) : divBandwidth bytes (new bytes interval) ≤ interval := by
  rw [divBandwidth_eq, toNat_new]
  by_cases hint : shiftedInterval interval = 0
  · -- the interval wrapped to zero: `ZERO` takes at most `2 ^ 54 - 1` nanoseconds
    have h54 := le_of_shiftedInterval_eq_zero hpos hint
    rw [if_pos (.inl hint)]
    calc min ((2 ^ 64 - 1) * bytes.toNat) (2 ^ 64 - 1) / 2 ^ 10 ≤ (2 ^ 64 - 1) / 2 ^ 10 :=
          Nat.div_le_div_right (min_le_right _ _)
      _ ≤ interval := by omega
  rw [if_neg (by omega)]
  have hprod : shiftedInterval interval / bytes.toNat * bytes.toNat ≤ shiftedInterval interval :=
    Nat.div_mul_le_self _ _
  rw [min_eq_left (hprod.trans (Nat.le_sub_one_of_lt (shiftedInterval_lt interval)))]
  exact Nat.div_le_of_le_mul ((hprod.trans (shiftedInterval_le interval)).trans (Nat.mul_comm _ _).le)

theorem mulDuration_mono_bandwidth {bw₁ bw₂ : Bandwidth} (h : bw₁ ≤ bw₂) (rhs : Nat) :
    (bw₁.mulDuration rhs).toNat ≤ (bw₂.mulDuration rhs).toNat := by
  rw [le_iff] at h
  have hdiv : ∀ n, shiftedInterval rhs / n ≤ 2 ^ 64 - 1 := fun n =>
    (Nat.div_le_self _ _).trans (Nat.le_sub_one_of_lt (shiftedInterval_lt rhs))
  rw [toNat_mulDuration, toNat_mulDuration]
  by_cases h₂ : bw₂.nanosPerKibibyte.toNat = 0
  · -- `INFINITY` sends `u64::MAX`
    rw [if_pos h₂]
    split_ifs
    all_goals first | exact le_rfl | exact Nat.zero_le _ | exact hdiv _
  rw [if_neg h₂, if_neg (by omega)]
  split_ifs
  · exact le_rfl
  · exact le_rfl
  · exact Nat.div_le_div_left h (by omega)

theorem mulDuration_mono_interval (self : Bandwidth) {d₁ d₂ : Nat} (h : d₁ ≤ d₂)
    (hfit : d₂ < 2 ^ 54) : (self.mulDuration d₁).toNat ≤ (self.mulDuration d₂).toNat := by
  rw [toNat_mulDuration, toNat_mulDuration, shiftedInterval_of_lt (h.trans_lt hfit),
    shiftedInterval_of_lt hfit]
  by_cases hinf : self.nanosPerKibibyte.toNat = 0
  · simp only [hinf, if_true, le_refl]
  rw [if_neg hinf, if_neg hinf]
  by_cases hd₁ : d₁ = 0
  · rw [if_pos hd₁]
    exact Nat.zero_le _
  rw [if_neg hd₁, if_neg (by omega), if_neg (by omega), if_neg (by omega)]
  exact Nat.div_le_div_right (Nat.mul_le_mul_right _ h)

theorem divBandwidth_mono_bytes {b₁ b₂ : UInt64} (h : b₁.toNat ≤ b₂.toNat) (rhs : Bandwidth) :
    divBandwidth b₁ rhs ≤ divBandwidth b₂ rhs := by
  rw [divBandwidth_eq, divBandwidth_eq]
  exact Nat.div_le_div_right (min_le_min_right _ (Nat.mul_le_mul_left _ h))

theorem divBandwidth_anti_bandwidth {bw₁ bw₂ : Bandwidth} (h : bw₁ ≤ bw₂) (bytes : UInt64) :
    divBandwidth bytes bw₂ ≤ divBandwidth bytes bw₁ := by
  rw [le_iff] at h
  rw [divBandwidth_eq, divBandwidth_eq]
  exact Nat.div_le_div_right (min_le_min_right _ (Nat.mul_le_mul_right _ h))

end Monotone

/-- A rate sample's delivery rate is conservative over its own interval: it never claims fewer
bytes than were delivered, nor makes them take longer. `Mul<Duration>` grows with the bandwidth
and `Div<Bandwidth>` shrinks with it, both grow with the bytes, and while the shifted interval
fits the word a longer interval is a lower bandwidth and sends more. -/
theorem bandwidth_rounding_and_order :
    (∀ sample : RateSample, 0 < sample.deliveredBytes.toNat → 0 < sample.interval →
      sample.deliveredBytes.toNat ≤ (sample.deliveryRate.mulDuration sample.interval).toNat ∧
        divBandwidth sample.deliveredBytes sample.deliveryRate ≤ sample.interval) ∧
    (∀ bw₁ bw₂ : Bandwidth, bw₁ ≤ bw₂ → ∀ (rhs : Duration) (bytes : UInt64),
      (bw₁.mulDuration rhs).toNat ≤ (bw₂.mulDuration rhs).toNat ∧
        divBandwidth bytes bw₂ ≤ divBandwidth bytes bw₁) ∧
    (∀ b₁ b₂ : UInt64, b₁.toNat ≤ b₂.toNat → ∀ (interval : Duration) (rhs : Bandwidth),
      new b₁ interval ≤ new b₂ interval ∧ divBandwidth b₁ rhs ≤ divBandwidth b₂ rhs) ∧
    ∀ d₁ d₂ : Duration, 0 < d₁ → d₁ ≤ d₂ → d₂ < 2 ^ 54 → ∀ (bytes : UInt64) (self : Bandwidth),
      new bytes d₂ ≤ new bytes d₁ ∧ (self.mulDuration d₁).toNat ≤ (self.mulDuration d₂).toNat :=
  ⟨fun _ hb hi => ⟨le_mulDuration_new hb hi, divBandwidth_new_le hb hi⟩,
    fun _ _ h rhs bytes => ⟨mulDuration_mono_bandwidth h rhs, divBandwidth_anti_bandwidth h bytes⟩,
    fun _ _ h interval rhs => ⟨new_le_new_of_le_bytes h interval, divBandwidth_mono_bytes h rhs⟩,
    fun _ _ hpos h hfit bytes self =>
      ⟨new_le_new_of_le_interval hpos h hfit bytes, mulDuration_mono_interval self h hfit⟩⟩

/-- Past `2 ^ 54` nanoseconds the shifted interval wraps: an interval `2 ^ 54` nanoseconds
longer gives the same bandwidth and the same byte count. -/
theorem mul_duration_wraps_past_shift (self : Bandwidth) (bytes : UInt64) {interval : Nat}
    (hpos : 0 < interval) :
    self.mulDuration (interval + 2 ^ 54) = self.mulDuration interval ∧
      new bytes (interval + 2 ^ 54) = new bytes interval := by
  constructor
  · rw [← UInt64.toNat_inj, toNat_mulDuration, toNat_mulDuration, shiftedInterval_add_pow,
      if_neg (show interval + 2 ^ 54 ≠ 0 by omega), if_neg (show interval ≠ 0 by omega)]
  · apply ext_toNat
    rw [toNat_new, toNat_new, shiftedInterval_add_pow]

theorem mul_duration_wraps_past_shift_one :
    (⟨1⟩ : Bandwidth).mulDuration (1 + 2 ^ 54) = (⟨1⟩ : Bandwidth).mulDuration 1 ∧
      new 1 (1 + 2 ^ 54) = new 1 1 ∧
      (⟨1⟩ : Bandwidth).mulDuration 1 = 1024 ∧
      (⟨1⟩ : Bandwidth).mulDuration (2 ^ 54 - 1) = 18446744073709550592 :=
  ⟨(mul_duration_wraps_past_shift ⟨1⟩ 1 (by decide)).1,
    (mul_duration_wraps_past_shift ⟨1⟩ 1 (by decide)).2, by decide, by decide⟩

end Bandwidth

end S2nQuic.Recovery
