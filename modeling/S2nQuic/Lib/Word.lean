import Mathlib

/-!
# 64-bit words as natural numbers

A saturating product, and a count truncated to 64 bits and then shifted left, each read as
arithmetic on `Nat`. A left shift drops the bits past the word: adding `2 ^ (64 - k)` to the
count leaves the shifted word as it was.
-/

namespace Word

/-- `u64::saturating_mul`. -/
def saturatingMul (a b : UInt64) : UInt64 :=
  if a.toNat * b.toNat < 2 ^ 64 then a * b else UInt64.ofNat (2 ^ 64 - 1)

theorem toNat_saturatingMul (a b : UInt64) :
    (saturatingMul a b).toNat = min (a.toNat * b.toNat) (2 ^ 64 - 1) := by
  unfold saturatingMul
  split_ifs with h
  · rw [UInt64.toNat_mul, Nat.mod_eq_of_lt h]
    omega
  · rw [UInt64.toNat_ofNat']
    omega

def shifted (k n : Nat) : Nat := n % 2 ^ 64 * 2 ^ k % 2 ^ 64

theorem toNat_ofNat_shiftLeft (n : Nat) {k : UInt64} (hk : k.toNat < 64) :
    (UInt64.ofNat n <<< k).toNat = shifted k.toNat n := by
  rw [UInt64.toNat_shiftLeft, Nat.mod_eq_of_lt hk, Nat.shiftLeft_eq, UInt64.toNat_ofNat', shifted]

theorem shifted_lt (k n : Nat) : shifted k n < 2 ^ 64 := Nat.mod_lt _ (by norm_num)

theorem shifted_le (k n : Nat) : shifted k n ≤ n % 2 ^ 64 * 2 ^ k := Nat.mod_le _ _

theorem shifted_of_lt {k n : Nat} (hk : k ≤ 64) (h : n < 2 ^ (64 - k)) : shifted k n = n * 2 ^ k := by
  have hpow : 2 ^ (64 - k) * 2 ^ k = 2 ^ 64 := by rw [← pow_add, Nat.sub_add_cancel hk]
  have hn : n < 2 ^ 64 := h.trans_le (hpow ▸ Nat.le_mul_of_pos_right _ (by positivity))
  have hlt : n * 2 ^ k < 2 ^ 64 := hpow ▸ Nat.mul_lt_mul_of_pos_right h (by positivity)
  rw [shifted, Nat.mod_eq_of_lt hn, Nat.mod_eq_of_lt hlt]

theorem shifted_add_pow (n : Nat) {k : Nat} (hk : k ≤ 64) :
    shifted k (n + 2 ^ (64 - k)) = shifted k n := by
  have hpow : 2 ^ (64 - k) * 2 ^ k = 2 ^ 64 := by rw [← pow_add, Nat.sub_add_cancel hk]
  rw [shifted, shifted, Nat.mod_mul_mod, Nat.mod_mul_mod, Nat.add_mul, hpow, Nat.add_mod_right]

end Word
